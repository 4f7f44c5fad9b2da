import FleetWatch.Proofs.Fleet.Deafness
import FleetWatch.Proofs.Service.Reconnect
/-!
Containers that stop while no event stream is open.

Once the loop has a stream again it looks at every container, so what a stop did to the container is
seen.  What an event of the stop would have done besides, which is to invalidate the clients of the
container's service, nobody does.  Main statement: after the refresh the handle shows what its look
found, every client that served still does, and no probe was told that its container stopped.
-/

namespace FleetWatch

namespace Fleet

variable {f g h : Fleet} {s : Service} {before after : List Service}

/-! ### Looking at every container -/

theorem handle_refresh_of_ne (f : Fleet) {place other : Nat} (hne : place ≠ other) :
    (f.refresh place).2.handle other = f.handle other := by
  simp only [refresh, putSite, handle, List.getElem?_set_ne hne]

/-- A handle is left alone while other services' containers are looked at. -/
theorem handle_lookAtAll {services : List Service} {place : Nat}
    (hothers : ∀ s ∈ services, s.handle ≠ place) :
    (f.lookAtAll services).handle place = f.handle place := by
  induction services generalizing f with
  | nil => rfl
  | cons s services ih =>
    have hrest := ih (f := (f.refresh s.handle).2) fun s hs => hothers s (List.mem_cons_of_mem _ hs)
    exact hrest.trans (handle_refresh_of_ne f (hothers s List.mem_cons_self))

theorem length_handles_lookAtAll (f : Fleet) (services : List Service) :
    (f.lookAtAll services).handles.length = f.handles.length := by
  induction services generalizing f with
  | nil => rfl
  | cons s services ih => exact (ih (f.refresh s.handle).2).trans List.length_set

theorem of_foldl_lookOn {acc : Bool × Fleet} {services : List Service}
    (hall : (services.foldl lookOn acc).1 = true) : acc.1 = true := by
  induction services generalizing acc with
  | nil => exact hall
  | cons s services ih => exact (Bool.and_eq_true_iff.mp (ih hall)).1

/-- If all looks were answered, each was. -/
theorem answered_of_refreshAll (hall : f.refreshAll.1 = true)
    (hs : f.services = before ++ s :: after) :
    ((f.lookAtAll before).refresh s.handle).1.isSome = true := by
  rw [refreshAll_eq, hs, List.foldl_append, List.foldl_cons] at hall
  have hlook := (Bool.and_eq_true_iff.mp (of_foldl_lookOn hall)).2
  rwa [foldl_lookOn_snd] at hlook

/-- Once all containers were looked at, a handle shows what its own look found. -/
theorem exists_look (hown : f.OwnHandles) (hall : f.refreshAll.1 = true)
    (hs : f.services = before ++ s :: after) :
    ∃ answer, ((f.lookAtAll before).engine.inspect (f.handle s.handle).name).1 = .answer answer ∧
      f.refreshAll.2.handle s.handle = ((f.handle s.handle).observe answer).2 := by
  have hdistinct := hown.distinct
  rw [hs, List.map_append, List.map_cons, List.nodup_middle, List.nodup_cons, ← List.map_append]
    at hdistinct
  have hothers : ∀ s' ∈ before ++ after, s'.handle ≠ s.handle := fun s' hs' hsame =>
    hdistinct.1 (List.mem_map.mpr ⟨s', hs', hsame⟩)
  have hbefore : (f.lookAtAll before).handle s.handle = f.handle s.handle :=
    handle_lookAtAll fun s' hs' => hothers s' (List.mem_append_left _ hs')
  have hplace : s.handle < (f.lookAtAll before).handles.length := by
    rw [length_handles_lookAtAll]
    apply hown.there
    rw [hs]
    exact List.mem_append_right _ List.mem_cons_self
  obtain ⟨answer, hanswer⟩ := isSome_refresh_iff.mp (answered_of_refreshAll hall hs)
  have hlook := handle_refresh hplace hanswer
  rw [hbefore] at hanswer hlook
  refine ⟨answer, hanswer, ?_⟩
  have hafter : f.refreshAll.2 = ((f.lookAtAll before).refresh s.handle).2.lookAtAll after := by
    rw [refreshAll_eq, foldl_lookOn_snd, hs, lookAtAll, List.foldl_append, List.foldl_cons]
    rfl
  rw [hafter, handle_lookAtAll fun s' hs' => hothers s' (List.mem_append_right _ hs'), hlook]

/-! ### The refresh after a subscription -/

def isRefreshing (f : Fleet) : Bool :=
  match f.eventLoop.map EventLoop.phase with
  | some (.refreshing _) => true
  | _ => false

def isListening (f : Fleet) : Bool :=
  match f.eventLoop.map EventLoop.phase with
  | some (.listening _) => true
  | _ => false

/-- The loop, which has subscribed, looks at every container and begins to listen. -/
structure Refreshes (f g : Fleet) : Prop where
  was : f.isRefreshing = true
  step : f.stepLoop? = some g
  listens : g.isListening = true

theorem Refreshes.all_answered (hrefresh : f.Refreshes g) :
    f.refreshAll.1 = true ∧ ∃ eventLoop, g = { f.refreshAll.2 with eventLoop } := by
  obtain ⟨l, e, after, hl, hnext, hg⟩ := stepLoop?_eq_some hrefresh.step
  have hwas := hrefresh.was
  have hlistens := hrefresh.listens
  simp only [isRefreshing, hl, Option.map_some] at hwas
  cases loopTurn_of_nextLoopEvent? hnext with
  | lookAtAll _ _ _ looked =>
    rw [looked]
    exact ⟨rfl, _, hg⟩
  | stallLooking _ _ was =>
    subst hg
    simp [isListening, EventLoop.on, was] at hlistens
  | stop was => rcases was with was | ⟨feed, was⟩ | ⟨due, was⟩ <;> simp [was] at hwas
  | subscribe was | receive _ _ _ was | lose _ was | dispatch _ _ _ was
  | stallDispatching _ _ _ was | rest _ was => simp [was] at hwas

/-! ### A service that knows of the stop -/

/-- An inspection of a container answers that it does not run. -/
def ShowsStopped (f : Fleet) (container : String) : Prop :=
  ∃ r, (f.engine.inspect container).1 = .answer r ∧ Look.isRunning r = false ∧
    Look.hasFailed r = false

/-- A service is as it is once it has heard that its container stopped: its handle does not show the
container running, and no client that served before is published any more. -/
structure IsReconciled (f g : Fleet) (s : Service) : Prop where
  shown : (g.handle s.handle).showsRunning = false
  told : ∀ c ∈ s.probe.clients, ∀ n, (f.client c).dialLoop.Serves n →
    (g.client c).dialLoop.client ≠ some n

theorem handle_containerStopped (f : Fleet) (place handle : Nat) (s : Service) :
    (f.containerStopped place s).handle handle = f.handle handle := by
  unfold containerStopped
  split
  · rfl
  · exact handle_invalidateAll _ f handle

theorem exists_client_of_serves {c n : Nat} (hserves : (f.client c).dialLoop.Serves n) :
    c < f.clients.length := by
  by_contra hlength
  have hnone : f.clients[c]? = none := List.getElem?_eq_none (Nat.le_of_not_lt hlength)
  have hclient := hserves.client
  rw [client, hnone] at hclient
  cases hclient

theorem client_containerStopped {place c n : Nat} (hc : c ∈ s.probe.clients)
    (hserves : (f.client c).dialLoop.Serves n) :
    ((f.containerStopped place s).client c).dialLoop.client ≠ some n := by
  rw [containerStopped_eq place hc, client_invalidateAll _ (exists_client_of_serves hserves),
    if_pos hc]
  intro hserving
  cases hserves.invalidate.symm.trans hserving

/-- A service that is handed the event of its container's stop knows of it, if the look that follows
a death finds what happened. -/
theorem isReconciled_onEvent {place : Nat} {kind : EventKind} (hhandle : s.handle < f.handles.length)
    (hkind : kind = .die ∧ f.ShowsStopped (f.handle s.handle).name ∨ kind = .destroy) :
    f.IsReconciled (f.onEvent place s kind).2 s := by
  rcases hkind with ⟨rfl, r, hr, hrunning, hfailed⟩ | rfl
  · have hanswered := isSome_refresh_iff.mpr ⟨r, hr⟩
    have hlook := handle_refresh hhandle hr
    have hclients : (f.refresh s.handle).2.clients = f.clients := rfl
    unfold onEvent
    cases hrefresh : f.refresh s.handle with
    | mk result next =>
      rw [hrefresh] at hanswered hlook hclients
      cases result with
      | none => cases hanswered
      | some result =>
        refine ⟨?_, fun c hc n hserves => ?_⟩
        · rw [handle_containerStopped, hlook]
          exact Handle.showsRunning_observe hrunning (Or.inr hfailed)
        · have hserves' : (next.client c).dialLoop.Serves n := by
            rw [client, hclients]
            exact hserves
          exact client_containerStopped hc hserves'
  · refine ⟨?_, fun c hc n hserves => ?_⟩
    · rw [onEvent, handle_containerStopped, handle, handle_set hhandle]
      exact Handle.showsRunning_clear _
    · exact client_containerStopped hc hserves

/-! ### A stop that nobody hears of -/

/-- The loop has no stream of events. -/
def lacksStream (f : Fleet) : Bool :=
  match f.eventLoop.map EventLoop.phase with
  | some .subscribing | some (.backingOff _) => true
  | _ => false

/-- A service's container, which ran, stops while the loop has no stream.  The loop hears nothing
until it has subscribed again, and then looks at every container and finds this one stopped. -/
structure MissedStop (f stopped h g : Fleet) (before : List Service) (s : Service)
    (after : List Service) : Prop where
  own : f.OwnHandles
  noStream : f.lacksStream = true
  ran : ∃ seen, (f.engine.inspect (f.handle s.handle).name).1 = .answer (.ok seen) ∧
    seen.state = .running
  stops : stopped = { f with engine := stopped.engine }
  gone : stopped.ShowsStopped (f.handle s.handle).name
  run : Relation.ReflTransGen DeafMove stopped h
  here : h.services = before ++ s :: after
  still : (h.lookAtAll before).ShowsStopped (h.handle s.handle).name
  refreshes : h.Refreshes g

theorem Untold.ownHandles (huntold : f.Untold g) (hown : f.OwnHandles) : g.OwnHandles := by
  have hhandles : g.services.map Service.handle = f.services.map Service.handle := by
    have hsame := congrArg (List.map Service.handle) huntold.services
    rw [List.map_map, List.map_map] at hsame
    exact hsame
  refine ⟨hhandles ▸ hown.distinct, fun s hs => ?_⟩
  have hs' : s.handle ∈ f.services.map Service.handle := hhandles ▸ List.mem_map_of_mem hs
  obtain ⟨s', hs', hsame⟩ := List.mem_map.mp hs'
  rw [huntold.handles, ← hsame]
  exact hown.there s' hs'

/-- What a refresh makes up for of what was missed, and what it does not. -/
structure OnlyLooked (f h g : Fleet) : Prop where
  /-- Every handle shows what its own look found; one whose look failed shows what it did before. -/
  looked : ∀ before s after, h.services = before ++ s :: after →
    ∃ r, ((h.lookAtAll before).engine.inspect (h.handle s.handle).name).1 = .answer r ∧
      g.handle s.handle = ((h.handle s.handle).observe r).2
  /-- No probe was told of anything, and every client that served goes on to. -/
  untold : f.Untold g
  /-- So a service with such a client is not as it is once it has heard of a stop. -/
  missed : ∀ s : Service, ∀ c ∈ s.probe.clients, ∀ n, (f.client c).dialLoop.Serves n →
    ¬ f.IsReconciled g s
  /-- It would be, had it been handed the event. -/
  heard : ∀ s ∈ h.services, ∀ place kind,
    kind = .die ∧ h.ShowsStopped (h.handle s.handle).name ∨ kind = .destroy →
      h.IsReconciled (h.onEvent place s kind).2 s

/-- When the loop has subscribed again and looked at every container, whatever happened to the
containers meanwhile, only the snapshots are as if it had been heard of. -/
theorem refreshed_onlyLooked (hown : f.OwnHandles) (hrun : Relation.ReflTransGen DeafMove f h)
    (hrefresh : h.Refreshes g) : OnlyLooked f h g := by
  have hbefore := untold_of_deafMoves hrun
  have hownBefore := hbefore.ownHandles hown
  obtain ⟨hall, eventLoop, hg⟩ := hrefresh.all_answered
  have huntold : f.Untold g := by
    rw [hg]
    exact (hbefore.trans (refreshAll_untold h)).trans (.of_clients_eq rfl rfl rfl)
  refine ⟨?_, huntold, ?_, ?_⟩
  · intro before s after hs
    obtain ⟨r, hr, hlook⟩ := exists_look hownBefore hall hs
    refine ⟨r, hr, ?_⟩
    rw [hg]
    exact hlook
  · intro s c hc n hserves hreconciled
    exact hreconciled.told c hc n hserves (huntold.serving c n hserves).client
  · intro s hs place kind hkind
    exact isReconciled_onEvent (hownBefore.there s hs) hkind

/-! ### A container that is destroyed between two streams -/

def outageService : Service :=
  { descriptor :=
      { name := "xud", container := "testnet_xud_1", kind := .xud, rpc := { host := "xud" } }
    handle := 0, probe := .xud 0 }

/-- The service's container runs and its client serves, but the loop has lost its stream. -/
def outage : Fleet :=
  { engine := .memory
      { wall := default, nextId := 2
        entries :=
          [{ uid := 1, name := "testnet_xud_1", state := .running, env := [], startedAt := none }] }
    handles :=
      [{ name := "testnet_xud_1", version := 1
         snapshot := some
           { id := "000000000001", name := "testnet_xud_1", state := .running, env := []
             startedAt := none } }]
    clients :=
      [{ handle := 0
         it :=
           { dialer := .xucli "testnet_xud_1" "xucli" none
             dialLoop :=
               { phase := .connected, state := .connected, client := some 1, loads := 1
                 dials := 1 } } }]
    services := [outageService]
    eventLoop := some { phase := .backingOff 1000 } }

/-- The container is removed. -/
def outageStopped : Fleet :=
  { outage with engine := outage.engine.onMemory fun e => e.remove "testnet_xud_1" }

/-- Somebody has asked for the service's status, and time has passed. -/
def outageWaited : Fleet :=
  { (outageStopped.status 0 outageService).2 with now := 1000 }

/-- The loop subscribes again. -/
def outageRested : Fleet :=
  { outageWaited with eventLoop := some { phase := .subscribing, delay := 2000 } }

/-- The loop looks at every container. -/
def outageSubscribed : Fleet :=
  { outageRested with
    engine := outageRested.engine.subscribe.2
    eventLoop := some { phase := .refreshing { items := [], rest := .live 0 0 }, delay := 2000 } }

/-- The loop listens to its new stream. -/
def outageOver : Fleet :=
  { outageSubscribed.refreshAll.2 with
    eventLoop := some { phase := .listening { items := [], rest := .live 0 0 }, delay := 2000 } }

theorem outage_ownHandles : outage.OwnHandles where
  distinct := List.nodup_singleton 0
  there s hs := by
    cases List.mem_singleton.mp hs
    exact Nat.one_pos

theorem outage_serves : (outage.client 0).dialLoop.Serves 1 :=
  ⟨rfl, .inr rfl, rfl, rfl⟩

theorem outage_deafMoves : Relation.ReflTransGen DeafMove outageStopped outageSubscribed := by
  have hrest : outageWaited.step? = some outageRested := rfl
  have hsubscribe : outageRested.step? = some outageSubscribed := rfl
  have hasked : DeafMove outageStopped (outageStopped.status 0 outageService).2 :=
    ⟨rfl, move_of_status rfl, rfl⟩
  have hwaited : DeafMove (outageStopped.status 0 outageService).2 outageWaited :=
    ⟨rfl, .others rfl rfl rfl rfl, rfl⟩
  have hrested : DeafMove outageWaited outageRested := ⟨rfl, move_of_step? hrest, rfl⟩
  have hsubscribed : DeafMove outageRested outageSubscribed := ⟨rfl, move_of_step? hsubscribe, rfl⟩
  exact (((Relation.ReflTransGen.single hasked).tail hwaited).tail hrested).tail hsubscribed

theorem outage_refreshes : outageSubscribed.Refreshes outageOver :=
  ⟨rfl, rfl, rfl⟩

theorem outage_onlyLooked :
    outage.OwnHandles ∧ Relation.ReflTransGen DeafMove outage outageSubscribed ∧
      outageSubscribed.Refreshes outageOver ∧ OnlyLooked outage outageSubscribed outageOver := by
  have hstop : DeafMove outage outageStopped := ⟨rfl, .others rfl rfl rfl rfl, rfl⟩
  have hrun := outage_deafMoves.head hstop
  exact ⟨outage_ownHandles, hrun, outage_refreshes,
    refreshed_onlyLooked outage_ownHandles hrun outage_refreshes⟩

theorem outage_missedStop :
    MissedStop outage outageStopped outageSubscribed outageOver [] outageService [] where
  own := outage_ownHandles
  noStream := rfl
  ran := ⟨_, rfl, rfl⟩
  stops := rfl
  gone := ⟨_, rfl, rfl, rfl⟩
  run := outage_deafMoves
  here := rfl
  still := ⟨_, rfl, rfl, rfl⟩
  refreshes := outage_refreshes

/-- A service whose container stopped while the loop had no stream need not be, after the refresh, as
it is once it has heard of the stop: here its client serves on. -/
theorem not_isReconciled_of_missedStop :
    ¬ ∀ f stopped h g before s after, MissedStop f stopped h g before s after →
      f.IsReconciled g s := by
  intro hall
  have hreconciled := hall _ _ _ _ _ _ _ outage_missedStop
  exact hreconciled.told 0 List.mem_cons_self 1 outage_serves rfl

end Fleet

end FleetWatch
