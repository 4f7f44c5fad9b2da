import FleetWatch.Proofs.Fleet.Built
import FleetWatch.Proofs.Fleet.StatusDerivation
import FleetWatch.Proofs.Registry.LoopTurn
import Mathlib.Logic.Relation
/-!
A fleet whose event loop hears nothing.

From when its stream of events is lost until it listens to a new one the loop hears of no container.
`Move` says what can happen in a fleet meanwhile: the loop and the clients go on, and others do
anything but touch them.  No such move tells a probe that a container stopped, so a client that serves
goes on to serve.
-/

namespace FleetWatch

/-! ### Clients that serve -/

/-- The client with a number is published.  Nobody has invalidated it or cancelled its loop. -/
structure DialLoop.Serves (l : DialLoop) (n : Nat) : Prop where
  client : l.client = some n
  phase : l.phase = .announcing ∨ l.phase = .connected
  fresh : l.wakeUp = false
  kept : l.isCancelled = false

/-- What a loop does by itself leaves its client in service. -/
theorem DialLoop.Serves.next {l : DialLoop} {n : Nat} (h : l.Serves n) {outcomes : Outcomes}
    {s s' : Site} {e : DialEvent} (hnext : l.next? outcomes s = some (e, s')) :
    (l.on s.now e).Serves n := by
  rcases h.phase with hphase | hphase
  · simp only [next?, hphase] at hnext
    cases hnext
    simp only [on, proceed, hphase]
    exact ⟨h.client, .inr rfl, h.fresh, h.kept⟩
  · simp [next?, hphase, h.fresh, h.kept] at hnext

/-- A client that is invalidated serves no more. -/
theorem DialLoop.Serves.invalidate {l : DialLoop} {n : Nat} (h : l.Serves n) :
    l.invalidate.client = none := by
  rw [DialLoop.invalidate, h.client]

namespace Fleet

/-! ### What can happen in a fleet -/

/-- Something that happens in a fleet while nobody stops it. -/
inductive Move : Fleet → Fleet → Prop
  | loop {f g : Fleet} (h : f.stepLoop? = some g) : Move f g
  | client {f : Fleet} {place : Nat} {c : Placed Client} {c' : Client} {s : Site}
      (hc : f.clients[place]? = some c)
      (h : c.it.step? f.fileAt f.network (f.site c.handle) = some (c', s)) :
    Move f ({ f with clients := f.clients.set place { c with it := c' } }.putSite c.handle s)
  /-- Time passes, containers change, somebody looks at them or asks for a status. -/
  | others {f g : Fleet} (hloop : g.eventLoop = f.eventLoop) (hclients : g.clients = f.clients)
      (hservices : g.services.map Service.sansCalls = f.services.map Service.sansCalls)
      (hhandles : g.handles.length = f.handles.length) : Move f g

/-- The element of a list that something is done with. -/
theorem firstStep?_eq_some {α β : Type} {step : α → Option (α × β)} {items after : List α} {b : β}
    (h : firstStep? step items = some (after, b)) :
    ∃ (i : Nat) (a a' : α), items[i]? = some a ∧ step a = some (a', b) ∧ after = items.set i a' := by
  induction items generalizing after with
  | nil => cases h
  | cons a rest ih =>
    rw [firstStep?] at h
    split at h
    · next a' _ hstep =>
      cases h
      exact ⟨0, a, a', rfl, hstep, rfl⟩
    · obtain ⟨⟨after', _⟩, hrest, hsame⟩ := Option.map_eq_some_iff.mp h
      cases hsame
      obtain ⟨i, c, c', hc, hstep, rfl⟩ := ih hrest
      exact ⟨i + 1, c, c', hc, hstep, rfl⟩

theorem move_of_stepClient? {f g : Fleet} {admits : Client → Bool}
    (h : f.stepClient? admits = some g) : f.Move g := by
  obtain ⟨⟨clients, place, s⟩, hfirst, rfl⟩ := Option.map_eq_some_iff.mp h
  obtain ⟨i, c, c', hc, hstep, rfl⟩ := firstStep?_eq_some hfirst
  obtain ⟨⟨it, after⟩, hit, hsame⟩ := Option.map_eq_some_iff.mp hstep
  cases hsame
  dsimp only at hit
  split at hit
  · exact .client hc hit
  · cases hit

/-- Whatever a fleet does by itself is a move. -/
theorem move_of_step? {f g : Fleet} {admits : Client → Bool} (h : f.step? admits = some g) :
    f.Move g := by
  simp only [step?, Option.orElse_eq_orElse, Option.orElse_eq_or, Option.or_eq_some_iff] at h
  rcases h with h | ⟨-, h | ⟨-, h | ⟨-, h | ⟨-, h | ⟨-, h⟩⟩⟩⟩⟩
  · exact .loop h
  · exact move_of_stepClient? h
  · obtain ⟨_, _, rfl⟩ := Option.map_eq_some_iff.mp h
    exact .others rfl rfl rfl List.length_set
  · obtain ⟨_, _, rfl⟩ := Option.map_eq_some_iff.mp h
    exact .others rfl rfl rfl List.length_set
  · obtain ⟨_, _, rfl⟩ := Option.map_eq_some_iff.mp h
    exact .others rfl rfl rfl List.length_set
  · obtain ⟨_, _, rfl⟩ := Option.map_eq_some_iff.mp h
    exact .others rfl rfl rfl rfl

/-- Asking a service for its status is a move. -/
theorem move_of_status {f : Fleet} {place : Nat} {s : Service} (hs : f.services[place]? = some s) :
    f.Move (f.status place s).2 := by
  have hservices := services_status hs
  obtain ⟨_, _, _, hstatus, hhandles⟩ := status_changes f place s
  rw [hstatus] at hservices ⊢
  exact .others rfl rfl hservices hhandles

/-- Two fleets with the same services, of which no probe was told of anything in between. -/
structure Untold (f g : Fleet) : Prop where
  services : g.services.map Service.sansCalls = f.services.map Service.sansCalls
  handles : g.handles.length = f.handles.length
  serving : ∀ c n, (f.client c).dialLoop.Serves n → (g.client c).dialLoop.Serves n

variable {f g h : Fleet}

theorem Untold.refl (f : Fleet) : f.Untold f :=
  ⟨rfl, rfl, fun _ _ => id⟩

theorem Untold.trans (hfirst : f.Untold g) (hrest : g.Untold h) : f.Untold h where
  services := hrest.services.trans hfirst.services
  handles := hrest.handles.trans hfirst.handles
  serving c n hserves := hrest.serving c n (hfirst.serving c n hserves)

theorem Untold.of_clients_eq (hservices : g.services.map Service.sansCalls = f.services.map Service.sansCalls)
    (hhandles : g.handles.length = f.handles.length) (hclients : g.clients = f.clients) :
    f.Untold g where
  services := hservices
  handles := hhandles
  serving c n hserves := by
    unfold client at hserves ⊢
    rw [hclients]
    exact hserves

/-- A look at a container. -/
theorem refresh_untold (f : Fleet) (place : Nat) : f.Untold (f.refresh place).2 :=
  .of_clients_eq rfl List.length_set rfl

theorem untold_client {place : Nat} {c : Placed Client} {c' : Client} {s : Site}
    (hc : f.clients[place]? = some c)
    (hstep : c.it.step? f.fileAt f.network (f.site c.handle) = some (c', s)) :
    f.Untold ({ f with clients := f.clients.set place { c with it := c' } }.putSite c.handle s) where
  services := rfl
  handles := List.length_set
  serving i n hserves := by
    obtain ⟨hplace, _⟩ := List.getElem?_eq_some_iff.mp hc
    obtain ⟨⟨event, after⟩, hnext, hafter⟩ := Option.map_eq_some_iff.mp hstep
    cases hafter
    by_cases hi : place = i
    · subst hi
      have hwas : f.client place = c.it := by
        rw [client, hc]
        rfl
      rw [hwas] at hserves
      have hserving := hserves.next hnext
      simp only [client, putSite, List.getElem?_set_self hplace]
      exact hserving
    · simpa only [client, putSite, List.getElem?_set_ne hi] using hserves

/-! ### Looking at every container -/

/-- The fleet once the containers of some services were looked at. -/
def lookAtAll (f : Fleet) (services : List Service) : Fleet :=
  services.foldl (fun f s => (f.refresh s.handle).2) f

/-- Looking on, with whether all looks so far were answered. -/
def lookOn (acc : Bool × Fleet) (s : Service) : Bool × Fleet :=
  (acc.1 && (acc.2.refresh s.handle).1.isSome, (acc.2.refresh s.handle).2)

theorem refreshAll_eq (f : Fleet) : f.refreshAll = f.services.foldl lookOn (true, f) :=
  rfl

theorem foldl_lookOn_snd (acc : Bool × Fleet) (services : List Service) :
    (services.foldl lookOn acc).2 = acc.2.lookAtAll services := by
  induction services generalizing acc with
  | nil => rfl
  | cons s services ih => exact ih (lookOn acc s)

theorem lookAtAll_untold (f : Fleet) (services : List Service) :
    f.Untold (f.lookAtAll services) := by
  induction services generalizing f with
  | nil => exact .refl f
  | cons s services ih => exact (refresh_untold f s.handle).trans (ih (f.refresh s.handle).2)

theorem refreshAll_untold (f : Fleet) : f.Untold f.refreshAll.2 := by
  rw [refreshAll_eq, foldl_lookOn_snd]
  exact lookAtAll_untold f f.services

/-! ### Moves that the loop does not hear of -/

/-- The loop has no stream, or has not begun to listen to it. -/
def isDeaf (f : Fleet) : Bool :=
  match f.eventLoop.map EventLoop.phase with
  | some .subscribing | some (.refreshing _) | some (.backingOff _) => true
  | _ => false

/-- What the loop does while it is deaf tells no probe of anything. -/
theorem stepLoop?_untold (hdeaf : f.isDeaf = true) (hstep : f.stepLoop? = some g) : f.Untold g := by
  obtain ⟨l, e, after, hl, hnext, rfl⟩ := stepLoop?_eq_some hstep
  suffices hafter : f.Untold after from hafter.trans (.of_clients_eq rfl rfl rfl)
  simp only [isDeaf, hl, Option.map_some] at hdeaf
  cases loopTurn_of_nextLoopEvent? hnext with
  | subscribe => exact .of_clients_eq rfl rfl rfl
  | lookAtAll _ _ _ looked | stallLooking _ _ _ looked =>
    have hall := refreshAll_untold f
    rw [looked] at hall
    exact hall
  | rest | stop => exact .refl _
  | receive _ _ _ was | lose _ was | dispatch _ _ _ was | stallDispatching _ _ _ was =>
    simp [was] at hdeaf

theorem Move.untold (hmove : f.Move g) (hdeaf : f.isDeaf = true) : f.Untold g := by
  cases hmove with
  | loop hstep => exact stepLoop?_untold hdeaf hstep
  | client hc hstep => exact untold_client hc hstep
  | others _ hclients hservices hhandles => exact .of_clients_eq hservices hhandles hclients

/-- A move between two moments at which the loop hears nothing. -/
def DeafMove (f g : Fleet) : Prop :=
  f.isDeaf = true ∧ f.Move g ∧ g.isDeaf = true

/-- However long the loop hears nothing, no probe is told of anything. -/
theorem untold_of_deafMoves (hrun : Relation.ReflTransGen DeafMove f g) : f.Untold g := by
  induction hrun with
  | refl => exact .refl f
  | tail _ hmove ih => exact ih.trans (hmove.2.1.untold hmove.1)

end Fleet

end FleetWatch
