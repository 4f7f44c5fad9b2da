import FleetWatch.Fleet.Control
import FleetWatch.Proofs.Fleet.Deafness
import FleetWatch.Proofs.Registry.LoopTurn
import FleetWatch.Proofs.Service.Reconnect
/-!
Cancelling the event loop.

A loop that subscribes, listens, or waits for a new subscription looks for its cancellation meanwhile.
One that looks at containers, for itself or for an event, does not, so a look that is never answered
keeps it for good.  Main statement: a cancelled loop that has nothing left to do has returned, unless
such a look has stalled it; and one that is not stalled returns in two steps if looks are answered.
-/

namespace FleetWatch

/-! ### Looks that are answered -/

/-- Every look at a container is answered, now and later. -/
def Engine.AnswersLooks (e : Engine) : Prop :=
  ∀ name, ∃ r, (e.inspect name).1 = .answer r

theorem Engine.AnswersLooks.inspect {e : Engine} (hanswers : e.AnswersLooks) (name : String) :
    (e.inspect name).2.AnswersLooks := by
  intro other
  cases e with
  | memory => exact hanswers other
  | script e =>
    simp only [Engine.inspect, Script.Engine.inspect]
    split <;> exact ⟨_, rfl⟩

namespace EventPhase

/-- A loop that waits in this phase looks for its cancellation meanwhile. -/
def looksForCancel : EventPhase → Bool
  | .subscribing | .listening _ | .backingOff _ => true
  | _ => false

/-- A loop in this phase looks at containers. -/
def isLooking : EventPhase → Bool
  | .refreshing _ | .handling _ _ => true
  | _ => false

theorem cases_of_isLooking {p : EventPhase} (h : p.isLooking = true) :
    (∃ feed, p = .refreshing feed) ∨ ∃ feed event, p = .handling feed event := by
  cases p with
  | refreshing feed => exact Or.inl ⟨feed, rfl⟩
  | handling feed event => exact Or.inr ⟨feed, event, rfl⟩
  | _ => cases h

end EventPhase

namespace Fleet

variable {f g h after : Fleet} {l : EventLoop} {e : LoopEvent}

theorem isSome_refresh (hanswers : f.engine.AnswersLooks) (place : Nat) :
    (f.refresh place).1.isSome = true :=
  isSome_refresh_iff.mpr (hanswers _)

theorem answersLooks_refresh (hanswers : f.engine.AnswersLooks) (place : Nat) :
    (f.refresh place).2.engine.AnswersLooks := by
  have hengine : (f.refresh place).2.engine = (f.engine.inspect (f.handle place).name).2 := by
    unfold refresh Site.refresh site putSite
    cases hinspect : f.engine.inspect (f.handle place).name with
    | mk reply engine => cases reply <;> rfl
  rw [hengine]
  exact hanswers.inspect _

theorem refreshAll_answered (hanswers : f.engine.AnswersLooks) : f.refreshAll.1 = true := by
  have hall : ∀ (services : List Service) (acc : Bool × Fleet), acc.1 = true →
      acc.2.engine.AnswersLooks → (services.foldl lookOn acc).1 = true := by
    intro services
    induction services with
    | nil => exact fun _ hacc _ => hacc
    | cons s services ih =>
      intro acc hacc hengine
      apply ih
      · simp only [lookOn, hacc, isSome_refresh hengine, Bool.and_self]
      · exact answersLooks_refresh hengine s.handle
  exact hall f.services (true, f) rfl hanswers

theorem onEvent_answered (hanswers : f.engine.AnswersLooks) (place : Nat) (s : Service)
    (kind : EventKind) : (f.onEvent place s kind).1 = true := by
  have hlook := isSome_refresh hanswers s.handle
  cases kind with
  | create | start => exact hlook
  | die =>
    unfold onEvent
    cases hresult : f.refresh s.handle with
    | mk result next =>
      rw [hresult] at hlook
      cases result with
      | none => cases hlook
      | some _ => rfl
  | destroy | other => rfl

theorem dispatch_answered (hanswers : f.engine.AnswersLooks) (event : EngineEvent) :
    (f.dispatch event).1 = true := by
  unfold dispatch
  split
  · rfl
  · split
    · rfl
    · exact onEvent_answered hanswers _ _ _

/-- Nothing but a look that is not answered stalls a loop. -/
theorem LoopTurn.not_answersLooks (hturn : f.LoopTurn l .stalled after) :
    ¬ f.engine.AnswersLooks := by
  intro hanswers
  cases hturn with
  | stallLooking _ _ _ unanswered =>
    have hall := refreshAll_answered hanswers
    rw [unanswered] at hall
    cases hall
  | stallDispatching _ event _ _ unanswered =>
    have hdone := dispatch_answered hanswers event
    rw [unanswered] at hdone
    cases hdone

/-! ### What has happened to a loop -/

/-- Anything happens, as often as it likes. -/
def Evolves : Fleet → Fleet → Prop :=
  Relation.ReflTransGen fun f g => ∃ e, f.Happens e g

theorem Evolves.stepLoop (hrun : f.Evolves g) (hstep : g.stepLoop? = some h) : f.Evolves h := by
  obtain ⟨e, happens⟩ := happens_of_stepLoop? hstep
  exact hrun.tail ⟨some e, happens⟩

/-- The loop has returned. -/
def hasReturned (f : Fleet) : Bool :=
  f.eventLoop.any EventLoop.hasStopped

/-- The loop waits for an answer that does not come. -/
def IsStalled (f : Fleet) : Prop :=
  ∃ l, f.eventLoop = some l ∧ l.phase = .stalled

theorem LoopTurn.phase_eq_stalled_iff (hturn : f.LoopTurn l e after) (now : Nat) :
    (l.on now e).phase = .stalled ↔ e = .stalled := by
  cases hturn with
  | subscribe was =>
    cases f.engine.subscribe.1 <;> simp [EventLoop.on, EventLoop.backOff, was]
  | stop was cancelled =>
    rcases was with was | ⟨feed, was⟩ | ⟨due, was⟩ <;> simp [EventLoop.on, was, cancelled]
  | lookAtAll _ _ was | stallLooking _ _ was | receive _ _ _ was | lose _ was
  | dispatch _ _ _ was | stallDispatching _ _ _ was | rest _ was =>
    simp [EventLoop.on, EventLoop.backOff, was]

theorem Happens.isStalled (happens : f.Happens (some .stalled) g) : g.IsStalled := by
  cases happens with
  | loop _ hloop hsees hnext =>
    have hturn := (loopTurn_of_nextLoopEvent? hnext).of_sees hsees
    exact ⟨_, rfl, (hturn.phase_eq_stalled_iff _).mpr rfl⟩

/-- A stalled loop stays so. -/
theorem IsStalled.happens {e : Option LoopEvent} (hstalled : f.IsStalled)
    (happens : f.Happens e g) : g.IsStalled := by
  obtain ⟨l, hloop, hphase⟩ := hstalled
  cases e with
  | none =>
    cases happens with
    | others hsame => exact ⟨l, hsame.trans hloop, hphase⟩
  | some e =>
    rcases happens.turn hloop with ⟨rfl, rfl⟩ | ⟨after, hturn, rfl⟩
    · exact ⟨_, rfl, hphase⟩
    · cases hturn with
      | stop was => simp [hphase] at was
      | subscribe was | lookAtAll _ _ was | stallLooking _ _ was | receive _ _ _ was | lose _ was
      | dispatch _ _ _ was | stallDispatching _ _ _ was | rest _ was => cases hphase.symm.trans was

theorem IsStalled.evolves (hstalled : f.IsStalled) (hrun : f.Evolves g) : g.IsStalled := by
  induction hrun with
  | refl => exact hstalled
  | tail _ hnext ih =>
    obtain ⟨e, happens⟩ := hnext
    exact ih.happens happens

theorem IsStalled.not_hasReturned (hstalled : f.IsStalled) : f.hasReturned = false := by
  obtain ⟨l, hloop, hphase⟩ := hstalled
  rw [hasReturned, hloop, Option.any_some, EventLoop.hasStopped, hphase]

/-- A loop that is stalled now and was not before is being stalled. -/
theorem Happens.eq_stalled {e : Option LoopEvent} (happens : f.Happens e g)
    (hbefore : ¬ f.IsStalled) (hstalled : g.IsStalled) : e = some .stalled := by
  obtain ⟨l', hloop', hphase'⟩ := hstalled
  cases happens with
  | others hsame => exact absurd ⟨l', hsame.symm.trans hloop', hphase'⟩ hbefore
  | cancel hloop =>
    cases hloop'
    exact absurd ⟨_, hloop, hphase'⟩ hbefore
  | loop _ hloop hsees hnext =>
    cases hloop'
    have hturn := (loopTurn_of_nextLoopEvent? hnext).of_sees hsees
    rw [(hturn.phase_eq_stalled_iff _).mp hphase']

/-- A loop is stalled if a look that it took was not answered. -/
theorem isStalled_iff (hstart : ¬ f.IsStalled) (hrun : f.Evolves g) :
    g.IsStalled ↔ ∃ h h', f.Evolves h ∧ h.Happens (some .stalled) h' ∧ h'.Evolves g := by
  constructor
  · induction hrun with
    | refl => exact fun hstalled => absurd hstalled hstart
    | @tail h g hbefore hnext ih =>
      intro hstalled
      obtain ⟨e, happens⟩ := hnext
      by_cases hearlier : h.IsStalled
      · obtain ⟨h₁, h₂, hfirst, hstall, hrest⟩ := ih hearlier
        exact ⟨h₁, h₂, hfirst, hstall, hrest.tail ⟨e, happens⟩⟩
      · cases happens.eq_stalled hearlier hstalled
        exact ⟨h, g, hbefore, happens, .refl⟩
  · rintro ⟨_, _, _, hstall, hrest⟩
    exact hstall.isStalled.evolves hrest

/-! ### Returning -/

/-- A cancelled loop that looks for its cancellation returns. -/
theorem exists_return (hloop : f.eventLoop = some l) (hcancelled : l.isCancelled = true)
    (hphase : l.phase.looksForCancel = true) :
    ∃ g, f.stepLoop? = some g ∧ g.hasReturned = true := by
  cases hp : l.phase with
  | subscribing | listening | backingOff =>
    have hnext : f.nextLoopEvent? l = some (.noticedCancel, f) := by
      simp only [nextLoopEvent?, hp, hcancelled, if_true]
    refine ⟨_, stepLoop?_eq hloop hnext, ?_⟩
    simp only [hasReturned, EventLoop.on, hp, hcancelled, if_true, Option.any_some,
      EventLoop.hasStopped]
  | refreshing | handling | stalled | stopped =>
    rw [hp] at hphase
    cases hphase

/-- A loop that looks at containers has a step to take, and comes to listen if its looks are
answered. -/
theorem exists_step_of_isLooking (hloop : f.eventLoop = some l)
    (hphase : l.phase.isLooking = true) :
    ∃ g l', f.stepLoop? = some g ∧ g.eventLoop = some l' ∧ l'.isCancelled = l.isCancelled ∧
      (f.engine.AnswersLooks → l'.phase.looksForCancel = true) := by
  rcases EventPhase.cases_of_isLooking hphase with ⟨feed, hphase⟩ | ⟨feed, event, hphase⟩
  · refine ⟨_, _, stepLoop?_eq hloop (nextLoopEvent?_of_refreshing hphase), rfl, ?_, ?_⟩
    · split <;> simp only [EventLoop.on, hphase]
    · intro hanswers
      simp only [refreshAll_answered hanswers, if_true, EventLoop.on, hphase,
        EventPhase.looksForCancel]
  · refine ⟨_, _, stepLoop?_eq hloop (nextLoopEvent?_of_handling hphase), rfl, ?_, ?_⟩
    · split <;> simp only [EventLoop.on, hphase]
    · intro hanswers
      simp only [dispatch_answered hanswers event, if_true, EventLoop.on, hphase,
        EventPhase.looksForCancel]

theorem hasReturned_iff (hloop : f.eventLoop = some l) :
    f.hasReturned = true ↔ l.phase = .stopped := by
  rw [hasReturned, hloop, Option.any_some, EventLoop.hasStopped]
  cases l.phase <;> simp

theorem isStalled_iff_phase (hloop : f.eventLoop = some l) : f.IsStalled ↔ l.phase = .stalled := by
  constructor
  · rintro ⟨l', hloop', hphase⟩
    cases hloop'.symm.trans hloop
    exact hphase
  · intro hphase
    exact ⟨l, hloop, hphase⟩

/-- A cancelled loop that has nothing left to do has returned or is stalled. -/
theorem quiet_iff_of_isCancelled (hloop : f.eventLoop = some l)
    (hcancelled : l.isCancelled = true) :
    f.stepLoop? = none ↔ f.hasReturned = true ∨ f.IsStalled := by
  rw [stepLoop?_eq_none_iff hloop, hasReturned_iff hloop, isStalled_iff_phase hloop]
  constructor
  · intro hnone
    cases standsStill_of_nextLoopEvent? hnone with
    | listens _ _ kept | waits _ _ kept => exact absurd (hcancelled.symm.trans kept) Bool.noConfusion
    | stalled was => exact Or.inr was
    | stopped was => exact Or.inl was
  · rintro (hphase | hphase) <;> rw [nextLoopEvent?, hphase]

/-- How a cancelled loop of a fleet ends, which was started in another one. -/
structure EndsUnlessStalled (f g : Fleet) (l : EventLoop) : Prop where
  /-- A loop that has nothing left to do has returned or is stalled. -/
  quiet_iff : g.stepLoop? = none ↔ g.hasReturned = true ∨ g.IsStalled
  /-- It is stalled if it was looking at containers and a look was not answered. -/
  isStalled_iff : g.IsStalled ↔
    ∃ h h', f.Evolves h ∧ h.Happens (some .stalled) h' ∧ h'.Evolves g
  unanswered : ∀ (h h' : Fleet) (l' : EventLoop), h.eventLoop = some l' →
    h.Happens (some .stalled) h' → l'.phase.isLooking = true ∧ ¬ h.engine.AnswersLooks
  /-- Then it never returns. -/
  forGood : g.IsStalled → ∀ h, g.Evolves h → h.hasReturned = false
  /-- While it subscribes, listens or waits it returns next. -/
  returns : l.phase.looksForCancel = true → ∃ h, g.stepLoop? = some h ∧ h.hasReturned = true
  /-- While it looks at containers it returns after that, if its looks are answered. -/
  returnsAfterLooks : l.phase.isLooking = true → g.engine.AnswersLooks →
    ∃ h h', g.stepLoop? = some h ∧ h.stepLoop? = some h' ∧ h'.hasReturned = true

/-- Whatever happened to a loop since it was started, once it is cancelled it returns unless a look
at a container is not answered. -/
theorem cancelled_endsUnlessStalled (hrun : f.startEventLoop.Evolves g)
    (hloop : g.eventLoop = some l) (hcancelled : l.isCancelled = true) :
    EndsUnlessStalled f.startEventLoop g l := by
  have hstart : ¬ f.startEventLoop.IsStalled := by
    rintro ⟨_, hfresh, hphase⟩
    cases hfresh
    cases hphase
  constructor
  · exact quiet_iff_of_isCancelled hloop hcancelled
  · exact isStalled_iff hstart hrun
  · intro h h' l' hloop' happens
    rcases happens.turn hloop' with ⟨hcancel, _⟩ | ⟨after, hturn, _⟩
    · cases hcancel
    · refine ⟨?_, hturn.not_answersLooks⟩
      cases hturn with
      | stallLooking _ _ was | stallDispatching _ _ _ was => rw [was]; rfl
  · intro hstalled h hlater
    exact (hstalled.evolves hlater).not_hasReturned
  · exact exists_return hloop hcancelled
  · intro hphase hanswers
    obtain ⟨h, l', hstep, hloop', hkept, hlistens⟩ := exists_step_of_isLooking hloop hphase
    obtain ⟨h', hstep', hreturned⟩ := exists_return hloop' (hkept.trans hcancelled)
      (hlistens hanswers)
    exact ⟨h, h', hstep, hstep', hreturned⟩

/-! ### A look that is never answered -/

/-- A service whose container the engine has nothing to say of. -/
def muteService : Service :=
  { descriptor :=
      { name := "a", container := "testnet_a_1", kind := .generic, rpc := { host := "a" } }
    handle := 0 }

def muteFleet : Fleet :=
  { engine := .memory
      { wall := default, nextId := 2
        entries :=
          [{ uid := 1, name := "testnet_a_1", state := .running, env := [], startedAt := none
             inspectHangs := true }] }
    handles := [{ name := "testnet_a_1" }]
    services := [muteService] }

/-- The loop is cancelled before it subscribes. -/
theorem mute_endsUnlessStalled :
    muteFleet.startEventLoop.Evolves
        { muteFleet.startEventLoop with eventLoop := some { isCancelled := true } } ∧
      EndsUnlessStalled muteFleet.startEventLoop
        { muteFleet.startEventLoop with eventLoop := some { isCancelled := true } }
        { isCancelled := true } := by
  have hcancel : muteFleet.startEventLoop.Evolves
      { muteFleet.startEventLoop with eventLoop := some { isCancelled := true } } :=
    .single ⟨some .cancel, .cancel (l := {}) rfl⟩
  exact ⟨hcancel, cancelled_endsUnlessStalled hcancel rfl rfl⟩

/-- The loop has subscribed and looks at the container. -/
def muteLooking : Fleet :=
  { muteFleet with
    engine := muteFleet.engine.subscribe.2
    eventLoop := some { phase := .refreshing { items := [], rest := .live 0 0 } } }

/-- The look is not answered. -/
def muteStalled : Fleet :=
  { muteLooking.refreshAll.2 with eventLoop := some { phase := .stalled } }

/-- A loop that is cancelled while it looks at a container that the engine never answers for does not
return, although nobody has anything left to do. -/
theorem not_returns_of_unanswered : ¬ ∀ (f g : Fleet) (l : EventLoop), f.startEventLoop.Evolves g →
    g.eventLoop = some l → l.isCancelled = true → g.step? = none → g.nextWake? = none →
      l.hasStopped = true := by
  intro hall
  have hlooking : muteFleet.startEventLoop.Evolves muteLooking :=
    Evolves.stepLoop .refl rfl
  have hstalled : muteFleet.startEventLoop.Evolves muteStalled := hlooking.stepLoop rfl
  have hhandles : muteFleet.startEventLoop.Evolves (muteStalled.cancelWorkAt 0) :=
    hstalled.tail ⟨none, .others rfl⟩
  have hcancelled : muteFleet.startEventLoop.Evolves muteStalled.cancelAll :=
    hhandles.tail ⟨some .cancel, .cancel (l := { phase := .stalled }) rfl⟩
  have hstopped := hall muteFleet muteStalled.cancelAll _ hcancelled rfl rfl rfl rfl
  cases hstopped

end Fleet

end FleetWatch
