import FleetWatch.Fleet.Run
import Mathlib.Logic.Relation
/-!
What happens to the event loop of a fleet.

`Fleet.LoopTurn` says once, case by case, what the loop does next: where it was, what had to hold, and
what the fleet is afterwards.  `Fleet.Happens` adds everybody else, who may do anything at any time but
touch the loop, and whoever cancels it.
-/

namespace FleetWatch

namespace Fleet

variable {f g after : Fleet} {l : EventLoop} {e : LoopEvent}

/-- The next thing that a loop does in a fleet. -/
inductive LoopTurn (f : Fleet) (l : EventLoop) : LoopEvent → Fleet → Prop where
  | subscribe (was : l.phase = .subscribing) :
    LoopTurn f l (.subscribed f.engine.subscribe.1) { f with engine := f.engine.subscribe.2 }
  | lookAtAll (feed : Feed EngineEvent) (after : Fleet) (was : l.phase = .refreshing feed)
    (looked : f.refreshAll = (true, after)) :
    LoopTurn f l .refreshed after
  /-- A look at a container is not answered. -/
  | stallLooking (feed : Feed EngineEvent) (after : Fleet) (was : l.phase = .refreshing feed)
    (unanswered : f.refreshAll = (false, after)) :
    LoopTurn f l .stalled after
  | receive (feed rest : Feed EngineEvent) (event : EngineEvent) (was : l.phase = .listening feed)
    (pulled : f.engine.pullEvent feed = (.item (.ok event), rest)) :
    LoopTurn f l (.arrived event rest) f
  | lose (feed : Feed EngineEvent) (was : l.phase = .listening feed)
    (lost : (f.engine.pullEvent feed).1 = .over ∨
      ∃ fault, (f.engine.pullEvent feed).1 = .item (.error fault)) :
    LoopTurn f l .lost f
  | dispatch (feed : Feed EngineEvent) (event : EngineEvent) (after : Fleet)
    (was : l.phase = .handling feed event) (dispatched : f.dispatch event = (true, after)) :
    LoopTurn f l .handled after
  /-- The look that an event takes is not answered. -/
  | stallDispatching (feed : Feed EngineEvent) (event : EngineEvent) (after : Fleet)
    (was : l.phase = .handling feed event) (unanswered : f.dispatch event = (false, after)) :
    LoopTurn f l .stalled after
  | rest (due : Nat) (was : l.phase = .backingOff due) (rested : due ≤ f.now) :
    LoopTurn f l .rested f
  | stop
    (was : l.phase = .subscribing ∨ (∃ feed, l.phase = .listening feed) ∨
      ∃ due, l.phase = .backingOff due)
    (cancelled : l.isCancelled = true) :
    LoopTurn f l .noticedCancel f

/-- Whatever a loop does next is one of these turns. -/
theorem loopTurn_of_nextLoopEvent? (h : f.nextLoopEvent? l = some (e, after)) :
    f.LoopTurn l e after := by
  unfold nextLoopEvent? at h
  split at h
  · next was =>
    split at h
    · cases h
      exact .stop (Or.inl was) ‹_›
    · cases h
      exact .subscribe was
  · next feed was =>
    split at h
    · next hlooks =>
      cases h
      exact .lookAtAll feed _ was hlooks
    · next hlooks =>
      cases h
      exact .stallLooking feed _ was hlooks
  · next feed was =>
    split at h
    · cases h
      exact .stop (Or.inr (Or.inl ⟨feed, was⟩)) ‹_›
    · split at h
      · cases h
      · next hpull =>
        cases h
        exact .receive feed _ _ was hpull
      · next fault _ hpull =>
        cases h
        exact .lose feed was (Or.inr ⟨fault, congrArg Prod.fst hpull⟩)
      · next hpull =>
        cases h
        exact .lose feed was (Or.inl (congrArg Prod.fst hpull))
  · next feed event was =>
    split at h
    · next hlook =>
      cases h
      exact .dispatch feed event _ was hlook
    · next hlook =>
      cases h
      exact .stallDispatching feed event _ was hlook
  · next due was =>
    split at h
    · cases h
      exact .stop (Or.inr (Or.inr ⟨due, was⟩)) ‹_›
    · split at h
      · cases h
        exact .rest due was ‹_›
      · cases h
  · cases h
  · cases h

/-- What keeps a loop from going on. -/
inductive StandsStill (f : Fleet) (l : EventLoop) : Prop where
  | listens (feed : Feed EngineEvent) (was : l.phase = .listening feed)
      (kept : l.isCancelled = false) (pending : (f.engine.pullEvent feed).1 = .pending)
  | waits (due : Nat) (was : l.phase = .backingOff due) (kept : l.isCancelled = false)
      (early : f.now < due)
  | stalled (was : l.phase = .stalled)
  | stopped (was : l.phase = .stopped)

/-- A loop that takes no turn has nothing to do. -/
theorem standsStill_of_nextLoopEvent? (h : f.nextLoopEvent? l = none) : f.StandsStill l := by
  unfold nextLoopEvent? at h
  split at h
  · split at h <;> cases h
  · split at h <;> cases h
  · next feed was =>
    split at h
    · cases h
    · next kept =>
      split at h
      · next hpull => exact .listens feed was (Bool.eq_false_iff.mpr kept) (congrArg Prod.fst hpull)
      · cases h
      · cases h
      · cases h
  · split at h <;> cases h
  · next due was =>
    split at h
    · cases h
    · next kept =>
      split at h
      · cases h
      · next early => exact .waits due was (Bool.eq_false_iff.mpr kept) (Nat.lt_of_not_le early)
  · next was => exact .stalled was
  · next was => exact .stopped was

/-- A loop with a new stream looks at all containers, cancelled or not. -/
theorem nextLoopEvent?_of_refreshing {feed : Feed EngineEvent}
    (hphase : l.phase = .refreshing feed) :
    f.nextLoopEvent? l =
      some (if f.refreshAll.1 then .refreshed else .stalled, f.refreshAll.2) := by
  simp only [nextLoopEvent?, hphase]
  cases f.refreshAll with
  | mk answered after => cases answered <;> rfl

/-- A loop with an event in hand hands it on, cancelled or not. -/
theorem nextLoopEvent?_of_handling {feed : Feed EngineEvent} {event : EngineEvent}
    (hphase : l.phase = .handling feed event) :
    f.nextLoopEvent? l =
      some (if (f.dispatch event).1 then .handled else .stalled, (f.dispatch event).2) := by
  simp only [nextLoopEvent?, hphase]
  cases f.dispatch event with
  | mk answered after => cases answered <;> rfl

theorem stepLoop?_eq_some (hstep : f.stepLoop? = some g) :
    ∃ l e after, f.eventLoop = some l ∧ f.nextLoopEvent? l = some (e, after) ∧
      g = { after with eventLoop := some (l.on after.now e) } := by
  obtain ⟨l, hl, hstep⟩ := Option.bind_eq_some_iff.mp hstep
  obtain ⟨⟨e, after⟩, hnext, hg⟩ := Option.bind_eq_some_iff.mp hstep
  cases hg
  exact ⟨l, e, after, hl, hnext, rfl⟩

theorem stepLoop?_eq_none_iff (hloop : f.eventLoop = some l) :
    f.stepLoop? = none ↔ f.nextLoopEvent? l = none := by
  rw [stepLoop?, hloop, Option.bind_eq_bind, Option.bind_some]
  cases f.nextLoopEvent? l with
  | none => exact iff_of_true rfl rfl
  | some turn => exact iff_of_false nofun nofun

theorem stepLoop?_eq (hloop : f.eventLoop = some l) (hnext : f.nextLoopEvent? l = some (e, after)) :
    f.stepLoop? = some { after with eventLoop := some (l.on after.now e) } := by
  rw [stepLoop?, hloop, Option.bind_eq_bind, Option.bind_some, hnext]
  rfl

/-- A loop that may see less of its cancellation than there is does what the loop may do. -/
theorem LoopTurn.of_sees {seesCancel : Bool} (hsees : seesCancel = true → l.isCancelled = true)
    (hturn : f.LoopTurn { l with isCancelled := seesCancel } e after) : f.LoopTurn l e after := by
  cases hturn with
  | subscribe was => exact .subscribe was
  | lookAtAll feed _ was looked => exact .lookAtAll feed _ was looked
  | stallLooking feed _ was unanswered => exact .stallLooking feed _ was unanswered
  | receive feed rest event was pulled => exact .receive feed rest event was pulled
  | lose feed was lost => exact .lose feed was lost
  | dispatch feed event _ was dispatched => exact .dispatch feed event _ was dispatched
  | stallDispatching feed event _ was unanswered =>
    exact .stallDispatching feed event _ was unanswered
  | rest due was rested => exact .rest due was rested
  | stop was cancelled => exact .stop was (hsees cancelled)

/-- Something happens in a fleet, and what it is to the loop, if anything. -/
inductive Happens : Fleet → Option LoopEvent → Fleet → Prop where
  /-- The loop goes on.  One that is cancelled may see that or what else is there first. -/
  | loop {f after : Fleet} {l : EventLoop} {e : LoopEvent} (seesCancel : Bool)
    (hloop : f.eventLoop = some l) (hsees : seesCancel = true → l.isCancelled = true)
    (hnext : f.nextLoopEvent? { l with isCancelled := seesCancel } = some (e, after)) :
    Happens f (some e) { after with eventLoop := some (l.on after.now e) }
  /-- Somebody else does something, or time passes. -/
  | others {f g : Fleet} (hloop : g.eventLoop = f.eventLoop) : Happens f none g
  | cancel {f : Fleet} {l : EventLoop} (hloop : f.eventLoop = some l) :
    Happens f (some .cancel) { f with eventLoop := some (l.on f.now .cancel) }

/-- Whatever happens to a loop, it is cancelled or takes its turn. -/
theorem Happens.turn (h : f.Happens (some e) g) (hloop : f.eventLoop = some l) :
    (e = .cancel ∧ g = { f with eventLoop := some (l.on f.now .cancel) }) ∨
      ∃ after, f.LoopTurn l e after ∧ g = { after with eventLoop := some (l.on after.now e) } := by
  cases h with
  | loop seesCancel hloop' hsees hnext =>
    cases Option.some.inj (hloop'.symm.trans hloop)
    exact Or.inr ⟨_, (loopTurn_of_nextLoopEvent? hnext).of_sees hsees, rfl⟩
  | cancel hloop' =>
    cases Option.some.inj (hloop'.symm.trans hloop)
    exact Or.inl ⟨rfl, rfl⟩

/-- What a loop does by itself happens. -/
theorem happens_of_stepLoop? (h : f.stepLoop? = some g) : ∃ e, f.Happens (some e) g := by
  obtain ⟨l, e, after, hloop, hnext, rfl⟩ := stepLoop?_eq_some h
  exact ⟨e, .loop l.isCancelled hloop id hnext⟩

end Fleet

end FleetWatch
