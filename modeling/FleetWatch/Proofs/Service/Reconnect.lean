import FleetWatch.Fleet.Basic
import FleetWatch.Proofs.Rpc.Turn
import Mathlib.Data.List.Induction
/-!
Reconnecting after a container stopped.

A service that hears that its container died looks at it and then invalidates its client; of one that
was destroyed it forgets the snapshot first.  The dial loop goes by the snapshot, so it stays away
from the backend until a look shows the container running, with three exceptions: the event's own
look fails and the snapshot stays what it was, a look from before the event is answered after it, or
a dial is under way when the client is invalidated.
-/

namespace FleetWatch

/-- Whether the container was running when it was last seen. -/
def Handle.showsRunning (h : Handle) : Bool :=
  h.snapshot.any fun s => s.state.isRunning

/-- Whether a look showed the container running. -/
def Look.isRunning : Except ContainerError Snapshot → Bool
  | .ok s => s.state.isRunning
  | .error _ => false

/-- Whether a look failed, and not for want of a container. -/
def Look.hasFailed : Except ContainerError Snapshot → Bool
  | .ok _ => false
  | .error e => !e.isNotFound

theorem Handle.showsRunning_clear (h : Handle) : h.clear.showsRunning = false := by
  unfold clear showsRunning
  cases hs : h.snapshot with
  | none => simp only [hs, Option.any_none]
  | some s => rfl

/-- After a look that does not show the container running the handle shows it running only if the
look failed. -/
theorem Handle.showsRunning_observe {h : Handle} {r : Except ContainerError Snapshot}
    (hr : Look.isRunning r = false)
    (hshows : h.showsRunning = false ∨ Look.hasFailed r = false) :
    (h.observe r).2.showsRunning = false := by
  cases r with
  | ok s => exact hr
  | error e =>
    by_cases he : e.isNotFound = true
    · rw [observe, if_pos he]
      exact h.showsRunning_clear
    · rw [observe, if_neg he]
      apply hshows.resolve_right
      simp only [Look.hasFailed, he, Bool.not_false, Bool.true_eq_false, not_false_eq_true]

/-- A dial is under way, or its client is about to be published. -/
def DialPhase.isDialing : DialPhase → Bool
  | .dialing _ | .publishing => true
  | _ => false

namespace DialLoop

variable {l : DialLoop}

/-- A change of a loop without a dial: it has no client afterwards that it had not before. -/
structure StaysOff (l l' : DialLoop) : Prop where
  phase : l'.phase.isDialing = false
  client : l.client = none → l'.client = none
  dials : l'.dials = l.dials

theorem StaysOff.idle (h : l.phase.isDialing = false) : l.StaysOff l :=
  ⟨h, id, rfl⟩

/-- Only the gate lets a loop dial. -/
theorem StaysOff.turn (h : l.phase.isDialing = false) {now : Nat} {e : DialEvent} {l' : DialLoop}
    (turn : l.Turn now e l') (he : e ≠ .admitted) : l.StaysOff l' := by
  cases turn with
  | idle => exact .idle h
  | dial w was => exact absurd rfl he
  | succeed _ was | publish was =>
    rw [was] at h
    cases h
  | drop was => exact ⟨rfl, fun _ => rfl, rfl⟩
  | invalidate | withdraw | close => exact ⟨h, fun _ => rfl, rfl⟩
  | cancel | showClosed => exact ⟨h, id, rfl⟩
  | _ => exact ⟨rfl, id, rfl⟩

theorem StaysOff.on (h : l.phase.isDialing = false) (now : Nat) {e : DialEvent} (he : e ≠ .admitted) :
    l.StaysOff (l.on now e) :=
  .turn h (l.on_turn now e) he

end DialLoop

/-- The gate lets a loop through only where the handle shows the container running. -/
theorem DialLoop.showsRunning_of_admitted {l : DialLoop} {outcomes : Outcomes} {s s' : Site}
    (h : l.next? outcomes s = some (.admitted, s')) : s'.handle.showsRunning = true := by
  cases hp : l.phase with
  | waiting w =>
    simp only [next?, hp, Option.map_eq_some_iff] at h
    obtain ⟨⟨waited, after⟩, hw, hsame⟩ := h
    cases waited with
    | ready seen =>
      cases hsame
      obtain ⟨hsnapshot, hrunning⟩ := Waiter.step?_ready hw
      rw [Handle.showsRunning, hsnapshot]
      exact hrunning
    | cancelled => cases hsame
    | again w => cases hsame
  | dialing due =>
    simp only [next?, hp] at h
    split at h
    · cases h
    · split at h
      · cases h
      · split at h <;> cases h
  | connected | backingOff _ =>
    simp only [next?, hp] at h
    split at h
    · cases h
    · split at h <;> cases h
  | _ => simp [next?, hp] at h

/-! ### A service whose container stops -/

/-- How far a service has come with the news that its container stopped. -/
inductive StopStage where
  /-- The event has not come. -/
  | ahead
  /-- The container died, and the look that follows is under way. -/
  | looking
  /-- The client is about to be invalidated. -/
  | telling
  | handled
deriving Repr, DecidableEq

/-- A service's handle and dial loop around one stop of its container, with what was heard of the
container since. -/
structure StoppedService where
  handle : Handle
  loop : DialLoop
  stage : StopStage := .ahead
  /-- Looks under way that began before the event. -/
  early : Nat := 0
  /-- Looks under way that began after it. -/
  late : Nat := 0
  /-- A look that began with the event or after it showed the container running. -/
  sawRunning : Bool := false
  /-- The event's own look failed. -/
  lookFailed : Bool := false
  /-- An earlier look showed the container running when its answer came after the event. -/
  heardEarlier : Bool := false
  /-- A dial was under way when the client was invalidated. -/
  wasDialing : Bool := false
  /-- The dials made until the event was handled. -/
  dialsBefore : Nat := 0

inductive StopEvent where
  /-- Something happens to the dial loop. -/
  | loop (now : Nat) (event : DialEvent)
  /-- Somebody begins to look at the container. -/
  | look
  /-- A look that began before or after the event is answered. -/
  | answered (isEarly : Bool) (answer : Except ContainerError Snapshot)
  /-- Somebody forgets the snapshot. -/
  | forget
  | die
  | destroy
  /-- The look after the container's death is answered. -/
  | looked (answer : Except ContainerError Snapshot)
  /-- The service's client is invalidated. -/
  | tell

namespace StoppedService

def start (handle : Handle) (policy : RetryPolicy) : StoppedService where
  handle := handle
  loop := { policy }

/-- The service after something happened.  The gate is open while the handle shows the container
running. -/
def on (w : StoppedService) : StopEvent → StoppedService
  | .loop now .admitted =>
    if w.handle.showsRunning then { w with loop := w.loop.on now .admitted } else w
  | .loop now event => { w with loop := w.loop.on now event }
  | .look => if w.stage = .ahead then { w with early := w.early + 1 } else { w with late := w.late + 1 }
  | .answered true r =>
    if w.early = 0 then w
    else
      { w with
        early := w.early - 1
        handle := (w.handle.observe r).2
        heardEarlier := w.heardEarlier || w.stage ≠ .ahead && Look.isRunning r }
  | .answered false r =>
    if w.late = 0 then w
    else
      { w with
        late := w.late - 1
        handle := (w.handle.observe r).2
        sawRunning := w.sawRunning || Look.isRunning r }
  | .forget => { w with handle := w.handle.clear }
  | .die => if w.stage = .ahead then { w with stage := .looking } else w
  | .destroy => if w.stage = .ahead then { w with stage := .telling, handle := w.handle.clear } else w
  | .looked r =>
    if w.stage = .looking then
      { w with
        stage := .telling
        handle := (w.handle.observe r).2
        lookFailed := Look.hasFailed r
        sawRunning := w.sawRunning || Look.isRunning r }
    else w
  | .tell =>
    if w.stage = .telling then
      { w with
        stage := .handled
        loop := w.loop.on 0 .invalidate
        wasDialing := w.loop.phase.isDialing
        dialsBefore := w.loop.dials }
    else w

def run (w : StoppedService) (events : List StopEvent) : StoppedService :=
  events.foldl on w

theorem run_concat (w : StoppedService) (events : List StopEvent) (e : StopEvent) :
    w.run (events ++ [e]) = (w.run events).on e := by
  simp only [run, List.foldl_append, List.foldl_cons, List.foldl_nil]

variable {w : StoppedService}

/-- Nothing that was heard since the event lets the loop dial again. -/
def Unheard (w : StoppedService) : Prop :=
  w.sawRunning = false ∧ w.lookFailed = false ∧ w.heardEarlier = false

/-- What holds of a stopped service at every moment. -/
structure Sound (w : StoppedService) : Prop where
  gate : w.stage = .telling ∨ w.stage = .handled → w.Unheard → w.handle.showsRunning = false
  off : w.stage = .handled → w.Unheard → w.wasDialing = false →
    w.loop.phase.isDialing = false ∧ w.loop.client = none ∧ w.loop.dials = w.dialsBefore

theorem start_sound (handle : Handle) (policy : RetryPolicy) : (start handle policy).Sound where
  gate h := by rcases h with h | h <;> cases h
  off h := by cases h

theorem Sound.loop (h : w.Sound) (now : Nat) (event : DialEvent) :
    (w.on (.loop now event)).Sound := by
  by_cases hadmits : event = .admitted
  · rw [hadmits, on]
    split
    · next hshows =>
      refine ⟨h.gate, ?_⟩
      intro hhandled hunheard
      exact absurd (hshows.symm.trans (h.gate (Or.inr hhandled) hunheard)) Bool.false_ne_true.symm
    · exact h
  · have hon : w.on (.loop now event) = { w with loop := w.loop.on now event } := by
      cases event <;> first | rfl | exact absurd rfl hadmits
    rw [hon]
    refine ⟨h.gate, ?_⟩
    intro hhandled hunheard hwas
    obtain ⟨hphase, hclient, hdials⟩ := h.off hhandled hunheard hwas
    have hoff := DialLoop.StaysOff.on hphase now hadmits
    exact ⟨hoff.phase, hoff.client hclient, hoff.dials.trans hdials⟩

theorem Sound.answered (h : w.Sound) (isEarly : Bool) (r : Except ContainerError Snapshot) :
    (w.on (.answered isEarly r)).Sound := by
  cases isEarly with
  | true =>
    rw [on]
    split
    · exact h
    · constructor
      · rintro hstage ⟨hsaw, hfailed, hheard⟩
        obtain ⟨hearlier, hrunning⟩ := Bool.or_eq_false_iff.mp hheard
        have hcame : w.stage ≠ .ahead := by
          intro hahead
          rcases hstage with hs | hs <;> cases hahead.symm.trans hs
        rw [decide_eq_true hcame, Bool.true_and] at hrunning
        have hshut := h.gate hstage ⟨hsaw, hfailed, hearlier⟩
        exact Handle.showsRunning_observe hrunning (Or.inl hshut)
      · rintro hhandled ⟨hsaw, hfailed, hheard⟩ hwas
        exact h.off hhandled ⟨hsaw, hfailed, (Bool.or_eq_false_iff.mp hheard).1⟩ hwas
  | false =>
    rw [on]
    split
    · exact h
    · constructor
      · rintro hstage ⟨hsaw, hfailed, hheard⟩
        obtain ⟨hbefore, hrunning⟩ := Bool.or_eq_false_iff.mp hsaw
        have hshut := h.gate hstage ⟨hbefore, hfailed, hheard⟩
        exact Handle.showsRunning_observe hrunning (Or.inl hshut)
      · rintro hhandled ⟨hsaw, hfailed, hheard⟩ hwas
        exact h.off hhandled ⟨(Bool.or_eq_false_iff.mp hsaw).1, hfailed, hheard⟩ hwas

theorem Sound.looked (h : w.Sound) (r : Except ContainerError Snapshot) :
    (w.on (.looked r)).Sound := by
  rw [on]
  split
  · constructor
    · rintro - ⟨hsaw, hfailed, -⟩
      exact Handle.showsRunning_observe (Bool.or_eq_false_iff.mp hsaw).2 (Or.inr hfailed)
    · intro hhandled
      cases hhandled
  · exact h

theorem Sound.tell (h : w.Sound) : (w.on .tell).Sound := by
  rw [on]
  split
  · next htelling =>
    constructor
    · intro _ hunheard
      exact h.gate (Or.inl htelling) hunheard
    · intro _ _ hwas
      have hoff := DialLoop.StaysOff.on hwas 0 (e := .invalidate) DialEvent.noConfusion
      refine ⟨hoff.phase, ?_, hoff.dials⟩
      simp only [DialLoop.on, DialLoop.invalidate]
      cases hclient : w.loop.client with
      | none => exact hclient
      | some id => rfl
  · exact h

theorem Sound.on (h : w.Sound) (e : StopEvent) : (w.on e).Sound := by
  cases e with
  | loop now event => exact h.loop now event
  | answered isEarly r => exact h.answered isEarly r
  | looked r => exact h.looked r
  | tell => exact h.tell
  | look =>
    simp only [StoppedService.on]
    split <;> exact ⟨h.gate, h.off⟩
  | forget =>
    exact ⟨fun _ _ => w.handle.showsRunning_clear, h.off⟩
  | die =>
    simp only [StoppedService.on]
    split
    · constructor
      · rintro (hs | hs) <;> cases hs
      · intro hs
        cases hs
    · exact h
  | destroy =>
    simp only [StoppedService.on]
    split
    · refine ⟨fun _ _ => w.handle.showsRunning_clear, ?_⟩
      intro hs
      cases hs
    · exact h

theorem run_sound (handle : Handle) (policy : RetryPolicy) (events : List StopEvent) :
    ((start handle policy).run events).Sound := by
  induction events using List.reverseRecOn with
  | nil => exact start_sound handle policy
  | append_singleton events e ih =>
    rw [run_concat]
    exact ih.on e

/-- That the loop has no client and dials no more, once the stop was handled, before a look since the
event shows the container running. -/
def WaitsForRunning (w : StoppedService) : Prop :=
  w.stage = .handled → w.sawRunning = false →
    (∀ id, w.loop.current ≠ .ok id) ∧ w.loop.dials = w.dialsBefore

/-- The loop waits for the container to run again if the event's own look does not fail, no earlier
look is answered late, and no dial is under way when the client is invalidated. -/
theorem run_waitsForRunning (handle : Handle) (policy : RetryPolicy) (events : List StopEvent)
    (hlook : ((start handle policy).run events).lookFailed = false)
    (hheard : ((start handle policy).run events).heardEarlier = false)
    (hdial : ((start handle policy).run events).wasDialing = false) :
    WaitsForRunning ((start handle policy).run events) := by
  have hsound := run_sound handle policy events
  generalize (start handle policy).run events = w at *
  intro hhandled hsaw
  obtain ⟨-, hclient, hdials⟩ := hsound.off hhandled ⟨hsaw, hlook, hheard⟩ hdial
  refine ⟨?_, hdials⟩
  intro id hcurrent
  unfold DialLoop.current at hcurrent
  rw [hclient] at hcurrent
  cases hstate : w.loop.state <;> rw [hstate] at hcurrent <;> cases hcurrent

/-- A container that was seen in a state. -/
def seen (state : LifecycleState) : Snapshot :=
  { id := "1", name := "db", state, env := [], startedAt := none }

/-- The container is seen running, and its backend is dialed. -/
def connecting : List StopEvent :=
  [.look, .answered true (.ok (seen .running)), .loop 0 .proceed, .loop 0 .proceed,
   .loop 0 (.loaded (.ok ())), .loop 0 .admitted, .loop 0 (.dialed (.ok ())), .loop 0 .proceed,
   .loop 0 .proceed]

/-- The container dies, the look at it is answered, and the client is invalidated. -/
def dying (answer : Except ContainerError Snapshot) : List StopEvent :=
  [.die, .looked answer, .tell]

/-- The loop goes on to the next dial, if it may. -/
def redialing : List StopEvent :=
  [.loop 0 .noticedInvalidation, .loop 0 .proceed, .loop 0 .proceed, .loop 0 (.loaded (.ok ())),
   .loop 0 .admitted]

theorem exited_waitsForRunning :
    let w := (start { name := "db" } {}).run (connecting ++ dying (.ok (seen .exited)) ++ redialing)
    (w.stage = .handled ∧ w.sawRunning = false) ∧
      (w.lookFailed = false ∧ w.heardEarlier = false ∧ w.wasDialing = false) ∧ WaitsForRunning w := by
  refine ⟨by decide, by decide, ?_⟩
  apply run_waitsForRunning
  · decide
  · decide
  · decide

/-- After a failed look the loop dials a container that it knows to have run before it died. -/
theorem not_waitsForRunning : ¬ ∀ handle policy events,
    WaitsForRunning ((start handle policy).run events) := by
  intro hall
  have hwaits := hall { name := "db" } {}
    (connecting ++ dying (.error (.engine "db" "daemon hiccup")) ++ redialing)
  obtain ⟨-, hdials⟩ := hwaits (by decide) (by decide)
  exact absurd hdials (by decide)

end StoppedService

/-! ### In a fleet -/

theorem DialLoop.invalidate_invalidate (l : DialLoop) : l.invalidate.invalidate = l.invalidate := by
  cases hclient : l.client <;> simp only [invalidate, hclient]

namespace Fleet

variable {f : Fleet} {c : Nat}

theorem client_invalidate (place : Nat) (hc : c < f.clients.length) :
    (f.onClient .invalidate place).client c =
      if c = place then (f.client c).on .invalidate else f.client c := by
  unfold client onClient
  rw [List.getElem?_modify, List.getElem?_eq_getElem hc]
  by_cases hplace : place = c
  · simp [hplace]
  · simp [hplace, Ne.symm hplace]

theorem client_invalidateAll (places : List Nat) (hc : c < f.clients.length) :
    (places.foldl (fun f place => f.onClient .invalidate place) f).client c =
      if c ∈ places then (f.client c).on .invalidate else f.client c := by
  induction places generalizing f with
  | nil => rfl
  | cons place places ih =>
    have hlength : c < (f.onClient .invalidate place).clients.length := by
      simpa only [onClient, List.length_modify] using hc
    rw [List.foldl_cons, ih hlength, client_invalidate place hc]
    by_cases hplace : c = place
    · simp [hplace, Client.on, DialLoop.on, DialLoop.invalidate_invalidate]
    · simp [hplace]

theorem handle_invalidateAll (places : List Nat) (f : Fleet) (h : Nat) :
    (places.foldl (fun f place => f.onClient .invalidate place) f).handle h = f.handle h := by
  induction places generalizing f with
  | nil => rfl
  | cons place places ih => exact ih (f.onClient .invalidate place)

theorem containerStopped_eq {s : Service} (place : Nat) (hc : c ∈ s.probe.clients) :
    f.containerStopped place s =
      s.probe.clients.foldl (fun f place => f.onClient .invalidate place) f := by
  unfold containerStopped
  split
  · next hprobe => rw [hprobe] at hc; cases hc
  · rfl

theorem handle_set {place : Nat} {h : Handle} (hplace : place < f.handles.length) :
    ((f.handles.set place h)[place]?).getD default = h := by
  rw [List.getElem?_set_self hplace, Option.getD_some]

theorem isSome_refresh_iff {place : Nat} :
    (f.refresh place).1.isSome = true ↔
      ∃ r, (f.engine.inspect (f.handle place).name).1 = .answer r := by
  unfold refresh Site.refresh site
  cases hinspect : f.engine.inspect (f.handle place).name with
  | mk reply engine =>
    cases reply with
    | never => simp
    | answer r => simp

/-- After a look the handle shows what the look found. -/
theorem handle_refresh {place : Nat} {r : Except ContainerError Snapshot}
    (hplace : place < f.handles.length)
    (hr : (f.engine.inspect (f.handle place).name).1 = .answer r) :
    (f.refresh place).2.handle place = ((f.handle place).observe r).2 := by
  unfold refresh Site.refresh site
  cases hinspect : f.engine.inspect (f.handle place).name with
  | mk reply engine =>
    rw [hinspect] at hr
    cases hr
    exact handle_set hplace

/-- What a look that is answered leaves behind. -/
theorem refresh_of_answer {place : Nat} {r : Except ContainerError (Option Snapshot)} {after : Fleet}
    (h : f.refresh place = (some r, after)) (hplace : place < f.handles.length) :
    after.clients = f.clients ∧ ∃ answer, after.handle place = ((f.handle place).observe answer).2 := by
  have hsome : (f.refresh place).1.isSome = true := by rw [h]; rfl
  obtain ⟨answer, hanswer⟩ := isSome_refresh_iff.mp hsome
  have hhandle := handle_refresh hplace hanswer
  have hclients : (f.refresh place).2.clients = f.clients := rfl
  rw [h] at hhandle hclients
  exact ⟨hclients, answer, hhandle⟩

/-- A fleet that handles the death or the destruction of a container goes through a stop with each
client of its service. -/
theorem exists_stop (f : Fleet) (place : Nat) (s : Service) {kind : EventKind}
    (hkind : kind = .die ∨ kind = .destroy) (hanswered : (f.onEvent place s kind).1 = true)
    (hplace : s.handle < f.handles.length) (hc : c ∈ s.probe.clients) (hlength : c < f.clients.length) :
    ∃ events,
      let w := ({ handle := f.handle s.handle, loop := (f.client c).dialLoop } :
        StoppedService).run events
      w.stage = .handled ∧ w.handle = (f.onEvent place s kind).2.handle s.handle ∧
        w.loop = ((f.onEvent place s kind).2.client c).dialLoop := by
  rcases hkind with rfl | rfl
  · cases hr : f.refresh s.handle with
    | mk r after =>
      cases r with
      | none => simp [onEvent, hr] at hanswered
      | some r =>
        obtain ⟨hclients, answer, hhandle⟩ := refresh_of_answer hr hplace
        have hafter : (f.onEvent place s .die).2 =
            s.probe.clients.foldl (fun f c => f.onClient .invalidate c) after := by
          simp only [onEvent, hr]
          exact containerStopped_eq place hc
        have hclient : after.client c = f.client c := by
          unfold client
          rw [hclients]
        refine ⟨[.die, .looked answer, .tell], rfl, ?_, ?_⟩
        · rw [hafter, handle_invalidateAll]
          exact hhandle.symm
        · rw [hafter, client_invalidateAll _ (hclients ▸ hlength), if_pos hc, hclient]
          rfl
  · have hafter : (f.onEvent place s .destroy).2 =
        s.probe.clients.foldl (fun f c => f.onClient .invalidate c)
          { f with handles := f.handles.set s.handle (f.handle s.handle).clear } :=
      containerStopped_eq place hc
    refine ⟨[.destroy, .tell], rfl, ?_, ?_⟩
    · rw [hafter, handle_invalidateAll]
      exact (handle_set hplace).symm
    · have hclient := client_invalidateAll
        (f := { f with handles := f.handles.set s.handle (f.handle s.handle).clear })
        s.probe.clients hlength
      rw [hafter, hclient, if_pos hc]
      rfl

end Fleet

end FleetWatch
