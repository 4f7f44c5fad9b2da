import FleetWatch.Container.Session
import Mathlib.Data.List.Induction
/-!
Closing an interactive session.

Closing waits for the pump, and nobody reads meanwhile.  The pump asks whether the session is
cancelled only while it waits for output.  With at most `outputCapacity` chunks unread it can still
get there and stop; with one more it holds a chunk that the full channel never takes, and closing
never ends.
-/

namespace FleetWatch

namespace Session

/-- What a pump does next.  One that waits for output may find both that there is some and that the
session is cancelled, and goes by either. -/
inductive PumpChoice where
  | noticeCancel
  | pull
  | pass
deriving Repr, DecidableEq

/-- The session after its pump did something, or `none` if the pump cannot. -/
def pumpOn? (s : Session) (choice : PumpChoice) : Option Session :=
  match choice, s.pump with
  | .noticeCancel, .reading => if s.isCancelled then some s.stopPump else none
  | .pull, .reading => s.pull?
  | .pass, .passing chunk => s.pass? chunk
  | _, _ => none

/-- The session after somebody took the first chunk that was passed on. -/
def take (s : Session) : Session :=
  { s with output := { s.output with items := s.output.items.tail } }

/-- The chunks that nobody has read: those in the channel, and one that the pump holds. -/
def unread (s : Session) : Nat :=
  s.output.items.length +
    match s.pump with
    | .passing _ => 1
    | _ => 0

variable {s : Session}

/-- What the pump does by itself is one of these choices. -/
theorem exists_choice {s' : Session} (h : s.step? = some s') :
    ∃ choice, s.pumpOn? choice = some s' := by
  cases hp : s.pump with
  | stopped => simp [step?, hp] at h
  | reading =>
    by_cases hc : s.isCancelled = true
    · refine ⟨.noticeCancel, ?_⟩
      simpa [step?, pumpOn?, hp, hc] using h
    · refine ⟨.pull, ?_⟩
      simpa only [step?, pumpOn?, hp, if_neg hc] using h
  | passing chunk =>
    refine ⟨.pass, ?_⟩
    simpa only [step?, pumpOn?, hp] using h

/-- The pump waits by itself only where it has no choice at all. -/
theorem step?_eq_none_iff : s.step? = none ↔ ∀ choice, s.pumpOn? choice = none := by
  constructor
  · intro h choice
    cases hp : s.pump with
    | stopped => cases choice <;> simp only [pumpOn?, hp]
    | reading =>
      have hc : ¬ s.isCancelled = true := by
        intro hc
        simp [step?, hp, hc] at h
      cases choice with
      | noticeCancel => simp only [pumpOn?, hp, if_neg hc]
      | pull => simpa only [step?, pumpOn?, hp, if_neg hc] using h
      | pass => simp only [pumpOn?, hp]
    | passing chunk =>
      cases choice with
      | noticeCancel => simp only [pumpOn?, hp]
      | pull => simp only [pumpOn?, hp]
      | pass => simpa only [step?, pumpOn?, hp] using h
  · intro h
    by_contra hstep
    obtain ⟨s', hs'⟩ := Option.ne_none_iff_exists'.mp hstep
    obtain ⟨choice, hchoice⟩ := exists_choice hs'
    exact absurd ((h choice).symm.trans hchoice) (Option.some_ne_none s').symm

/-- A read takes the first chunk or changes nothing. -/
theorem read_cases (s : Session) : s.read.2 = s.take ∨ s.read.2 = s := by
  unfold read
  split
  · exact Or.inr rfl
  · split
    · next hitems => exact Or.inl (by simp only [take, hitems, List.tail_cons])
    · exact Or.inr rfl

end Session

/-! ### Runs -/

/-- A session that somebody may be closing. -/
structure AttendedSession where
  session : Session
  isClosing : Bool := false

/-- What happens to a session. -/
inductive SessionEvent where
  | pump (choice : Session.PumpChoice)
  /-- The command prints something more, or its output fails. -/
  | print (item : Except ContainerError (List UInt8))
  /-- A read takes a chunk. -/
  | take
  | write (bytes : List UInt8)
  /-- Somebody else cancels the session. -/
  | cancel
  /-- Closing begins. -/
  | close

namespace AttendedSession

open Session

def start (container : String) (a : Attachment) : AttendedSession where
  session := Session.start container a

/-- The session after something happened.  Whoever closes it neither reads nor writes any more, and
a stream that has ended yields nothing more. -/
def on (w : AttendedSession) : SessionEvent → AttendedSession
  | .pump choice => { w with session := (w.session.pumpOn? choice).getD w.session }
  | .print item =>
    match w.session.feed.rest with
    | .silent =>
      let feed := { w.session.feed with items := w.session.feed.items ++ [item] }
      { w with session := { w.session with feed } }
    | _ => w
  | .take => if w.isClosing then w else { w with session := w.session.take }
  | .write bytes => if w.isClosing then w else { w with session := (w.session.write bytes).2 }
  | .cancel => { w with session := w.session.cancel }
  | .close => { session := w.session.cancel, isClosing := true }

def run (w : AttendedSession) (events : List SessionEvent) : AttendedSession :=
  events.foldl on w

theorem run_append (w : AttendedSession) (first rest : List SessionEvent) :
    w.run (first ++ rest) = (w.run first).run rest :=
  List.foldl_append

theorem run_concat (w : AttendedSession) (events : List SessionEvent) (e : SessionEvent) :
    w.run (events ++ [e]) = (w.run events).on e :=
  w.run_append events [e]

variable {w : AttendedSession}

/-- What holds of a session at every moment. -/
structure Sound (w : AttendedSession) : Prop where
  capacity_eq : w.session.output.capacity = outputCapacity
  length_le : w.session.output.items.length ≤ outputCapacity
  /-- The channel goes with the session, so it has a reader while there is one. -/
  hasReader : w.session.output.readerGone = false
  isCancelled : w.isClosing = true → w.session.isCancelled = true

theorem start_sound (container : String) (a : Attachment) : (start container a).Sound where
  capacity_eq := rfl
  length_le := Nat.zero_le _
  hasReader := rfl
  isCancelled h := by cases h

theorem Sound.pull (h : w.Sound) {s : Session} (hs : w.session.pull? = some s) :
    Sound { w with session := s } := by
  unfold pull? at hs
  split at hs
  · cases hs
  · cases hs
    exact ⟨h.capacity_eq, h.length_le, h.hasReader, h.isCancelled⟩
  · cases hs
    exact ⟨h.capacity_eq, h.length_le, h.hasReader, h.isCancelled⟩
  · cases hs
    exact ⟨h.capacity_eq, h.length_le, h.hasReader, h.isCancelled⟩

theorem Sound.pass (h : w.Sound) {chunk : List UInt8} {s : Session}
    (hs : w.session.pass? chunk = some s) : Sound { w with session := s } := by
  unfold pass? at hs
  split at hs
  · cases hs
    exact ⟨h.capacity_eq, h.length_le, h.hasReader, h.isCancelled⟩
  · split at hs
    · next hroom =>
      cases hs
      refine ⟨h.capacity_eq, ?_, h.hasReader, h.isCancelled⟩
      have hlt : w.session.output.items.length < outputCapacity := by
        rw [← h.capacity_eq]
        exact of_decide_eq_true hroom
      rw [Channel.send, List.length_append, List.length_singleton]
      exact hlt
    · cases hs

theorem Sound.pump (h : w.Sound) {choice : PumpChoice} {s : Session}
    (hs : w.session.pumpOn? choice = some s) : Sound { w with session := s } := by
  unfold pumpOn? at hs
  split at hs
  · split at hs
    · cases hs
      exact ⟨h.capacity_eq, h.length_le, h.hasReader, h.isCancelled⟩
    · cases hs
  · exact h.pull hs
  · exact h.pass hs
  · cases hs

theorem write_output (s : Session) (bytes : List UInt8) :
    (s.write bytes).2.output = s.output ∧ (s.write bytes).2.isCancelled = s.isCancelled := by
  unfold write
  split
  · exact ⟨rfl, rfl⟩
  · split
    · exact ⟨rfl, rfl⟩
    · split <;> exact ⟨rfl, rfl⟩

theorem Sound.on (h : w.Sound) (e : SessionEvent) : (w.on e).Sound := by
  cases e with
  | pump choice =>
    simp only [AttendedSession.on]
    cases hs : w.session.pumpOn? choice with
    | none => exact h
    | some s => exact h.pump hs
  | print item =>
    simp only [AttendedSession.on]
    split
    · exact ⟨h.capacity_eq, h.length_le, h.hasReader, h.isCancelled⟩
    · exact h
  | take =>
    simp only [AttendedSession.on]
    split
    · exact h
    · refine ⟨h.capacity_eq, ?_, h.hasReader, h.isCancelled⟩
      simp only [take, List.length_tail]
      exact Nat.le_trans (Nat.sub_le _ _) h.length_le
  | write bytes =>
    simp only [AttendedSession.on]
    obtain ⟨houtput, hcancelled⟩ := write_output w.session bytes
    split
    · exact h
    · constructor
      · simpa only [houtput] using h.capacity_eq
      · simpa only [houtput] using h.length_le
      · simpa only [houtput] using h.hasReader
      · simpa only [hcancelled] using h.isCancelled
  | cancel => exact ⟨h.capacity_eq, h.length_le, h.hasReader, fun _ => rfl⟩
  | close => exact ⟨h.capacity_eq, h.length_le, h.hasReader, fun _ => rfl⟩

theorem run_sound (container : String) (a : Attachment) (events : List SessionEvent) :
    ((start container a).run events).Sound := by
  induction events using List.reverseRecOn with
  | nil => exact start_sound container a
  | append_singleton events e ih =>
    rw [run_concat]
    exact ih.on e

theorem isClosing_on (h : w.isClosing = true) (e : SessionEvent) : (w.on e).isClosing = true := by
  cases e with
  | print item =>
    simp only [AttendedSession.on]
    split <;> exact h
  | take => simp only [AttendedSession.on, h, if_true]
  | write bytes => simp only [AttendedSession.on, h, if_true]
  | pump choice => exact h
  | cancel => exact h
  | close => rfl

theorem isClosing_run (h : w.isClosing = true) (events : List SessionEvent) :
    (w.run events).isClosing = true := by
  induction events using List.reverseRecOn with
  | nil => exact h
  | append_singleton events e ih =>
    rw [run_concat]
    exact isClosing_on ih e

/-- The pump of a session that is being closed can stop if the channel has room for the chunk that
it may hold. -/
theorem Sound.exists_stop (h : w.Sound) (hclosing : w.isClosing = true)
    (hunread : w.session.unread ≤ outputCapacity) :
    ∃ choices : List PumpChoice, (w.run (choices.map .pump)).session.hasStopped = true := by
  have hcancelled := h.isCancelled hclosing
  cases hp : w.session.pump with
  | stopped => exact ⟨[], by simp [run, hasStopped, hp]⟩
  | reading =>
    refine ⟨[.noticeCancel], ?_⟩
    simp [run, AttendedSession.on, pumpOn?, hp, hcancelled, stopPump, hasStopped]
  | passing chunk =>
    refine ⟨[.pass, .noticeCancel], ?_⟩
    have hroom : w.session.output.hasRoom = true := by
      apply decide_eq_true
      rw [h.capacity_eq]
      rw [unread, hp] at hunread
      exact hunread
    simp [run, AttendedSession.on, pumpOn?, pass?, hp, hcancelled, h.hasReader, hroom, stopPump,
      hasStopped]

/-- The pump holds a chunk for a full channel that nobody reads any more. -/
structure Stuck (w : AttendedSession) : Prop where
  isClosing : w.isClosing = true
  full : w.session.output.hasRoom = false
  hasReader : w.session.output.readerGone = false
  holds : ∃ chunk, w.session.pump = .passing chunk

theorem Sound.stuck (h : w.Sound) (hclosing : w.isClosing = true)
    (hunread : outputCapacity < w.session.unread) : w.Stuck := by
  have hle := h.length_le
  cases hp : w.session.pump with
  | stopped =>
    simp only [unread, hp] at hunread
    omega
  | reading =>
    simp only [unread, hp] at hunread
    omega
  | passing chunk =>
    simp only [unread, hp] at hunread
    refine ⟨hclosing, ?_, h.hasReader, chunk, hp⟩
    apply decide_eq_false
    rw [h.capacity_eq]
    omega

/-- Nothing frees a pump that is stuck. -/
theorem Stuck.on (h : w.Stuck) (e : SessionEvent) : (w.on e).Stuck := by
  obtain ⟨chunk, hp⟩ := h.holds
  cases e with
  | pump choice =>
    have hnone : w.session.pumpOn? choice = none := by
      cases choice <;> simp [pumpOn?, pass?, hp, h.hasReader, h.full]
    simpa only [AttendedSession.on, hnone, Option.getD_none] using h
  | print item =>
    simp only [AttendedSession.on]
    split
    · exact ⟨h.isClosing, h.full, h.hasReader, h.holds⟩
    · exact h
  | take => simpa only [AttendedSession.on, h.isClosing, if_true] using h
  | write bytes => simpa only [AttendedSession.on, h.isClosing, if_true] using h
  | cancel => exact ⟨h.isClosing, h.full, h.hasReader, h.holds⟩
  | close => exact ⟨rfl, h.full, h.hasReader, h.holds⟩

theorem Stuck.run (h : w.Stuck) (events : List SessionEvent) : (w.run events).Stuck := by
  induction events using List.reverseRecOn with
  | nil => exact h
  | append_singleton events e ih =>
    rw [run_concat]
    exact ih.on e

theorem Stuck.not_stopped (h : w.Stuck) : w.session.hasStopped = false := by
  obtain ⟨chunk, hp⟩ := h.holds
  simp [hasStopped, hp]

/-- While a session is being closed its pump can still stop if at most as many chunks are unread as
the channel takes; with more it never stops, whatever happens. -/
theorem closing_stops_or_never (container : String) (a : Attachment)
    (before after : List SessionEvent) :
    let w := (start container a).run (before ++ .close :: after)
    if w.session.unread ≤ outputCapacity then
      ∃ choices : List PumpChoice, (w.run (choices.map .pump)).session.hasStopped = true
    else ∀ later, (w.run later).session.hasStopped = false := by
  intro w
  have hsound : w.Sound := run_sound container a _
  have hclosing : w.isClosing = true := by
    have hrun : w = (((start container a).run before).on .close).run after :=
      (start container a).run_append before (.close :: after)
    rw [hrun]
    exact isClosing_run rfl after
  split
  · next hunread => exact hsound.exists_stop hclosing hunread
  · next hunread =>
    intro later
    exact ((hsound.stuck hclosing (Nat.lt_of_not_le hunread)).run later).not_stopped

/-- The pump passes on as many chunks. -/
def passOn (count : Nat) : List SessionEvent :=
  (List.replicate count [.pump .pull, .pump .pass]).flatten

theorem passOn_succ (count : Nat) :
    passOn (count + 1) = [.pump .pull, .pump .pass] ++ passOn count := by
  rw [passOn, List.replicate_succ, List.flatten_cons, passOn]

/-- Where the pump is, with some items to come and so many chunks in the channel. -/
structure Stands (w : AttendedSession) (pump : Pump)
    (items : List (Except ContainerError (List UInt8))) (passed : Nat) : Prop where
  pump_eq : w.session.pump = pump
  items_eq : w.session.feed.items = items
  length_eq : w.session.output.items.length = passed
  capacity_eq : w.session.output.capacity = outputCapacity
  hasReader : w.session.output.readerGone = false

section Passing

variable {chunk : List UInt8} {items : List (Except ContainerError (List UInt8))} {passed : Nat}

theorem Stands.pull (h : w.Stands .reading (.ok chunk :: items) passed) :
    (w.on (.pump .pull)).Stands (.passing chunk) items passed := by
  have hpull : w.session.pumpOn? .pull = some
      { w.session with feed := { w.session.feed with items }, pump := .passing chunk } := by
    simp only [pumpOn?, h.pump_eq, pull?, Feed.pull, h.items_eq]
  rw [AttendedSession.on, hpull]
  exact ⟨rfl, rfl, h.length_eq, h.capacity_eq, h.hasReader⟩

theorem Stands.pass (h : w.Stands (.passing chunk) items passed) (hroom : passed < outputCapacity) :
    (w.on (.pump .pass)).Stands .reading items (passed + 1) := by
  have hhas : w.session.output.hasRoom = true := by
    apply decide_eq_true
    rw [h.length_eq, h.capacity_eq]
    exact hroom
  have hpass : w.session.pumpOn? .pass = some
      { w.session with pump := .reading, output := w.session.output.send chunk } := by
    simp only [pumpOn?, h.pump_eq, pass?, h.hasReader, hhas, Bool.false_eq_true, if_false, if_true]
  rw [AttendedSession.on, hpass]
  refine ⟨rfl, h.items_eq, ?_, h.capacity_eq, h.hasReader⟩
  rw [Option.getD_some, Channel.send, List.length_append, h.length_eq, List.length_singleton]

/-- Closing finds the pump with a chunk that a full channel does not take. -/
theorem Stands.stuck (h : w.Stands (.passing chunk) items outputCapacity) : (w.on .close).Stuck := by
  refine ⟨rfl, ?_, h.hasReader, chunk, h.pump_eq⟩
  apply decide_eq_false
  exact Nat.not_lt_of_le (Nat.le_of_eq (h.capacity_eq.trans h.length_eq.symm))

theorem Stands.passOn {chunks : List (List UInt8)}
    (h : w.Stands .reading (chunks.map .ok ++ items) passed)
    (hroom : passed + chunks.length ≤ outputCapacity) :
    (w.run (AttendedSession.passOn chunks.length)).Stands .reading items
      (passed + chunks.length) := by
  induction chunks generalizing w passed with
  | nil => exact h
  | cons chunk chunks ih =>
    rw [List.length_cons] at hroom ⊢
    have hround : (w.run [.pump .pull, .pump .pass]).Stands .reading (chunks.map .ok ++ items)
        (passed + 1) :=
      h.pull.pass (by omega)
    rw [passOn_succ, run_append, Nat.add_comm chunks.length 1, ← Nat.add_assoc]
    apply ih hround
    omega

end Passing

/-- A command that prints more chunks than the channel takes can strand whoever closes its session
without reading. -/
theorem exists_stuck (container : String) (a : Attachment) (chunks : List (List UInt8))
    (rest : List (Except ContainerError (List UInt8)))
    (hitems : a.output.items = chunks.map .ok ++ rest) (hlong : outputCapacity < chunks.length) :
    ∃ before, ((start container a).run (before ++ [.close])).Stuck := by
  -- The channel takes the first chunks, and the pump takes in the one after them.
  obtain ⟨chunk, more, hmore⟩ : ∃ chunk more, chunks.drop outputCapacity = chunk :: more := by
    apply List.exists_cons_of_length_pos
    rw [List.length_drop]
    omega
  have hfirst : (chunks.take outputCapacity).length = outputCapacity :=
    List.length_take_of_le (Nat.le_of_lt hlong)
  have hcut : a.output.items =
      (chunks.take outputCapacity).map .ok ++ .ok chunk :: (more.map .ok ++ rest) := by
    rw [hitems, ← List.cons_append, ← List.map_cons, ← hmore, ← List.append_assoc,
      ← List.map_append, List.take_append_drop]
  have hstart : (start container a).Stands .reading _ 0 := ⟨rfl, hcut, rfl, rfl, rfl⟩
  have hfull := hstart.passOn (by omega)
  rw [hfirst, Nat.zero_add] at hfull
  refine ⟨passOn outputCapacity ++ [.pump .pull], ?_⟩
  rw [run_concat, run_concat]
  exact hfull.pull.stuck

/-- A command that has printed one chunk more than the channel takes, and goes on running. -/
def talkative : Attachment where
  execId := "exec-s"
  output := { items := (List.replicate 65 [0x2E]).map .ok, rest := .silent }
  echoes := false
  inputClosed := false

/-- Closing a session with more chunks unread than the channel takes never ends. -/
theorem not_closing_stops : ¬ ∀ container a before after, ∃ later : List SessionEvent,
    (((start container a).run (before ++ .close :: after)).run later).session.hasStopped = true := by
  intro hall
  have hlong : outputCapacity < (List.replicate 65 [(0x2E : UInt8)]).length := by
    rw [List.length_replicate]
    decide
  obtain ⟨before, hstuck⟩ :=
    exists_stuck "db" talkative _ [] (List.append_nil _).symm hlong
  obtain ⟨later, hstopped⟩ := hall "db" talkative before []
  exact absurd (hstopped.symm.trans (hstuck.run later).not_stopped) (by decide)

end AttendedSession

end FleetWatch
