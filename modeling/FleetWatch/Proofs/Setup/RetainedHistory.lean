import FleetWatch.Proofs.Setup.Steps
/-!
The history of a broadcaster over its life.

Steps are published, sessions of logs are loaded, and at some time the broadcaster is closed.  What
was accepted until then is what the calls before the first closing tell, and the history is a window
on the end of it.  Main statement: this holds after any calls, with what every next call answers
(`afterCalls_keepsLatest`).
-/

namespace FleetWatch

/-- What is asked of a broadcaster by those who publish. -/
inductive SetupCall where
  | publish (status : String) (details : Option (List (String × String)))
  | load (path : String) (contents : Except FileFault (List UInt8))
  | close

/-- What comes of a call. -/
inductive SetupReturn where
  | published (m : SetupMilestone)
  | loaded (log : LoadedLog)
  | failed (e : SetupError)
  | closed
deriving Repr, DecidableEq, Inhabited

namespace SetupCall

def isClose : SetupCall → Bool
  | .close => true
  | _ => false

/-- What a call has to publish, in order: of a log that is loaded, its latest session. -/
def tells : SetupCall → List LineMatch
  | .publish status details => [.milestone status details]
  | .load _ (.ok bytes) => loadedSession bytes
  | .load _ (.error _) => []
  | .close => []

/-- What is accepted of several calls: what those before the first closing tell. -/
def accepted (calls : List SetupCall) : List LineMatch :=
  (calls.takeWhile fun c => !c.isClose).flatMap tells

theorem accepted_cons (c : SetupCall) (calls : List SetupCall) :
    accepted (c :: calls) = if c.isClose then [] else c.tells ++ accepted calls := by
  rw [accepted, List.takeWhile_cons]
  cases c.isClose <;> rfl

/-- A call is accepted unless there was a closing before it. -/
theorem accepted_concat (calls : List SetupCall) (c : SetupCall) :
    accepted (calls ++ [c]) = accepted calls ++ if calls.any isClose then [] else c.tells := by
  induction calls with
  | nil => cases c <;> simp [accepted, isClose, tells]
  | cons first calls ih =>
    rw [List.cons_append, accepted_cons, accepted_cons, List.any_cons]
    by_cases hfirst : first.isClose = true
    · simp only [hfirst, if_true, Bool.true_or, List.append_nil]
    · rw [Bool.not_eq_true] at hfirst
      simp only [hfirst, Bool.false_or, Bool.false_eq_true, if_false, ih, List.append_assoc]

end SetupCall

namespace Broadcaster

variable {b : Broadcaster} {c : SetupCall}

def call (b : Broadcaster) : SetupCall → SetupReturn × Broadcaster
  | .publish status details =>
    match b.publish status details with
    | .ok (m, b) => (.published m, b)
    | .error e => (.failed e, b)
  | .load path contents =>
    match b.loadLastSession path contents with
    | (.ok log, b) => (.loaded log, b)
    | (.error e, b) => (.failed e, b)
  | .close => (.closed, b.close)

/-- The broadcaster after several calls, one after the other. -/
def afterCalls (b : Broadcaster) (calls : List SetupCall) : Broadcaster :=
  calls.foldl (fun b c => (b.call c).2) b

theorem afterCalls_concat (b : Broadcaster) (calls : List SetupCall) (c : SetupCall) :
    b.afterCalls (calls ++ [c]) = ((b.afterCalls calls).call c).2 := by
  rw [afterCalls, List.foldl_concat, afterCalls]

/-! ### One call -/

theorem call_load_of_isOpen (h : b.isOpen = true) (path : String) (bytes : List UInt8) :
    b.call (.load path (.ok bytes)) =
      (.loaded (LoadedLog.ofBytes bytes), (b.publishAll (loadedSession bytes)).2) := by
  rw [call, loadLastSession_of_isOpen h]

theorem call_load_of_closed (h : b.isOpen = false) (path : String) (bytes : List UInt8) :
    b.call (.load path (.ok bytes)) =
      (if loadedSession bytes = [] then .loaded (LoadedLog.ofBytes bytes) else .failed .closed,
        b) := by
  rw [call, loadLastSession_of_closed h]
  by_cases hnone : loadedSession bytes = [] <;> simp [hnone]

theorem call_publish_of_closed (h : b.isOpen = false) (status : String)
    (details : Option (List (String × String))) :
    b.call (.publish status details) = (.failed .closed, b) := by
  simp [call, publish, h]

/-- A log that is not there tells nothing. -/
theorem call_load_of_notFound (b : Broadcaster) (path : String) :
    b.call (.load path (.error .notFound)) = (.loaded ⟨0, false⟩, b) :=
  rfl

theorem call_load_of_fault (b : Broadcaster) (path : String) {fault : FileFault}
    (h : fault ≠ .notFound) :
    b.call (.load path (.error fault)) = (.failed (.unreadable path fault), b) := by
  cases fault with
  | notFound => exact absurd rfl h
  | isDirectory | notText => rfl

/-- A log that cannot be read changes nothing. -/
theorem call_load_of_error (b : Broadcaster) (path : String) (fault : FileFault) :
    (b.call (.load path (.error fault))).2 = b := by
  by_cases hfault : fault = .notFound
  · rw [hfault, call_load_of_notFound]
  · rw [call_load_of_fault b path hfault]

/-- A broadcaster that is closed stays as it is, whatever is asked of it. -/
theorem call_of_closed (h : b.isOpen = false) (c : SetupCall) : (b.call c).2 = b := by
  cases c with
  | publish status details => rw [call_publish_of_closed h]
  | load path contents =>
    cases contents with
    | error fault => exact call_load_of_error b path fault
    | ok bytes => rw [call_load_of_closed h]
  | close => rw [call, close, ← h]

/-- An open broadcaster accepts what a call tells, and stays open unless the call closes it. -/
theorem call_of_isOpen (h : b.isOpen = true) (c : SetupCall) {steps : List SetupMilestone}
    (hsteps : b.Accepted steps) :
    (b.call c).2.Accepted (steps ++ stepsFrom (steps.length + 1) c.tells) ∧
      (b.call c).2.capacity = b.capacity ∧ (b.call c).2.isOpen = !c.isClose := by
  have hpublishes : ∀ ms, (b.publishAll ms).2.Accepted (steps ++ stepsFrom (steps.length + 1) ms) ∧
      (b.publishAll ms).2.capacity = b.capacity ∧ (b.publishAll ms).2.isOpen = true := by
    intro ms
    obtain ⟨haccepted, hcapacity⟩ := publishAll_steps h ms hsteps
    exact ⟨haccepted, hcapacity, (publishAll_of_isOpen h ms).2⟩
  cases c with
  | publish status details =>
    have hone : (b.call (.publish status details)).2 =
        (b.publishAll [.milestone status details]).2 := by
      simp [call, publishAll, publishMatch, publish, h, LineMatch.status, LineMatch.details]
    rw [hone]
    exact hpublishes [.milestone status details]
  | load path contents =>
    cases contents with
    | error fault =>
      rw [call_load_of_error]
      exact hpublishes []
    | ok bytes =>
      rw [call_load_of_isOpen h]
      exact hpublishes (loadedSession bytes)
  | close =>
    have hclosed := close_accepted hsteps
    rw [← List.append_nil steps] at hclosed
    exact ⟨hclosed, rfl, rfl⟩

/-! ### All calls -/

/-- What holds of a broadcaster after some calls. -/
structure Keeps (capacity : Nat) (calls : List SetupCall) (b : Broadcaster) : Prop where
  capacity_eq : b.capacity = max capacity 1
  isOpen_eq : b.isOpen = !calls.any SetupCall.isClose
  accepted : b.Accepted (stepsFrom 1 (SetupCall.accepted calls))

theorem Keeps.call {capacity : Nat} {calls : List SetupCall} (h : Keeps capacity calls b)
    (c : SetupCall) : Keeps capacity (calls ++ [c]) (b.call c).2 := by
  have hany : (calls ++ [c]).any SetupCall.isClose = (calls.any SetupCall.isClose || c.isClose) := by
    rw [List.any_append, List.any_cons, List.any_nil, Bool.or_false]
  have hopen := h.isOpen_eq
  cases hclosed : calls.any SetupCall.isClose with
  | true =>
    rw [hclosed, Bool.not_true] at hopen
    have hsame := call_of_closed hopen c
    refine ⟨?_, ?_, ?_⟩
    · rw [hsame, h.capacity_eq]
    · rw [hsame, hany, hclosed, hopen, Bool.true_or, Bool.not_true]
    · rw [hsame, SetupCall.accepted_concat, hclosed, if_pos rfl, List.append_nil]
      exact h.accepted
  | false =>
    rw [hclosed, Bool.not_false] at hopen
    obtain ⟨haccepted, hcapacity, hstill⟩ := call_of_isOpen hopen c h.accepted
    refine ⟨?_, ?_, ?_⟩
    · rw [hcapacity, h.capacity_eq]
    · rw [hstill, hany, hclosed, Bool.false_or]
    · rw [SetupCall.accepted_concat, hclosed, if_neg Bool.false_ne_true, stepsFrom_append,
        Nat.add_comm 1]
      rwa [length_stepsFrom] at haccepted

theorem afterCalls_keeps (capacity : Nat) (calls : List SetupCall) :
    Keeps capacity calls ((create capacity).afterCalls calls) := by
  induction calls using List.reverseRecOn with
  | nil => exact ⟨rfl, rfl, create_accepted capacity⟩
  | append_singleton calls c ih =>
    rw [afterCalls_concat]
    exact ih.call c

/-- What a broadcaster keeps after some calls, and what comes of every next one.  A broadcaster is
open until the first closing. -/
structure KeepsLatest (capacity : Nat) (calls : List SetupCall) (b : Broadcaster) : Prop where
  isOpen_iff : b.isOpen = true ↔ ∀ c ∈ calls, c.isClose = false
  /-- The history is the end of all that was accepted, oldest first. -/
  history_suffix : b.history <:+ stepsFrom 1 (SetupCall.accepted calls)
  length_history : b.history.length = min (SetupCall.accepted calls).length (max capacity 1)
  /-- The numbers follow each other and end with how many were accepted. -/
  numbers_history : b.history.map SetupMilestone.seq =
    List.range' ((SetupCall.accepted calls).length + 1 - b.history.length) b.history.length
  nextSeq_eq : b.nextSeq = (SetupCall.accepted calls).length + 1
  /-- A step that is published takes the next number, and the place of the oldest if there is no
  room. -/
  publish_open : b.isOpen = true → ∀ status details,
    let m : SetupMilestone := { seq := b.nextSeq, status, details }
    (b.call (.publish status details)).1 = .published m ∧
      (b.call (.publish status details)).2.history =
        (if b.history.length = max capacity 1 then b.history.tail else b.history) ++ [m]
  load_open : b.isOpen = true → ∀ path bytes,
    (b.call (.load path (.ok bytes))).1 = .loaded (LoadedLog.ofBytes bytes)
  publish_closed : b.isOpen = false → ∀ status details,
    b.call (.publish status details) = (.failed .closed, b)
  /-- Loading fails only for the steps that there are to publish, and publishes none. -/
  load_closed : b.isOpen = false → ∀ path bytes, b.call (.load path (.ok bytes)) =
    (if loadedSession bytes = [] then .loaded (LoadedLog.ofBytes bytes) else .failed .closed, b)
  load_missing : ∀ path, b.call (.load path (.error .notFound)) = (.loaded ⟨0, false⟩, b)
  load_unreadable : ∀ path fault, fault ≠ .notFound →
    b.call (.load path (.error fault)) = (.failed (.unreadable path fault), b)

theorem afterCalls_keepsLatest (capacity : Nat) (calls : List SetupCall) :
    KeepsLatest capacity calls ((create capacity).afterCalls calls) := by
  have h := afterCalls_keeps capacity calls
  generalize (create capacity).afterCalls calls = b at h ⊢
  have hsteps : (stepsFrom 1 (SetupCall.accepted calls)).length =
      (SetupCall.accepted calls).length := length_stepsFrom _ _
  have hlength : b.history.length = min (SetupCall.accepted calls).length (max capacity 1) := by
    rw [h.accepted.history_eq, lastOf_length, h.capacity_eq, hsteps, Nat.min_comm]
  refine
    { isOpen_iff := ?_
      history_suffix := h.accepted.history_eq ▸ lastOf_suffix _ _
      length_history := hlength
      numbers_history := ?_
      nextSeq_eq := by rw [h.accepted.nextSeq_eq, hsteps]
      publish_open := fun hopen status details => ?_
      load_open := fun hopen path bytes => by rw [call_load_of_isOpen hopen]
      publish_closed := fun hclosed => call_publish_of_closed hclosed
      load_closed := fun hclosed => call_load_of_closed hclosed
      load_missing := call_load_of_notFound b
      load_unreadable := fun path fault hfault => call_load_of_fault b path hfault }
  · simp [h.isOpen_eq]
  · -- those that fell out are as many as the history has no room for
    have hnumbers : b.history.map SetupMilestone.seq = (List.range' 1
        (SetupCall.accepted calls).length).drop
          ((SetupCall.accepted calls).length - max capacity 1) := by
      rw [h.accepted.history_eq, lastOf, List.map_drop, map_seq_stepsFrom, hsteps, h.capacity_eq]
    rw [hnumbers, List.drop_range', hlength]
    congr 1
    · omega
    · omega
  · have hroom : b.history.length ≤ b.capacity := by
      rw [hlength, h.capacity_eq]
      exact Nat.min_le_right _ _
    simp only [call, publish, hopen, if_true, ← h.capacity_eq,
      lastOf_concat_of_le b.capacity_pos hroom, true_and]

end Broadcaster

end FleetWatch
