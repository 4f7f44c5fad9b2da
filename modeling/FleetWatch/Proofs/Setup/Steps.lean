import FleetWatch.Proofs.Setup.Accepted
import FleetWatch.Proofs.Setup.LogMatches
/-!
The steps that a log is published as.

Each match of a log is one step, numbered in order.  The steps up to the first that says that the
bring-up is done are all that somebody needs who waits for its end; of a session that is over, that
is the whole session.
-/

namespace FleetWatch

/-- Whether a step says that the bring-up is done. -/
def SetupMilestone.isDone (m : SetupMilestone) : Bool :=
  m.status == LineMatch.doneStatus

/-- The steps that matches are published as, numbered from a number on. -/
def stepsFrom (number : Nat) : List LineMatch → List SetupMilestone
  | [] => []
  | m :: rest =>
    { seq := number, status := m.status, details := m.details } :: stepsFrom (number + 1) rest

/-- The steps up to the first that says done, or all of them. -/
def upToDone (steps : List SetupMilestone) : List SetupMilestone :=
  steps.take (steps.findIdx SetupMilestone.isDone + 1)

/-! ### Numbers -/

theorem length_stepsFrom (number : Nat) (ms : List LineMatch) :
    (stepsFrom number ms).length = ms.length := by
  induction ms generalizing number with
  | nil => rfl
  | cons m ms ih => rw [stepsFrom, List.length_cons, List.length_cons, ih]

theorem stepsFrom_append (number : Nat) (xs ys : List LineMatch) :
    stepsFrom number (xs ++ ys) = stepsFrom number xs ++ stepsFrom (number + xs.length) ys := by
  induction xs generalizing number with
  | nil => rfl
  | cons m xs ih =>
    rw [List.cons_append, stepsFrom, ih, stepsFrom, List.cons_append, List.length_cons,
      Nat.add_assoc, Nat.add_comm 1]

theorem map_stepsFrom (number : Nat) (ms : List LineMatch) :
    (stepsFrom number ms).map (fun m => (m.status, m.details)) =
      ms.map fun m => (m.status, m.details) := by
  induction ms generalizing number with
  | nil => rfl
  | cons m ms ih => rw [stepsFrom, List.map_cons, List.map_cons, ih]

theorem map_seq_stepsFrom (number : Nat) (ms : List LineMatch) :
    (stepsFrom number ms).map SetupMilestone.seq = List.range' number ms.length := by
  induction ms generalizing number with
  | nil => rfl
  | cons m ms ih => rw [stepsFrom, List.map_cons, ih, List.length_cons, List.range'_succ]

theorem stepsFrom_prefix_of (number : Nat) {xs ys : List LineMatch} (h : xs <+: ys) :
    stepsFrom number xs <+: stepsFrom number ys := by
  obtain ⟨rest, rfl⟩ := h
  rw [stepsFrom_append]
  exact List.prefix_append _ _

namespace Broadcaster

/-- An open broadcaster publishes matches as the steps that come next. -/
theorem publishAll_steps {b : Broadcaster} (hopen : b.isOpen = true) (ms : List LineMatch)
    {steps : List SetupMilestone} (h : b.Accepted steps) :
    (b.publishAll ms).2.Accepted (steps ++ stepsFrom (steps.length + 1) ms) ∧
      (b.publishAll ms).2.capacity = b.capacity := by
  induction ms generalizing b steps with
  | nil =>
    rw [stepsFrom, List.append_nil]
    exact ⟨h, rfl⟩
  | cons m ms ih =>
    rcases b.publish_cases m.status m.details with ⟨hclosed, _⟩ | ⟨_, first, b', hpublish, hrest⟩
    · exact absurd (hopen.symm.trans hclosed) Bool.false_ne_true.symm
    · obtain ⟨hstatus, hdetails, hopen', hcapacity, haccepted⟩ := hrest
      have hnext := haccepted steps h
      have hseq : first.seq = steps.length + 1 := by
        have hnumbered := (NumberedFrom.append_iff.1 hnext.numbered).2.1
        omega
      have hfirst : first =
          { seq := steps.length + 1, status := m.status, details := m.details } := by
        rw [← hseq, ← hstatus, ← hdetails]
      obtain ⟨hlater, hsame⟩ := ih hopen' hnext
      rw [List.length_append, List.length_singleton, List.append_assoc, List.singleton_append,
        hfirst] at hlater
      simp only [publishAll, publishMatch, hpublish, stepsFrom]
      exact ⟨hlater, hsame.trans hcapacity⟩

end Broadcaster

/-- Every match takes a byte or more. -/
theorem length_logMatches_le (bytes : List UInt8) : (logMatches bytes).length ≤ bytes.length := by
  have hlines : (completeLines bytes).length ≤ bytes.length := by
    induction bytes using lines_induction with
    | unfinished bytes hnone =>
      rw [completeLines_of_not_mem hnone]
      exact Nat.zero_le _
    | line first rest hfirst ih =>
      rw [completeLines_line hfirst, List.length_cons, List.length_append, List.length_cons]
      omega
  exact Nat.le_trans (List.length_filterMap_le _ _) hlines

/-! ### The end -/

/-- Only the line that hands over to the shell is published as the end. -/
theorem status_ne_done {line : String} {m : LineMatch} (hread : readSetupLine line = some m)
    (hm : m ≠ .finished) : m.status ≠ LineMatch.doneStatus := by
  unfold readSetupLine at hread
  split at hread
  · cases hread
    exact show "Syncing light clients" ≠ LineMatch.doneStatus by decide
  · split at hread
    · next step hstep =>
      cases hread
      have hplain : ∀ step ∈ plainMilestones, step ≠ LineMatch.doneStatus := by decide
      exact hplain step (List.mem_of_find?_eq_some hstep)
    · split at hread
      · cases hread
        exact absurd rfl hm
      · cases hread

theorem not_isDone_of_mem_stepsFrom {bytes : List UInt8} {ms : List LineMatch}
    (hread : ∀ m ∈ ms, m ∈ logMatches bytes) (hgoing : .finished ∉ ms) {number : Nat}
    {step : SetupMilestone} (hstep : step ∈ stepsFrom number ms) : step.isDone = false := by
  induction ms generalizing number with
  | nil => cases hstep
  | cons m ms ih =>
    rw [List.mem_cons, not_or] at hgoing
    rw [List.forall_mem_cons] at hread
    rw [stepsFrom, List.mem_cons] at hstep
    rcases hstep with rfl | hlater
    · obtain ⟨line, -, hline⟩ := List.mem_filterMap.1 hread.1
      exact beq_eq_false_iff_ne.2 (status_ne_done hline (Ne.symm hgoing.1))
    · exact ih hread.2 hgoing.2 hlater

theorem upToDone_cons (m : SetupMilestone) (rest : List SetupMilestone) :
    upToDone (m :: rest) = m :: if m.isDone then [] else upToDone rest := by
  rw [upToDone, List.findIdx_cons]
  cases m.isDone <;> rfl

theorem upToDone_append {xs : List SetupMilestone} (h : xs.any SetupMilestone.isDone = false)
    (ys : List SetupMilestone) : upToDone (xs ++ ys) = xs ++ upToDone ys := by
  induction xs with
  | nil => rfl
  | cons m xs ih =>
    rw [List.any_cons, Bool.or_eq_false_iff] at h
    rw [List.cons_append, upToDone_cons, h.1, ih h.2]
    rfl

/-- What comes after the end makes no difference. -/
theorem upToDone_append_of_any {xs : List SetupMilestone}
    (h : xs.any SetupMilestone.isDone = true) (ys : List SetupMilestone) :
    upToDone (xs ++ ys) = upToDone xs := by
  induction xs with
  | nil => cases h
  | cons m xs ih =>
    rw [List.cons_append, upToDone_cons, upToDone_cons]
    cases hm : m.isDone with
    | true => rfl
    | false =>
      rw [List.any_cons, hm, Bool.false_or] at h
      rw [ih h]

/-- One more step after some that do not come to the end. -/
theorem upToDone_concat {xs : List SetupMilestone} (h : xs.any SetupMilestone.isDone = false)
    (m : SetupMilestone) : upToDone (xs ++ [m]) = xs ++ [m] := by
  rw [upToDone_append h, upToDone_cons]
  split <;> rfl

/-- Steps that do not go on after the end begin all steps up to the end, and are these if they have
come to it. -/
theorem prefix_upToDone {xs ys : List SetupMilestone} (h : xs <+: ys) (hxs : upToDone xs = xs) :
    xs <+: upToDone ys ∧ (xs.any SetupMilestone.isDone = true → xs = upToDone ys) := by
  obtain ⟨rest, rfl⟩ := h
  cases hany : xs.any SetupMilestone.isDone with
  | true =>
    rw [upToDone_append_of_any hany, hxs]
    exact ⟨List.prefix_rfl, fun _ => rfl⟩
  | false =>
    rw [upToDone_append hany]
    exact ⟨List.prefix_append _ _, fun h => Bool.noConfusion h⟩

theorem any_upToDone (xs : List SetupMilestone) :
    (upToDone xs).any SetupMilestone.isDone = xs.any SetupMilestone.isDone := by
  induction xs with
  | nil => rfl
  | cons m xs ih =>
    rw [upToDone_cons, List.any_cons, List.any_cons]
    cases m.isDone with
    | true => rfl
    | false => simpa using ih

/-- The latest session of a log ends in its only end, or has none. -/
theorem latestSession_cases (ms : List LineMatch) :
    (latestSession ms).getLast? = some .finished ∧
        (∃ front, latestSession ms = front ++ [.finished] ∧ .finished ∉ front) ∨
      (latestSession ms).getLast? ≠ some .finished ∧ .finished ∉ latestSession ms := by
  obtain ⟨earlier, hlatest⟩ := exists_latestAfter ms
  have hsingle := hlatest.latest_single
  rcases List.eq_nil_or_concat (latestSession ms) with hnil | ⟨front, last, hlast⟩
  · rw [hnil]
    exact Or.inr ⟨(Option.some_ne_none _).symm, List.not_mem_nil⟩
  · rw [List.concat_eq_append] at hlast
    rw [hlast, List.dropLast_concat] at hsingle
    rw [hlast, List.getLast?_concat]
    by_cases hover : last = .finished
    · rw [hover]
      exact Or.inl ⟨rfl, front, rfl, hsingle⟩
    · refine Or.inr ⟨fun h => hover (Option.some.inj h), fun hmem => ?_⟩
      rcases List.mem_append.1 hmem with hfront | hend
      · exact hsingle hfront
      · exact hover (List.mem_singleton.1 hend).symm

theorem mem_logMatches_of_mem_latestSession {bytes : List UInt8} {m : LineMatch}
    (hm : m ∈ latestSession (logMatches bytes)) : m ∈ logMatches bytes := by
  obtain ⟨earlier, hlatest⟩ := exists_latestAfter (logMatches bytes)
  rw [hlatest.eq_append]
  exact List.mem_append_right _ hm

end FleetWatch
