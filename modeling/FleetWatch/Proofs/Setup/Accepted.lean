import FleetWatch.Setup.Broadcast
import Mathlib.Data.List.Infix
/-!
What a broadcaster keeps of the steps that it accepted.

The steps are numbered without a gap from 1.  The history and the steps kept for subscribers are two
windows on the end of the one list of all steps accepted, and that list alone says what either holds.
-/

namespace FleetWatch

variable {α : Type}

theorem lastOf_length (count : Nat) (xs : List α) :
    (lastOf count xs).length = min count xs.length := by
  simp only [lastOf, List.length_drop]
  omega

theorem lastOf_suffix (count : Nat) (xs : List α) : lastOf count xs <:+ xs :=
  List.drop_suffix _ _

theorem lastOf_eq_nil_iff {count : Nat} (pos : 0 < count) {xs : List α} :
    lastOf count xs = [] ↔ xs = [] := by
  rw [← List.length_eq_zero_iff, lastOf_length, ← List.length_eq_zero_iff]
  omega

theorem lastOf_eq_self {count : Nat} {xs : List α} (h : xs.length ≤ count) :
    lastOf count xs = xs := by
  rw [lastOf, Nat.sub_eq_zero_of_le h, List.drop_zero]

/-- A window that is not empty has the last element in it. -/
theorem lastOf_concat {count : Nat} (pos : 0 < count) (xs : List α) (x : α) :
    lastOf count (xs ++ [x]) = lastOf (count - 1) xs ++ [x] := by
  have hskipped : (xs ++ [x]).length - count = xs.length - (count - 1) := by
    rw [List.length_append, List.length_singleton]
    omega
  rw [lastOf, hskipped, List.drop_append_of_le_length (Nat.sub_le _ _), lastOf]

/-- A window that is full loses its first element to the next. -/
theorem lastOf_concat_of_le {count : Nat} (pos : 0 < count) {xs : List α} (h : xs.length ≤ count)
    (x : α) :
    lastOf count (xs ++ [x]) = (if xs.length = count then xs.tail else xs) ++ [x] := by
  rw [lastOf_concat pos]
  split
  · next hfull => rw [lastOf, show xs.length - (count - 1) = 1 by omega, List.drop_one]
  · next hroom => rw [lastOf_eq_self (by omega)]

/-- A window moves on with each element, whatever fell out of it before. -/
theorem lastOf_lastOf_append (count : Nat) (xs : List α) (x : α) :
    lastOf count (lastOf count xs ++ [x]) = lastOf count (xs ++ [x]) := by
  have hdrop : xs.drop (xs.length - count) ++ [x] =
      (xs ++ [x]).drop (xs.length - count) := by
    rw [List.drop_append_of_le_length (Nat.sub_le _ _)]
  rw [lastOf, lastOf, hdrop, List.drop_drop, lastOf]
  congr 1
  simp only [List.length_drop, List.length_append, List.length_singleton]
  omega

/-- A window on what follows a part of a list is a window on the list, cut at that part. -/
theorem lastOf_drop (count skipped : Nat) (xs : List α) :
    lastOf count (xs.drop skipped) = xs.drop (max skipped (xs.length - count)) := by
  rw [lastOf, List.drop_drop, List.length_drop]
  congr 1
  omega

/-- Steps with consecutive numbers, the first of which is given. -/
def NumberedFrom : Nat → List SetupMilestone → Prop
  | _, [] => True
  | number, m :: rest => m.seq = number ∧ NumberedFrom (number + 1) rest

namespace NumberedFrom

theorem append_iff {number : Nat} {xs ys : List SetupMilestone} :
    NumberedFrom number (xs ++ ys) ↔
      NumberedFrom number xs ∧ NumberedFrom (number + xs.length) ys := by
  induction xs generalizing number with
  | nil => simp [NumberedFrom]
  | cons m rest ih =>
      have hshift : number + (m :: rest).length = number + 1 + rest.length := by
        simp only [List.length_cons]
        omega
      rw [List.cons_append, NumberedFrom, ih, NumberedFrom, hshift, and_assoc]

theorem drop {number : Nat} {xs : List SetupMilestone} (h : NumberedFrom number xs) {k : Nat}
    (hk : k ≤ xs.length) : NumberedFrom (number + k) (xs.drop k) := by
  rw [← List.take_append_drop k xs, append_iff, List.length_take, Nat.min_eq_left hk] at h
  exact h.2

/-- Asking for the steps from a number on is leaving out as many as come before it. -/
theorem filter_le {number : Nat} {xs : List SetupMilestone} (h : NumberedFrom number xs)
    (least : Nat) : (xs.filter fun m => least ≤ m.seq) = xs.drop (least - number) := by
  induction xs generalizing number with
  | nil => simp
  | cons m rest ih =>
      obtain ⟨hm, hrest⟩ := h
      rw [List.filter_cons, ih hrest, hm]
      by_cases hle : least ≤ number
      · have h0 : least - number = 0 := by omega
        have h1 : least - (number + 1) = 0 := by omega
        simp [hle, h0, h1]
      · have hs : least - number = least - (number + 1) + 1 := by omega
        simp [hle, hs]

/-- In a window on the end of all steps, those after the first `passed` are a window on the end of
what follows these. -/
theorem filter_lastOf {xs : List SetupMilestone} (h : NumberedFrom 1 xs) (count passed : Nat) :
    ((lastOf count xs).filter fun m => passed + 1 ≤ m.seq) = lastOf count (xs.drop passed) := by
  rw [lastOf, (h.drop (Nat.sub_le _ _)).filter_le, List.drop_drop, lastOf_drop]
  congr 1
  omega

theorem le_seq {number : Nat} {xs : List SetupMilestone} (h : NumberedFrom number xs)
    {m : SetupMilestone} (hm : m ∈ xs) : number ≤ m.seq := by
  induction xs generalizing number with
  | nil => simp at hm
  | cons first rest ih =>
      rcases List.mem_cons.mp hm with rfl | hrest
      · exact h.1.ge
      · exact Nat.le_of_succ_le (ih h.2 hrest)

theorem increasing {number : Nat} {xs : List SetupMilestone} (h : NumberedFrom number xs) :
    xs.Pairwise fun a b => a.seq < b.seq := by
  induction xs generalizing number with
  | nil => exact List.Pairwise.nil
  | cons first rest ih =>
      refine List.Pairwise.cons (fun m hm => ?_) (ih h.2)
      have := le_seq h.2 hm
      have := h.1
      omega

theorem nodup {number : Nat} {xs : List SetupMilestone} (h : NumberedFrom number xs) :
    xs.Nodup := by
  refine h.increasing.imp fun hlt heq => ?_
  rw [heq] at hlt
  exact Nat.lt_irrefl _ hlt

end NumberedFrom

/-- What loading a log tells of it: where its complete lines end, and whether its latest session is
over. -/
def LoadedLog.ofBytes (bytes : List UInt8) : LoadedLog :=
  ⟨(completePart bytes).length, (loadedSession bytes).getLast? == some .finished⟩

namespace Broadcaster

/-- A broadcaster that has accepted these steps and no others. -/
structure Accepted (b : Broadcaster) (steps : List SetupMilestone) : Prop where
  numbered : NumberedFrom 1 steps
  nextSeq_eq : b.nextSeq = steps.length + 1
  history_eq : b.history = lastOf b.capacity steps
  recent_eq : b.recent = lastOf liveCapacity steps

theorem create_accepted (capacity : Nat) : (create capacity).Accepted [] where
  numbered := trivial
  nextSeq_eq := rfl
  history_eq := by simp [create, lastOf]
  recent_eq := by simp [create, lastOf]

theorem close_accepted {b : Broadcaster} {steps : List SetupMilestone} (h : b.Accepted steps) :
    b.close.Accepted steps :=
  ⟨h.numbered, h.nextSeq_eq, h.history_eq, h.recent_eq⟩

/-- All that publishing can do: an open broadcaster accepts one step more, a closed one refuses. -/
theorem publish_cases (b : Broadcaster) (status : String)
    (details : Option (List (String × String))) :
    (b.isOpen = false ∧ b.publish status details = .error .closed) ∨
      b.isOpen = true ∧ ∃ m b', b.publish status details = .ok (m, b') ∧
        m.status = status ∧ m.details = details ∧ b'.isOpen = true ∧ b'.capacity = b.capacity ∧
        ∀ steps, b.Accepted steps → b'.Accepted (steps ++ [m]) := by
  cases hopen : b.isOpen with
  | false => exact Or.inl ⟨rfl, by simp [publish, hopen]⟩
  | true =>
    let m : SetupMilestone := { seq := b.nextSeq, status, details }
    refine Or.inr ⟨rfl, m, { b with
      history := lastOf b.capacity (b.history ++ [m])
      recent := lastOf liveCapacity (b.recent ++ [m])
      nextSeq := b.nextSeq + 1 }, by simp [publish, hopen, m], rfl, rfl, hopen, rfl,
      fun steps h => ?_⟩
    constructor
    · refine NumberedFrom.append_iff.mpr ⟨h.numbered, ?_, trivial⟩
      simp only [m, h.nextSeq_eq]
      omega
    · simp [h.nextSeq_eq]
    · simp only [h.history_eq, lastOf_lastOf_append]
    · simp only [h.recent_eq, lastOf_lastOf_append]

/-! ### Several steps -/

variable {b : Broadcaster}

theorem publishMatch_of_isOpen (h : b.isOpen = true) (m : LineMatch) :
    ∃ published b', b.publishMatch m = .ok (published, b') ∧ b'.isOpen = true := by
  rw [publishMatch, publish, if_pos h]
  exact ⟨_, _, rfl, h⟩

/-- An open broadcaster takes every match and stays open. -/
theorem publishAll_of_isOpen (h : b.isOpen = true) (ms : List LineMatch) :
    (b.publishAll ms).1 = none ∧ (b.publishAll ms).2.isOpen = true := by
  induction ms generalizing b with
  | nil => exact ⟨rfl, h⟩
  | cons m ms ih =>
    obtain ⟨published, b', hm, hb'⟩ := publishMatch_of_isOpen h m
    simpa only [publishAll, hm] using ih hb'

theorem publishAll_append (h : b.isOpen = true) (xs ys : List LineMatch) :
    (b.publishAll (xs ++ ys)).2 = ((b.publishAll xs).2.publishAll ys).2 := by
  induction xs generalizing b with
  | nil => rfl
  | cons m xs ih =>
    obtain ⟨published, b', hm, hb'⟩ := publishMatch_of_isOpen h m
    simpa only [List.cons_append, publishAll, hm] using ih hb'

/-- A closed broadcaster refuses the first match there is. -/
theorem publishAll_of_closed (h : b.isOpen = false) (ms : List LineMatch) :
    b.publishAll ms = (if ms = [] then none else some .closed, b) := by
  cases ms with
  | nil => rfl
  | cons m ms => simp [publishAll, publishMatch, publish, h]

theorem loadLastSession_of_isOpen (h : b.isOpen = true) (path : String) (bytes : List UInt8) :
    b.loadLastSession path (.ok bytes) =
      (.ok (LoadedLog.ofBytes bytes), (b.publishAll (loadedSession bytes)).2) := by
  have hall := (publishAll_of_isOpen h (loadedSession bytes)).1
  rw [loadLastSession]
  generalize b.publishAll (loadedSession bytes) = result at hall ⊢
  obtain ⟨fault, after⟩ := result
  cases hall
  rfl

/-- A closed broadcaster loads a log that has no session to publish. -/
theorem loadLastSession_of_closed (h : b.isOpen = false) (path : String) (bytes : List UInt8) :
    b.loadLastSession path (.ok bytes) =
      (if loadedSession bytes = [] then .ok (LoadedLog.ofBytes bytes) else .error .closed, b) := by
  rw [loadLastSession, publishAll_of_closed h]
  split <;> simp_all [LoadedLog.ofBytes]

end Broadcaster

end FleetWatch
