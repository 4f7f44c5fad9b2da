import FleetWatch.Container.Lines
import FleetWatch.Proofs.Text.LossyLines
/-!
The lines of a byte sequence that are complete.

A byte sequence is its complete lines, each ended by a line feed, and an unfinished line.  What is
added at its end goes on with the unfinished line and leaves the others as they are.
-/

namespace FleetWatch

/-- The lines that a line feed ends, without it. -/
def completeLines (bytes : List UInt8) : List (List UInt8) :=
  (splitFeeds [] bytes).1

/-- The bytes after the last line feed. -/
def unfinishedLine (bytes : List UInt8) : List UInt8 :=
  (splitFeeds [] bytes).2

theorem splitFeeds_append_of_not_mem {xs : List UInt8} (h : 10 ∉ xs) (done ys : List UInt8) :
    splitFeeds done (xs ++ ys) = splitFeeds (xs.reverse ++ done) ys := by
  induction xs generalizing done with
  | nil => rfl
  | cons x xs ih =>
    rw [List.mem_cons, not_or] at h
    rw [List.cons_append, splitFeeds, if_neg (Ne.symm h.1), ih h.2, List.reverse_cons,
      List.append_assoc, List.singleton_append]

theorem splitFeeds_feed (done ys : List UInt8) :
    splitFeeds done (10 :: ys) = (done.reverse :: completeLines ys, unfinishedLine ys) := by
  rw [splitFeeds, if_pos rfl]
  rfl

theorem completeLines_of_not_mem {xs : List UInt8} (h : 10 ∉ xs) : completeLines xs = [] := by
  have hsplit := splitFeeds_append_of_not_mem h [] []
  rw [List.append_nil] at hsplit
  rw [completeLines, hsplit]
  rfl

theorem unfinishedLine_of_not_mem {xs : List UInt8} (h : 10 ∉ xs) : unfinishedLine xs = xs := by
  have hsplit := splitFeeds_append_of_not_mem h [] []
  rw [List.append_nil] at hsplit
  rw [unfinishedLine, hsplit, splitFeeds, List.append_nil, List.reverse_reverse]

theorem completeLines_line {xs : List UInt8} (h : 10 ∉ xs) (ys : List UInt8) :
    completeLines (xs ++ 10 :: ys) = xs :: completeLines ys := by
  rw [completeLines, splitFeeds_append_of_not_mem h, splitFeeds_feed, List.append_nil,
    List.reverse_reverse]

theorem unfinishedLine_line {xs : List UInt8} (h : 10 ∉ xs) (ys : List UInt8) :
    unfinishedLine (xs ++ 10 :: ys) = unfinishedLine ys := by
  rw [unfinishedLine, splitFeeds_append_of_not_mem h, splitFeeds_feed]

/-- A byte sequence has no line feed, or a first line. -/
theorem not_mem_or_line (bytes : List UInt8) :
    10 ∉ bytes ∨ ∃ line rest, bytes = line ++ 10 :: rest ∧ 10 ∉ line := by
  by_cases h : 10 ∈ bytes
  · obtain ⟨line, rest, heq, hline⟩ := List.eq_append_cons_of_mem h
    exact Or.inr ⟨line, rest, heq, hline⟩
  · exact Or.inl h

/-- Induction on the complete lines. -/
theorem lines_induction {P : List UInt8 → Prop} (unfinished : ∀ bytes, 10 ∉ bytes → P bytes)
    (line : ∀ first rest, 10 ∉ first → P rest → P (first ++ 10 :: rest)) (bytes : List UInt8) :
    P bytes := by
  rcases not_mem_or_line bytes with hnone | ⟨first, rest, rfl, hfirst⟩
  · exact unfinished bytes hnone
  · exact line first rest hfirst (lines_induction unfinished line rest)
termination_by bytes.length
decreasing_by
  simp_all only [List.length_append, List.length_cons]
  omega

theorem feed_not_mem_unfinishedLine (bytes : List UInt8) : 10 ∉ unfinishedLine bytes := by
  induction bytes using lines_induction with
  | unfinished bytes hnone => rwa [unfinishedLine_of_not_mem hnone]
  | line first rest hfirst ih => rwa [unfinishedLine_line hfirst]

theorem feed_not_mem_of_mem_completeLines {bytes : List UInt8} :
    ∀ line ∈ completeLines bytes, 10 ∉ line := by
  induction bytes using lines_induction with
  | unfinished bytes hnone =>
    rw [completeLines_of_not_mem hnone]
    exact fun _ h => absurd h List.not_mem_nil
  | line first rest hfirst ih =>
    rw [completeLines_line hfirst]
    exact List.forall_mem_cons.mpr ⟨hfirst, ih⟩

/-- The lines and the rest make up the whole. -/
theorem flatMap_completeLines_append (bytes : List UInt8) :
    (completeLines bytes).flatMap (· ++ [10]) ++ unfinishedLine bytes = bytes := by
  induction bytes using lines_induction with
  | unfinished bytes hnone =>
    rw [completeLines_of_not_mem hnone, unfinishedLine_of_not_mem hnone]
    rfl
  | line first rest hfirst ih =>
    rw [completeLines_line hfirst, unfinishedLine_line hfirst]
    simpa using ih

/-- What is added goes on with the unfinished line. -/
theorem completeLines_append (xs ys : List UInt8) :
    completeLines (xs ++ ys) = completeLines xs ++ completeLines (unfinishedLine xs ++ ys) := by
  induction xs using lines_induction with
  | unfinished xs hnone =>
    rw [completeLines_of_not_mem hnone, unfinishedLine_of_not_mem hnone, List.nil_append]
  | line first rest hfirst ih =>
    rw [List.append_assoc, List.cons_append, completeLines_line hfirst, completeLines_line hfirst,
      unfinishedLine_line hfirst, ih, List.cons_append]

theorem unfinishedLine_append (xs ys : List UInt8) :
    unfinishedLine (xs ++ ys) = unfinishedLine (unfinishedLine xs ++ ys) := by
  induction xs using lines_induction with
  | unfinished xs hnone => rw [unfinishedLine_of_not_mem hnone]
  | line first rest hfirst ih =>
    rw [List.append_assoc, List.cons_append, unfinishedLine_line hfirst,
      unfinishedLine_line hfirst, ih]

/-- Bytes without a line feed only lengthen the unfinished line. -/
theorem completeLines_append_of_not_mem {ys : List UInt8} (h : 10 ∉ ys) (xs : List UInt8) :
    completeLines (xs ++ ys) = completeLines xs ∧
      unfinishedLine (xs ++ ys) = unfinishedLine xs ++ ys := by
  have hnone : 10 ∉ unfinishedLine xs ++ ys := by
    rw [List.mem_append, not_or]
    exact ⟨feed_not_mem_unfinishedLine xs, h⟩
  rw [completeLines_append, unfinishedLine_append, completeLines_of_not_mem hnone,
    unfinishedLine_of_not_mem hnone, List.append_nil]
  exact ⟨rfl, rfl⟩

/-- Bytes up to a line feed complete the unfinished line. -/
theorem completeLines_append_feed {ys : List UInt8} (h : 10 ∉ ys) (xs : List UInt8) :
    completeLines (xs ++ (ys ++ [10])) = completeLines xs ++ [unfinishedLine xs ++ ys] ∧
      unfinishedLine (xs ++ (ys ++ [10])) = [] := by
  have hnone : 10 ∉ unfinishedLine xs ++ ys := by
    rw [List.mem_append, not_or]
    exact ⟨feed_not_mem_unfinishedLine xs, h⟩
  rw [completeLines_append, unfinishedLine_append, ← List.append_assoc, completeLines_line hnone,
    unfinishedLine_line hnone]
  exact ⟨rfl, rfl⟩

/-- The line feed at the end of a line makes no difference to its text. -/
theorem decodeLine_append_feed (raw : List UInt8) : decodeLine (raw ++ [10]) = decodeLine raw := by
  rw [decodeLine, decodeLine, Text.decodeLossy_append_feed raw [], Text.decodeLossy,
    List.reverse_append, List.reverse_singleton, List.singleton_append, List.dropWhile_cons_of_pos]
  rfl

end FleetWatch
