import FleetWatch.Text.Blank
import FleetWatch.Text.Search
import Mathlib.Data.List.Infix
/-!
Looking for a text in one that is longer by a character at its end.

A character that a text does not have makes no difference to where that text occurs.
-/

namespace FleetWatch

namespace Text

variable {needle cs : List Char} {c : Char}

theorem isPrefixOf_concat (h : c ∉ needle) (cs : List Char) :
    needle.isPrefixOf (cs ++ [c]) = needle.isPrefixOf cs := by
  rw [Bool.eq_iff_iff, List.isPrefixOf_iff_prefix, List.isPrefixOf_iff_prefix,
    List.prefix_concat_iff]
  refine or_iff_right fun heq => h ?_
  rw [heq]
  exact List.mem_append_right _ List.mem_cons_self

theorem occursIn_concat (hne : needle ≠ []) (h : c ∉ needle) (cs : List Char) :
    occursIn needle (cs ++ [c]) = occursIn needle cs := by
  induction cs with
  | nil =>
    rw [List.nil_append, occursIn, occursIn, ← List.nil_append [c], isPrefixOf_concat h]
    cases needle with
    | nil => exact absurd rfl hne
    | cons n ns => rfl
  | cons d cs ih =>
    rw [List.cons_append, occursIn, ih, ← List.cons_append, isPrefixOf_concat h, occursIn]

theorem dropPrefix?_concat (h : c ∉ needle) (cs : List Char) :
    dropPrefix? needle (cs ++ [c]) = (dropPrefix? needle cs).map (· ++ [c]) := by
  induction needle generalizing cs with
  | nil => cases cs <;> rfl
  | cons n ns ih =>
    rw [List.mem_cons, not_or] at h
    cases cs with
    | nil => simp [dropPrefix?, Ne.symm h.1]
    | cons d cs =>
      simp only [List.cons_append, dropPrefix?]
      split
      · exact ih h.2 cs
      · rfl

theorem splitOnce?_concat (hne : needle ≠ []) (h : c ∉ needle) (cs : List Char) :
    splitOnce? needle (cs ++ [c]) =
      (splitOnce? needle cs).map fun parts => (parts.1, parts.2 ++ [c]) := by
  induction cs with
  | nil =>
    have hnone : dropPrefix? needle [c] = none := by
      cases needle with
      | nil => exact absurd rfl hne
      | cons n ns =>
        have hn : n ≠ c := fun heq => h (heq ▸ List.mem_cons_self)
        simp [dropPrefix?, hn]
    simp [splitOnce?, hnone, hne]
  | cons d cs ih =>
    rw [List.cons_append, splitOnce?, ← List.cons_append, dropPrefix?_concat h, splitOnce?, ih]
    cases dropPrefix? needle (d :: cs) with
    | some rest => rfl
    | none => cases splitOnce? needle cs <;> rfl

theorem trimChars_concat (h : isBlank c = true) (cs : List Char) :
    trimChars (cs ++ [c]) = trimChars cs := by
  rw [trimChars, trimChars, trimStartWhile, trimStartWhile, List.dropWhile_append]
  split
  · next hempty =>
    rw [List.isEmpty_iff.mp hempty, List.dropWhile_cons_of_pos h, List.dropWhile_nil]
  · rw [trimEndWhile, trimEndWhile, List.reverse_append, List.reverse_singleton,
      List.singleton_append, List.dropWhile_cons_of_pos h]

end Text

end FleetWatch
