/-!
Looking for one text inside another.

Everything here works on lists of characters.  `splitOnce?` cuts at the first occurrence of a
separator and `splitAll` at every one of them, from the left.
-/

namespace FleetWatch

namespace Text

/-- What follows `pat` at the front of a list. -/
def dropPrefix? {α : Type} [BEq α] : List α → List α → Option (List α)
  | [], s => some s
  | _ :: _, [] => none
  | p :: ps, c :: cs => if p == c then dropPrefix? ps cs else none

/-- Whether `needle` occurs in a list. -/
def occursIn (needle : List Char) : List Char → Bool
  | [] => needle.isEmpty
  | c :: cs => needle.isPrefixOf (c :: cs) || occursIn needle cs

/-- Whether `needle` occurs in `text`. -/
def contains (text needle : String) : Bool :=
  occursIn needle.toList text.toList

theorem occursIn_iff_infix {needle text : List Char} :
    occursIn needle text = true ↔ needle <:+: text := by
  induction text with
  | nil => simp [occursIn]
  | cons c rest ih =>
    rw [occursIn, Bool.or_eq_true, ih, List.isPrefixOf_iff_prefix, List.infix_cons_iff]

theorem contains_iff_infix {text needle : String} :
    contains text needle = true ↔ needle.toList <:+: text.toList :=
  occursIn_iff_infix

/-- The parts before and after the first occurrence of `sep`. -/
def splitOnce? (sep : List Char) : List Char → Option (List Char × List Char)
  | [] => if sep.isEmpty then some ([], []) else none
  | c :: cs =>
    match dropPrefix? sep (c :: cs) with
    | some rest => some ([], rest)
    | none => (splitOnce? sep cs).map fun (before, after) => (c :: before, after)

/-- The text after the front `pat`, if it is there. -/
def stripFront? (pat : String) (text : String) : Option String :=
  (dropPrefix? pat.toList text.toList).map String.ofList

theorem dropPrefix?_eq_some_iff {α : Type} [BEq α] [LawfulBEq α] {pat s rest : List α} :
    dropPrefix? pat s = some rest ↔ s = pat ++ rest := by
  induction pat generalizing s with
  | nil => simp [dropPrefix?]
  | cons p pat ih =>
    cases s with
    | nil => simp [dropPrefix?]
    | cons c s =>
      rw [dropPrefix?, Option.ite_none_right_eq_some, beq_iff_eq, ih, List.cons_append,
        List.cons.injEq, @eq_comm _ c p]

theorem dropPrefix?_length {α : Type} [BEq α] {pat s rest : List α}
    (h : dropPrefix? pat s = some rest) : s.length = pat.length + rest.length := by
  induction pat generalizing s with
  | nil => simp_all [dropPrefix?]
  | cons p ps ih =>
    cases s with
    | nil => simp [dropPrefix?] at h
    | cons c cs =>
      simp only [dropPrefix?] at h
      split at h
      · have := ih h
        simp only [List.length_cons]
        omega
      · cases h

theorem splitOnce?_length {sep s before after : List Char}
    (h : splitOnce? sep s = some (before, after)) :
    s.length = before.length + sep.length + after.length := by
  induction s generalizing before after with
  | nil =>
    simp only [splitOnce?] at h
    split at h
    · next hs => simp_all
    · cases h
  | cons c cs ih =>
    simp only [splitOnce?] at h
    split at h
    · next rest hrest =>
      simp only [Option.some.injEq, Prod.mk.injEq] at h
      obtain ⟨rfl, rfl⟩ := h
      have := dropPrefix?_length hrest
      simp only [List.length_nil]
      omega
    · simp only [Option.map_eq_some_iff, Prod.mk.injEq, Prod.exists] at h
      obtain ⟨b, a, hba, rfl, rfl⟩ := h
      have := ih hba
      simp only [List.length_cons]
      omega

/-- The pieces between the occurrences of a separator that is not empty. -/
def splitAll (sep : List Char) (hsep : sep ≠ []) (s : List Char) : List (List Char) :=
  match _found : splitOnce? sep s with
  | none => [s]
  | some (before, after) => before :: splitAll sep hsep after
termination_by s.length
decreasing_by
  have := splitOnce?_length _found
  have := List.length_pos_iff.2 hsep
  omega

end Text

end FleetWatch
