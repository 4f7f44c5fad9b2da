import FleetWatch.Text.Lossy
import Mathlib.Data.Nat.Basic
/-!
Reading bytes as text, line by line.

No character goes on over a line feed, whatever bytes stand before it, and only a line feed reads as
one.  So a byte sequence can be cut after its line feeds and read piece by piece.
-/

namespace FleetWatch

namespace Text

/-- A byte that stands alone is its own code; the bytes that follow any other are no line feeds and
make the code greater than that of one. -/
theorem leadByte?_cases {b code : Nat} {ranges : List (Nat × Nat)}
    (h : leadByte? b = some (code, ranges)) :
    ranges = [] ∧ code = b ∨
      ∃ lo hi rest, ranges = (lo, hi) :: rest ∧ 10 < code * 64 + (lo - 0x80) ∧
        ∀ range ∈ ranges, 0x80 ≤ range.1 := by
  unfold leadByte? at h
  repeat' split at h
  all_goals simp only [Option.some.injEq, Prod.mk.injEq, reduceCtorEq] at h
  all_goals obtain ⟨rfl, rfl⟩ := h
  · exact Or.inl ⟨rfl, rfl⟩
  all_goals exact Or.inr ⟨_, _, _, rfl, by omega, by decide⟩

theorem code_le_of_readTail {code n : Nat} {ranges : List (Nat × Nat)} {bytes rest : List UInt8}
    (h : readTail code ranges bytes = (some n, rest)) : code ≤ n := by
  induction ranges generalizing code bytes with
  | nil =>
    cases h
    exact Nat.le_refl _
  | cons range ranges ih =>
    cases bytes with
    | nil => cases h
    | cons b bytes =>
      simp only [readTail] at h
      split at h
      · have := ih h
        omega
      · cases h

theorem readTail_suffix (code : Nat) (ranges : List (Nat × Nat)) (bytes : List UInt8) :
    (readTail code ranges bytes).2 <:+ bytes := by
  induction ranges generalizing code bytes with
  | nil => exact List.suffix_rfl
  | cons range ranges ih =>
    cases bytes with
    | nil => exact List.suffix_rfl
    | cons b bytes =>
      simp only [readTail]
      split
      · exact (ih _ _).trans (List.suffix_cons b bytes)
      · exact List.suffix_rfl

theorem code_lt_of_readTail {code n lo hi : Nat} {ranges : List (Nat × Nat)}
    {bytes rest : List UInt8} (hgreat : 10 < code * 64 + (lo - 0x80))
    (h : readTail code ((lo, hi) :: ranges) bytes = (some n, rest)) : 10 < n := by
  cases bytes with
  | nil => cases h
  | cons b bytes =>
    simp only [readTail] at h
    split at h
    · have := code_le_of_readTail h
      omega
    · cases h

theorem readChar_suffix (b : UInt8) (bytes : List UInt8) : (readChar b bytes).2 <:+ bytes := by
  unfold readChar
  cases leadByte? b.toNat with
  | none => exact List.suffix_rfl
  | some lead =>
    have := readTail_suffix lead.1 lead.2 bytes
    rcases htail : readTail lead.1 lead.2 bytes with ⟨_ | n, rest⟩ <;> simpa only [htail] using this

/-- A line feed is not among the bytes that follow a lead byte. -/
theorem readTail_append_feed {ranges : List (Nat × Nat)} (hranges : ∀ range ∈ ranges, 0x80 ≤ range.1)
    (code : Nat) (bytes later : List UInt8) :
    readTail code ranges (bytes ++ 10 :: later) =
      ((readTail code ranges bytes).1, (readTail code ranges bytes).2 ++ 10 :: later) := by
  induction ranges generalizing code bytes with
  | nil => rfl
  | cons range ranges ih =>
    have hlo := hranges range List.mem_cons_self
    have hrest := fun r hr => hranges r (List.mem_cons_of_mem _ hr)
    cases bytes with
    | nil =>
      have hout : ¬ (range.1 ≤ (10 : UInt8).toNat ∧ (10 : UInt8).toNat ≤ range.2) := by
        rintro ⟨hle, _⟩
        exact absurd (Nat.le_trans hlo hle) (by decide)
      simp only [List.nil_append, readTail, if_neg hout]
    | cons b bytes =>
      simp only [List.cons_append, readTail]
      split
      · exact ih hrest _ _
      · rfl

theorem readChar_append_feed (b : UInt8) (bytes later : List UInt8) :
    readChar b (bytes ++ 10 :: later) =
      ((readChar b bytes).1, (readChar b bytes).2 ++ 10 :: later) := by
  unfold readChar
  cases hlead : leadByte? b.toNat with
  | none => rfl
  | some lead =>
    obtain ⟨code, ranges⟩ := lead
    have hranges : ∀ range ∈ ranges, 0x80 ≤ range.1 := by
      rcases leadByte?_cases hlead with ⟨rfl, _⟩ | ⟨_, _, _, _, _, hranges⟩
      · exact fun _ h => absurd h List.not_mem_nil
      · exact hranges
    simp only [readTail_append_feed hranges]
    rcases readTail code ranges bytes with ⟨_ | n, rest⟩ <;> rfl

theorem readChar_feed (later : List UInt8) : readChar 10 later = ('\n', later) := rfl

/-- Reading goes through a line feed as if the text ended before it. -/
theorem decodeLossy_append_feed (bytes later : List UInt8) :
    decodeLossy (bytes ++ 10 :: later) = decodeLossy bytes ++ '\n' :: decodeLossy later := by
  fun_induction decodeLossy bytes with
  | case1 => rw [List.nil_append, decodeLossy, readChar_feed, List.nil_append]
  | case2 b bytes ih =>
    rw [List.cons_append, decodeLossy, readChar_append_feed, ih, List.cons_append]

theorem ofNat_ne_feed {n : Nat} (h : n ≠ 10) : Char.ofNat n ≠ '\n' := by
  intro heq
  by_cases hvalid : n.isValidChar
  · rw [Char.ofNat, dif_pos hvalid] at heq
    exact h (congrArg (fun c : Char => c.val.toNat) heq)
  · rw [Char.ofNat, dif_neg hvalid] at heq
    exact absurd heq (by decide)

/-- Only a line feed reads as one. -/
theorem readChar_ne_feed {b : UInt8} (hb : b ≠ 10) (bytes : List UInt8) :
    (readChar b bytes).1 ≠ '\n' := by
  have hcode : b.toNat ≠ 10 := fun h => hb (UInt8.toNat_inj.mp h)
  have hreplacement : replacement ≠ '\n' := by decide
  unfold readChar
  cases hlead : leadByte? b.toNat with
  | none => exact hreplacement
  | some lead =>
    obtain ⟨code, ranges⟩ := lead
    cases htail : readTail code ranges bytes with
    | mk result rest =>
      cases result with
      | none => simpa only [htail] using hreplacement
      | some n =>
        simp only [htail]
        refine ofNat_ne_feed ?_
        rcases leadByte?_cases hlead with ⟨rfl, rfl⟩ | ⟨lo, hi, ranges, rfl, hgreat, _⟩
        · cases htail
          exact hcode
        · have := code_lt_of_readTail hgreat htail
          omega

/-- A text has no line feed that its bytes do not have. -/
theorem feed_not_mem_decodeLossy {bytes : List UInt8} (h : 10 ∉ bytes) :
    '\n' ∉ decodeLossy bytes := by
  fun_induction decodeLossy bytes with
  | case1 => exact List.not_mem_nil
  | case2 b bytes ih =>
    rw [List.mem_cons, not_or] at h ⊢
    refine ⟨(readChar_ne_feed (Ne.symm h.1) bytes).symm, ih fun hrest => h.2 ?_⟩
    exact (readChar_suffix b bytes).subset hrest

end Text

end FleetWatch
