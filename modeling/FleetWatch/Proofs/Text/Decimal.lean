import FleetWatch.Text.Integer
import Mathlib.Data.Nat.Digits.Lemmas
/-!
The numbers that runs of digits stand for.

A run of ASCII digits is read as the number that it writes in base ten, unless that is past the
limit; anything else is no number.  A plus sign may stand in front of it, and a minus sign where
integers are read.
-/

namespace FleetWatch

namespace Text

/-- The number that digits write in base ten. -/
def decimalValue (run : List Char) : Nat :=
  Nat.ofDigits 10 (run.reverse.map fun c => c.toNat - '0'.toNat)

theorem decimalValue_cons (c : Char) (run : List Char) :
    decimalValue (c :: run) = (c.toNat - '0'.toNat) * 10 ^ run.length + decimalValue run := by
  simp only [decimalValue, List.reverse_cons, List.map_append, List.map_cons, List.map_nil,
    Nat.ofDigits_append, Nat.ofDigits_singleton, List.length_map, List.length_reverse]
  ring

theorem digitValue?_eq_some_iff {c : Char} {d : Nat} :
    digitValue? c = some d ↔ ('0' ≤ c ∧ c ≤ '9') ∧ d = c.toNat - '0'.toNat := by
  unfold digitValue?
  split
  · next h => simp [h, eq_comm]
  · next h => simp [h]

theorem readDigits_eq_ok_iff {limit value n : Nat} {fault : IntegerFault} {run : List Char}
    (hvalue : value ≤ limit) :
    readDigits limit fault value run = .ok n ↔
      (∀ c ∈ run, '0' ≤ c ∧ c ≤ '9') ∧ n = value * 10 ^ run.length + decimalValue run ∧
        n ≤ limit := by
  induction run generalizing value with
  | nil =>
    simp only [readDigits, decimalValue, Except.ok.injEq, List.length_nil, List.reverse_nil,
      List.map_nil, Nat.ofDigits_nil, List.not_mem_nil, false_implies, implies_true, true_and]
    omega
  | cons c run ih =>
    rw [readDigits]
    cases hdigit : digitValue? c with
    | none =>
      have hno : ¬ ('0' ≤ c ∧ c ≤ '9') := by
        intro hc
        simp [digitValue?, hc] at hdigit
      simp [hno]
    | some d =>
      obtain ⟨hc, rfl⟩ := digitValue?_eq_some_iff.mp hdigit
      have hsum : (value * 10 + (c.toNat - '0'.toNat)) * 10 ^ run.length + decimalValue run =
          value * 10 ^ (c :: run).length + decimalValue (c :: run) := by
        rw [decimalValue_cons, List.length_cons]
        ring
      by_cases hfits : value * 10 + (c.toNat - '0'.toNat) ≤ limit
      · simp only [if_pos hfits, ih hfits, List.forall_mem_cons, hc, hsum, true_and]
      · -- a number only grows with the digits that follow
        have hgrows : value * 10 + (c.toNat - '0'.toNat) ≤
            value * 10 ^ (c :: run).length + decimalValue (c :: run) := by
          rw [← hsum]
          exact Nat.le_add_right_of_le (Nat.le_mul_of_pos_right _ (Nat.pow_pos (by decide)))
        simp only [if_neg hfits, reduceCtorEq, false_iff]
        rintro ⟨-, rfl, hle⟩
        exact hfits (Nat.le_trans hgrows hle)

/-- A run of digits of any script is read if it is one of ASCII digits whose number is within the
limit. -/
theorem readNat_eq_ok_iff {limit n : Nat} {run : List Char} (hne : run ≠ [])
    (hdigits : ∀ c ∈ run, isDecimalDigit c = true) :
    readNat limit run = .ok n ↔
      (∀ c ∈ run, '0' ≤ c ∧ c ≤ '9') ∧ n = decimalValue run ∧ n ≤ limit := by
  have hread : readNat limit run = readDigits limit .tooLarge 0 run := by
    cases run with
    | nil => exact absurd rfl hne
    | cons c run =>
      have hplus : c ≠ '+' := by
        rintro rfl
        exact absurd (hdigits '+' List.mem_cons_self) (by decide)
      unfold readNat
      split <;> simp_all
  rw [hread, readDigits_eq_ok_iff (Nat.zero_le limit), Nat.zero_mul, Nat.zero_add]

/-! ### Texts that write a number -/

/-- A text of ASCII digits, at least one, that write a number. -/
def IsNumeral (cs : List Char) (n : Nat) : Prop :=
  cs ≠ [] ∧ (∀ c ∈ cs, '0' ≤ c ∧ c ≤ '9') ∧ n = decimalValue cs

/-- A numeral, with or without a plus sign. -/
inductive WritesNat : List Char → Nat → Prop
  | plain {cs : List Char} {n : Nat} (h : IsNumeral cs n) : WritesNat cs n
  | plus {cs : List Char} {n : Nat} (h : IsNumeral cs n) : WritesNat ('+' :: cs) n

/-- A numeral, with or without a sign. -/
inductive WritesInt : List Char → Int → Prop
  | plain {cs : List Char} {n : Nat} (h : IsNumeral cs n) : WritesInt cs n
  | plus {cs : List Char} {n : Nat} (h : IsNumeral cs n) : WritesInt ('+' :: cs) n
  | minus {cs : List Char} {n : Nat} (h : IsNumeral cs n) : WritesInt ('-' :: cs) (-n)

theorem readDigits_zero_eq_ok_iff {limit n : Nat} {fault : IntegerFault} {cs : List Char}
    (hne : cs ≠ []) : readDigits limit fault 0 cs = .ok n ↔ IsNumeral cs n ∧ n ≤ limit := by
  rw [readDigits_eq_ok_iff (Nat.zero_le limit), Nat.zero_mul, Nat.zero_add, IsNumeral]
  tauto

/-- A sign is no digit. -/
theorem IsNumeral.head_ne {c sign : Char} {rest : List Char} {n : Nat}
    (h : IsNumeral (c :: rest) n) (hsign : sign < '0') : c ≠ sign := by
  rintro rfl
  exact absurd (h.2.1 c List.mem_cons_self).1 (Char.not_le.mpr hsign)

section Signs

variable {cs rest : List Char} {c : Char} {limit below above n : Nat} {i : Int}

theorem writesNat_plus_iff : WritesNat ('+' :: rest) n ↔ IsNumeral rest n := by
  refine ⟨fun h => ?_, .plus⟩
  cases h with
  | plain h => exact absurd rfl (h.head_ne (by decide))
  | plus h => exact h

theorem writesNat_iff_isNumeral (h : ∀ rest, cs ≠ '+' :: rest) :
    WritesNat cs n ↔ IsNumeral cs n := by
  refine ⟨fun hwrites => ?_, .plain⟩
  cases hwrites with
  | plain hn => exact hn
  | plus _ => exact absurd rfl (h _)

/-- A text is read as the natural number that it writes, if that is within the limit. -/
theorem readNat_eq_ok_iff_writesNat :
    readNat limit cs = .ok n ↔ WritesNat cs n ∧ n ≤ limit := by
  unfold readNat
  split
  · rw [writesNat_iff_isNumeral fun _ => (List.cons_ne_nil _ _).symm]
    simp [IsNumeral]
  · rw [writesNat_plus_iff]
    simp [IsNumeral]
  · next rest hrest =>
    rw [writesNat_plus_iff]
    exact readDigits_zero_eq_ok_iff fun hnil => hrest (hnil ▸ rfl)
  · next hnil _ hplus =>
    rw [writesNat_iff_isNumeral hplus]
    exact readDigits_zero_eq_ok_iff hnil

theorem writesInt_plus_iff :
    WritesInt ('+' :: rest) i ↔ ∃ n : Nat, IsNumeral rest n ∧ i = n := by
  constructor
  · intro h
    cases h with
    | plain h => exact absurd rfl (h.head_ne (by decide))
    | plus h => exact ⟨_, h, rfl⟩
  · rintro ⟨n, h, rfl⟩
    exact .plus h

theorem writesInt_minus_iff :
    WritesInt ('-' :: rest) i ↔ ∃ n : Nat, IsNumeral rest n ∧ i = -n := by
  constructor
  · intro h
    cases h with
    | plain h => exact absurd rfl (h.head_ne (by decide))
    | minus h => exact ⟨_, h, rfl⟩
  · rintro ⟨n, h, rfl⟩
    exact .minus h

theorem writesInt_iff_isNumeral (hplus : ∀ rest, cs ≠ '+' :: rest)
    (hminus : ∀ rest, cs ≠ '-' :: rest) :
    WritesInt cs i ↔ ∃ n : Nat, IsNumeral cs n ∧ i = n := by
  constructor
  · intro h
    cases h with
    | plain h => exact ⟨_, h, rfl⟩
    | plus _ => exact absurd rfl (hplus _)
    | minus _ => exact absurd rfl (hminus _)
  · rintro ⟨n, h, rfl⟩
    exact .plain h

/-- Digits from zero on, read as an integer. -/
theorem map_readDigits_eq_ok_iff {fault : IntegerFault} (hne : cs ≠ []) (f : Nat → Int) :
    (readDigits limit fault 0 cs).map f = .ok i ↔ ∃ n, (IsNumeral cs n ∧ n ≤ limit) ∧ i = f n := by
  have hread : ∀ n, readDigits limit fault 0 cs = .ok n ↔ IsNumeral cs n ∧ n ≤ limit :=
    fun _ => readDigits_zero_eq_ok_iff hne
  simp only [← hread]
  cases readDigits limit fault 0 cs <;> simp [Except.map, eq_comm]

theorem exists_upTo_iff {p : Nat → Prop} :
    (∃ n, (p n ∧ n ≤ above) ∧ i = Int.ofNat n) ↔
      (∃ n : Nat, p n ∧ i = n) ∧ -(below : Int) ≤ i ∧ i ≤ above := by
  constructor
  · rintro ⟨n, ⟨hp, hle⟩, rfl⟩
    refine ⟨⟨n, hp, rfl⟩, ?_⟩
    rw [Int.ofNat_eq_natCast]
    omega
  · rintro ⟨⟨n, hp, rfl⟩, -, hle⟩
    exact ⟨n, ⟨hp, by omega⟩, rfl⟩

theorem exists_downTo_iff {p : Nat → Prop} :
    (∃ n, (p n ∧ n ≤ below) ∧ i = -Int.ofNat n) ↔
      (∃ n : Nat, p n ∧ i = -n) ∧ -(below : Int) ≤ i ∧ i ≤ above := by
  constructor
  · rintro ⟨n, ⟨hp, hle⟩, rfl⟩
    refine ⟨⟨n, hp, rfl⟩, ?_⟩
    rw [Int.ofNat_eq_natCast]
    omega
  · rintro ⟨⟨n, hp, rfl⟩, hle, -⟩
    exact ⟨n, ⟨hp, by omega⟩, rfl⟩

/-- A text is read as the integer that it writes, if that is within the bounds. -/
theorem readInt_eq_ok_iff_writesInt :
    readInt below above cs = .ok i ↔ WritesInt cs i ∧ -below ≤ i ∧ i ≤ above := by
  unfold readInt
  split
  · rw [writesInt_iff_isNumeral (fun _ => (List.cons_ne_nil _ _).symm)
      (fun _ => (List.cons_ne_nil _ _).symm)]
    simp [IsNumeral]
  · rw [writesInt_plus_iff]
    simp [IsNumeral]
  · rw [writesInt_minus_iff]
    simp [IsNumeral]
  · next rest hrest =>
    rw [writesInt_plus_iff, map_readDigits_eq_ok_iff fun hnil => hrest (hnil ▸ rfl),
      exists_upTo_iff]
  · next rest hrest =>
    rw [writesInt_minus_iff, map_readDigits_eq_ok_iff fun hnil => hrest (hnil ▸ rfl),
      exists_downTo_iff]
  · next hnil _ _ hplus hminus =>
    rw [writesInt_iff_isNumeral hplus hminus, map_readDigits_eq_ok_iff hnil, exists_upTo_iff]

end Signs

/-- A number of sixty-four bits, its sign included. -/
def Fits64 (i : Int) : Prop :=
  -2 ^ 63 ≤ i ∧ i < 2 ^ 63

theorem readInt64_eq_ok_iff {cs : List Char} {i : Int} :
    readInt64 cs = .ok i ↔ WritesInt cs i ∧ Fits64 i := by
  have hdepth : (depthSigned64 : Int) = 2 ^ 63 := by decide
  have hmax : (maxSigned64 : Int) = 2 ^ 63 - 1 := by decide
  rw [readInt64, readInt_eq_ok_iff_writesInt, hdepth, hmax, Fits64]
  exact and_congr_right fun _ => by omega

end Text

end FleetWatch
