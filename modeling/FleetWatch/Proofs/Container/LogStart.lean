import FleetWatch.Container.LogWindow
import FleetWatch.Proofs.Text.Decimal
/-!
The starts that a log can be asked for, and the ages that have none.

A text that is no start is refused in words, with one exception.  An age is a whole number of
sixty-four bits, its sign included, and a unit.  The program stops without a word on an age that is
longer than a span of time can be, and on one whose start lies before the calendar or, for a
negative age, after it.  Main statement: it stops on no other text, and the unit is split off where
the last character begins, so that no character is cut (`parse_answersUnlessTooFar`).
-/

namespace FleetWatch

theorem getLast?_of_suffix {α : Type} {a : α} {tail items : List α} (h : tail <:+ items)
    (hlast : tail.getLast? = some a) : items.getLast? = some a := by
  obtain ⟨before, rfl⟩ := h
  rw [List.getLast?_append, hlast, Option.some_or]

/-! ### How time stamps end -/

namespace Rfc3339

/-- The characters that a time stamp can end in. -/
def EndsStamp (c : Char) : Prop :=
  c = 'Z' ∨ c = 'z' ∨ Text.isAsciiDigit c

section Suffixes

variable {count value nanos : Nat} {offset : Int} {c : Char} {cs rest : List Char}

theorem suffix_of_fixedDigits? {n : Nat} (h : fixedDigits? count value cs = some (n, rest)) :
    rest <:+ cs := by
  induction count generalizing value cs with
  | zero =>
    simp only [fixedDigits?, Option.some.injEq, Prod.mk.injEq] at h
    exact h.2 ▸ List.suffix_refl cs
  | succ count ih =>
    cases cs with
    | nil => simp [fixedDigits?] at h
    | cons d cs =>
      rw [fixedDigits?] at h
      split at h
      · exact (ih h).trans (List.suffix_cons d cs)
      · simp at h

theorem suffix_of_literal? (h : literal? c cs = some rest) : rest <:+ cs := by
  cases cs with
  | nil => simp [literal?] at h
  | cons d cs =>
    simp only [literal?, Option.ite_none_right_eq_some, Option.some.injEq] at h
    exact h.2 ▸ List.suffix_cons d cs

theorem suffix_of_separator? (h : separator? cs = some rest) : rest <:+ cs := by
  cases cs with
  | nil => simp [separator?] at h
  | cons d cs =>
    simp only [separator?, Option.ite_none_right_eq_some, Option.some.injEq] at h
    exact h.2 ▸ List.suffix_cons d cs

theorem fractionDigits_suffix (places value : Nat) (cs : List Char) :
    (fractionDigits places value cs).2 <:+ cs := by
  induction cs generalizing places value with
  | nil => simp [fractionDigits]
  | cons d cs ih =>
    rw [fractionDigits]
    split
    · cases places with
      | zero => exact (ih 0 value).trans (List.suffix_cons d cs)
      | succ places => exact (ih places _).trans (List.suffix_cons d cs)
    · exact List.suffix_refl _

theorem suffix_of_fraction? (h : fraction? cs = some (nanos, rest)) : rest <:+ cs := by
  unfold fraction? at h
  split at h
  · next d cs =>
    split at h
    · simp only [Option.some.injEq] at h
      have hrest := fractionDigits_suffix 9 0 (d :: cs)
      rw [h] at hrest
      exact hrest.trans (List.suffix_cons '.' _)
    · simp at h
  · simp at h
  · simp only [Option.some.injEq, Prod.mk.injEq] at h
    exact h.2 ▸ List.suffix_refl cs

/-- The characters that fixed digits use up to the end of the text are digits. -/
theorem isAsciiDigit_of_fixedDigits? {n : Nat} (h : fixedDigits? count value cs = some (n, [])) :
    ∀ c ∈ cs, Text.isAsciiDigit c := by
  induction count generalizing value cs with
  | zero =>
    simp only [fixedDigits?, Option.some.injEq, Prod.mk.injEq] at h
    simp [h.2]
  | succ count ih =>
    cases cs with
    | nil => simp
    | cons d cs =>
      rw [fixedDigits?] at h
      split at h
      · next digit hdigit =>
        exact List.forall_mem_cons.mpr ⟨by simp [Text.isAsciiDigit, hdigit], ih h⟩
      · simp at h

/-- An offset ends in `Z` or in the digits of its minutes. -/
theorem endsStamp_of_offset? (h : offset? cs = some (offset, [])) :
    ∃ c, cs.getLast? = some c ∧ EndsStamp c := by
  cases cs with
  | nil => simp [offset?] at h
  | cons d cs =>
    rw [offset?] at h
    split at h
    · next hz =>
      simp only [Option.some.injEq, Prod.mk.injEq] at h
      exact ⟨d, by simp [h.2], hz.imp_right .inl⟩
    · split at h
      · obtain ⟨⟨hours, rest⟩, hhours, h⟩ := Option.bind_eq_some_iff.mp h
        obtain ⟨minutesAt, hcolon, h⟩ := Option.bind_eq_some_iff.mp h
        obtain ⟨⟨minutes, rest'⟩, hminutes, h⟩ := Option.bind_eq_some_iff.mp h
        simp only [Option.ite_none_right_eq_some, Option.some.injEq, Prod.mk.injEq] at h
        obtain ⟨-, -, rfl⟩ := h
        have hsuffix : minutesAt <:+ d :: cs :=
          ((suffix_of_literal? hcolon).trans (suffix_of_fixedDigits? hhours)).trans
            (List.suffix_cons d cs)
        have hne : minutesAt ≠ [] := by
          rintro rfl
          simp [fixedDigits?] at hminutes
        refine ⟨minutesAt.getLast hne, ?_, .inr (.inr ?_)⟩
        · exact getLast?_of_suffix hsuffix (List.getLast?_eq_some_getLast hne)
        · exact isAsciiDigit_of_fixedDigits? hminutes _ (List.getLast_mem hne)
      · simp at h

end Suffixes

/-- A time stamp is read from the front to its end, so it ends as its offset does. -/
theorem endsStamp_of_parse? {s : String} {t : Instant} (h : parse? s = some t) :
    ∃ c, s.toList.getLast? = some c ∧ EndsStamp c := by
  unfold parse? at h
  obtain ⟨⟨year, afterYear⟩, hyear, h⟩ := Option.bind_eq_some_iff.mp h
  obtain ⟨monthAt, hyearDash, h⟩ := Option.bind_eq_some_iff.mp h
  obtain ⟨⟨month, afterMonth⟩, hmonth, h⟩ := Option.bind_eq_some_iff.mp h
  obtain ⟨dayAt, hmonthDash, h⟩ := Option.bind_eq_some_iff.mp h
  obtain ⟨⟨day, afterDay⟩, hday, h⟩ := Option.bind_eq_some_iff.mp h
  obtain ⟨hourAt, hseparator, h⟩ := Option.bind_eq_some_iff.mp h
  obtain ⟨⟨hour, afterHour⟩, hhour, h⟩ := Option.bind_eq_some_iff.mp h
  obtain ⟨minuteAt, hhourColon, h⟩ := Option.bind_eq_some_iff.mp h
  obtain ⟨⟨minute, afterMinute⟩, hminute, h⟩ := Option.bind_eq_some_iff.mp h
  obtain ⟨secondAt, hminuteColon, h⟩ := Option.bind_eq_some_iff.mp h
  obtain ⟨⟨second, afterSecond⟩, hsecond, h⟩ := Option.bind_eq_some_iff.mp h
  obtain ⟨⟨nanos, offsetAt⟩, hfraction, h⟩ := Option.bind_eq_some_iff.mp h
  obtain ⟨⟨offset, rest⟩, hoffset, h⟩ := Option.bind_eq_some_iff.mp h
  have hend : rest = [] := by
    by_contra hrest
    simp only [ne_eq, hrest, not_false_eq_true, if_true] at h
    cases h
  have hdate : afterDay <:+ s.toList :=
    ((((suffix_of_fixedDigits? hday).trans (suffix_of_literal? hmonthDash)).trans
      (suffix_of_fixedDigits? hmonth)).trans (suffix_of_literal? hyearDash)).trans
      (suffix_of_fixedDigits? hyear)
  have hclock : afterSecond <:+ afterDay :=
    (((((suffix_of_fixedDigits? hsecond).trans (suffix_of_literal? hminuteColon)).trans
      (suffix_of_fixedDigits? hminute)).trans (suffix_of_literal? hhourColon)).trans
      (suffix_of_fixedDigits? hhour)).trans (suffix_of_separator? hseparator)
  have hsuffix : offsetAt <:+ s.toList :=
    ((suffix_of_fraction? hfraction).trans hclock).trans hdate
  obtain ⟨c, hlast, hc⟩ := endsStamp_of_offset? (hend ▸ hoffset)
  exact ⟨c, getLast?_of_suffix hsuffix hlast, hc⟩

end Rfc3339

/-! ### How numbers end -/

namespace Text

theorem IsNumeral.getLast? {cs : List Char} {n : Nat} (h : IsNumeral cs n) :
    ∃ c, cs.getLast? = some c ∧ isAsciiDigit c := by
  refine ⟨cs.getLast h.1, List.getLast?_eq_some_getLast h.1, ?_⟩
  have hdigit := h.2.1 _ (List.getLast_mem h.1)
  simp [isAsciiDigit, digitValue?, hdigit]

theorem WritesInt.getLast? {cs : List Char} {i : Int} (h : WritesInt cs i) :
    ∃ c, cs.getLast? = some c ∧ isAsciiDigit c := by
  cases h with
  | plain h => exact h.getLast?
  | plus h =>
    obtain ⟨c, hlast, hc⟩ := h.getLast?
    exact ⟨c, getLast?_of_suffix (List.suffix_cons _ _) hlast, hc⟩
  | minus h =>
    obtain ⟨c, hlast, hc⟩ := h.getLast?
    exact ⟨c, getLast?_of_suffix (List.suffix_cons _ _) hlast, hc⟩

end Text

namespace LogSince

/-! ### Ages -/

/-- The age in seconds that a text names: an amount and the character of its unit. -/
inductive NamesAge : List Char → Int → Prop
  | mk {digits : List Char} {amount unit : Int} {c : Char} (writes : Text.WritesInt digits amount)
      (fits : Text.Fits64 amount) (hunit : unitSecs? c = some unit) :
      NamesAge (digits ++ [c]) (amount * unit)

/-- The longest span of time in whole seconds; a span is counted in milliseconds of sixty-four
bits. -/
def longestSpan : Int :=
  (2 ^ 63 - 1) / 1000

/-- The second that lies so many seconds before now.  Going back from a leap second counts it. -/
def secsBefore (now : Instant) (age : Int) : Int :=
  if 1000000000 ≤ now.nanos ∧ 0 < age then now.secs + 1 - age else now.secs - age

section Ages

variable {cs : List Char} {now : Instant} {age : Int}

theorem namesAge_iff : NamesAge cs age ↔ ∃ amount unit, Text.readInt64 cs.dropLast = .ok amount ∧
    cs.getLast?.bind unitSecs? = some unit ∧ age = amount * unit := by
  constructor
  · rintro ⟨writes, fits, hunit⟩
    refine ⟨_, _, Text.readInt64_eq_ok_iff.mpr ⟨?_, fits⟩, ?_, rfl⟩
    · rwa [List.dropLast_concat]
    · rwa [List.getLast?_concat]
  · rintro ⟨amount, unit, hread, hunit, rfl⟩
    obtain ⟨c, hlast, hc⟩ := Option.bind_eq_some_iff.mp hunit
    obtain ⟨writes, fits⟩ := Text.readInt64_eq_ok_iff.mp hread
    obtain ⟨digits, rfl⟩ := List.getLast?_eq_some_iff.mp hlast
    rw [List.dropLast_concat] at writes
    exact .mk writes fits hc

/-- The instant that far back is in the calendar or there is none. -/
theorem addSecs?_neg_eq_none_iff :
    now.addSecs? (-age) = none ↔ Instant.inCalendar (secsBefore now age) = false := by
  have hsecs : secsBefore now age =
      (if now.nanos < 1000000000 ∨ -age = 0 then (now.secs + -age, now.nanos)
       else if 0 < -age then (now.secs + -age, now.nanos - 1000000000)
       else (now.secs + 1 + -age, now.nanos - 1000000000)).1 := by
    unfold secsBefore
    split_ifs <;> simp only <;> omega
  rw [hsecs]
  simp only [Instant.addSecs?, ite_eq_right_iff, reduceCtorEq, imp_false, Bool.not_eq_true]

theorem ofAge_eq_ageOutOfRange_iff : ofAge cs now = .error .ageOutOfRange ↔
    ∃ age, NamesAge cs age ∧ Instant.inCalendar (secsBefore now age) = false := by
  simp only [namesAge_iff, ← addSecs?_neg_eq_none_iff]
  unfold ofAge
  cases hread : Text.readInt64 cs.dropLast with
  | error fault => simp
  | ok amount =>
    cases hunit : cs.getLast?.bind unitSecs? with
    | none => simp
    | some unit => cases hmoved : now.addSecs? (-(amount * unit)) <;> simp [hmoved]

/-- Neither a time stamp nor a number ends in the character of a unit. -/
theorem unitSecs?_eq_none {c : Char} (h : Rfc3339.EndsStamp c) : unitSecs? c = none := by
  obtain rfl | rfl | hdigit := h
  · decide
  · decide
  · unfold unitSecs?
    split_ifs with hs hm hh hd
    · exact absurd hdigit (hs ▸ by decide)
    · exact absurd hdigit (hm ▸ by decide)
    · exact absurd hdigit (hh ▸ by decide)
    · exact absurd hdigit (hd ▸ by decide)
    · rfl

theorem NamesAge.not_endsStamp (h : NamesAge cs age) {c : Char} (hlast : cs.getLast? = some c) :
    ¬ Rfc3339.EndsStamp c := by
  intro hstamp
  obtain ⟨-, unit, -, hunit, -⟩ := namesAge_iff.mp h
  simp [hlast, unitSecs?_eq_none hstamp] at hunit

end Ages

/-- A text that names an age is read as nothing else. -/
theorem parse_eq_ofAge {text : String} {age : Int} (now : Instant)
    (h : NamesAge (Text.trimChars text.toList) age) :
    parse text now = ofAge (Text.trimChars text.toList) now := by
  generalize hcs : Text.trimChars text.toList = cs at h
  have hshort : ¬ (cs = [] ∨ cs = ['0']) := by
    rintro (rfl | rfl)
    · obtain ⟨_, _, _, hunit, _⟩ := namesAge_iff.mp h
      simp at hunit
    · exact h.not_endsStamp rfl (.inr (.inr (by decide)))
  have hstamp : Rfc3339.parse? (String.ofList cs) = none := by
    by_contra hsome
    obtain ⟨t, ht⟩ := Option.ne_none_iff_exists'.mp hsome
    obtain ⟨c, hlast, hc⟩ := Rfc3339.endsStamp_of_parse? ht
    rw [String.toList_ofList] at hlast
    exact h.not_endsStamp hlast hc
  cases hread : Text.readInt64 cs with
  | ok secs =>
    obtain ⟨c, hlast, hc⟩ := (Text.readInt64_eq_ok_iff.mp hread).1.getLast?
    exact absurd (.inr (.inr hc)) (h.not_endsStamp hlast)
  | error fault => simp only [parse, hcs, if_neg hshort, hstamp, hread]

theorem parse_eq_ageOutOfRange_iff {text : String} {now : Instant} :
    parse text now = .error .ageOutOfRange ↔
      ∃ age, NamesAge (Text.trimChars text.toList) age ∧
        Instant.inCalendar (secsBefore now age) = false := by
  rw [← ofAge_eq_ageOutOfRange_iff]
  constructor
  · intro h
    simp only [parse] at h
    split_ifs at h
    split at h
    · simp at h
    · split at h
      · split at h <;> simp at h
      · exact h
  · intro h
    obtain ⟨age, hage, -⟩ := ofAge_eq_ageOutOfRange_iff.mp h
    rw [parse_eq_ofAge now hage, h]

/-- A span longer than spans are leads out of the calendar from everywhere in it. -/
theorem inCalendar_secsBefore_eq_false {now : Instant} {age : Int}
    (hnow : Instant.inCalendar now.secs) (hlong : longestSpan < age.natAbs) :
    Instant.inCalendar (secsBefore now age) = false := by
  have hfirst : Instant.firstSec = -8334601228800 := by decide
  have hlast : Instant.lastSec = 8210266876799 := by decide
  have hspan : longestSpan = 9223372036854775 := by decide
  simp only [Instant.inCalendar, Bool.and_eq_true, Bool.and_eq_false_iff, decide_eq_true_eq,
    decide_eq_false_iff_not, hfirst, hlast] at hnow ⊢
  rw [hspan] at hlong
  unfold secsBefore
  split_ifs <;> omega

/-! ### Where the unit is split off -/

/-- The characters of a text, each with the position of its first byte. -/
def charIndices (start : Nat) : List Char → List (Nat × Char)
  | [] => []
  | c :: cs => (start, c) :: charIndices (start + c.utf8Size) cs

/-- The position at which the unit is split off. -/
def unitAt (cs : List Char) : Nat :=
  ((charIndices 0 cs).getLast?.map Prod.fst).getD 0

theorem charIndices_append (start : Nat) (cs cs' : List Char) :
    charIndices start (cs ++ cs') =
      charIndices start cs ++ charIndices (start + (String.ofList cs).utf8ByteSize) cs' := by
  induction cs generalizing start with
  | nil => simp [charIndices]
  | cons c cs ih =>
    simp only [List.cons_append, charIndices, ih, String.ofList_cons, String.utf8ByteSize_append,
      String.utf8ByteSize_singleton, Nat.add_assoc]

/-- The unit begins where the text before it ends. -/
theorem unitAt_eq (cs : List Char) : unitAt cs = (String.ofList cs.dropLast).utf8ByteSize := by
  induction cs using List.reverseRecOn with
  | nil => rfl
  | append_singleton digits c =>
    simp [unitAt, charIndices_append, charIndices]

theorem ofList_dropLast_append_getLast? (cs : List Char) :
    String.ofList cs = String.ofList cs.dropLast ++ String.ofList cs.getLast?.toList := by
  rw [← String.ofList_append]
  induction cs using List.reverseRecOn with
  | nil => rfl
  | append_singleton digits c => rw [List.dropLast_concat, List.getLast?_concat, Option.toList_some]

/-! ### Which texts have an answer -/

/-- A start, or a fault in words. -/
def Answers (result : Except SinceFault LogSince) : Prop :=
  ∀ fault, result = .error fault → fault.message?.isSome

theorem answers_iff {result : Except SinceFault LogSince} :
    Answers result ↔ result ≠ .error .ageOutOfRange := by
  constructor
  · rintro h rfl
    exact absurd (h .ageOutOfRange rfl) (by decide)
  · rintro h fault rfl
    cases fault with
    | ageOutOfRange => exact absurd rfl h
    | _ => rfl

/-- What reading a start comes to, for any text and any time of the calendar. -/
structure AnswersUnlessTooFar (text : String) (now : Instant) : Prop where
  /-- There is an answer unless the text is an age that is longer than a span of time can be or
  that leads out of the calendar. -/
  answers_iff : Answers (parse text now) ↔
    ∀ age, NamesAge (Text.trimChars text.toList) age →
      age.natAbs ≤ longestSpan ∧ Instant.inCalendar (secsBefore now age)
  /-- The position at which the unit is split off lies between two characters. -/
  isValid_unitAt :
    String.Pos.Raw.IsValid (String.ofList (Text.trimChars text.toList))
      ⟨unitAt (Text.trimChars text.toList)⟩
  /-- What is read as the amount is the text before that position. -/
  unitAt_eq : unitAt (Text.trimChars text.toList) =
    (String.ofList (Text.trimChars text.toList).dropLast).utf8ByteSize

/-- Every text is read as a start or refused in words, but for the ages that go too far. -/
theorem parse_answersUnlessTooFar (text : String) (now : Instant)
    (hnow : Instant.inCalendar now.secs) : AnswersUnlessTooFar text now where
  answers_iff := by
    rw [LogSince.answers_iff, ne_eq, parse_eq_ageOutOfRange_iff]
    constructor
    · intro hnone age hage
      have hin : Instant.inCalendar (secsBefore now age) := by
        rw [← Bool.not_eq_false]
        exact fun hout => hnone ⟨age, hage, hout⟩
      refine ⟨?_, hin⟩
      by_contra hlong
      rw [inCalendar_secsBefore_eq_false hnow (Int.not_le.mp hlong)] at hin
      exact absurd hin (by decide)
    · rintro hfine ⟨age, hage, hout⟩
      exact absurd ((hfine age hage).2.symm.trans hout) (by decide)
  isValid_unitAt := String.Pos.Raw.isValid_iff_exists_append.mpr
    ⟨_, _, ofList_dropLast_append_getLast? _, by rw [unitAt_eq]; rfl⟩
  unitAt_eq := LogSince.unitAt_eq _

/-- Noon of the first of May 2024. -/
def mayNoon : Instant :=
  ⟨1714564800, 0⟩

theorem days_answersUnlessTooFar : AnswersUnlessTooFar "99999999999d" mayNoon :=
  parse_answersUnlessTooFar _ _ (by decide)

/-- There is not always an answer: so many days ago there was no calendar. -/
theorem not_answers_days :
    ¬ ∀ text now, Instant.inCalendar now.secs → Answers (parse text now) := by
  intro h
  have hage : NamesAge (Text.trimChars "99999999999d".toList) (99999999999 * 86400) :=
    namesAge_iff.mpr ⟨99999999999, 86400, by decide +kernel, by decide +kernel, rfl⟩
  have hparse : parse "99999999999d" mayNoon = .error .ageOutOfRange :=
    parse_eq_ageOutOfRange_iff.mpr ⟨_, hage, by decide⟩
  exact LogSince.answers_iff.mp (h _ mayNoon (by decide)) hparse

end LogSince

end FleetWatch
