import FleetWatch.Proofs.Text.Decimal
import FleetWatch.Watch.Pattern
import Mathlib.Data.List.Infix
import Mathlib.Data.List.TakeWhile
/-!
What a log line tells.

A line that tells a height has a lead, digits behind it, and a tail behind these.  Main statement:
the greedy search with the expressions of a built-in set finds the last place of a line where the
lead is followed in this way, and captures all the digits that stand there
(`read?_iff_toldBy_builtIn`).
-/

namespace FleetWatch

/-! ### What a greedy search finds -/

theorem CharClass.has_feed (kind : CharClass) : kind.has '\n' = false := by
  cases kind <;> decide

namespace Expression

section

variable {α : Type} {kind : CharClass} {next? : List Char → List Char → Option α}
  {run cs : List Char} {a : α}

/-- What a search finds, it finds behind some characters of the class. -/
theorem exists_of_greedy (h : greedy kind next? run cs = some a) :
    ∃ taken after, cs = taken ++ after ∧ (∀ c ∈ taken, kind.has c = true) ∧
      next? (taken.reverse ++ run) after = some a := by
  induction cs generalizing run with
  | nil => exact ⟨[], [], rfl, nofun, h⟩
  | cons c cs ih =>
    have hhere : next? run (c :: cs) = some a →
        ∃ taken after, c :: cs = taken ++ after ∧ (∀ c ∈ taken, kind.has c = true) ∧
          next? (taken.reverse ++ run) after = some a :=
      fun h => ⟨[], c :: cs, rfl, nofun, h⟩
    rw [greedy] at h
    split at h
    · next hc =>
      split at h
      · next found hfound =>
        cases h
        obtain ⟨taken, after, rfl, htaken, hnext⟩ := ih hfound
        refine ⟨c :: taken, after, rfl, List.forall_mem_cons.mpr ⟨hc, htaken⟩, ?_⟩
        rwa [List.reverse_cons, List.append_assoc, List.singleton_append]
      · exact hhere h
    · exact hhere h

/-- The longest run is taken if what follows it matches. -/
theorem greedy_of_longest
    (h : next? ((cs.takeWhile kind.has).reverse ++ run) (cs.dropWhile kind.has) = some a) :
    greedy kind next? run cs = some a := by
  induction cs generalizing run with
  | nil => exact h
  | cons c cs ih =>
    rw [greedy]
    by_cases hc : kind.has c = true
    · rw [List.takeWhile_cons_of_pos hc, List.dropWhile_cons_of_pos hc, List.reverse_cons,
        List.append_assoc, List.singleton_append] at h
      rw [if_pos hc, ih h]
    · rw [List.takeWhile_cons_of_neg hc, List.dropWhile_cons_of_neg hc] at h
      rwa [if_neg hc]

/-- Only the longest run is taken if nothing goes on with a character of the class. -/
theorem greedy_of_refused
    (h : ∀ run c after, kind.has c = true → next? run (c :: after) = none) :
    greedy kind next? run cs =
      next? ((cs.takeWhile kind.has).reverse ++ run) (cs.dropWhile kind.has) := by
  induction cs generalizing run with
  | nil => rfl
  | cons c cs ih =>
    rw [greedy]
    by_cases hc : kind.has c = true
    · rw [if_pos hc, ih, h run c cs hc, List.takeWhile_cons_of_pos hc,
        List.dropWhile_cons_of_pos hc, List.reverse_cons, List.append_assoc, List.singleton_append]
      cases next? ((cs.takeWhile kind.has).reverse ++ c :: run) (cs.dropWhile kind.has) <;> rfl
    · rw [if_neg hc, List.takeWhile_cons_of_neg hc, List.dropWhile_cons_of_neg hc]
      rfl

/-- What stands in front makes no difference to a search that does not look at it. -/
theorem greedy_const (next? : List Char → Option α) (run run' : List Char) :
    greedy kind (fun _ => next?) run cs = greedy kind (fun _ => next?) run' cs := by
  induction cs generalizing run run' with
  | nil => rfl
  | cons c cs ih => rw [greedy, greedy, ih (c :: run) (c :: run')]

end

variable {e : Expression} {cs : List Char} {found : List (List Char)}

/-- A text that has no line feed. -/
def IsOneLine (cs : List Char) : Prop :=
  '\n' ∉ cs

/-- A piece that stands for no line feed. -/
def KeepsToLine : Piece → Prop
  | .text text => IsOneLine text.toList
  | .many _ | .group _ => True

/-- Only a text without line feeds matches pieces that stand for none. -/
theorem isOneLine_of_groups? (he : ∀ piece ∈ e, KeepsToLine piece)
    (h : groups? e cs = some found) : IsOneLine cs := by
  induction e generalizing cs found with
  | nil =>
    simp only [groups?, List.isEmpty_iff, Option.ite_none_right_eq_some] at h
    rw [IsOneLine, h.1]
    exact List.not_mem_nil
  | cons piece e ih =>
    rw [List.forall_mem_cons] at he
    -- a repetition takes no line feed, and what follows it has none
    have hgreedy : ∀ (kind : CharClass) (next? : List Char → List Char → Option (List (List Char))),
        (∀ run after, next? run after = some found → IsOneLine after) →
          greedy kind next? [] cs = some found → IsOneLine cs := by
      intro kind next? hnext hfound
      obtain ⟨taken, after, rfl, htaken, hafter⟩ := exists_of_greedy hfound
      rw [IsOneLine, List.mem_append, not_or]
      refine ⟨fun hfeed => ?_, hnext _ _ hafter⟩
      exact Bool.false_ne_true (kind.has_feed.symm.trans (htaken _ hfeed))
    cases piece with
    | text text =>
      rw [groups?] at h
      split at h
      · cases h
      · next after hafter =>
        rw [IsOneLine, Text.dropPrefix?_eq_some_iff.mp hafter, List.mem_append, not_or]
        exact ⟨he.1, ih he.2 h⟩
    | many kind => exact hgreedy kind _ (fun _ _ hafter => ih he.2 hafter) h
    | group kind =>
      refine hgreedy kind _ (fun run after hafter => ?_) h
      obtain ⟨-, hmap⟩ := Option.ite_none_left_eq_some.mp hafter
      obtain ⟨rest, hrest, -⟩ := Option.map_eq_some_iff.mp hmap
      exact ih he.2 hrest

theorem groups?_text (text : String) (rest : List Char) :
    groups? (.text text :: e) (text.toList ++ rest) = groups? e rest := by
  rw [groups?, Text.dropPrefix?_eq_some_iff.mpr rfl]

theorem groups?_text_eq_some_iff {text : String} :
    groups? (.text text :: e) cs = some found ↔
      ∃ rest, cs = text.toList ++ rest ∧ groups? e rest = some found := by
  constructor
  · intro h
    rw [groups?] at h
    split at h
    · cases h
    · next rest hrest => exact ⟨rest, Text.dropPrefix?_eq_some_iff.mp hrest, h⟩
  · rintro ⟨rest, rfl, h⟩
    rwa [groups?_text]

/-- A search behind anything looks at the later places first. -/
theorem groups?_anything_cons {c : Char} (hc : c ≠ '\n') (e : Expression) (cs : List Char) :
    groups? (.many .onLine :: e) (c :: cs) =
      (groups? (.many .onLine :: e) cs).or (groups? e (c :: cs)) := by
  have hon : CharClass.onLine.has c = true := bne_iff_ne.mpr hc
  rw [groups?, groups?, greedy, if_pos hon, greedy_const _ [c] []]
  cases greedy .onLine (fun _ after => groups? e after) [] cs <;> rfl

theorem takeWhile_onLine (h : IsOneLine cs) : cs.takeWhile CharClass.onLine.has = cs := by
  rw [List.takeWhile_eq_self_iff]
  intro c hc
  exact bne_iff_ne.mpr fun heq => h (heq ▸ hc)

theorem dropWhile_onLine (h : IsOneLine cs) : cs.dropWhile CharClass.onLine.has = [] := by
  rw [List.dropWhile_eq_nil_iff]
  intro c hc
  exact bne_iff_ne.mpr fun heq => h (heq ▸ hc)

theorem groups?_anything (h : IsOneLine cs) : groups? [.many .onLine] cs = some [] := by
  rw [groups?]
  apply greedy_of_longest
  rw [dropWhile_onLine h]
  rfl

theorem groups?_something (h : IsOneLine cs) (hne : cs ≠ []) :
    groups? [.group .onLine] cs = some [cs] := by
  rw [groups?]
  apply greedy_of_longest
  rw [takeWhile_onLine h, dropWhile_onLine h, List.append_nil]
  simp [hne, groups?]

theorem groups?_something_nil : groups? [.group .onLine] [] = none := rfl

end Expression

/-! ### Lines that tell a height -/

/-- What stands behind the digits. -/
inductive LineTail where
  | anything
  /-- A text, and anything after it. -/
  | opensWith (text : String)
  /-- A text, and at least one character after it. -/
  | opensWithMore (text : String)
  /-- A text that ends the line. -/
  | closesWith (text : String)

namespace LineTail

/-- The rest of a line is such a tail. -/
def Allows : LineTail → List Char → Prop
  | .anything, _ => True
  | .opensWith text, rest => text.toList <+: rest
  | .opensWithMore text, rest => ∃ c more, rest = text.toList ++ c :: more
  | .closesWith text, rest => rest = text.toList

def text? : LineTail → Option String
  | .anything => none
  | .opensWith text | .opensWithMore text | .closesWith text => some text

def expression : LineTail → Expression
  | .anything => [.many .onLine]
  | .opensWith text => [.text text, .many .onLine]
  | .opensWithMore text => [.text text, .group .onLine]
  | .closesWith text => [.text text]

end LineTail

/-- A kind of line that tells a height. -/
structure LineForm where
  kind : ReadingKind
  lead : String
  tail : LineTail

namespace LineForm

/-- The line goes on so: the lead, some decimal digits, and the tail. -/
def Occurs (f : LineForm) (here : List Char) : Prop :=
  ∃ run rest, here = f.lead.toList ++ (run ++ rest) ∧ run ≠ [] ∧
    (∀ c ∈ run, Text.isDecimalDigit c = true) ∧ f.tail.Allows rest

/-- The form occurs somewhere in a line. -/
def OccursIn (f : LineForm) (line : List Char) : Prop :=
  ∃ here, here <:+ line ∧ f.Occurs here

/-- All the digits behind a lead that stands here. -/
def digitsAt (f : LineForm) (here : List Char) : List Char :=
  (here.drop f.lead.toList.length).takeWhile Text.isDecimalDigit

/-- The form occurs in a line, and at its last occurrence stand these digits. -/
def LastDigits (f : LineForm) (line run : List Char) : Prop :=
  ∃ here, here <:+ line ∧ f.Occurs here ∧
    (∀ other, other <:+ line → f.Occurs other → here <:+ other) ∧ run = f.digitsAt here

/-- The lead, the digits and the tail, which have to match from some place on. -/
def expressionHere (f : LineForm) : Expression :=
  .text f.lead :: .group .digit :: f.tail.expression

def pattern (f : LineForm) : LogPattern where
  kind := f.kind
  expression := .many .onLine :: f.expressionHere

/-- A text that stays on its line and does not start with a digit. -/
def stopsDigits (text : String) : Bool :=
  !text.toList.contains '\n' && text.toList.head?.any fun c => !Text.isDecimalDigit c

/-- No text of a form goes over the end of a line, and the tail cannot be mistaken for digits. -/
def IsPlain (f : LineForm) : Prop :=
  '\n' ∉ f.lead.toList ∧ f.tail.text?.all stopsDigits = true

instance (f : LineForm) : Decidable f.IsPlain :=
  inferInstanceAs (Decidable (_ ∧ _))

end LineForm

namespace LineTail

open Expression

variable {t : LineTail} {rest : List Char}

/-- A rest of a line matches just if it is such a tail. -/
theorem isSome_groups?_iff (h : IsOneLine rest) :
    (groups? t.expression rest).isSome ↔ t.Allows rest := by
  have hafter : ∀ {front after : List Char}, rest = front ++ after → IsOneLine after := by
    rintro front after rfl hfeed
    exact h (List.mem_append_right front hfeed)
  cases t with
  | anything => simp [expression, Allows, groups?_anything h]
  | opensWith text =>
    simp only [expression, Allows, Option.isSome_iff_exists, groups?_text_eq_some_iff]
    constructor
    · rintro ⟨_, after, rfl, -⟩
      exact List.prefix_append _ _
    · rintro ⟨after, rfl⟩
      exact ⟨[], after, rfl, groups?_anything (hafter rfl)⟩
  | opensWithMore text =>
    simp only [expression, Allows, Option.isSome_iff_exists, groups?_text_eq_some_iff]
    constructor
    · rintro ⟨found, after, rfl, hfound⟩
      cases after with
      | nil => cases groups?_something_nil.symm.trans hfound
      | cons c more => exact ⟨c, more, rfl⟩
    · rintro ⟨c, more, rfl⟩
      exact ⟨[c :: more], c :: more, rfl, groups?_something (hafter rfl) (List.cons_ne_nil c more)⟩
  | closesWith text =>
    simp only [expression, Allows, Option.isSome_iff_exists, groups?_text_eq_some_iff]
    constructor
    · rintro ⟨_, after, rfl, hnil⟩
      simp only [groups?, List.isEmpty_iff, Option.ite_none_right_eq_some] at hnil
      rw [hnil.1, List.append_nil]
    · rintro rfl
      exact ⟨[], [], (List.append_nil _).symm, rfl⟩

theorem keepsToLine (h : ∀ text ∈ t.text?, IsOneLine text.toList) :
    ∀ piece ∈ t.expression, KeepsToLine piece := by
  cases t with
  | anything => exact List.forall_mem_singleton.mpr trivial
  | opensWith text | opensWithMore text =>
    exact List.forall_mem_cons.mpr ⟨h text rfl, List.forall_mem_singleton.mpr trivial⟩
  | closesWith text => exact List.forall_mem_singleton.mpr (h text rfl)

theorem eq_anything (h : t.text? = none) : t = .anything := by
  cases t with
  | anything => rfl
  | opensWith _ | opensWithMore _ | closesWith _ => cases h

/-- A tail that has a text starts with it. -/
theorem Allows.text_prefix_rest {text : String} (h : t.Allows rest) (ht : text ∈ t.text?) :
    text.toList <+: rest := by
  cases t with
  | anything => cases ht
  | opensWith _ =>
    cases ht
    exact h
  | opensWithMore _ =>
    cases ht
    obtain ⟨c, more, rfl⟩ := h
    exact List.prefix_append _ _
  | closesWith _ =>
    cases ht
    exact h ▸ List.prefix_rfl

/-- A tail that has a text matches only what starts with it. -/
theorem text_prefix_of_groups? {text : String} {found : List (List Char)} (ht : text ∈ t.text?)
    (h : groups? t.expression rest = some found) : text.toList <+: rest := by
  have hfront : ∀ e : Expression, groups? (.text text :: e) rest = some found →
      text.toList <+: rest := by
    intro e he
    obtain ⟨after, rfl, -⟩ := groups?_text_eq_some_iff.mp he
    exact List.prefix_append _ _
  cases t with
  | anything => cases ht
  | opensWith _ | opensWithMore _ | closesWith _ =>
    cases ht
    exact hfront _ h

end LineTail

namespace LineForm

open Expression

variable {f : LineForm} {cs here line run : List Char}

theorem IsPlain.stops (h : f.IsPlain) {text : String} (ht : text ∈ f.tail.text?) :
    IsOneLine text.toList ∧ ∃ c ∈ text.toList.head?, Text.isDecimalDigit c = false := by
  have hstops : stopsDigits text = true := (Option.all_eq_true _ _).mp h.2 text ht
  rw [stopsDigits, Bool.and_eq_true, Option.any_eq_true] at hstops
  simpa [IsOneLine] using hstops

/-- What starts with a tail's text does not start with a digit. -/
theorem IsPlain.not_digit (h : f.IsPlain) {text : String} (ht : text ∈ f.tail.text?) {c : Char}
    {after : List Char} (hfront : text.toList <+: c :: after) : Text.isDecimalDigit c = false := by
  obtain ⟨d, hd, hno⟩ := (h.stops ht).2
  obtain ⟨more, hmore⟩ := hfront
  have hhead : d ∈ (text.toList ++ more).head? := List.mem_head?_append_of_mem_head? hd
  rw [hmore, List.head?_cons, Option.mem_def, Option.some.injEq] at hhead
  rw [hhead, hno]

/-- Behind a lead, all the digits that stand there are captured, if a tail follows them. -/
theorem groups?_digits (h : f.IsPlain) (hcs : IsOneLine cs) :
    groups? (.group .digit :: f.tail.expression) cs =
      if cs.takeWhile Text.isDecimalDigit = [] then none
      else (groups? f.tail.expression (cs.dropWhile Text.isDecimalDigit)).map
        fun found => cs.takeWhile Text.isDecimalDigit :: found := by
  have hdigit : CharClass.has .digit = Text.isDecimalDigit := rfl
  rw [groups?]
  cases ht : f.tail.text? with
  | some text =>
    -- a shorter run would leave a digit where the text of the tail has to stand
    rw [greedy_of_refused]
    · simp only [hdigit, List.append_nil, List.reverse_reverse, List.isEmpty_iff,
        List.reverse_eq_nil_iff]
    · intro run c after hc
      have hnone : groups? f.tail.expression (c :: after) = none := by
        rw [Option.eq_none_iff_forall_ne_some]
        intro found hfound
        have hno := h.not_digit ht (LineTail.text_prefix_of_groups? ht hfound)
        exact Bool.false_ne_true (hno.symm.trans hc)
      rw [hnone, Option.map_none, ite_self]
  | none =>
    have hanything : f.tail.expression = [.many .onLine] := by
      rw [LineTail.eq_anything ht]
      rfl
    have hrest : IsOneLine (cs.dropWhile Text.isDecimalDigit) :=
      fun hfeed => hcs ((List.dropWhile_suffix _).subset hfeed)
    rw [hanything, groups?_anything hrest]
    by_cases hrun : cs.takeWhile Text.isDecimalDigit = []
    · -- no digit stands here, so there is only the empty run to try
      rw [if_pos hrun]
      cases cs with
      | nil => rfl
      | cons c cs =>
        have hc : ¬ CharClass.has .digit c = true := by
          intro hc
          rw [List.takeWhile_cons_of_pos (hdigit ▸ hc)] at hrun
          cases hrun
        rw [greedy, if_neg hc]
        rfl
    · rw [if_neg hrun]
      apply greedy_of_longest
      simp [hdigit, hrun, groups?_anything hrest]

/-- The digits that stand behind a lead, when a tail follows some of them. -/
theorem IsPlain.occurs_iff (h : f.IsPlain) :
    f.Occurs here ↔ ∃ after, here = f.lead.toList ++ after ∧
      after.takeWhile Text.isDecimalDigit ≠ [] ∧
        f.tail.Allows (after.dropWhile Text.isDecimalDigit) := by
  constructor
  · rintro ⟨run, rest, rfl, hne, hdigits, hallows⟩
    refine ⟨run ++ rest, rfl, ?_, ?_⟩
    · rw [List.takeWhile_append_of_pos hdigits]
      exact List.append_ne_nil_of_left_ne_nil hne _
    · rw [List.dropWhile_append_of_pos hdigits]
      cases ht : f.tail.text? with
      | none =>
        rw [LineTail.eq_anything ht]
        trivial
      | some text =>
        cases rest with
        | nil => exact hallows
        | cons c rest =>
          have hc := h.not_digit ht (hallows.text_prefix_rest ht)
          rwa [List.dropWhile_cons_of_neg (Bool.eq_false_iff.mp hc)]
  · rintro ⟨after, rfl, hne, hallows⟩
    refine ⟨after.takeWhile Text.isDecimalDigit, after.dropWhile Text.isDecimalDigit, ?_, hne, ?_,
      hallows⟩
    · rw [List.takeWhile_append_dropWhile]
    · exact fun c => List.mem_takeWhile_imp

theorem digitsAt_append (f : LineForm) (after : List Char) :
    f.digitsAt (f.lead.toList ++ after) = after.takeWhile Text.isDecimalDigit := by
  rw [digitsAt, List.drop_left]

/-- A match from here on is an occurrence, and captures all its digits first. -/
theorem IsPlain.occurs_of_groups? (h : f.IsPlain) (hhere : IsOneLine here)
    {found : List (List Char)} (hfound : groups? f.expressionHere here = some found) :
    f.Occurs here ∧ found.head? = some (f.digitsAt here) := by
  obtain ⟨after, rfl, hafter⟩ := groups?_text_eq_some_iff.mp hfound
  have hline : IsOneLine after := fun hfeed => hhere (List.mem_append_right _ hfeed)
  rw [groups?_digits h hline, Option.ite_none_left_eq_some, Option.map_eq_some_iff] at hafter
  obtain ⟨hne, more, hmore, rfl⟩ := hafter
  have hrest : IsOneLine (after.dropWhile Text.isDecimalDigit) :=
    fun hfeed => hline ((List.dropWhile_suffix _).subset hfeed)
  have hallows :=
    (LineTail.isSome_groups?_iff hrest).mp (Option.isSome_iff_exists.mpr ⟨more, hmore⟩)
  exact ⟨h.occurs_iff.mpr ⟨after, rfl, hne, hallows⟩, by rw [digitsAt_append, List.head?_cons]⟩

/-- Where the form occurs, the rest of the line matches. -/
theorem IsPlain.isSome_of_occurs (h : f.IsPlain) (hhere : IsOneLine here)
    (hoccurs : f.Occurs here) : (groups? f.expressionHere here).isSome = true := by
  obtain ⟨after, rfl, hne, hallows⟩ := h.occurs_iff.mp hoccurs
  have hline : IsOneLine after := fun hfeed => hhere (List.mem_append_right _ hfeed)
  have hrest : IsOneLine (after.dropWhile Text.isDecimalDigit) :=
    fun hfeed => hline ((List.dropWhile_suffix _).subset hfeed)
  rw [expressionHere, groups?_text, groups?_digits h hline, if_neg hne, Option.isSome_map]
  exact (LineTail.isSome_groups?_iff hrest).mpr hallows

/-- A line in which the form occurs matches. -/
theorem IsPlain.isSome_of_occursIn (h : f.IsPlain) (hline : IsOneLine line)
    (hoccurs : f.OccursIn line) :
    (groups? (.many .onLine :: f.expressionHere) line).isSome = true := by
  obtain ⟨here, hsuffix, hoccurs⟩ := hoccurs
  induction line with
  | nil =>
    rw [List.suffix_nil] at hsuffix
    exact h.isSome_of_occurs hline (hsuffix ▸ hoccurs)
  | cons c line ih =>
    have hc : c ≠ '\n' := fun heq => hline (heq ▸ List.mem_cons_self)
    rw [groups?_anything_cons hc, Option.isSome_or, Bool.or_eq_true]
    rcases List.suffix_cons_iff.mp hsuffix with rfl | hsuffix
    · exact Or.inr (h.isSome_of_occurs hline hoccurs)
    · exact Or.inl (ih (fun hfeed => hline (List.mem_cons_of_mem c hfeed)) hsuffix)

/-- A match of a line is one at the last occurrence of the form. -/
theorem IsPlain.lastDigits_of_groups? (h : f.IsPlain) (hline : IsOneLine line)
    {found : List (List Char)}
    (hfound : groups? (.many .onLine :: f.expressionHere) line = some found) :
    ∃ run, found.head? = some run ∧ f.LastDigits line run := by
  induction line with
  | nil =>
    obtain ⟨hoccurs, hhead⟩ := h.occurs_of_groups? hline hfound
    exact ⟨_, hhead, [], List.suffix_rfl, hoccurs, fun other _ _ => List.nil_suffix, rfl⟩
  | cons c line ih =>
    have hc : c ≠ '\n' := fun heq => hline (heq ▸ List.mem_cons_self)
    have hrest : IsOneLine line := fun hfeed => hline (List.mem_cons_of_mem c hfeed)
    rw [groups?_anything_cons hc] at hfound
    cases hlater : groups? (.many .onLine :: f.expressionHere) line with
    | some found' =>
      rw [hlater, Option.some_or, Option.some.injEq] at hfound
      subst hfound
      obtain ⟨run, hhead, here, hsuffix, hoccurs, hlast, hrun⟩ := ih hrest hlater
      refine ⟨run, hhead, here, hsuffix.trans (List.suffix_cons c line), hoccurs, ?_, hrun⟩
      intro other hother hoccurs'
      rcases List.suffix_cons_iff.mp hother with rfl | hother
      · exact hsuffix.trans (List.suffix_cons c line)
      · exact hlast other hother hoccurs'
    | none =>
      rw [hlater, Option.none_or] at hfound
      obtain ⟨hoccurs, hhead⟩ := h.occurs_of_groups? hline hfound
      refine ⟨_, hhead, c :: line, List.suffix_rfl, hoccurs, ?_, rfl⟩
      intro other hother hoccurs'
      rcases List.suffix_cons_iff.mp hother with rfl | hother
      · exact List.suffix_rfl
      · have hsome := h.isSome_of_occursIn hrest ⟨other, hother, hoccurs'⟩
        rw [hlater] at hsome
        cases hsome

/-- There is one run of digits at the last occurrence. -/
theorem LastDigits.unique {run' : List Char} (h : f.LastDigits line run)
    (h' : f.LastDigits line run') : run = run' := by
  obtain ⟨here, hsuffix, hoccurs, hlast, rfl⟩ := h
  obtain ⟨here', hsuffix', hoccurs', hlast', rfl⟩ := h'
  have hsame : here = here' :=
    (hlast here' hsuffix' hoccurs').eq_of_length_le (hlast' here hsuffix hoccurs).length_le
  rw [hsame]

/-- A text that matches a form's pattern is a line in which the form occurs. -/
theorem IsPlain.isOneLine_of_accepts (h : f.IsPlain) {text : String}
    (haccepts : f.pattern.accepts text = true) : IsOneLine text.toList := by
  obtain ⟨found, hfound⟩ := Option.isSome_iff_exists.mp haccepts
  refine isOneLine_of_groups? ?_ hfound
  simp only [pattern, expressionHere, List.forall_mem_cons]
  exact ⟨trivial, h.1, trivial, LineTail.keepsToLine fun text ht => (h.stops ht).1⟩

end LineForm

/-! ### Reading a line -/

/-- The number that a run of digits tells, if it is one of sixty-four bits in ASCII digits. -/
def heightOf? (run : List Char) : Option Nat :=
  if (run.all fun c => '0' ≤ c ∧ c ≤ '9') = true ∧ Text.decimalValue run < 2 ^ 64 then
    some (Text.decimalValue run)
  else none

/-- What a line tells by forms that are tried in order.  The first that occurs in it decides. -/
inductive ToldBy (forms : List LineForm) (line : List Char) : Option Reading → Prop where
  | broken (feed : '\n' ∈ line) : ToldBy forms line none
  | unmatched (oneLine : '\n' ∉ line) (unmatched : ∀ f ∈ forms, ¬ f.OccursIn line) :
    ToldBy forms line none
  | matched (oneLine : '\n' ∉ line) (earlier later : List LineForm) (f : LineForm) (run : List Char)
    (split : forms = earlier ++ f :: later) (first : ∀ g ∈ earlier, ¬ g.OccursIn line)
    (last : f.LastDigits line run) :
    ToldBy forms line ((heightOf? run).map fun height => ⟨f.kind, height⟩)

section

variable {f : LineForm} {text : String}

theorem LineForm.IsPlain.accepts_iff (h : f.IsPlain) :
    f.pattern.accepts text = true ↔ '\n' ∉ text.toList ∧ f.OccursIn text.toList := by
  constructor
  · intro haccepts
    have hline := h.isOneLine_of_accepts haccepts
    obtain ⟨found, hfound⟩ := Option.isSome_iff_exists.mp haccepts
    obtain ⟨_, _, here, hsuffix, hoccurs, _⟩ := h.lastDigits_of_groups? hline hfound
    exact ⟨hline, here, hsuffix, hoccurs⟩
  · rintro ⟨hline, hoccurs⟩
    exact h.isSome_of_occursIn hline hoccurs

theorem LineForm.IsPlain.capture?_of_accepts (h : f.IsPlain)
    (haccepts : f.pattern.accepts text = true) :
    ∃ run, f.pattern.capture? text = some run ∧ f.LastDigits text.toList run := by
  obtain ⟨found, hfound⟩ := Option.isSome_iff_exists.mp haccepts
  obtain ⟨run, hhead, hlast⟩ :=
    h.lastDigits_of_groups? (h.isOneLine_of_accepts haccepts) hfound
  refine ⟨run, ?_, hlast⟩
  rw [LogPattern.capture?, hfound, Option.bind_some, hhead]

/-- The digits of an occurrence are decimal digits, at least one. -/
theorem LineForm.LastDigits.isRun {line run : List Char} (h : f.LastDigits line run) :
    run ≠ [] ∧ ∀ c ∈ run, Text.isDecimalDigit c = true := by
  obtain ⟨here, _, ⟨front, rest, rfl, hne, hdigits, _⟩, _, rfl⟩ := h
  rw [LineForm.digitsAt_append]
  refine ⟨?_, fun c => List.mem_takeWhile_imp⟩
  rw [List.takeWhile_append_of_pos hdigits]
  exact List.append_ne_nil_of_left_ne_nil hne _

/-- A run of digits is read as the height that it tells. -/
theorem readNat_eq_ok_iff_heightOf? {run : List Char} (hne : run ≠ [])
    (hdigits : ∀ c ∈ run, Text.isDecimalDigit c = true) (height : Nat) :
    Text.readNat Text.max64 run = .ok height ↔ heightOf? run = some height := by
  have hlimit : ∀ n, n ≤ Text.max64 ↔ n < 2 ^ 64 := fun n => Nat.lt_succ_iff.symm
  rw [Text.readNat_eq_ok_iff hne hdigits, heightOf?, Option.ite_none_right_eq_some,
    Option.some.injEq, hlimit, List.all_eq_true]
  simp only [decide_eq_true_eq]
  constructor
  · rintro ⟨hascii, rfl, hless⟩
    exact ⟨⟨hascii, hless⟩, rfl⟩
  · rintro ⟨⟨hascii, hless⟩, rfl⟩
    exact ⟨hascii, rfl, hless⟩

variable {forms : List LineForm}

/-- The patterns of forms, tried in their order. -/
def patternsOf (forms : List LineForm) : PatternSet :=
  ⟨forms.map LineForm.pattern⟩

/-- A set reads nothing in a text that none of its patterns accepts. -/
theorem read?_of_none (h : ∀ f ∈ forms, f.pattern.accepts text ≠ true) :
    (patternsOf forms).read? text = none := by
  have hnone : (patternsOf forms).patterns.find? (fun p => p.accepts text) = none := by
    rw [List.find?_eq_none, patternsOf, List.forall_mem_map]
    exact h
  rw [PatternSet.read?, hnone]

/-- A set reads the height that stands at the last occurrence of its first form that occurs. -/
theorem read?_of_first (hplain : ∀ f ∈ forms, f.IsPlain) {earlier later : List LineForm}
    {run : List Char} (hsplit : forms = earlier ++ f :: later)
    (hfirst : ∀ g ∈ earlier, g.pattern.accepts text ≠ true)
    (haccepts : f.pattern.accepts text = true) (hlast : f.LastDigits text.toList run) :
    (patternsOf forms).read? text = (heightOf? run).map fun height => ⟨f.kind, height⟩ := by
  have hf : f.IsPlain := hplain f (hsplit ▸ List.mem_append_right _ List.mem_cons_self)
  have hfind : (patternsOf forms).patterns.find? (fun p => p.accepts text) = some f.pattern := by
    rw [List.find?_eq_some_iff_append]
    refine ⟨haccepts, earlier.map LineForm.pattern, later.map LineForm.pattern, ?_, ?_⟩
    · rw [patternsOf, hsplit, List.map_append, List.map_cons]
    · simpa using hfirst
  obtain ⟨run', hcapture, hlast'⟩ := hf.capture?_of_accepts haccepts
  cases hlast.unique hlast'
  have hread := readNat_eq_ok_iff_heightOf? hlast.isRun.1 hlast.isRun.2
  rw [PatternSet.read?, hfind]
  simp only [hcapture]
  cases hheight : heightOf? run with
  | some height =>
    rw [(hread height).mpr hheight]
    rfl
  | none =>
    cases hnumber : Text.readNat Text.max64 run with
    | error fault => rfl
    | ok height => cases hheight.symm.trans ((hread height).mp hnumber)

/-- What a set reads in a text is what the text tells by its forms. -/
theorem read?_iff_toldBy (hplain : ∀ f ∈ forms, f.IsPlain) (text : String) (told : Option Reading) :
    (patternsOf forms).read? text = told ↔ ToldBy forms text.toList told := by
  have haccepts : ∀ g ∈ forms, g.pattern.accepts text = true ↔
      '\n' ∉ text.toList ∧ g.OccursIn text.toList := fun g hg => (hplain g hg).accepts_iff
  constructor
  · rintro rfl
    cases hfind : forms.find? fun f => f.pattern.accepts text with
    | some f =>
      obtain ⟨hf, earlier, later, hsplit, hearlier⟩ := List.find?_eq_some_iff_append.mp hfind
      have hmem : f ∈ forms := List.mem_of_find?_eq_some hfind
      have hfirst : ∀ g ∈ earlier, g.pattern.accepts text ≠ true := by simpa using hearlier
      obtain ⟨run, -, hlast⟩ := (hplain f hmem).capture?_of_accepts hf
      rw [read?_of_first hplain hsplit hfirst hf hlast]
      have hline := ((haccepts f hmem).mp hf).1
      refine .matched hline earlier later f run hsplit (fun g hg hoccurs => hfirst g hg ?_) hlast
      exact (haccepts g (hsplit ▸ List.mem_append_left _ hg)).mpr ⟨hline, hoccurs⟩
    | none =>
      have hnone : ∀ g ∈ forms, g.pattern.accepts text ≠ true := List.find?_eq_none.mp hfind
      rw [read?_of_none hnone]
      by_cases hline : '\n' ∈ text.toList
      · exact .broken hline
      · exact .unmatched hline fun g hg h => hnone g hg ((haccepts g hg).mpr ⟨hline, h⟩)
  · intro htold
    cases htold with
    | broken feed => exact read?_of_none fun g hg h => ((haccepts g hg).mp h).1 feed
    | unmatched oneLine unmatched =>
      exact read?_of_none fun g hg h => unmatched g hg ((haccepts g hg).mp h).2
    | matched oneLine earlier later f run split first last =>
      have hoccurs : f.OccursIn text.toList := by
        obtain ⟨here, hsuffix, hoccurs, _⟩ := last
        exact ⟨here, hsuffix, hoccurs⟩
      have hmem : ∀ g ∈ earlier, g ∈ forms := fun g hg => split ▸ List.mem_append_left _ hg
      refine read?_of_first hplain split (fun g hg h => ?_) ?_ last
      · exact first g hg ((haccepts g (hmem g hg)).mp h).2
      · exact (haccepts f (split ▸ List.mem_append_right _ List.mem_cons_self)).mpr
          ⟨oneLine, hoccurs⟩

end

/-! ### The built-in sets -/

/-- The lines of a light client. -/
def neutrinoForms (simnet : Bool) : List LineForm :=
  [⟨.caughtUp, "Fully caught up with cfheaders at height ",
      .closesWith ", waiting at tip for new blocks"⟩,
    if simnet then
      ⟨.current, "Writing cfheaders at height=", .closesWith " to next checkpoint"⟩
    else
      ⟨.current, "Fetching set of checkpointed cfheaders filters from height=", .anything⟩,
    ⟨.total, "Syncing to block height ", .opensWith " from peer"⟩]

/-- The lines of a lightning node that was told of a block. -/
def newBlockForms : List LineForm :=
  [⟨.current, "NTFN: New block: height=", .opensWithMore ", sha="⟩]

theorem isPlain_neutrinoForms (simnet : Bool) : ∀ f ∈ neutrinoForms simnet, f.IsPlain := by
  cases simnet <;> decide +kernel

theorem isPlain_newBlockForms : ∀ f ∈ newBlockForms, f.IsPlain := by
  decide +kernel

/-- What the built-in sets read in any text is what the text tells by the forms of the set: nothing
if it has a line feed, else the height at the last occurrence of the first form that occurs in
it. -/
theorem read?_iff_toldBy_builtIn (text : String) (told : Option Reading) :
    (∀ simnet, (PatternSet.neutrino simnet).read? text = told ↔
      ToldBy (neutrinoForms simnet) text.toList told) ∧
    (PatternSet.newBlocks.read? text = told ↔ ToldBy newBlockForms text.toList told) := by
  have hneutrino : ∀ simnet, PatternSet.neutrino simnet = patternsOf (neutrinoForms simnet) := by
    intro simnet
    cases simnet <;> rfl
  have hnewBlocks : PatternSet.newBlocks = patternsOf newBlockForms := rfl
  constructor
  · intro simnet
    rw [hneutrino]
    exact read?_iff_toldBy (isPlain_neutrinoForms simnet) text told
  · rw [hnewBlocks]
    exact read?_iff_toldBy isPlain_newBlockForms text told

/-- Digits of another script are captured, and are no number. -/
example : PatternSet.newBlocks.read? "New block: NTFN: New block: height=27, sha=a, sha=b" =
      some ⟨.current, 27⟩ ∧
    PatternSet.newBlocks.read? "NTFN: New block: height=7, sha=NTFN: New block: height=1٢, sha=b" =
      none := by
  decide +kernel

end FleetWatch
