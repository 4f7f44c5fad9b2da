import Mathlib.Data.List.Basic
/-!
Things done in turn, each of which may fail.

Together they succeed if each does, and they fail as the first does that fails; what comes behind it
is not tried.
-/

namespace FleetWatch

variable {ε α β : Type}

/-- Two things done one after the other succeed if both do. -/
theorem bind_eq_ok {x : Except ε α} {f : α → Except ε β} {b : β} :
    x >>= f = .ok b ↔ ∃ a, x = .ok a ∧ f a = .ok b := by
  cases x with
  | error e => simp [bind, Except.bind]
  | ok a => simp [bind, Except.bind]

theorem map_eq_ok_iff {x : Except ε α} {g : α → β} {b : β} :
    g <$> x = .ok b ↔ ∃ a, x = .ok a ∧ g a = b := by
  cases x <;> simp [Functor.map, Except.map]

theorem map_eq_error_iff {x : Except ε α} {g : α → β} {e : ε} :
    g <$> x = .error e ↔ x = .error e := by
  cases x <;> simp [Functor.map, Except.map]

variable {f : α → Except ε β} {a : α} {b : β} {e : ε} {items : List α}

theorem mapM_cons_of_ok (h : f a = .ok b) :
    (a :: items).mapM f = (items.mapM f).map (b :: ·) := by
  rw [List.mapM_cons, h]
  cases items.mapM f <;> rfl

theorem mapM_cons_of_error (h : f a = .error e) : (a :: items).mapM f = .error e := by
  rw [List.mapM_cons, h]
  rfl

/-- A row of things succeeds with what each gives. -/
theorem mapM_eq_ok_iff {results : List β} :
    items.mapM f = .ok results ↔ items.map f = results.map .ok := by
  induction items generalizing results with
  | nil => cases results <;> simp [pure, Except.pure]
  | cons a items ih =>
    rw [List.map_cons]
    cases hfirst : f a with
    | error e =>
      rw [mapM_cons_of_error hfirst]
      cases results <;> simp
    | ok b =>
      rw [mapM_cons_of_ok hfirst]
      cases results with
      | nil => cases items.mapM f <;> simp [Except.map]
      | cons r results =>
        rw [List.map_cons, List.cons.injEq, ← ih, Except.ok.injEq]
        cases items.mapM f <;> simp [Except.map]

/-- What a row gives, one of its things gives. -/
theorem exists_of_mem_mapM {results : List β} (h : items.mapM f = .ok results) (hb : b ∈ results) :
    ∃ a ∈ items, f a = .ok b := by
  rw [mapM_eq_ok_iff] at h
  rw [← List.mem_map, h]
  exact List.mem_map_of_mem hb

/-- A row of things fails as the first of them that fails. -/
theorem mapM_eq_error_iff :
    items.mapM f = .error e ↔ ∃ before a after, items = before ++ a :: after ∧
      (∀ b ∈ before, ∃ r, f b = .ok r) ∧ f a = .error e := by
  induction items with
  | nil => simp [pure, Except.pure]
  | cons first items ih =>
    cases hfirst : f first with
    | error e' =>
      rw [mapM_cons_of_error hfirst, Except.error.injEq]
      constructor
      · rintro rfl
        exact ⟨[], first, items, rfl, nofun, hfirst⟩
      · rintro ⟨before, a, after, hsplit, hbefore, ha⟩
        cases before with
        | nil =>
          cases hsplit
          exact Except.error.inj (hfirst.symm.trans ha)
        | cons b before =>
          obtain ⟨r, hr⟩ := hbefore b List.mem_cons_self
          cases hsplit
          cases hfirst.symm.trans hr
    | ok r =>
      rw [mapM_cons_of_ok hfirst]
      have htail : (items.mapM f).map (r :: ·) = .error e ↔ items.mapM f = .error e := by
        cases items.mapM f <;> simp [Except.map]
      rw [htail, ih]
      constructor
      · rintro ⟨before, a, after, rfl, hbefore, ha⟩
        refine ⟨first :: before, a, after, rfl, ?_, ha⟩
        exact List.forall_mem_cons.mpr ⟨⟨r, hfirst⟩, hbefore⟩
      · rintro ⟨before, a, after, hsplit, hbefore, ha⟩
        cases before with
        | nil =>
          cases hsplit
          cases hfirst.symm.trans ha
        | cons b before =>
          cases hsplit
          exact ⟨before, a, after, rfl, fun b hb => hbefore b (List.mem_cons_of_mem _ hb), ha⟩

end FleetWatch
