import FleetWatch.Json.Value
import Mathlib.Data.List.Induction
import Mathlib.Data.String.Basic
/-!
Members in the order of their names.

Sorting adds no member, leaves one of each name, puts the names in strict order, and leaves members
alone that are in it.  Of several members of one name the last counts, sorted or not.
-/

namespace FleetWatch

namespace Json

variable {α : Type} {name other : String} {value : α} {members : List (String × α)}

theorem mem_names_insertMember :
    other ∈ (insertMember name value members).map Prod.fst ↔
      other = name ∨ other ∈ members.map Prod.fst := by
  induction members with
  | nil => simp [insertMember]
  | cons member rest ih =>
    obtain ⟨first, old⟩ := member
    by_cases hsame : name = first
    · simp [insertMember, hsame]
    · by_cases hbefore : name < first
      · simp [insertMember, hsame, hbefore]
      · simp only [insertMember, hsame, hbefore, if_false, List.map_cons, List.mem_cons, ih]
        exact or_left_comm

theorem pairwise_insertMember (h : (members.map Prod.fst).Pairwise (· < ·)) :
    ((insertMember name value members).map Prod.fst).Pairwise (· < ·) := by
  induction members with
  | nil => exact List.pairwise_singleton _ _
  | cons member rest ih =>
    obtain ⟨first, old⟩ := member
    obtain ⟨hfirst, hrest⟩ := List.pairwise_cons.mp h
    by_cases hsame : name = first
    · simp only [insertMember, hsame, if_true]
      exact List.pairwise_cons.mpr ⟨hfirst, hrest⟩
    · by_cases hbefore : name < first
      · simp only [insertMember, hsame, hbefore, if_false, if_true]
        refine List.pairwise_cons.mpr ⟨?_, h⟩
        intro later hlater
        rcases List.mem_cons.mp hlater with rfl | hlater
        · exact hbefore
        · exact String.lt_trans hbefore (hfirst later hlater)
      · simp only [insertMember, hsame, hbefore, if_false]
        refine List.pairwise_cons.mpr ⟨?_, ih hrest⟩
        intro later hlater
        rcases mem_names_insertMember.mp hlater with rfl | hlater
        · exact lt_of_le_of_ne (not_lt.mp hbefore) (Ne.symm hsame)
        · exact hfirst later hlater

theorem mem_of_mem_insertMember {member : String × α}
    (h : member ∈ insertMember name value members) : member = (name, value) ∨ member ∈ members := by
  induction members with
  | nil => exact Or.inl (List.mem_singleton.mp h)
  | cons head rest ih =>
    unfold insertMember at h
    split at h
    · exact (List.mem_cons.mp h).imp_right (List.mem_cons_of_mem head)
    · split at h
      · exact List.mem_cons.mp h
      · rcases List.mem_cons.mp h with rfl | h
        · exact Or.inr List.mem_cons_self
        · exact (ih h).imp_right (List.mem_cons_of_mem head)

theorem sortMembers_concat (members : List (String × α)) (member : String × α) :
    sortMembers (members ++ [member]) = insertMember member.1 member.2 (sortMembers members) :=
  List.foldl_concat _ _ _ _

/-- Sorted members have each name once. -/
theorem pairwise_sortMembers (members : List (String × α)) :
    ((sortMembers members).map Prod.fst).Pairwise (· < ·) := by
  induction members using List.reverseRecOn with
  | nil => exact List.Pairwise.nil
  | append_singleton members member ih =>
    rw [sortMembers_concat]
    exact pairwise_insertMember ih

theorem mem_names_sortMembers :
    name ∈ (sortMembers members).map Prod.fst ↔ name ∈ members.map Prod.fst := by
  induction members using List.reverseRecOn with
  | nil => rfl
  | append_singleton members member ih =>
    rw [sortMembers_concat, mem_names_insertMember, ih, List.map_append, List.mem_append,
      List.map_singleton, List.mem_singleton]
    exact or_comm

/-- Sorting adds no member. -/
theorem mem_of_mem_sortMembers {member : String × α} (h : member ∈ sortMembers members) :
    member ∈ members := by
  induction members using List.reverseRecOn with
  | nil => exact h
  | append_singleton members last ih =>
    rw [sortMembers_concat] at h
    rw [List.mem_append, List.mem_singleton]
    exact (mem_of_mem_insertMember h).symm.imp_left ih

/-! ### Members that are in order -/

theorem insertMember_of_last (h : ∀ member ∈ members, member.1 < name) :
    insertMember name value members = members ++ [(name, value)] := by
  induction members with
  | nil => rfl
  | cons first rest ih =>
    obtain ⟨hfirst, hrest⟩ := List.forall_mem_cons.mp h
    rw [insertMember, if_neg hfirst.ne', if_neg hfirst.not_gt, ih hrest, List.cons_append]

/-- Members in the order of their names stay where they are. -/
theorem sortMembers_of_pairwise (h : (members.map Prod.fst).Pairwise (· < ·)) :
    sortMembers members = members := by
  induction members using List.reverseRecOn with
  | nil => rfl
  | append_singleton members member ih =>
    rw [List.map_append, List.pairwise_append] at h
    rw [sortMembers_concat, ih h.1, insertMember_of_last]
    intro earlier hearlier
    exact h.2.2 _ (List.mem_map_of_mem hearlier) _ (List.mem_singleton.mpr rfl)

theorem sortedMembers_of_sorted {members : List (String × Json)}
    (h : ∀ member ∈ members, member.2.sorted = member.2) : sortedMembers members = members := by
  induction members with
  | nil => rfl
  | cons first rest ih =>
    obtain ⟨hfirst, hrest⟩ := List.forall_mem_cons.mp h
    rw [sortedMembers, hfirst, ih hrest]

/-- An object whose members are in order, as are those of its values, is left as it is. -/
theorem sorted_object {members : List (String × Json)}
    (h : (members.map Prod.fst).Pairwise (· < ·))
    (hvalues : ∀ member ∈ members, member.2.sorted = member.2) :
    (object members).sorted = object members := by
  rw [sorted, sortedMembers_of_sorted hvalues, sortMembers_of_pairwise h]

/-! ### The member that counts -/

theorem find?_cons_name (first : String × α) (rest : List (String × α)) :
    (first :: rest).find? (fun m => m.1 == name) =
      if first.1 = name then some first else rest.find? fun m => m.1 == name := by
  by_cases h : first.1 = name
  · simp [h]
  · rw [if_neg h, List.find?_cons_of_neg]
    simpa using h

theorem find?_insertMember :
    (insertMember name value members).find? (fun m => m.1 == other) =
      if name = other then some (name, value) else members.find? fun m => m.1 == other := by
  induction members with
  | nil => rw [insertMember, find?_cons_name]
  | cons member rest ih =>
    obtain ⟨first, old⟩ := member
    unfold insertMember
    split
    · next hsame =>
      rw [find?_cons_name, find?_cons_name, hsame]
      split
      · rfl
      · rfl
    · next hdiffers =>
      split
      · rw [find?_cons_name]
      · rw [find?_cons_name, find?_cons_name, ih]
        by_cases hfirst : first = other
        · have hother : name ≠ other := fun h => hdiffers (h.trans hfirst.symm)
          rw [if_pos hfirst, if_neg hother, if_pos hfirst]
        · rw [if_neg hfirst, if_neg hfirst]

/-- Among sorted members a name has the value of its last member before. -/
theorem find?_sortMembers :
    (sortMembers members).find? (fun m => m.1 == name) =
      members.reverse.find? fun m => m.1 == name := by
  induction members using List.reverseRecOn with
  | nil => rfl
  | append_singleton members member ih =>
    rw [sortMembers_concat, find?_insertMember, ih, List.reverse_concat, find?_cons_name]

/-- A name has a value by the last of its members. -/
def LastMember (members : List (String × α)) (name : String) (value : α) : Prop :=
  ∃ before after, members = before ++ (name, value) :: after ∧ ∀ member ∈ after, member.1 ≠ name

/-- A document is an object in which a name has a value. -/
def Has (j : Json) (name : String) (value : Json) : Prop :=
  ∃ members, j = .object members ∧ LastMember members name value

theorem lookup?_append (xs ys : List (String × Json)) :
    lookup? (xs ++ ys) name = (lookup? ys name).or (lookup? xs name) := by
  simp only [lookup?, List.reverse_append, List.find?_append, Option.map_or]

theorem lookup?_cons (other : String) (value : Json) (rest : List (String × Json)) :
    lookup? ((other, value) :: rest) name =
      (lookup? rest name).or (if other = name then some value else none) := by
  rw [← List.singleton_append, lookup?_append]
  congr 1
  by_cases h : other = name <;> simp [lookup?, h]

/-- A member of another name makes no difference. -/
theorem lookup?_insert_of_ne (h : other ≠ name) (before : List (String × Json)) (value : Json)
    (after : List (String × Json)) :
    lookup? (before ++ (other, value) :: after) name = lookup? (before ++ after) name := by
  rw [lookup?_append, lookup?_cons, if_neg h, Option.or_none, ← lookup?_append]

theorem lookup?_insert_self (before : List (String × Json)) (value : Json)
    (after : List (String × Json)) :
    lookup? (before ++ (name, value) :: after) name = (lookup? after name).or (some value) := by
  rw [lookup?_append, lookup?_cons, if_pos rfl, Option.or_assoc, Option.some_or]

theorem lookup?_eq_none_iff {members : List (String × Json)} :
    lookup? members name = none ↔ ∀ member ∈ members, member.1 ≠ name := by
  simp [lookup?]

theorem lookup?_eq_some_iff {members : List (String × Json)} {value : Json} :
    lookup? members name = some value ↔ LastMember members name value := by
  constructor
  · intro h
    obtain ⟨⟨other, value⟩, hfind, rfl⟩ := Option.map_eq_some_iff.mp h
    obtain ⟨hname, after, before, hmembers, hafter⟩ := List.find?_eq_some_iff_append.mp hfind
    obtain rfl : other = name := beq_iff_eq.mp hname
    refine ⟨before.reverse, after.reverse, ?_, fun member hmember => ?_⟩
    · rw [← List.reverse_reverse members, hmembers]
      simp
    · simpa using hafter member (List.mem_reverse.mp hmember)
  · rintro ⟨before, after, rfl, hafter⟩
    rw [lookup?_append, lookup?_cons, lookup?_eq_none_iff.mpr hafter, if_pos rfl]
    rfl

theorem get?_eq_some_iff {j value : Json} : j.get? name = some value ↔ j.Has name value := by
  cases j with
  | object members =>
    rw [get?, lookup?_eq_some_iff, Has]
    constructor
    · exact fun h => ⟨members, rfl, h⟩
    · rintro ⟨_, hj, h⟩
      rwa [Json.object.inj hj]
  | _ => simp [get?, Has]

section Replace

variable {before after : List (String × Json)}

theorem get?_insert_of_ne (h : other ≠ name) (value : Json) :
    (object (before ++ (other, value) :: after)).get? name = (object (before ++ after)).get? name :=
  lookup?_insert_of_ne h before value after

/-- A member is read unless a later one of its name is. -/
theorem get?_insert_self (value : Json) :
    (object (before ++ (name, value) :: after)).get? name =
      ((object after).get? name).or (some value) :=
  lookup?_insert_self before value after

/-- The value of another name makes no difference. -/
theorem get?_replace_of_ne (h : other ≠ name) (v w : Json) :
    (object (before ++ (other, w) :: after)).get? name =
      (object (before ++ (other, v) :: after)).get? name := by
  rw [get?_insert_of_ne h, get?_insert_of_ne h]

/-- Either the value in one place is read, whatever it is, or it makes no difference. -/
theorem get?_replace_self (name : String) (before after : List (String × Json)) :
    (∀ value, (object (before ++ (name, value) :: after)).get? name = some value) ∨
      ∃ later, ∀ value, (object (before ++ (name, value) :: after)).get? name = some later := by
  simp only [get?_insert_self]
  cases (object after).get? name with
  | none => exact Or.inl fun _ => Option.none_or
  | some later => exact Or.inr ⟨later, fun _ => Option.some_or⟩

end Replace

end Json

end FleetWatch
