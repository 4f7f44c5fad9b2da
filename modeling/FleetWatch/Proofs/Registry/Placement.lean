import FleetWatch.Registry.Order
import Mathlib.Data.List.Lex
import Mathlib.Data.List.Sort
/-!
Placing services by the counts of the peers they wait for.

The counts and the services that are ready are functions of what is placed: this is the invariant of
the placing, and the rest is said of the places alone.  What is placed respects the peers, the least
service that is ready is placed next, and so the places are no greater than those of any other order
that respects the peers.
-/

namespace FleetWatch

namespace Placement

/-- The service at one place waits for the one at another. -/
def Sees (peers : List (List Nat)) (i p : Nat) : Prop :=
  ∃ ps, peers[i]? = some ps ∧ p ∈ ps

/-- Every service of an order comes after its peers. -/
def Respects (peers : List (List Nat)) (order : List Nat) : Prop :=
  ∀ before i after, order = before ++ i :: after → ∀ p, Sees peers i p → p ∈ before

/-- The services that are not placed and whose peers all are, in the order they were declared. -/
def readyAfter (peers : List (List Nat)) (placed : List Nat) : List Nat :=
  (List.range peers.length).filter fun i =>
    i ∉ placed ∧ (peers[i]?).any fun ps => ps.all (· ∈ placed)

/-- For how many peers each service waits. -/
def pendingAfter (peers : List (List Nat)) (placed : List Nat) : List Nat :=
  peers.map fun ps => (ps.filter (· ∉ placed)).length

/-- What holds of a placing at every moment. -/
structure Sound (peers : List (List Nat)) (s : Placement) : Prop where
  pending_eq : s.pending = pendingAfter peers s.placed
  ready_eq : s.ready = readyAfter peers s.placed
  nodup : s.placed.Nodup
  lt_length : ∀ i ∈ s.placed, i < peers.length
  respects : Respects peers s.placed

variable {peers : List (List Nat)} {s t : Placement} {placed order : List Nat} {place i p : Nat}

theorem mem_readyAfter :
    i ∈ readyAfter peers placed ↔
      i < peers.length ∧ i ∉ placed ∧ ∀ p, Sees peers i p → p ∈ placed := by
  simp only [readyAfter, List.mem_filter, List.mem_range, decide_eq_true_eq, Sees]
  refine and_congr_right fun hi => and_congr_right fun _ => ?_
  rw [List.getElem?_eq_getElem hi]
  simp

theorem pairwise_readyAfter (peers : List (List Nat)) (placed : List Nat) :
    (readyAfter peers placed).Pairwise (· < ·) :=
  List.pairwise_lt_range.filter _

theorem mem_dependents : i ∈ dependents peers place ↔ Sees peers i place := by
  simp only [dependents, List.mem_filter, List.mem_range, Sees, Option.any_eq_true,
    List.contains_iff_mem]
  constructor
  · exact fun h => h.2
  · rintro ⟨ps, hps, hplace⟩
    exact ⟨(List.getElem?_eq_some_iff.mp hps).1, ps, hps, hplace⟩

theorem pairwise_dependents : (dependents peers place).Pairwise (· < ·) :=
  List.pairwise_lt_range.filter _

/-- What is placed is closed under the peers. -/
theorem Respects.mem_of_sees (h : Respects peers order) (hi : i ∈ order) (hp : Sees peers i p) :
    p ∈ order := by
  obtain ⟨before, after, rfl⟩ := List.append_of_mem hi
  exact List.mem_append_left _ (h before i after rfl p hp)

theorem Respects.concat (h : Respects peers order) (hplace : ∀ p, Sees peers place p → p ∈ order) :
    Respects peers (order ++ [place]) := by
  intro before i after heq p hp
  rcases List.eq_nil_or_concat after with rfl | ⟨after, last, rfl⟩
  · obtain ⟨rfl, hlast⟩ := List.append_inj' heq rfl
    cases hlast
    exact hplace p hp
  · rw [List.concat_eq_append, ← List.cons_append, ← List.append_assoc] at heq
    obtain ⟨rfl, _⟩ := List.append_inj' heq rfl
    exact h before i after rfl p hp

theorem start_sound (peers : List (List Nat)) : Sound peers (start peers) where
  pending_eq := by simp [start, pendingAfter]
  ready_eq := by
    have hempty : (List.isEmpty : List Nat → Bool) = fun ps => ps.all (· ∈ []) := by
      funext ps
      cases ps <;> simp
    simp [start, readyAfter, hempty]
  nodup := List.nodup_nil
  lt_length _ hi := absurd hi List.not_mem_nil
  respects before i after heq := absurd heq (by simp [start])

theorem length_filter_concat {ps : List Nat} (hps : ps.Nodup) (hplace : place ∉ placed) :
    (ps.filter (· ∉ placed ++ [place])).length =
      if place ∈ ps then (ps.filter (· ∉ placed)).length - 1
      else (ps.filter (· ∉ placed)).length := by
  have hfilter : ps.filter (· ∉ placed ++ [place]) = (ps.filter (· ∉ placed)).erase place := by
    rw [(hps.filter _).erase_eq_filter, List.filter_filter]
    refine List.filter_congr fun p _ => ?_
    by_cases hp : p = place <;> simp [hp]
  rw [hfilter, List.length_erase]
  simp [hplace]

/-- Placing a service takes it off the counts of those that see it. -/
theorem pendingAfter_concat (hnodup : ∀ ps ∈ peers, ps.Nodup) (hplace : place ∉ placed) :
    ((pendingAfter peers placed).mapIdx fun i left =>
        if (dependents peers place).contains i then left - 1 else left) =
      pendingAfter peers (placed ++ [place]) := by
  refine List.ext_getElem (by simp [pendingAfter]) fun i hi _ => ?_
  have hlt : i < peers.length := by simpa [pendingAfter] using hi
  have hsees : i ∈ dependents peers place ↔ place ∈ peers[i] := by
    simp [mem_dependents, Sees, List.getElem?_eq_getElem hlt]
  simp only [pendingAfter, List.getElem_mapIdx, List.getElem_map, List.contains_iff_mem, hsees]
  exact (length_filter_concat (hnodup _ (List.getElem_mem hlt)) hplace).symm

/-- Those that see a service placed and wait for none any more become ready. -/
theorem mem_freed (hplace : Sees peers i place) :
    (pendingAfter peers placed)[i]? = some 0 ↔ ∀ p, Sees peers i p → p ∈ placed := by
  obtain ⟨ps, hps, _⟩ := hplace
  simp [pendingAfter, Sees, hps, List.filter_eq_nil_iff]

theorem mem_ready_concat (hclosed : ∀ i ∈ placed, ∀ p, Sees peers i p → p ∈ placed)
    (hready : place ∈ readyAfter peers placed) :
    i ∈ readyAfter peers (placed ++ [place]) ↔
      i ∈ readyAfter peers placed ∧ i ≠ place ∨
        Sees peers i place ∧ ∀ p, Sees peers i p → p ∈ placed ++ [place] := by
  obtain ⟨_, hnew, hpeers⟩ := mem_readyAfter.mp hready
  simp only [mem_readyAfter, List.mem_append, List.mem_singleton, not_or]
  constructor
  · rintro ⟨hlt, ⟨hi, hne⟩, hall⟩
    by_cases hsees : Sees peers i place
    · exact Or.inr ⟨hsees, hall⟩
    · refine Or.inl ⟨⟨hlt, hi, fun p hp => ?_⟩, hne⟩
      exact (hall p hp).resolve_right fun heq => hsees (heq ▸ hp)
  · rintro (⟨⟨hlt, hi, hall⟩, hne⟩ | ⟨hsees, hall⟩)
    · exact ⟨hlt, ⟨hi, hne⟩, fun p hp => Or.inl (hall p hp)⟩
    · obtain ⟨ps, hps, hmem⟩ := hsees
      refine ⟨(List.getElem?_eq_some_iff.mp hps).1, ⟨fun hi => ?_, ?_⟩, hall⟩
      · exact hnew (hclosed i hi place ⟨ps, hps, hmem⟩)
      · rintro rfl
        exact hnew (hpeers i ⟨ps, hps, hmem⟩)

/-- A step places the first service that is ready and takes its place off the counts. -/
theorem next?_eq_some (h : s.next? peers = some t) :
    ∃ place ready, s.ready = place :: ready ∧
      t.pending = (s.pending.mapIdx fun i left =>
        if (dependents peers place).contains i then left - 1 else left) ∧
      t.ready = ready.merge
        ((dependents peers place).filter fun i => t.pending[i]? == some 0) ∧
      t.placed = s.placed ++ [place] := by
  unfold next? at h
  split at h
  · cases h
  · next place ready hready =>
    cases h
    exact ⟨place, ready, hready, rfl, rfl, rfl⟩

theorem next?_eq_none_iff : s.next? peers = none ↔ s.ready = [] := by
  unfold next?
  split <;> simp_all

/-- The service placed next was ready, and of those that were it is the least. -/
theorem Sound.least_of_step (h : Sound peers s) (hnext : s.next? peers = some t) :
    ∃ place, place ∈ readyAfter peers s.placed ∧
      (∀ i ∈ readyAfter peers s.placed, place ≤ i) ∧ t.placed = s.placed ++ [place] := by
  obtain ⟨place, ready, hready, _, _, hplaced⟩ := next?_eq_some hnext
  have hcons : readyAfter peers s.placed = place :: ready := h.ready_eq.symm.trans hready
  refine ⟨place, hcons ▸ List.mem_cons_self, fun i hi => ?_, hplaced⟩
  have hsorted := pairwise_readyAfter peers s.placed
  rw [hcons] at hi hsorted
  rcases List.mem_cons.mp hi with rfl | hrest
  · exact Nat.le_refl i
  · exact Nat.le_of_lt ((List.pairwise_cons.mp hsorted).1 i hrest)

/-- Merging two lists in order gives the list in order of what either has. -/
theorem merge_eq_of_mem_iff {a b c : List Nat} (ha : a.Pairwise (· < ·)) (hb : b.Pairwise (· < ·))
    (hc : c.Pairwise (· < ·)) (hdisjoint : ∀ i ∈ a, i ∉ b) (hmem : ∀ i, i ∈ c ↔ i ∈ a ∨ i ∈ b) :
    a.merge b = c := by
  have hperm : (a.merge b).Perm c := by
    refine (List.merge_perm_append fun a b : Nat => decide (a ≤ b)).trans ?_
    refine (List.perm_ext_iff_of_nodup ?_ hc.nodup).mpr fun i => ?_
    · refine List.nodup_append.mpr ⟨ha.nodup, hb.nodup, ?_⟩
      rintro i hi _ hi' rfl
      exact hdisjoint i hi hi'
    · rw [List.mem_append, hmem]
  have hsorted : (a.merge b).Pairwise (· ≤ ·) := by
    have htrans : ∀ a b c : Nat, decide (a ≤ b) → decide (b ≤ c) → decide (a ≤ c) := by
      simp only [decide_eq_true_eq]
      omega
    have htotal : ∀ a b : Nat, decide (a ≤ b) || decide (b ≤ a) := by
      simp only [Bool.or_eq_true, decide_eq_true_eq]
      omega
    have hle : ∀ {xs : List Nat}, xs.Pairwise (· < ·) → xs.Pairwise fun a b => decide (a ≤ b) :=
      fun h => h.imp fun hlt => decide_eq_true (Nat.le_of_lt hlt)
    simpa only [decide_eq_true_eq] using List.pairwise_merge htrans htotal a b (hle ha) (hle hb)
  exact hperm.eq_of_pairwise' hsorted (hc.imp Nat.le_of_lt)

theorem Sound.step (hnodup : ∀ ps ∈ peers, ps.Nodup) (h : Sound peers s)
    (hnext : s.next? peers = some t) : Sound peers t := by
  obtain ⟨place, ready, hready, hpending, hmerge, hplaced⟩ := next?_eq_some hnext
  have hcons : readyAfter peers s.placed = place :: ready := h.ready_eq.symm.trans hready
  have hmem : place ∈ readyAfter peers s.placed := hcons ▸ List.mem_cons_self
  obtain ⟨hlt, hnew, hpeers⟩ := mem_readyAfter.mp hmem
  have hpending : t.pending = pendingAfter peers t.placed := by
    rw [hpending, hplaced, h.pending_eq, pendingAfter_concat hnodup hnew]
  refine ⟨hpending, ?_, ?_, ?_, ?_⟩
  · rw [hmerge, hplaced]
    have hsorted := pairwise_readyAfter peers s.placed
    rw [hcons, List.pairwise_cons] at hsorted
    have hrest : ∀ i, i ∈ readyAfter peers s.placed ∧ i ≠ place ↔ i ∈ ready := by
      intro i
      rw [hcons, List.mem_cons]
      refine ⟨fun h => h.1.resolve_left h.2, fun hi => ⟨Or.inr hi, ?_⟩⟩
      exact Nat.ne_of_gt (hsorted.1 i hi)
    refine merge_eq_of_mem_iff hsorted.2 (pairwise_dependents.filter _) (pairwise_readyAfter _ _) ?_ ?_
    · intro i hi hfreed
      have hsees := mem_dependents.mp (List.mem_filter.mp hfreed).1
      exact hnew ((mem_readyAfter.mp ((hrest i).mpr hi).1).2.2 place hsees)
    · intro i
      rw [mem_ready_concat (fun i hi p => h.respects.mem_of_sees hi) hmem, hrest i,
        List.mem_filter, mem_dependents]
      refine or_congr_right (and_congr_right fun hsees => ?_)
      rw [hpending, hplaced, beq_iff_eq, mem_freed hsees]
  · rw [hplaced]
    exact List.nodup_append.mpr ⟨h.nodup, List.nodup_singleton _, by grind⟩
  · rw [hplaced]
    intro i hi
    rcases List.mem_append.mp hi with hold | hnow
    · exact h.lt_length i hold
    · exact List.mem_singleton.mp hnow ▸ hlt
  · rw [hplaced]
    exact h.respects.concat hpeers

/-- What every step keeps holds after a run. -/
theorem run_keeps {P : Placement → Prop} (hstep : ∀ s t, P s → s.next? peers = some t → P t)
    (rounds : Nat) (s : Placement) (h : P s) : P (run peers rounds s) := by
  induction rounds generalizing s with
  | zero => exact h
  | succ rounds ih =>
    unfold run
    split
    · exact h
    · next t hnext => exact ih t (hstep s t h hnext)

theorem Sound.run (hnodup : ∀ ps ∈ peers, ps.Nodup) (h : Sound peers s) (rounds : Nat) :
    Sound peers (run peers rounds s) :=
  run_keeps (fun _ _ h hnext => h.step hnodup hnext) rounds s h

theorem Sound.subperm (h : Sound peers s) : s.placed.Subperm (List.range peers.length) :=
  List.subperm_of_subset h.nodup fun i hi => List.mem_range.mpr (h.lt_length i hi)

theorem Sound.length_le (h : Sound peers s) : s.placed.length ≤ peers.length := by
  simpa using h.subperm.length_le

/-- Once as many services are placed as there are, each is. -/
theorem Sound.perm_of_length_eq (h : Sound peers s) (hall : s.placed.length = peers.length) :
    s.placed.Perm (List.range peers.length) :=
  h.subperm.perm_of_length_le (by simp [hall])

theorem Sound.ready_of_length_eq (h : Sound peers s) (hall : s.placed.length = peers.length) :
    s.ready = [] := by
  rw [h.ready_eq, List.eq_nil_iff_forall_not_mem]
  intro i hi
  obtain ⟨hlt, hnew, _⟩ := mem_readyAfter.mp hi
  exact hnew ((h.perm_of_length_eq hall).mem_iff.mpr (List.mem_range.mpr hlt))

/-- With a round for each service a run ends with none ready. -/
theorem Sound.run_ready (hnodup : ∀ ps ∈ peers, ps.Nodup) (rounds : Nat) (h : Sound peers s)
    (henough : peers.length ≤ rounds + s.placed.length) :
    (Placement.run peers rounds s).ready = [] := by
  induction rounds generalizing s with
  | zero =>
    exact h.ready_of_length_eq (Nat.le_antisymm h.length_le (by omega))
  | succ rounds ih =>
    unfold Placement.run
    split
    · next hnone => exact next?_eq_none_iff.mp hnone
    · next t hnext =>
      obtain ⟨place, _, _, _, _, hplaced⟩ := next?_eq_some hnext
      refine ih (h.step hnodup hnext) ?_
      simp only [hplaced, List.length_append, List.length_singleton]
      omega

/-- An order of all services in which each comes after its peers. -/
structure IsOrder (peers : List (List Nat)) (order : List Nat) : Prop where
  perm : order.Perm (List.range peers.length)
  respects : Respects peers order

/-- One list begins another, or is less where they first differ. -/
def Leads (order other : List Nat) : Prop :=
  order <+: other ∨ ∃ common a b rest rest',
    order = common ++ a :: rest ∧ other = common ++ b :: rest' ∧ a < b

theorem Leads.le {other : List Nat} (h : Leads order other) : order ≤ other := by
  rcases h with hpre | ⟨common, a, b, rest, rest', rfl, rfl, hlt⟩
  · exact not_lt.mp hpre.le
  · refine le_of_lt (List.append_left_lt ?_)
    exact List.cons_lt_cons_iff.mpr (Or.inl hlt)

/-- The service that another order has next is ready, and so not less than the one placed. -/
theorem Leads.step {other : List Nat} (ho : IsOrder peers other) (h : Sound peers s)
    (hleads : Leads s.placed other) (hnext : s.next? peers = some t) : Leads t.placed other := by
  obtain ⟨place, hready, hleast, hplaced⟩ := h.least_of_step hnext
  rw [hplaced]
  rcases hleads with ⟨rest, rfl⟩ | ⟨common, a, b, rest, rest', heq, hother, hlt⟩
  · cases rest with
    | nil =>
      obtain ⟨hlt, hnew, _⟩ := mem_readyAfter.mp hready
      rw [List.append_nil] at ho
      exact absurd (ho.perm.mem_iff.mpr (List.mem_range.mpr hlt)) hnew
    | cons b rest =>
      have hb : b ∈ readyAfter peers s.placed := by
        have hnodup := ho.perm.nodup_iff.mpr List.nodup_range
        refine mem_readyAfter.mpr ⟨?_, ?_, fun p hp => ho.respects _ b rest rfl p hp⟩
        · exact List.mem_range.mp (ho.perm.mem_iff.mp (by simp))
        · intro hb
          exact (List.nodup_append.mp hnodup).2.2 b hb b List.mem_cons_self rfl
      rcases Nat.eq_or_lt_of_le (hleast b hb) with rfl | hlt
      · exact Or.inl ⟨rest, by simp⟩
      · exact Or.inr ⟨s.placed, place, b, [], rest, rfl, rfl, hlt⟩
  · refine Or.inr ⟨common, a, b, rest ++ [place], rest', ?_, hother, hlt⟩
    rw [heq, List.append_assoc, List.cons_append]

/-- The services in the order in which they are placed. -/
def final (peers : List (List Nat)) : Placement :=
  run peers peers.length (start peers)

theorem final_sound (hnodup : ∀ ps ∈ peers, ps.Nodup) : Sound peers (final peers) :=
  (start_sound peers).run hnodup _

/-- A service that is left waits for one that is left. -/
theorem exists_left_of_left (hnodup : ∀ ps ∈ peers, ps.Nodup) (hi : i < peers.length)
    (hleft : i ∉ (final peers).placed) : ∃ p, Sees peers i p ∧ p ∉ (final peers).placed := by
  by_contra hnone
  have hready : i ∈ readyAfter peers (final peers).placed := by
    refine mem_readyAfter.mpr ⟨hi, hleft, fun p hp => ?_⟩
    by_contra hp'
    exact hnone ⟨p, hp, hp'⟩
  have hempty : (final peers).ready = [] :=
    (start_sound peers).run_ready hnodup _ (Nat.le_add_right _ _)
  rw [← (final_sound hnodup).ready_eq, hempty] at hready
  exact absurd hready List.not_mem_nil

/-- No order that respects the peers is less than the one in which services are placed. -/
theorem final_le {other : List Nat} (hnodup : ∀ ps ∈ peers, ps.Nodup) (ho : IsOrder peers other) :
    (final peers).placed ≤ other := by
  have h : Sound peers (final peers) ∧ Leads (final peers).placed other :=
    run_keeps (P := fun s => Sound peers s ∧ Leads s.placed other)
      (fun _ _ h hnext => ⟨h.1.step hnodup hnext, h.2.step ho h.1 hnext⟩) _ _
      ⟨start_sound peers, Or.inl List.nil_prefix⟩
  exact h.2.le

/-- Where the declared order respects the peers the services are placed as they are declared. -/
theorem final_eq_range (hnodup : ∀ ps ∈ peers, ps.Nodup)
    (hrespects : Respects peers (List.range peers.length)) :
    (final peers).placed = List.range peers.length := by
  have hearlier : ∀ i p, i < peers.length → Sees peers i p → p < i := by
    intro i p hi hp
    obtain ⟨before, after, hsplit⟩ := List.append_of_mem (List.mem_range.mpr hi)
    have hsorted : (List.range peers.length).Pairwise (· < ·) := List.pairwise_lt_range
    rw [hsplit] at hsorted
    have hbefore : p ∈ before := hrespects before i after hsplit p hp
    exact (List.pairwise_append.mp hsorted).2.2 p hbefore i List.mem_cons_self
  -- the service after those that are placed is ready, and none before it is
  have hplaced : Sound peers (final peers) ∧
      (final peers).placed = List.range (final peers).placed.length := by
    refine run_keeps (P := fun s => Sound peers s ∧ s.placed = List.range s.placed.length)
      ?_ _ _ ⟨start_sound peers, rfl⟩
    rintro s t ⟨hsound, hrange⟩ hnext
    obtain ⟨place, hready, hleast, hplaced⟩ := hsound.least_of_step hnext
    obtain ⟨hlt, hnew, _⟩ := mem_readyAfter.mp hready
    rw [hrange, List.mem_range, Nat.not_lt] at hnew
    have hle : place ≤ s.placed.length := by
      apply hleast
      refine mem_readyAfter.mpr ⟨by omega, ?_, ?_⟩
      · rw [hrange, List.length_range]
        exact List.not_mem_range_self
      · intro p hp
        rw [hrange, List.mem_range]
        exact hearlier _ p (by omega) hp
    refine ⟨hsound.step hnodup hnext, ?_⟩
    have hplace : place = s.placed.length := Nat.le_antisymm hle hnew
    rw [hplaced, List.length_append, List.length_singleton, List.range_succ, ← hrange, hplace]
  obtain ⟨hsound, hrange⟩ := hplaced
  have hall : peers.length ≤ (final peers).placed.length := by
    by_contra hleft
    have hlt : (final peers).placed.length < peers.length := by omega
    have hnew : (final peers).placed.length ∉ (final peers).placed := by
      rw [hrange, List.length_range]
      exact List.not_mem_range_self
    obtain ⟨p, hp, hpnew⟩ := exists_left_of_left hnodup hlt hnew
    rw [hrange, List.mem_range] at hpnew
    exact hpnew (hearlier _ p hlt hp)
  rw [hrange, Nat.le_antisymm hsound.length_le hall]

end Placement

end FleetWatch
