import FleetWatch.Proofs.Registry.Placement
import Mathlib.Data.Fintype.Card
import Mathlib.Data.List.Duplicate
import Mathlib.Data.Set.Finite.Basic
import Mathlib.Logic.Relation
import Mathlib.Order.WellFounded
/-!
The order in which services are built.

A list of services whose names and peers are declared has an order exactly when no service sees
itself, directly or through others.  The order has every service once and after its peers, and is
the least such order by declaration.
-/

namespace FleetWatch

/-- Every name is declared once, and every peer is declared. -/
structure Declared (services : List ServiceDescriptor) : Prop where
  nodup : (services.map ServiceDescriptor.name).Nodup
  peers : ∀ d ∈ services, ∀ p ∈ d.peers, p ∈ services.map ServiceDescriptor.name

/-- One service of a list sees another. -/
def Sees (services : List ServiceDescriptor) (d p : ServiceDescriptor) : Prop :=
  d ∈ services ∧ p ∈ services ∧ p.name ∈ d.peers

/-- Every service of a list comes after its peers. -/
def AfterPeers (order : List ServiceDescriptor) : Prop :=
  ∀ before d after, order = before ++ d :: after →
    ∀ p ∈ d.peers, p ∈ before.map ServiceDescriptor.name

/-- The services each once and after their peers, in the least such order by the places at which
they are declared. -/
structure IsBuildOrder (services order : List ServiceDescriptor) : Prop where
  perm : order.Perm services
  afterPeers : AfterPeers order
  least : ∀ other : List ServiceDescriptor, other.Perm services → AfterPeers other →
    order.map (services.idxOf ·) ≤ other.map (services.idxOf ·)

variable {services order : List ServiceDescriptor} {d p : ServiceDescriptor} {i j : Nat}

/-! ### Names -/

theorem repeatedName?_eq_none_iff (seen : List String) :
    repeatedName? seen services = none ↔
      (services.map ServiceDescriptor.name).Nodup ∧ ∀ d ∈ services, d.name ∉ seen := by
  induction services generalizing seen with
  | nil => simp [repeatedName?]
  | cons d rest ih =>
    by_cases hd : d.name ∈ seen
    · simp [repeatedName?, hd]
    · simp only [repeatedName?, List.contains_iff_mem, hd, if_false, ih, List.map_cons,
        List.nodup_cons, List.mem_map, List.mem_cons, not_or, not_exists, not_and,
        forall_eq_or_imp, not_false_eq_true, true_and]
      grind

theorem duplicate_of_repeatedName? {name : String} {seen : List String}
    (h : repeatedName? seen services = some name) :
    name ∈ seen ∧ name ∈ services.map ServiceDescriptor.name ∨
      List.Duplicate name (services.map ServiceDescriptor.name) := by
  induction services generalizing seen with
  | nil => cases h
  | cons d rest ih =>
    unfold repeatedName? at h
    split at h
    · next hseen =>
      cases h
      exact Or.inl ⟨List.contains_iff_mem.mp hseen, List.mem_cons_self⟩
    · rcases ih h with ⟨hmem, hrest⟩ | hduplicate
      · rcases List.mem_cons.mp hmem with rfl | hseen
        · exact Or.inr (List.Mem.duplicate_cons_self hrest)
        · exact Or.inl ⟨hseen, List.mem_cons_of_mem _ hrest⟩
      · exact Or.inr (hduplicate.duplicate_cons _)

theorem leastName?_eq_none_iff {names : List String} : leastName? names = none ↔ names = [] := by
  cases names with
  | nil => simp [leastName?]
  | cons name rest =>
    unfold leastName?
    split
    · simp
    · split <;> simp

theorem mem_of_leastName? {names : List String} {name : String}
    (h : leastName? names = some name) : name ∈ names := by
  induction names with
  | nil => cases h
  | cons first rest ih =>
    unfold leastName? at h
    split at h
    · cases h
      exact List.mem_cons_self
    · next other hother =>
      split at h
      · cases h
        exact List.mem_cons_of_mem _ (ih hother)
      · cases h
        exact List.mem_cons_self

theorem unknownPeer?_eq_none_iff {names : List String} :
    unknownPeer? names d = none ↔ ∀ p ∈ d.peers, p ∈ names := by
  simp [unknownPeer?, leastName?_eq_none_iff, List.filter_eq_nil_iff]

theorem unknownPeer?_eq_some {names : List String} {peer : String}
    (h : unknownPeer? names d = some peer) : peer ∈ d.peers ∧ peer ∉ names := by
  simpa using mem_of_leastName? h

/-! ### Places -/

/-- The places of the peers of each service. -/
def peerTable (services : List ServiceDescriptor) : List (List Nat) :=
  services.map (peerPlaces (services.map ServiceDescriptor.name))

theorem length_peerTable : (peerTable services).length = services.length :=
  List.length_map _

theorem nodup_of_mem_peerTable : ∀ ps ∈ peerTable services, ps.Nodup := by
  intro ps hps
  obtain ⟨d, _, rfl⟩ := List.mem_map.mp hps
  exact List.nodup_range.filter _

/-- A service at one place waits for one at another if it names it as a peer. -/
theorem sees_peerTable_iff :
    Placement.Sees (peerTable services) i j ↔
      ∃ d p, services[i]? = some d ∧ services[j]? = some p ∧ p.name ∈ d.peers := by
  simp only [Placement.Sees, peerTable, List.getElem?_map, Option.map_eq_some_iff]
  constructor
  · rintro ⟨_, ⟨d, hd, rfl⟩, hj⟩
    simp only [peerPlaces, List.mem_filter, List.getElem?_map, Option.any_map,
      Option.any_eq_true, List.contains_iff_mem] at hj
    obtain ⟨_, p, hp, hname⟩ := hj
    exact ⟨d, p, hd, hp, hname⟩
  · rintro ⟨d, p, hd, hp, hname⟩
    refine ⟨_, ⟨d, hd, rfl⟩, ?_⟩
    simp only [peerPlaces, List.mem_filter, List.mem_range, List.length_map, List.getElem?_map,
      hp, Option.map_some, Option.any_some, List.contains_iff_mem]
    exact ⟨(List.getElem?_eq_some_iff.mp hp).1, hname⟩

/-- The services at some places. -/
def servicesAt (services : List ServiceDescriptor) (places : List Nat) : List ServiceDescriptor :=
  places.filterMap (services[·]?)

theorem servicesAt_range : servicesAt services (List.range services.length) = services := by
  induction services with
  | nil => rfl
  | cons d rest ih =>
    rw [List.length_cons, List.range_succ_eq_map]
    simpa [servicesAt, List.filterMap_map, Function.comp_def] using ih

theorem Declared.nodup_services (h : Declared services) : services.Nodup :=
  List.Nodup.of_map _ h.nodup

theorem Declared.eq_of_name_eq (h : Declared services) (hd : d ∈ services) (hp : p ∈ services)
    (hname : d.name = p.name) : d = p :=
  List.inj_on_of_nodup_map h.nodup hd hp hname

theorem Declared.idxOf_eq (h : Declared services) (hd : services[i]? = some d) :
    services.idxOf d = i := by
  obtain ⟨hlt, rfl⟩ := List.getElem?_eq_some_iff.mp hd
  exact h.nodup_services.idxOf_getElem i hlt

/-- An order of the places is one of the services. -/
theorem afterPeers_servicesAt {places : List Nat} (h : Declared services)
    (hplaces : Placement.Respects (peerTable services) places) :
    AfterPeers (servicesAt services places) := by
  intro before d after heq name hname
  obtain ⟨front, back, rfl, hfront, hback⟩ := List.filterMap_eq_append_iff.mp heq
  obtain ⟨skipped, i, rest, rfl, hskipped, hd, _⟩ := List.filterMap_eq_cons_iff.mp hback
  have hdeclared := h.peers d (List.mem_of_getElem? hd) name hname
  obtain ⟨p, hp, rfl⟩ := List.mem_map.mp hdeclared
  obtain ⟨j, hj⟩ := List.mem_iff_getElem?.mp hp
  have hplaced : j ∈ front ++ skipped := by
    refine hplaces (front ++ skipped) i rest (by simp) j ?_
    exact sees_peerTable_iff.mpr ⟨d, p, hd, hj, hname⟩
  rcases List.mem_append.mp hplaced with hearlier | hnone
  · rw [← hfront]
    exact List.mem_map_of_mem (List.mem_filterMap.mpr ⟨j, hearlier, hj⟩)
  · exact absurd ((hskipped j hnone).symm.trans hj) (Option.some_ne_none p).symm

/-- An order of the services is one of their places. -/
theorem isOrder_places {other : List ServiceDescriptor} (h : Declared services)
    (hperm : other.Perm services) (hafter : AfterPeers other) :
    Placement.IsOrder (peerTable services) (other.map (services.idxOf ·)) := by
  have hrange : services.map (services.idxOf ·) = List.range services.length := by
    refine List.ext_getElem (by simp) fun i hi _ => ?_
    simp [h.nodup_services.idxOf_getElem]
  constructor
  · rw [length_peerTable, ← hrange]
    exact hperm.map _
  · intro before i after heq j hsees
    obtain ⟨front, back, rfl, rfl, hback⟩ := List.map_eq_append_iff.mp heq
    obtain ⟨d, rest, rfl, rfl, rfl⟩ := List.map_eq_cons_iff.mp hback
    obtain ⟨d', p, hd, hp, hname⟩ := sees_peerTable_iff.mp hsees
    have hmem : d ∈ services := hperm.mem_iff.mp (by simp)
    have hsame : d' = d := by
      rw [List.getElem?_idxOf hmem] at hd
      exact (Option.some.inj hd).symm
    obtain ⟨q, hq, hqname⟩ := List.mem_map.mp (hafter front d rest rfl p.name (hsame ▸ hname))
    have hpq : q = p := by
      refine h.eq_of_name_eq (hperm.mem_iff.mp ?_) (List.mem_of_getElem? hp) hqname
      exact List.mem_append_left _ hq
    exact List.mem_map.mpr ⟨q, hq, hpq ▸ h.idxOf_eq hp⟩

theorem map_idxOf_servicesAt {places : List Nat} (h : Declared services)
    (hlt : ∀ i ∈ places, i < services.length) :
    (servicesAt services places).map (services.idxOf ·) = places := by
  induction places with
  | nil => rfl
  | cons i rest ih =>
    have hi := hlt i List.mem_cons_self
    have hrest := ih fun j hj => hlt j (List.mem_cons_of_mem _ hj)
    simp only [servicesAt, List.filterMap_cons, List.getElem?_eq_getElem hi, List.map_cons,
      h.nodup_services.idxOf_getElem] at hrest ⊢
    rw [hrest]

/-! ### Cycles -/

/-- From each of finitely many things of which each has a successor among them a cycle is reached. -/
theorem exists_cycle {α : Type} {r : α → α → Prop} {items : List α}
    (hsuccessor : ∀ a ∈ items, ∃ b ∈ items, r a b) {a : α} (ha : a ∈ items) :
    ∃ c, Relation.ReflTransGen r a c ∧ Relation.TransGen r c c := by
  by_contra hacyclic
  -- without a cycle the things that are reached would have a last one
  let reached := { b // b ∈ items ∧ Relation.ReflTransGen r a b }
  let later : reached → reached → Prop := fun c b => Relation.TransGen r b.1 c.1
  have : Finite reached := (List.finite_toSet items).subset fun _ hb => hb.1
  have : IsTrans _ later := ⟨fun _ _ _ hab hbc => hbc.trans hab⟩
  have : Std.Irrefl later := ⟨fun b h => hacyclic ⟨b.1, b.2.2, h⟩⟩
  obtain ⟨last, _, hlast⟩ := (Finite.wellFounded_of_trans_of_irrefl later).has_min Set.univ
    ⟨⟨a, ha, Relation.ReflTransGen.refl⟩, trivial⟩
  obtain ⟨b, hb, hr⟩ := hsuccessor last.1 last.2.1
  exact hlast ⟨b, hb, last.2.2.tail hr⟩ trivial (Relation.TransGen.single hr)

/-- Some of the services, each after its peers, are closed under the peers, and their order goes down
along every path. -/
theorem AfterPeers.of_path (hafter : AfterPeers order) (h : Declared services)
    (hsubset : order ⊆ services) (hd : d ∈ order)
    (hpath : Relation.TransGen (Sees services) d p) :
    p ∈ order ∧ order.idxOf p < order.idxOf d := by
  have hsees : ∀ {d p}, d ∈ order → Sees services d p →
      p ∈ order ∧ order.idxOf p < order.idxOf d := by
    rintro d p hd ⟨_, hp, hname⟩
    obtain ⟨before, after, rfl, hnew⟩ := List.eq_append_cons_of_mem hd
    obtain ⟨q, hq, hqname⟩ := List.mem_map.mp (hafter before d after rfl p.name hname)
    have hqp : q = p := h.eq_of_name_eq (hsubset (List.mem_append_left _ hq)) hp hqname
    refine ⟨List.mem_append_left _ (hqp ▸ hq), ?_⟩
    rw [List.idxOf_append_of_mem (hqp ▸ hq), List.idxOf_append_of_notMem hnew]
    exact Nat.lt_of_lt_of_le (List.idxOf_lt_length_of_mem (hqp ▸ hq)) (Nat.le_add_right _ _)
  induction hpath with
  | single hlast => exact hsees hd hlast
  | tail _ hlast ih => exact ⟨(hsees ih.1 hlast).1, (hsees ih.1 hlast).2.trans ih.2⟩

/-- An order in which every service comes after its peers goes down along every path. -/
theorem idxOf_lt_of_path (h : Declared services) (hperm : order.Perm services)
    (hafter : AfterPeers order) (hpath : Relation.TransGen (Sees services) d p) :
    order.idxOf p < order.idxOf d := by
  obtain ⟨next, hnext, _⟩ := Relation.TransGen.head'_iff.mp hpath
  exact (hafter.of_path h hperm.subset (hperm.mem_iff.mpr hnext.1) hpath).2

/-- Going from services to their peers leads from a service to one that sees itself, directly or
not. -/
def ReachesCycle (services : List ServiceDescriptor) (d : ServiceDescriptor) : Prop :=
  ∃ c, Relation.ReflTransGen (Sees services) d c ∧ Relation.TransGen (Sees services) c c

/-! ### The order -/

/-- The services in the order in which they are placed. -/
def buildOrder (services : List ServiceDescriptor) : List ServiceDescriptor :=
  servicesAt services (Placement.final (peerTable services)).placed

theorem placement_sound (services : List ServiceDescriptor) :
    Placement.Sound (peerTable services) (Placement.final (peerTable services)) :=
  Placement.final_sound nodup_of_mem_peerTable

/-- A list whose names and peers are declared has an order once all are placed. -/
theorem dependencyOrder_eq (h : Declared services) :
    dependencyOrder services =
      if (Placement.final (peerTable services)).placed.length < services.length then
        .error (.dependencyCycle ((Placement.final (peerTable services)).stuck.filterMap
          ((services.map ServiceDescriptor.name)[·]?)))
      else .ok (buildOrder services) := by
  have hnames : repeatedName? [] services = none :=
    (repeatedName?_eq_none_iff []).mpr ⟨h.nodup, fun _ _ => List.not_mem_nil⟩
  have hpeers : (services.findSome? fun d =>
      (unknownPeer? (services.map ServiceDescriptor.name) d).map fun p => (d.name, p)) = none := by
    refine List.findSome?_eq_none_iff.mpr fun d hd => ?_
    rw [unknownPeer?_eq_none_iff.mpr (h.peers d hd), Option.map_none]
  have hfinal : Placement.final (peerTable services) =
      Placement.run (peerTable services) services.length (Placement.start (peerTable services)) := by
    rw [Placement.final, length_peerTable]
  rw [buildOrder, hfinal]
  simp only [dependencyOrder, hnames, hpeers, servicesAt, peerTable]
  rfl

/-- If every service is placed the places make an order. -/
theorem isBuildOrder_buildOrder (h : Declared services)
    (hall : (Placement.final (peerTable services)).placed.length = services.length) :
    IsBuildOrder services (buildOrder services) := by
  have hsound := placement_sound services
  have hperm := hsound.perm_of_length_eq (by rw [hall, length_peerTable])
  rw [length_peerTable] at hperm
  refine ⟨?_, afterPeers_servicesAt h hsound.respects, fun other hother hafter => ?_⟩
  · have hservices := hperm.filterMap (services[·]?)
    rwa [show (List.range services.length).filterMap (services[·]?) = services from
      servicesAt_range] at hservices
  · rw [buildOrder, map_idxOf_servicesAt h fun i hi => by simpa using hperm.mem_iff.mp hi]
    exact Placement.final_le nodup_of_mem_peerTable (isOrder_places h hother hafter)

theorem mem_servicesAt_iff (h : Declared services) {places : List Nat} :
    d ∈ servicesAt services places ↔ d ∈ services ∧ services.idxOf d ∈ places := by
  rw [servicesAt, List.mem_filterMap]
  constructor
  · rintro ⟨i, hi, hd⟩
    exact ⟨List.mem_of_getElem? hd, (h.idxOf_eq hd).symm ▸ hi⟩
  · rintro ⟨hd, hi⟩
    exact ⟨_, hi, List.getElem?_idxOf hd⟩

/-- A service that is left sees one that is left. -/
theorem exists_sees_of_left (h : Declared services) (hd : d ∈ services)
    (hleft : d ∉ buildOrder services) : ∃ p, Sees services d p ∧ p ∉ buildOrder services := by
  simp only [buildOrder, mem_servicesAt_iff h, not_and] at hleft ⊢
  have hlt : services.idxOf d < (peerTable services).length := by
    rw [length_peerTable]
    exact List.idxOf_lt_length_of_mem hd
  obtain ⟨j, hsees, hj⟩ := Placement.exists_left_of_left nodup_of_mem_peerTable hlt (hleft hd)
  obtain ⟨d', p, hd', hp, hname⟩ := sees_peerTable_iff.mp hsees
  have hsame : d' = d := by
    rw [List.getElem?_idxOf hd] at hd'
    exact (Option.some.inj hd').symm
  refine ⟨p, ⟨hd, List.mem_of_getElem? hp, hsame ▸ hname⟩, fun _ => ?_⟩
  rwa [h.idxOf_eq hp]

theorem reachesCycle_of_left (h : Declared services) (hd : d ∈ services)
    (hleft : d ∉ buildOrder services) : ReachesCycle services d := by
  let left := services.filter (· ∉ buildOrder services)
  have hmem : ∀ p, p ∈ left ↔ p ∈ services ∧ p ∉ buildOrder services := by
    intro p
    rw [List.mem_filter, decide_eq_true_eq]
  have hsuccessor : ∀ p ∈ left, ∃ q ∈ left, Sees services p q := by
    intro p hp
    obtain ⟨hp, hleft⟩ := (hmem p).mp hp
    obtain ⟨q, hsees, hq⟩ := exists_sees_of_left h hp hleft
    exact ⟨q, (hmem q).mpr ⟨hsees.2.1, hq⟩, hsees⟩
  exact exists_cycle hsuccessor ((hmem d).mpr ⟨hd, hleft⟩)

/-- If a service is left those that are left see each other in a circle. -/
theorem exists_cycle_of_left (h : Declared services)
    (hleft : (Placement.final (peerTable services)).placed.length < services.length) :
    ∃ d, Relation.TransGen (Sees services) d d := by
  have hsome : ∃ d ∈ services, d ∉ buildOrder services := by
    by_contra hall
    push Not at hall
    have hlength := (h.nodup_services.subperm hall).length_le
    have hplaced := List.length_filterMap_le (services[·]?)
      (Placement.final (peerTable services)).placed
    rw [buildOrder, servicesAt] at hlength
    omega
  obtain ⟨d, hd, hnew⟩ := hsome
  obtain ⟨c, -, hcycle⟩ := reachesCycle_of_left h hd hnew
  exact ⟨c, hcycle⟩

/-- A list that is not well declared is refused, and its fault is named. -/
theorem dependencyOrder_of_not_declared (h : ¬ Declared services) :
    ∃ name reason, dependencyOrder services = .error (.invalidService name reason) ∧
      (List.Duplicate name (services.map ServiceDescriptor.name) ∧
          reason = "declared more than once" ∨
        ∃ d ∈ services, d.name = name ∧ ∃ peer ∈ d.peers,
          peer ∉ services.map ServiceDescriptor.name ∧
            reason = "depends on unknown service '" ++ peer ++ "'") := by
  cases hnames : repeatedName? [] services with
  | some name =>
    refine ⟨name, _, by simp only [dependencyOrder, hnames], Or.inl ⟨?_, rfl⟩⟩
    exact (duplicate_of_repeatedName? hnames).resolve_left fun hseen =>
      absurd hseen.1 List.not_mem_nil
  | none =>
    cases hpeers : services.findSome? fun d =>
        (unknownPeer? (services.map ServiceDescriptor.name) d).map fun p => (d.name, p) with
    | some fault =>
      obtain ⟨d, hd, hfault⟩ := List.exists_of_findSome?_eq_some hpeers
      obtain ⟨peer, hpeer, rfl⟩ := Option.map_eq_some_iff.mp hfault
      obtain ⟨hnamed, hunknown⟩ := unknownPeer?_eq_some hpeer
      refine ⟨d.name, "depends on unknown service '" ++ peer ++ "'",
        by simp only [dependencyOrder, hnames, hpeers], Or.inr ?_⟩
      exact ⟨d, hd, rfl, peer, hnamed, hunknown, rfl⟩
    | none =>
      refine absurd ⟨((repeatedName?_eq_none_iff []).mp hnames).1, fun d hd => ?_⟩ h
      have hknown := List.findSome?_eq_none_iff.mp hpeers d hd
      exact unknownPeer?_eq_none_iff.mp (Option.map_eq_none_iff.mp hknown)

/-- A list that has an order is well declared, and the order is as it has to be. -/
theorem isBuildOrder_of_ok (h : dependencyOrder services = .ok order) :
    Declared services ∧ IsBuildOrder services order := by
  have hdeclared : Declared services := by
    by_contra hnot
    obtain ⟨_, _, herror, _⟩ := dependencyOrder_of_not_declared hnot
    cases herror.symm.trans h
  have hlength := (placement_sound services).length_le
  rw [length_peerTable] at hlength
  rw [dependencyOrder_eq hdeclared] at h
  split at h
  · cases h
  · cases h
    exact ⟨hdeclared, isBuildOrder_buildOrder hdeclared (by omega)⟩

/-- A list that stands in an order already is its own order. -/
theorem dependencyOrder_of_afterPeers (hnames : (services.map ServiceDescriptor.name).Nodup)
    (hafter : AfterPeers services) : dependencyOrder services = .ok services := by
  have hdeclared : Declared services := by
    refine ⟨hnames, ?_⟩
    intro d hd p hp
    obtain ⟨before, after, rfl⟩ := List.append_of_mem hd
    rw [List.map_append]
    exact List.mem_append_left _ (hafter before d after rfl p hp)
  have hplaces : services.map (services.idxOf ·) = List.range services.length := by
    have hrange : (servicesAt services (List.range services.length)).map (services.idxOf ·) =
        List.range services.length :=
      map_idxOf_servicesAt hdeclared fun i hi => List.mem_range.mp hi
    rwa [servicesAt_range] at hrange
  have hplaced : (Placement.final (peerTable services)).placed = List.range services.length := by
    have hrespects := (isOrder_places hdeclared (List.Perm.refl services) hafter).respects
    rw [hplaces, ← length_peerTable] at hrespects
    rw [Placement.final_eq_range nodup_of_mem_peerTable hrespects, length_peerTable]
  rw [dependencyOrder_eq hdeclared, buildOrder, hplaced, List.length_range,
    if_neg (Nat.lt_irrefl _), servicesAt_range]

/-- What the order of a list of services is, or why there is none. -/
structure DependencyOrderIsRight (services : List ServiceDescriptor) : Prop where
  /-- A well declared list has an order unless a service sees itself, directly or not. -/
  succeeds_iff : Declared services →
    ((∃ order, dependencyOrder services = .ok order) ↔
      ¬ ∃ d, Relation.TransGen (Sees services) d d)
  isBuildOrder : Declared services → ∀ order, dependencyOrder services = .ok order →
    IsBuildOrder services order
  cycle : Declared services → (∃ d, Relation.TransGen (Sees services) d d) →
    ∃ names, dependencyOrder services = .error (.dependencyCycle names)
  /-- Any other list is refused for a name that is repeated or a peer that is not declared. -/
  refused : ¬ Declared services →
    ∃ name reason, dependencyOrder services = .error (.invalidService name reason) ∧
      (List.Duplicate name (services.map ServiceDescriptor.name) ∧
          reason = "declared more than once" ∨
        ∃ d ∈ services, d.name = name ∧ ∃ peer ∈ d.peers,
          peer ∉ services.map ServiceDescriptor.name ∧
            reason = "depends on unknown service '" ++ peer ++ "'")

/-- Services are ordered after their peers and otherwise as they are declared. -/
theorem dependencyOrder_isRight (services : List ServiceDescriptor) :
    DependencyOrderIsRight services := by
  have hlength := (placement_sound services).length_le
  rw [length_peerTable] at hlength
  have hordered : Declared services → ∀ order, dependencyOrder services = .ok order →
      IsBuildOrder services order := by
    intro h order horder
    rw [dependencyOrder_eq h] at horder
    split at horder
    · cases horder
    · cases horder
      exact isBuildOrder_buildOrder h (by omega)
  have hacyclic : Declared services → (∃ order, dependencyOrder services = .ok order) →
      ¬ ∃ d, Relation.TransGen (Sees services) d d := by
    rintro h ⟨order, horder⟩ ⟨d, hcycle⟩
    have hbuild := hordered h order horder
    exact Nat.lt_irrefl _ (idxOf_lt_of_path h hbuild.perm hbuild.afterPeers hcycle)
  refine ⟨fun h => ⟨hacyclic h, fun hnone => ?_⟩, hordered, fun h hcycle => ?_,
    dependencyOrder_of_not_declared⟩
  · rw [dependencyOrder_eq h, if_neg fun hleft => hnone (exists_cycle_of_left h hleft)]
    exact ⟨buildOrder services, rfl⟩
  · by_cases hleft : (Placement.final (peerTable services)).placed.length < services.length
    · rw [dependencyOrder_eq h, if_pos hleft]
      exact ⟨_, rfl⟩
    · rw [dependencyOrder_eq h, if_neg hleft] at hacyclic
      exact absurd hcycle (hacyclic h ⟨_, rfl⟩)

/-- The service declared first waits for one declared last, which it names twice. -/
example :
    let service (name : String) (dependsOn : List String) (probed : Option String) :
        ServiceDescriptor :=
      { name, container := name, kind := .generic, dependsOn, rpc := { host := name }
        modeProbe := probed.map fun peer =>
          { peer, env := "MODE", nativeHost := "", lightEndpoints := [] } }
    (dependencyOrder [service "a" ["d"] (some "d"), service "b" [] none, service "c" ["a"] none,
      service "d" [] none]).toOption.map (List.map ServiceDescriptor.name) =
        some ["b", "d", "a", "c"] := by
  cbv

end FleetWatch
