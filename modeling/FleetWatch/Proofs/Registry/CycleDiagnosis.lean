import FleetWatch.Proofs.Registry.DependencyOrder
/-!
The services that a cycle keeps from being built.

A placing that ends early leaves counts of peers that are never placed.  A service has such a count
exactly if it is not placed itself, and it is not placed exactly if its peers lead to a cycle: what is
placed is closed under the peers and has no cycle in it, and from what is left a cycle is reached,
since each service that is left sees another.  Main statement: the failure names these services
(`dependencyOrder_namesCycles`).
-/

namespace FleetWatch

variable {services : List ServiceDescriptor} {d p : ServiceDescriptor} {i : Nat}

namespace Placement

variable {peers : List (List Nat)} {s : Placement}

/-- A service still waits if it sees one that is not placed. -/
theorem Sound.mem_stuck_iff (h : Sound peers s) :
    i ∈ s.stuck ↔ ∃ p, Sees peers i p ∧ p ∉ s.placed := by
  simp only [stuck, h.pending_eq, pendingAfter, List.mem_filter, List.mem_range, List.length_map,
    List.getElem?_map, Option.any_map, Sees]
  constructor
  · rintro ⟨hlt, hwaits⟩
    rw [List.getElem?_eq_getElem hlt] at hwaits ⊢
    have hsome : ∃ p ∈ peers[i], p ∉ s.placed := by simpa using hwaits
    obtain ⟨p, hp, hnew⟩ := hsome
    exact ⟨p, ⟨_, rfl, hp⟩, hnew⟩
  · rintro ⟨p, ⟨ps, hps, hp⟩, hnew⟩
    have hsome : ∃ p ∈ ps, p ∉ s.placed := ⟨p, hp, hnew⟩
    exact ⟨(List.getElem?_eq_some_iff.mp hps).1, by simpa [hps] using hsome⟩

/-- In the end exactly those wait that are not placed. -/
theorem mem_stuck_final_iff (hnodup : ∀ ps ∈ peers, ps.Nodup) :
    i ∈ (final peers).stuck ↔ i < peers.length ∧ i ∉ (final peers).placed := by
  have hsound := final_sound hnodup
  rw [hsound.mem_stuck_iff]
  constructor
  · rintro ⟨p, hsees, hnew⟩
    refine ⟨?_, fun hplaced => hnew (hsound.respects.mem_of_sees hplaced hsees)⟩
    obtain ⟨ps, hps, _⟩ := hsees
    exact (List.getElem?_eq_some_iff.mp hps).1
  · rintro ⟨hlt, hleft⟩
    exact exists_left_of_left hnodup hlt hleft

end Placement

/-! ### The services that are left -/

/-- The services that still wait in the end, in the order in which they were declared. -/
def leftServices (services : List ServiceDescriptor) : List ServiceDescriptor :=
  servicesAt services (Placement.final (peerTable services)).stuck

theorem leftServices_sublist (services : List ServiceDescriptor) :
    (leftServices services).Sublist services := by
  have hplaces : (Placement.final (peerTable services)).stuck.Sublist
      (List.range services.length) := by
    have hlength : (Placement.final (peerTable services)).pending.length = services.length := by
      rw [(placement_sound services).pending_eq, Placement.pendingAfter, List.length_map,
        length_peerTable]
    rw [Placement.stuck, hlength]
    exact List.filter_sublist
  have hservices := hplaces.filterMap (services[·]?)
  rwa [show (List.range services.length).filterMap (services[·]?) = services from
    servicesAt_range] at hservices

theorem names_leftServices (services : List ServiceDescriptor) :
    (leftServices services).map ServiceDescriptor.name =
      (Placement.final (peerTable services)).stuck.filterMap
        ((services.map ServiceDescriptor.name)[·]?) := by
  simp only [leftServices, servicesAt, List.map_filterMap, List.getElem?_map]

theorem mem_leftServices_iff (h : Declared services) :
    d ∈ leftServices services ↔ d ∈ services ∧ d ∉ buildOrder services := by
  rw [leftServices, mem_servicesAt_iff h, buildOrder, mem_servicesAt_iff h,
    Placement.mem_stuck_final_iff nodup_of_mem_peerTable, length_peerTable]
  refine and_congr_right fun hd => ?_
  simp only [List.idxOf_lt_length_of_mem hd, hd, true_and]

/-- What is placed leads to no cycle. -/
theorem not_reachesCycle_of_placed (h : Declared services) (hd : d ∈ buildOrder services) :
    ¬ ReachesCycle services d := by
  rintro ⟨c, hpath, hcycle⟩
  have hafter : AfterPeers (buildOrder services) :=
    afterPeers_servicesAt h (placement_sound services).respects
  have hsubset : buildOrder services ⊆ services := fun p hp => ((mem_servicesAt_iff h).mp hp).1
  have hc : c ∈ buildOrder services := by
    rcases Relation.reflTransGen_iff_eq_or_transGen.mp hpath with rfl | hpath
    · exact hd
    · exact (hafter.of_path h hsubset hd hpath).1
  exact Nat.lt_irrefl _ (hafter.of_path h hsubset hc hcycle).2

/-- The services that are left are those that a cycle is reached from. -/
theorem mem_leftServices_iff_reachesCycle (h : Declared services) :
    d ∈ leftServices services ↔ d ∈ services ∧ ReachesCycle services d := by
  rw [mem_leftServices_iff h]
  refine and_congr_right fun hd => ⟨reachesCycle_of_left h hd, fun hcycle hplaced => ?_⟩
  exact not_reachesCycle_of_placed h hplaced hcycle

/-! ### The failure -/

/-- A failure of a list of services that names those from which a cycle is reached. -/
structure NamesCycles (services : List ServiceDescriptor) (e : ConfigError) (names : List String) :
    Prop where
  eq_cycle : e = .dependencyCycle names
  message_eq : e.message = "Dependency cycle between services: " ++ ", ".intercalate names
  /-- The names stand in the order in which the services are declared, each once. -/
  sublist : names.Sublist (services.map ServiceDescriptor.name)
  nodup : names.Nodup
  mem_iff : ∀ d ∈ services, d.name ∈ names ↔ ReachesCycle services d
  /-- A service whose peers lead to none that sees itself is not named. -/
  not_mem : ∀ d ∈ services,
    (∀ c, Relation.ReflTransGen (Sees services) d c → ¬ Relation.TransGen (Sees services) c c) →
      d.name ∉ names

/-- A well declared list fails for its cycles only, and the failure names the services that they keep
from being built. -/
theorem dependencyOrder_namesCycles {e : ConfigError} (h : Declared services)
    (he : dependencyOrder services = .error e) : ∃ names, NamesCycles services e names := by
  have hcycle : e = .dependencyCycle ((leftServices services).map ServiceDescriptor.name) := by
    rw [dependencyOrder_eq h, ← names_leftServices] at he
    split at he
    · exact (Except.error.inj he).symm
    · cases he
  have hmem : ∀ d ∈ services,
      d.name ∈ (leftServices services).map ServiceDescriptor.name ↔ ReachesCycle services d := by
    intro d hd
    rw [List.mem_map]
    constructor
    · rintro ⟨p, hp, hname⟩
      obtain ⟨hp, hreaches⟩ := (mem_leftServices_iff_reachesCycle h).mp hp
      rwa [h.eq_of_name_eq hd hp hname.symm]
    · intro hreaches
      exact ⟨d, (mem_leftServices_iff_reachesCycle h).mpr ⟨hd, hreaches⟩, rfl⟩
  have hsublist := (leftServices_sublist services).map ServiceDescriptor.name
  refine ⟨_, hcycle, ?_, hsublist, hsublist.nodup h.nodup, hmem, ?_⟩
  · rw [hcycle]
    rfl
  · intro d hd hacyclic hnamed
    obtain ⟨c, hpath, hcycle⟩ := (hmem d hd).mp hnamed
    exact hacyclic c hpath hcycle

/-- Services of which two see each other and one sees itself, with one that sees a cycle through
another and names it twice, and two that stand apart. -/
def knottedServices : List ServiceDescriptor :=
  let service (name : String) (dependsOn : List String) (probed : Option String) :
      ServiceDescriptor :=
    { name, container := name, kind := .generic, dependsOn, rpc := { host := name }
      modeProbe := probed.map fun peer =>
        { peer, env := "MODE", nativeHost := "", lightEndpoints := [] } }
  [service "api" ["web", "xud", "xud"] none, service "db" [] none,
   service "xud" ["db"] (some "lnd"), service "lnd" ["xud", "xud"] none,
   service "loop" ["loop"] none, service "web" ["db"] none]

theorem declared_knottedServices : Declared knottedServices :=
  ⟨by decide, by decide⟩

theorem dependencyOrder_knottedServices : dependencyOrder knottedServices =
    .error (.dependencyCycle ["api", "xud", "lnd", "loop"]) := by
  cbv

theorem knottedServices_namesCycles :
    Declared knottedServices ∧
      dependencyOrder knottedServices =
        .error (.dependencyCycle ["api", "xud", "lnd", "loop"]) ∧
      ∃ names, NamesCycles knottedServices (.dependencyCycle ["api", "xud", "lnd", "loop"]) names :=
  ⟨declared_knottedServices, dependencyOrder_knottedServices,
    dependencyOrder_namesCycles declared_knottedServices dependencyOrder_knottedServices⟩

end FleetWatch
