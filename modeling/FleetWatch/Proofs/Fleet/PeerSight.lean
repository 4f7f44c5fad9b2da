import FleetWatch.Proofs.Fleet.Built
import FleetWatch.Proofs.Json.Members
/-!
Whom a service sees.

Services are built after their peers, and a name is not declared twice.  So when a service is added,
whatever it declares stands in the fleet already, and what is added later takes no name from it.
-/

namespace FleetWatch

namespace Fleet

variable {f g h : Fleet} {options : ServiceOptions} {d : ServiceDescriptor}
  {ds : List ServiceDescriptor} {s : Service} {name : String}

/-! ### What is built of a description -/

/-- A service with all that is built along with it of its description. -/
structure IsBuilt (f : Fleet) (options : ServiceOptions) (s : Service) : Prop where
  handle : f.handles[s.handle]? = some { name := s.descriptor.container }
  /-- There is a client for each dialer, and the probe knows where. -/
  clients : ∃ dialers first, s.descriptor.dialers = .ok dialers ∧
    s.probe = s.descriptor.probeAt first ∧
    ∀ (i : Nat) (dialer : String × Dialer), dialers[i]? = some dialer →
      f.clients[first + i]? =
        some { handle := s.handle
               it := { dialer := dialer.2, dialLoop := { policy := options.policy } } }
  watched : ∀ patterns, s.descriptor.watched options.network = some patterns →
    ∃ w, s.watcher = some w ∧ f.watchers[w]? = some { handle := s.handle, it := { patterns } }
  unwatched : s.descriptor.watched options.network = none → s.watcher = none
  callTimeout : s.callTimeout = options.callTimeout

/-- A fleet that has everything in its place that another has. -/
structure Grows (f g : Fleet) : Prop where
  handles : f.handles <+: g.handles
  clients : f.clients <+: g.clients
  watchers : f.watchers <+: g.watchers
  services : f.services <+: g.services

theorem Grows.trans (hfirst : f.Grows g) (hrest : g.Grows h) : f.Grows h :=
  ⟨hfirst.handles.trans hrest.handles, hfirst.clients.trans hrest.clients,
    hfirst.watchers.trans hrest.watchers, hfirst.services.trans hrest.services⟩

theorem grows_addService (hadd : f.addService options d = .ok g) : f.Grows g := by
  obtain ⟨_, _, rfl⟩ := addService_eq_ok hadd
  exact ⟨List.prefix_append _ _, List.prefix_append _ _, List.prefix_append _ _,
    List.prefix_append _ _⟩

theorem getElem?_of_isFirst {α : Type} {first items : List α} (hfirst : first <+: items) {i : Nat}
    {a : α} (hi : first[i]? = some a) : items[i]? = some a := by
  obtain ⟨hlength, rfl⟩ := List.getElem?_eq_some_iff.mp hi
  exact List.prefix_iff_getElem?.mp hfirst i hlength

/-- What was built stays in place while more is built. -/
theorem IsBuilt.grows (hbuilt : f.IsBuilt options s) (hgrows : f.Grows g) :
    g.IsBuilt options s where
  handle := getElem?_of_isFirst hgrows.handles hbuilt.handle
  clients := by
    obtain ⟨dialers, first, hdialers, hprobe, hclients⟩ := hbuilt.clients
    refine ⟨dialers, first, hdialers, hprobe, ?_⟩
    intro i dialer hi
    exact getElem?_of_isFirst hgrows.clients (hclients i dialer hi)
  watched patterns hpatterns := by
    obtain ⟨w, hw, hwatcher⟩ := hbuilt.watched patterns hpatterns
    exact ⟨w, hw, getElem?_of_isFirst hgrows.watchers hwatcher⟩
  unwatched := hbuilt.unwatched
  callTimeout := hbuilt.callTimeout

/-- Adding a service puts it behind the others, built of its description, with sight of what stands
there already. -/
theorem exists_addedService (hadd : f.addService options d = .ok g) :
    ∃ s, g.services = f.services ++ [s] ∧ s.descriptor = d ∧ s.peers = f.visiblePeers d ∧
      g.IsBuilt options s := by
  obtain ⟨dialers, hdialers, rfl⟩ := addService_eq_ok hadd
  refine ⟨_, rfl, rfl, rfl, ?_⟩
  constructor
  · exact List.getElem?_concat_length
  · refine ⟨dialers, f.clients.length, hdialers, rfl, ?_⟩
    intro i dialer hi
    simp only [placeService, addHandle]
    rw [List.getElem?_append_right (Nat.le_add_right _ _), Nat.add_sub_cancel_left,
      List.getElem?_map, List.getElem?_map, hi]
    rfl
  · intro patterns hpatterns
    refine ⟨f.watchers.length, ?_, ?_⟩
    · simp only [hpatterns]
      rfl
    · simp only [placeService, addHandle, hpatterns]
      exact List.getElem?_concat_length
  · intro hnone
    simp only [hnone]
    rfl
  · rfl

/-! ### What a service sees -/

/-- A service sees the peers that it declared, each at the place where the fleet finds it. -/
structure SeesPeers (f : Fleet) (s : Service) : Prop where
  /-- Each once, in the order of their names. -/
  sorted : (s.peers.map Prod.fst).Pairwise (· < ·)
  names : ∀ name, name ∈ s.peers.map Prod.fst ↔ name ∈ s.descriptor.peers
  places : ∀ peer ∈ s.peers, f.placeOf? peer.1 = some peer.2

/-- Every service sees its peers, and a name tells which service is meant. -/
structure Linked (f : Fleet) : Prop where
  names : (f.descriptors.map ServiceDescriptor.name).Nodup
  peers : ∀ s ∈ f.services, f.SeesPeers s

theorem exists_service_of_name (hname : name ∈ f.descriptors.map ServiceDescriptor.name) :
    ∃ (place : Nat) (s : Service), f.services[place]? = some s ∧ s.descriptor.name = name := by
  obtain ⟨d, hd, rfl⟩ := List.mem_map.mp hname
  obtain ⟨s, hs, rfl⟩ := List.mem_map.mp hd
  obtain ⟨place, hplace⟩ := List.mem_iff_getElem?.mp hs
  exact ⟨place, s, hplace, rfl⟩

theorem lastPlace?_eq_some {α : Type} {p : α → Bool} {items : List α} {i : Nat}
    (h : lastPlace? p items = some i) : ∃ a, items[i]? = some a ∧ p a = true := by
  induction items generalizing i with
  | nil => cases h
  | cons first rest ih =>
    rw [lastPlace?] at h
    split at h
    · next later hlater =>
      cases h
      exact ih hlater
    · by_cases hfirst : p first = true
      · rw [if_pos hfirst] at h
        cases h
        exact ⟨first, rfl, hfirst⟩
      · rw [if_neg hfirst] at h
        cases h

theorem lastPlace?_concat {α : Type} {p : α → Bool} {items : List α} {a : α} (ha : p a = false) :
    lastPlace? p (items ++ [a]) = lastPlace? p items := by
  induction items with
  | nil => simp only [List.nil_append, lastPlace?, ha, Bool.false_eq_true, if_false]
  | cons first rest ih => simp only [List.cons_append, lastPlace?, ih]

/-- What is found under a name has that name. -/
theorem exists_service_of_placeOf? {place : Nat} (hplace : f.placeOf? name = some place) :
    ∃ s, f.services[place]? = some s ∧ s.descriptor.name = name := by
  obtain ⟨s, hs, hname⟩ := lastPlace?_eq_some hplace
  exact ⟨s, hs, eq_of_beq hname⟩

/-- A service that is added under a new name hides no other. -/
theorem placeOf?_addService (hadd : f.addService options d = .ok g)
    (hnew : d.name ∉ f.descriptors.map ServiceDescriptor.name) {place : Nat}
    (hplace : f.placeOf? name = some place) : g.placeOf? name = some place := by
  obtain ⟨s, hs, rfl⟩ := exists_service_of_placeOf? hplace
  obtain ⟨added, hservices, rfl, _⟩ := exists_addedService hadd
  have hother : added.descriptor.name ≠ s.descriptor.name := by
    intro hsame
    apply hnew
    rw [hsame]
    exact List.mem_map_of_mem (List.mem_map_of_mem (List.mem_of_getElem? hs))
  rw [← hplace, placeOf?, placeOf?, hservices]
  exact lastPlace?_concat (beq_false_of_ne hother)

theorem mem_names_visiblePeers (hlinked : f.Linked)
    (hpeers : ∀ p ∈ d.peers, p ∈ f.descriptors.map ServiceDescriptor.name) :
    name ∈ (f.visiblePeers d).map Prod.fst ↔ name ∈ d.peers := by
  rw [visiblePeers, Json.mem_names_sortMembers, List.mem_map]
  constructor
  · rintro ⟨peer, hpeer, rfl⟩
    obtain ⟨other, hother, hfound⟩ := List.mem_filterMap.mp hpeer
    obtain ⟨place, _, rfl⟩ := Option.map_eq_some_iff.mp hfound
    exact hother
  · intro hname
    obtain ⟨place, s, hs, rfl⟩ := exists_service_of_name (hpeers name hname)
    refine ⟨(s.descriptor.name, place), ?_, rfl⟩
    apply List.mem_filterMap.mpr
    refine ⟨s.descriptor.name, hname, ?_⟩
    rw [placeOf?_eq hlinked.names hs, Option.map_some]

theorem placeOf?_of_mem_visiblePeers {peer : String × Nat} (hpeer : peer ∈ f.visiblePeers d) :
    f.placeOf? peer.1 = some peer.2 := by
  obtain ⟨other, _, hfound⟩ := List.mem_filterMap.mp (Json.mem_of_mem_sortMembers hpeer)
  obtain ⟨place, hplace, rfl⟩ := Option.map_eq_some_iff.mp hfound
  exact hplace

/-- A service with a new name whose peers stand in the fleet sees them, and the others see on. -/
theorem Linked.addService (hlinked : f.Linked)
    (hnew : d.name ∉ f.descriptors.map ServiceDescriptor.name)
    (hpeers : ∀ p ∈ d.peers, p ∈ f.descriptors.map ServiceDescriptor.name)
    (hadd : f.addService options d = .ok g) : g.Linked := by
  obtain ⟨added, hservices, hdescriptor, hsees, _⟩ := exists_addedService hadd
  constructor
  · rw [descriptors_addService hadd, List.map_append, List.map_singleton]
    refine List.nodup_append.mpr ⟨hlinked.names, List.nodup_singleton _, ?_⟩
    rintro name hold _ hsame rfl
    exact hnew (List.mem_singleton.mp hsame ▸ hold)
  · intro s hs
    rw [hservices] at hs
    rcases List.mem_append.mp hs with hold | hsame
    · have hseen := hlinked.peers s hold
      refine ⟨hseen.sorted, hseen.names, ?_⟩
      intro peer hpeer
      exact placeOf?_addService hadd hnew (hseen.places peer hpeer)
    · cases List.mem_singleton.mp hsame
      constructor
      · rw [hsees]
        exact Json.pairwise_sortMembers _
      · intro name
        rw [hsees, hdescriptor]
        exact mem_names_visiblePeers hlinked hpeers
      · intro peer hpeer
        rw [hsees] at hpeer
        exact placeOf?_addService hadd hnew (placeOf?_of_mem_visiblePeers hpeer)

/-! ### Adding services in their order -/

/-- Descriptions with new names, each after its peers, leave a fleet in which everybody sees whom
they declared. -/
theorem Linked.addServices (hlinked : f.Linked)
    (hnames : ((f.descriptors ++ ds).map ServiceDescriptor.name).Nodup)
    (hafter : ∀ before d after, ds = before ++ d :: after →
      ∀ p ∈ d.peers, p ∈ (f.descriptors ++ before).map ServiceDescriptor.name)
    (hadded : ds.foldlM (fun f d => f.addService options d) f = .ok g) : g.Linked := by
  induction ds generalizing f with
  | nil =>
    cases hadded
    exact hlinked
  | cons d rest ih =>
    rw [List.foldlM_cons] at hadded
    obtain ⟨next, hnext, hrest⟩ := bind_eq_ok.mp hadded
    have hdescriptors := descriptors_addService hnext
    have hnew : d.name ∉ f.descriptors.map ServiceDescriptor.name := by
      intro hold
      rw [List.map_append, List.map_cons] at hnames
      exact (List.nodup_append.mp hnames).2.2 _ hold _ List.mem_cons_self rfl
    have hpeers : ∀ p ∈ d.peers, p ∈ f.descriptors.map ServiceDescriptor.name := by
      intro p hp
      have hp' := hafter [] d rest rfl p hp
      rwa [List.append_nil] at hp'
    apply ih (hlinked.addService hnew hpeers hnext) ?_ ?_ hrest
    · rw [hdescriptors, List.append_assoc, List.singleton_append]
      exact hnames
    · rintro before other after rfl p hp
      have hp' := hafter (d :: before) other after rfl p hp
      rw [hdescriptors, List.append_assoc, List.singleton_append]
      exact hp'

theorem isBuilt_addServices (hadded : ds.foldlM (fun f d => f.addService options d) f = .ok g) :
    f.Grows g ∧ ∀ s ∈ g.services, s ∈ f.services ∨ g.IsBuilt options s := by
  induction ds generalizing f with
  | nil =>
    cases hadded
    exact ⟨⟨List.prefix_rfl, List.prefix_rfl, List.prefix_rfl, List.prefix_rfl⟩,
      fun _ hs => Or.inl hs⟩
  | cons d rest ih =>
    rw [List.foldlM_cons] at hadded
    obtain ⟨next, hnext, hrest⟩ := bind_eq_ok.mp hadded
    obtain ⟨hgrows, hbuilt⟩ := ih hrest
    obtain ⟨added, hservices, _, _, hnew⟩ := exists_addedService hnext
    refine ⟨(grows_addService hnext).trans hgrows, ?_⟩
    intro s hs
    rcases hbuilt s hs with hold | hlater
    · rw [hservices] at hold
      rcases List.mem_append.mp hold with hold | hsame
      · exact Or.inl hold
      · cases List.mem_singleton.mp hsame
        exact Or.inr (hnew.grows hgrows)
    · exact Or.inr hlater

end Fleet

end FleetWatch
