import FleetWatch.Proofs.Fleet.Deafness
import FleetWatch.Proofs.Fleet.PeerSight
/-!
Built fleets.

A fleet that is built of a list of descriptions finds exactly the names in it, each with the service
that was built of its description, and every service sees exactly the peers that it declared, each as
the service that the fleet finds.  Nothing that happens later changes that, so a service never misses
the peer that its mode is told by.
-/

namespace FleetWatch

/-- What is said of a failed look is not what is said of a peer that a service does not see. -/
theorem ContainerError.message_ne (e : ContainerError) :
    e.message ≠ "not a declared dependency" := by
  intro hsame
  have hfirst : e.message.toList.head? = some 'n' := by
    rw [hsame]
    simp
  rw [message.eq_def] at hfirst
  split at hfirst <;> simp at hfirst

/-- And neither is what is said of a variable that is not set. -/
theorem isNotSet_ne (name : String) : name ++ " is not set" ≠ "not a declared dependency" := by
  intro hsame
  have hlast : (name ++ " is not set").toList.getLast? = some 'y' := by
    rw [hsame]
    simp
  simp at hlast

/-- What a service is built of and whom it sees. -/
def Service.wiring (s : Service) : ServiceDescriptor × List (String × Nat) :=
  (s.descriptor, s.peers)

namespace Fleet

variable {f g h : Fleet} {options : ServiceOptions} {d : ServiceDescriptor}
  {ds : List ServiceDescriptor} {s : Service} {name : String}

/-! ### Who sees whom stays as it is -/

/-- Two fleets whose services are built of the same descriptions and see the same others. -/
def SameWiring (f g : Fleet) : Prop :=
  g.services.map Service.wiring = f.services.map Service.wiring

theorem SameWiring.trans (hfirst : f.SameWiring g) (hrest : g.SameWiring h) : f.SameWiring h :=
  Eq.trans hrest hfirst

theorem SameWiring.of_sansCalls
    (hsame : g.services.map Service.sansCalls = f.services.map Service.sansCalls) :
    f.SameWiring g := by
  have hwiring := congrArg (List.map Service.wiring) hsame
  rw [List.map_map, List.map_map] at hwiring
  exact hwiring

theorem services_invalidateAll (places : List Nat) (f : Fleet) :
    (places.foldl (fun f place => f.onClient .invalidate place) f).services = f.services := by
  induction places generalizing f with
  | nil => rfl
  | cons place places ih => exact ih (f.onClient .invalidate place)

theorem sameWiring_containerStopped {place : Nat} (hs : f.services[place]? = some s) :
    f.SameWiring (f.containerStopped place s) := by
  rw [SameWiring, containerStopped]
  split
  · obtain ⟨hplace, rfl⟩ := List.getElem?_eq_some_iff.mp hs
    have hlength : place < (f.services.map Service.wiring).length := by rwa [List.length_map]
    rw [List.map_set]
    refine Eq.trans (congrArg _ ?_) (List.set_getElem_self hlength)
    rw [List.getElem_map]
    rfl
  · rw [services_invalidateAll]

theorem sameWiring_onEvent {place : Nat} (hs : f.services[place]? = some s) (kind : EventKind) :
    f.SameWiring (f.onEvent place s kind).2 := by
  have hlook : (f.refresh s.handle).2.services = f.services := rfl
  cases kind with
  | create | start | other => rfl
  | die =>
    unfold onEvent
    cases hresult : f.refresh s.handle with
    | mk result next =>
      rw [hresult] at hlook
      have hnext : f.SameWiring next := by rw [SameWiring, hlook]
      cases result with
      | none => exact hnext
      | some _ => exact hnext.trans (sameWiring_containerStopped (hlook ▸ hs))
  | destroy =>
    let handles := f.handles.set s.handle (f.handle s.handle).clear
    exact sameWiring_containerStopped (f := { f with handles }) hs

theorem sameWiring_dispatch (f : Fleet) (e : EngineEvent) : f.SameWiring (f.dispatch e).2 := by
  unfold dispatch
  split
  · rfl
  · split
    · rfl
    · next hs => exact sameWiring_onEvent hs e.kind

/-- Whatever happens in a fleet, nobody comes to see another service than before. -/
theorem Move.sameWiring (hmove : f.Move g) : f.SameWiring g := by
  cases hmove with
  | loop hstep =>
    obtain ⟨l, e, after, _, hnext, rfl⟩ := stepLoop?_eq_some hstep
    cases loopTurn_of_nextLoopEvent? hnext with
    | lookAtAll _ _ _ hlooks | stallLooking _ _ _ hlooks =>
      have hsame := SameWiring.of_sansCalls (refreshAll_untold f).services
      rw [hlooks] at hsame
      exact hsame
    | dispatch _ event _ _ hdispatch | stallDispatching _ event _ _ hdispatch =>
      have hsame := sameWiring_dispatch f event
      rw [hdispatch] at hsame
      exact hsame
    | _ => rfl
  | client => rfl
  | others _ _ hservices => exact .of_sansCalls hservices

theorem sameWiring_of_moves (hrun : Relation.ReflTransGen Move f g) : f.SameWiring g := by
  induction hrun with
  | refl => rfl
  | tail _ hmove ih => exact ih.trans hmove.sameWiring

/-! ### The mode of a service -/

theorem exists_getNamed? {α : Type} {entries : List (String × α)}
    (hname : name ∈ entries.map Prod.fst) :
    ∃ a, getNamed? name entries = some a ∧ (name, a) ∈ entries := by
  obtain ⟨entry, hentry, rfl⟩ := List.mem_map.mp hname
  cases hfound : entries.find? fun e => e.1 == entry.1 with
  | none => exact absurd (List.find?_eq_none.mp hfound entry hentry) (by simp)
  | some other =>
    have hsame : other.1 = entry.1 := by simpa using List.find?_some hfound
    refine ⟨other.2, by rw [getNamed?, hfound, Option.map_some], ?_⟩
    rw [← hsame]
    exact List.mem_of_find?_eq_some hfound

/-- The peer that a service's mode is told by is there. -/
theorem Linked.exists_probed (hlinked : f.Linked) (hsame : f.SameWiring g) (hs : s ∈ g.services)
    {probe : ModeProbe} (hprobe : s.descriptor.modeProbe = some probe) :
    ∃ place other, getNamed? probe.peer s.peers = some place ∧ g.services[place]? = some other := by
  have hwiring : s.wiring ∈ f.services.map Service.wiring := by
    rw [← hsame]
    exact List.mem_map_of_mem hs
  obtain ⟨built, hbuilt, hwired⟩ := List.mem_map.mp hwiring
  obtain ⟨hdescriptor, hpeers⟩ := Prod.mk.inj hwired
  have hsees := hlinked.peers built hbuilt
  rw [← hdescriptor] at hprobe
  have hdeclared : probe.peer ∈ built.descriptor.peers := by
    simp only [ServiceDescriptor.peers, hprobe, Option.map_some, Option.toList_some]
    exact List.mem_append_right _ List.mem_cons_self
  obtain ⟨place, hplace, hpeer⟩ := exists_getNamed? ((hsees.names _).mpr hdeclared)
  obtain ⟨_, hthere, _⟩ := exists_service_of_placeOf? (hsees.places _ hpeer)
  have hlength : g.services.length = f.services.length := by
    rw [← List.length_map Service.wiring, hsame, List.length_map]
  have hother : place < g.services.length := by
    rw [hlength]
    exact (List.getElem?_eq_some_iff.mp hthere).1
  rw [← hpeers]
  exact ⟨place, g.services[place], hplace, List.getElem?_eq_getElem hother⟩

/-- The mode of a service may not be had, but never for want of a peer that it declared. -/
theorem Linked.mode_ne (hlinked : f.Linked) (hsame : f.SameWiring g) (hs : s ∈ g.services)
    (service peer : String) :
    (g.mode s).1 ≠ some (.error (.dependency service peer "not a declared dependency")) := by
  intro hmode
  rw [mode] at hmode
  cases hprobe : s.descriptor.modeProbe with
  | none =>
    rw [hprobe] at hmode
    cases hmode
  | some probe =>
    obtain ⟨place, other, hplace, hother⟩ := hlinked.exists_probed hsame hs hprobe
    simp only [hprobe, hplace, Option.bind_some, hother] at hmode
    obtain ⟨answer, _, hanswer⟩ := Option.map_eq_some_iff.mp hmode
    split at hanswer
    · next e _ =>
      obtain ⟨_, _, hreason⟩ := StatusError.dependency.inj (Except.error.inj hanswer)
      exact e.message_ne hreason
    · obtain ⟨_, _, hreason⟩ := StatusError.dependency.inj (Except.error.inj hanswer)
      exact isNotSet_ne probe.env hreason
    · cases hanswer

/-! ### Built fleets -/

/-- A fleet that stands as a list of descriptions says. -/
structure IsRegistry (f : Fleet) (options : ServiceOptions) (ds : List ServiceDescriptor) :
    Prop where
  /-- A name is found just if it was declared. -/
  found_iff : ∀ name, (∃ s, f.service? name = some s) ↔ name ∈ ds.map ServiceDescriptor.name
  /-- What is found is the service that was built of the description with the name. -/
  built : ∀ d ∈ ds, ∃ s, f.service? d.name = some s ∧ s.descriptor = d ∧ f.IsBuilt options s
  /-- Every service is found. -/
  found : ∀ s ∈ f.services, s.descriptor ∈ ds ∧ f.service? s.descriptor.name = some s
  /-- A service sees the names that it declared, each once, and no other. -/
  sees : ∀ s ∈ f.services, (s.peers.map Prod.fst).Nodup ∧
    ∀ name, name ∈ s.peers.map Prod.fst ↔ name ∈ s.descriptor.peers
  /-- Each is the service that is found under the name. -/
  bound : ∀ s ∈ f.services, ∀ peer ∈ s.peers,
    ∃ seen, f.services[peer.2]? = some seen ∧ f.service? peer.1 = some seen
  /-- Whatever happens, this stays as it is. -/
  kept : ∀ g, Relation.ReflTransGen Move f g → f.SameWiring g
  /-- As long as it is, no service misses the peer that its mode is told by. -/
  mode : ∀ g, f.SameWiring g → ∀ s ∈ g.services, ∀ service peer,
    (g.mode s).1 ≠ some (.error (.dependency service peer "not a declared dependency"))

theorem service?_eq (hlinked : f.Linked) (hs : s ∈ f.services) :
    f.service? s.descriptor.name = some s := by
  obtain ⟨place, hplace⟩ := List.mem_iff_getElem?.mp hs
  rw [service?, placeOf?_eq hlinked.names hplace, Option.bind_some, hplace]

theorem exists_service?_iff (hlinked : f.Linked) :
    (∃ s, f.service? name = some s) ↔ name ∈ f.descriptors.map ServiceDescriptor.name := by
  constructor
  · rintro ⟨s, hs⟩
    obtain ⟨place, hplace, hs⟩ := Option.bind_eq_some_iff.mp hs
    obtain ⟨other, hother, rfl⟩ := exists_service_of_placeOf? hplace
    exact List.mem_map_of_mem (List.mem_map_of_mem (List.mem_of_getElem? hother))
  · intro hname
    obtain ⟨place, s, hs, rfl⟩ := exists_service_of_name hname
    exact ⟨s, service?_eq hlinked (List.mem_of_getElem? hs)⟩

/-- A built fleet has its services in an order in which each sees its peers. -/
theorem linked_build (hempty : f.services = []) (hbuild : f.build options ds = .ok g) :
    g.Linked ∧ g.descriptors.Perm ds ∧ ∀ s ∈ g.services, g.IsBuilt options s := by
  obtain ⟨order, horder, hadded⟩ := bind_eq_ok.mp hbuild
  obtain ⟨hdeclared, hright⟩ := isBuildOrder_of_ok horder
  have hnone : f.descriptors = [] := by rw [descriptors, hempty, List.map_nil]
  have hstart : f.Linked := by
    constructor
    · rw [hnone]
      exact List.nodup_nil
    · rw [hempty]
      exact fun _ hs => absurd hs List.not_mem_nil
  have hdescriptors := descriptors_addServices hadded
  rw [hnone, List.nil_append] at hdescriptors
  refine ⟨?_, hdescriptors ▸ hright.perm, ?_⟩
  · apply hstart.addServices ?_ ?_ hadded
    · rw [hnone, List.nil_append]
      exact (hright.perm.map _).nodup_iff.mpr hdeclared.nodup
    · rw [hnone]
      exact hright.afterPeers
  · intro s hs
    rcases (isBuilt_addServices hadded).2 s hs with hold | hnew
    · rw [hempty] at hold
      exact absurd hold List.not_mem_nil
    · exact hnew

/-- Every list of descriptions that can be built is built as it says. -/
theorem isRegistry_of_build (hempty : f.services = []) (hbuild : f.build options ds = .ok g) :
    g.IsRegistry options ds := by
  obtain ⟨hlinked, hperm, hbuilt⟩ := linked_build hempty hbuild
  have hmem : ∀ s ∈ g.services, s.descriptor ∈ ds := fun s hs =>
    hperm.mem_iff.mp (List.mem_map_of_mem hs)
  constructor
  · intro name
    rw [exists_service?_iff hlinked, (hperm.map _).mem_iff]
  · intro d hd
    obtain ⟨s, hs, rfl⟩ := List.mem_map.mp (hperm.mem_iff.mpr hd)
    exact ⟨s, service?_eq hlinked hs, rfl, hbuilt s hs⟩
  · intro s hs
    exact ⟨hmem s hs, service?_eq hlinked hs⟩
  · intro s hs
    have hsees := hlinked.peers s hs
    exact ⟨hsees.sorted.imp fun hlt => ne_of_lt hlt, hsees.names⟩
  · intro s hs peer hpeer
    have hplace := (hlinked.peers s hs).places peer hpeer
    obtain ⟨seen, hseen, _⟩ := exists_service_of_placeOf? hplace
    exact ⟨seen, hseen, by rw [service?, hplace, Option.bind_some, hseen]⟩
  · intro h hrun
    exact sameWiring_of_moves hrun
  · intro h hsame s hs service peer
    exact hlinked.mode_ne hsame hs service peer

/-! ### A service that names a peer more than once -/

def probingService : ServiceDescriptor :=
  { name := "web", container := "testnet_web_1", kind := .generic, rpc := { host := "web" }
    dependsOn := ["xud", "api", "xud"]
    modeProbe := some { peer := "xud", env := "NODE", nativeHost := "xud", lightEndpoints := [] } }

/-- The services that it sees, one of which sees the other. -/
def probedServices : List ServiceDescriptor :=
  [{ name := "xud", container := "testnet_xud_1", kind := .xud, rpc := { host := "xud" } },
   { name := "api", container := "testnet_api_1", kind := .generic, rpc := { host := "api" }
     dependsOn := ["xud"] }]

def emptyFleet : Fleet :=
  { engine := .memory { wall := default } }

theorem dependencyOrder_probing :
    dependencyOrder (probingService :: probedServices) =
      .ok (probedServices ++ [probingService]) := by
  cbv

theorem probing_isRegistry : ∃ g : Fleet,
    emptyFleet.services = [] ∧ emptyFleet.build {} (probingService :: probedServices) = .ok g ∧
      g.services.map Service.peers = [[], [("xud", 0)], [("api", 1), ("xud", 0)]] ∧
      g.IsRegistry {} (probingService :: probedServices) := by
  have hbuild : ∃ g : Fleet, emptyFleet.build {} (probingService :: probedServices) = .ok g ∧
      g.services.map Service.peers = [[], [("xud", 0)], [("api", 1), ("xud", 0)]] := by
    rw [build, dependencyOrder_probing]
    exact ⟨_, rfl, rfl⟩
  obtain ⟨g, hbuild, hpeers⟩ := hbuild
  exact ⟨g, rfl, hbuild, hpeers, isRegistry_of_build rfl hbuild⟩

end Fleet

end FleetWatch
