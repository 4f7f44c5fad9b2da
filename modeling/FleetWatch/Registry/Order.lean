import FleetWatch.Service.Descriptor
/-!
The order in which services are built: each after the services that it sees.

Every service waits for those of its peers that are not placed yet.  Of the services that wait for
none the one declared first is placed next, and those that see it wait for one peer less, so the
order is the least one by declaration that respects the peers.  Names must be declared once, peers
must be declared, and a cycle leaves services that wait for ever.

A service is known by its place in the list.
-/

namespace FleetWatch

/-- The first name that is declared a second time. -/
def repeatedName? (seen : List String) : List ServiceDescriptor → Option String
  | [] => none
  | d :: rest => if seen.contains d.name then some d.name else repeatedName? (d.name :: seen) rest

/-- The least of several names. -/
def leastName? : List String → Option String
  | [] => none
  | name :: rest =>
    match leastName? rest with
    | none => some name
    | some other => if other < name then some other else some name

/-- The least peer of a service that is not among `names`. -/
def unknownPeer? (names : List String) (d : ServiceDescriptor) : Option String :=
  leastName? (d.peers.filter fun p => !names.contains p)

/-- The places of the services that a service sees, each once however often it is named. -/
def peerPlaces (names : List String) (d : ServiceDescriptor) : List Nat :=
  (List.range names.length).filter fun p => (names[p]?).any d.peers.contains

/-- How far the placing of services has come. -/
structure Placement where
  /-- For how many peers each service still waits. -/
  pending : List Nat
  /-- The services that wait for none and are not placed, in the order they were declared. -/
  ready : List Nat
  /-- The services placed, in the order in which they were. -/
  placed : List Nat := []
deriving Repr, DecidableEq, Inhabited

namespace Placement

/-- Nothing is placed.  `peers` has the peers of each service. -/
def start (peers : List (List Nat)) : Placement :=
  { pending := peers.map List.length
    ready := (List.range peers.length).filter fun i => (peers[i]?).any List.isEmpty }

/-- The services that see the one at a place. -/
def dependents (peers : List (List Nat)) (place : Nat) : List Nat :=
  (List.range peers.length).filter fun i => (peers[i]?).any (·.contains place)

/-- Places the first service that is ready, or `none` if there is none. -/
def next? (peers : List (List Nat)) (s : Placement) : Option Placement :=
  match s.ready with
  | [] => none
  | place :: ready =>
    let waiting := dependents peers place
    let pending := s.pending.mapIdx fun i left => if waiting.contains i then left - 1 else left
    let freed := waiting.filter fun i => pending[i]? == some 0
    some { pending, ready := ready.merge freed, placed := s.placed ++ [place] }

/-- Places services while one is ready.  `rounds` bounds the steps; the number of services is
enough. -/
def run (peers : List (List Nat)) : Nat → Placement → Placement
  | 0, s => s
  | rounds + 1, s =>
    match s.next? peers with
    | none => s
    | some next => run peers rounds next

/-- The services that still wait, in the order they were declared. -/
def stuck (s : Placement) : List Nat :=
  (List.range s.pending.length).filter fun i => (s.pending[i]?).any (0 < ·)

end Placement

/-- The services in the order in which they are built, or what is wrong with the list. -/
def dependencyOrder (services : List ServiceDescriptor) :
    Except ConfigError (List ServiceDescriptor) :=
  match repeatedName? [] services with
  | some name => .error (.invalidService name "declared more than once")
  | none =>
    let names := services.map ServiceDescriptor.name
    match services.findSome? fun d => (unknownPeer? names d).map fun p => (d.name, p) with
    | some (name, peer) =>
      .error (.invalidService name ("depends on unknown service '" ++ peer ++ "'"))
    | none =>
      let peers := services.map (peerPlaces names)
      let last := Placement.run peers services.length (Placement.start peers)
      if last.placed.length < services.length then
        .error (.dependencyCycle (last.stuck.filterMap (names[·]?)))
      else .ok (last.placed.filterMap (services[·]?))

end FleetWatch
