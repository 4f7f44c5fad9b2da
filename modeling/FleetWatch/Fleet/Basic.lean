import FleetWatch.Config
import FleetWatch.Container.Session
import FleetWatch.Registry.EventLoop
import FleetWatch.Service.Mode
import FleetWatch.Service.Probe
import FleetWatch.Watch.Watcher
/-!
A running fleet: the engine, the services, and everything that works in the background.

Handles, clients, watchers and services are known by their places in lists that only grow; followed
logs, sessions and waiters by the names that their users gave them.  Whatever works for a service
works at its handle.  Times are in milliseconds.
-/

namespace FleetWatch

inductive ScriptedOutcome where
  | report (text : String)
  | failing (message : String)
  | noClient
  | hanging
deriving Repr, DecidableEq, Inhabited

/-- How a service's backend is asked, and by which clients. -/
inductive ServiceProbe where
  | none
  | scripted (outcome : ScriptedOutcome) (calls stopped : Nat)
  | chainDaemon (client : Nat)
  | geth (client : Nat)
  | lnd (client : Nat)
  | xud (client : Nat)
  | connext (client : Nat)
  | boltz (chains : List (String × Nat))
deriving Repr, DecidableEq, Inhabited

namespace ServiceProbe

/-- The clients of a probe, in order. -/
def clients : ServiceProbe → List Nat
  | .none => []
  | .scripted _ _ _ => []
  | .chainDaemon c => [c]
  | .geth c => [c]
  | .lnd c => [c]
  | .xud c => [c]
  | .connext c => [c]
  | .boltz chains => chains.map Prod.snd

end ServiceProbe

structure Service where
  descriptor : ServiceDescriptor
  handle : Nat
  probe : ServiceProbe := .none
  watcher : Option Nat := none
  /-- The services that this one sees, by name. -/
  peers : List (String × Nat) := []
  callTimeout : Nat := 3000
deriving Repr, DecidableEq, Inhabited

/-- A client, watcher or the like with the place of the handle that it works at. -/
structure Placed (α : Type) where
  handle : Nat
  it : α
deriving Inhabited

/-- Somebody who waits for a container. -/
structure Wait where
  want : Awaited
  state : Waited
  isCancelled : Bool := false
deriving Repr, DecidableEq, Inhabited

structure Fleet where
  now : Nat := 0
  engine : Engine
  network : Network := .down
  /-- Files that credentials are read from, the latest first. -/
  files : List (String × List UInt8) := []
  handles : List Handle := []
  clients : List (Placed Client) := []
  watchers : List (Placed Watcher) := []
  followers : List (String × Placed Follow.Follower) := []
  waits : List (String × Placed Wait) := []
  sessions : List (String × Placed Session) := []
  services : List Service := []
  eventLoop : Option EventLoop := none
  /-- How long a status may take. -/
  statusTimeout : Nat := 10000
deriving Inhabited

namespace Fleet

/-- What stands at a path.  A path under which files stand is a directory. -/
def fileAt (f : Fleet) : Files := fun path =>
  match f.files.find? fun file => file.1 == path with
  | some file => .ok file.2
  | none =>
    if f.files.any fun file => (path ++ "/").toList.isPrefixOf file.1.toList then
      .error .isDirectory
    else .error .notFound

/-- The handle at a place. -/
def handle (f : Fleet) (place : Nat) : Handle :=
  (f.handles[place]?).getD default

/-- A handle with the engine behind it. -/
def site (f : Fleet) (place : Nat) : Site :=
  { now := f.now, engine := f.engine, handle := f.handle place }

/-- The fleet after something happened at a handle. -/
def putSite (f : Fleet) (place : Nat) (s : Site) : Fleet :=
  { f with engine := s.engine, handles := f.handles.set place s.handle }

/-- The place of the last element that satisfies `p`. -/
def lastPlace? {α : Type} (p : α → Bool) : List α → Option Nat
  | [] => none
  | a :: rest =>
    match lastPlace? p rest with
    | some place => some (place + 1)
    | none => if p a then some 0 else none

/-- The place of the service with a name; of several, the one that was added last. -/
def placeOf? (f : Fleet) (name : String) : Option Nat :=
  lastPlace? (fun s => s.descriptor.name == name) f.services

def service? (f : Fleet) (name : String) : Option Service :=
  (f.placeOf? name).bind fun place => f.services[place]?

def client (f : Fleet) (place : Nat) : Client :=
  ((f.clients[place]?).map Placed.it).getD default

def onClient (f : Fleet) (event : DialEvent) (place : Nat) : Fleet :=
  { f with clients := f.clients.modify place fun c => { c with it := c.it.on event } }

def progress (f : Fleet) (s : Service) : Option SyncProgress :=
  s.watcher.map fun w => ((f.watchers[w]?).map fun p => p.it.progress).getD {}

/-- The entry of a name, in place of an older one. -/
def putNamed {α : Type} (name : String) (a : α) (entries : List (String × α)) :
    List (String × α) :=
  (entries.filter fun e => e.1 != name) ++ [(name, a)]

def getNamed? {α : Type} (name : String) (entries : List (String × α)) : Option α :=
  (entries.find? fun e => e.1 == name).map Prod.snd

/-! ### Containers -/

/-- Looks at a service's container; `none` if the engine never answers. -/
def refresh (f : Fleet) (place : Nat) :
    Option (Except ContainerError (Option Snapshot)) × Fleet :=
  let (r, s) := (f.site place).refresh
  (r, f.putSite place s)

/-- Looks at every service's container.  Says whether all looks were answered. -/
def refreshAll (f : Fleet) : Bool × Fleet :=
  f.services.foldl (fun acc s =>
    let (r, f) := acc.2.refresh s.handle
    (acc.1 && r.isSome, f)) (true, f)

/-- Tells a service's probe that the container stopped: what it connected to is gone. -/
def containerStopped (f : Fleet) (place : Nat) (s : Service) : Fleet :=
  match s.probe with
  | .scripted outcome calls stopped =>
    let counted := { s with probe := .scripted outcome calls (stopped + 1) }
    { f with services := f.services.set place counted }
  | probe => probe.clients.foldl (fun f c => f.onClient .invalidate c) f

/-- What an event of its container does to a service.  Says whether the look that it takes was
answered. -/
def onEvent (f : Fleet) (place : Nat) (s : Service) (kind : EventKind) : Bool × Fleet :=
  match kind with
  | .create | .start =>
    let (r, f) := f.refresh s.handle
    (r.isSome, f)
  | .die =>
    match f.refresh s.handle with
    | (none, f) => (false, f)
    | (some _, f) => (true, f.containerStopped place s)
  | .destroy =>
    let handles := f.handles.set s.handle (f.handle s.handle).clear
    (true, { f with handles }.containerStopped place s)
  | .other _ => (true, f)

/-- The place of the service that an event is about: by the container's name, or else by the id
that was last seen. -/
def ownerOf? (f : Fleet) (e : EngineEvent) : Option Nat :=
  let byName := e.containerName.bind fun name =>
    f.services.findIdx? fun s => s.descriptor.container == normalizeName name
  match byName with
  | some place => some place
  | none =>
    f.services.findIdx? fun s =>
      ((f.handle s.handle).snapshot.map Snapshot.id) == some e.containerId

/-- Hands an event to its service; an event about no service is passed over.  Says whether the look
that it takes was answered. -/
def dispatch (f : Fleet) (e : EngineEvent) : Bool × Fleet :=
  match f.ownerOf? e with
  | none => (true, f)
  | some place =>
    match f.services[place]? with
    | none => (true, f)
    | some s => f.onEvent place s e.kind

end Fleet

end FleetWatch
