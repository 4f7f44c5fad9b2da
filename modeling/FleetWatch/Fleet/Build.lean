import FleetWatch.Fleet.Run
/-!
Building a fleet out of descriptions.

Services are built in the order of their dependencies.  Each gets a handle of its own, the clients
that its kind asks its backend with, and sight of the services that it declared.
-/

namespace FleetWatch

/-- The command line tool of xud when none is configured. -/
def defaultXudCli : String := "xucli"

/-- The health page of connext. -/
def connextHealthPath : String := "/health"

/-- How a chain daemon's credentials are had. -/
def ServiceDescriptor.auth (d : ServiceDescriptor) : JsonRpc.Auth :=
  match d.rpc.username, d.rpc.password, d.rpc.cookieFile with
  | some username, some password, _ => .basic username password
  | _, _, some cookie => .cookie cookie
  | _, _, _ => .none

/-- How the loops of a service try again. -/
def ServiceOptions.policy (o : ServiceOptions) : RetryPolicy :=
  { retryDelay := o.retryDelay, connectTimeout := o.connectTimeout, maxAttempts := o.maxAttempts }

/-- The dialers of a service's clients, by chain where it has several, or what they lack. -/
def ServiceDescriptor.dialers (d : ServiceDescriptor) :
    Except ConfigError (List (String × Dialer)) :=
  match d.kind with
  | .bitcoind | .litecoind => do
    return [(d.name, .jsonRpc d.rpc.host (← d.port) d.auth)]
  | .geth => do
    return [(d.name, .jsonRpc d.rpc.host (← d.port) .none)]
  | .lnd =>
    match d.rpc.tlsCert, d.rpc.macaroon with
    | some certificate, some macaroon => do
      return [(d.name, .lnd d.rpc.host (← d.port) certificate macaroon)]
    | _, _ =>
      throw (.invalidService d.name "rpc.tls_cert and rpc.macaroon are required")
  | .xud => return [(d.name, .xucli d.container (d.rpc.cli.getD defaultXudCli) d.rpc.tlsCert)]
  | .connext => do
    let address := Dialer.address d.rpc.host (← d.port)
    return [(d.name, .health ("http://" ++ address ++ connextHealthPath))]
  | .boltz => return d.rpc.ports.map fun p => (p.1, .tcp d.rpc.host p.2)
  | .arby | .webui | .proxy | .generic => return []

/-- The probe of a service whose clients start at a place. -/
def ServiceDescriptor.probeAt (d : ServiceDescriptor) (first : Nat) : ServiceProbe :=
  match d.kind with
  | .bitcoind | .litecoind => .chainDaemon first
  | .geth => .geth first
  | .lnd => .lnd first
  | .xud => .xud first
  | .connext => .connext first
  | .boltz => .boltz (d.rpc.ports.mapIdx fun i p => (p.1, first + i))
  | .arby | .webui | .proxy | .generic => .none

/-- The patterns that a service's log is watched for. -/
def ServiceDescriptor.watched (d : ServiceDescriptor) (network : String) : Option PatternSet :=
  if d.kind = .lnd then some (.neutrino (network == "simnet")) else none

namespace Fleet

/-- Adds a handle on a container and returns its place. -/
def addHandle (f : Fleet) (container : String) : Nat × Fleet :=
  (f.handles.length, { f with handles := f.handles ++ [{ name := container }] })

/-- The services built so far that a service sees, each once, in the order of their names. -/
def visiblePeers (f : Fleet) (d : ServiceDescriptor) : List (String × Nat) :=
  Json.sortMembers (d.peers.filterMap fun peer =>
    (f.placeOf? peer).map fun place => (peer, place))

/-- Adds a service with its clients and, where its log is watched, its watcher.  `probe` gets the
place of the first client. -/
def placeService (f : Fleet) (d : ServiceDescriptor) (clients : List Client)
    (probe : Nat → ServiceProbe) (patterns : Option PatternSet) (callTimeout : Nat) : Fleet :=
  let peers := f.visiblePeers d
  let (handle, f) := f.addHandle d.container
  let watchers := (patterns.map fun patterns =>
    ({ handle, it := { patterns } } : Placed Watcher)).toList
  let watcher := if watchers.isEmpty then none else some f.watchers.length
  { f with
    clients := f.clients ++ clients.map fun it => { handle, it }
    watchers := f.watchers ++ watchers
    services := f.services ++
      [{ descriptor := d, handle, probe := probe f.clients.length, watcher, peers, callTimeout }] }

def addService (f : Fleet) (options : ServiceOptions) (d : ServiceDescriptor) :
    Except ConfigError Fleet := do
  d.validateRpc
  let clients := (← d.dialers).map fun (_, dialer) =>
    { dialer, dialLoop := { policy := options.policy } }
  return f.placeService d clients d.probeAt (d.watched options.network) options.callTimeout

/-- Adds a service whose backend is scripted, or that has none. -/
def addScripted (f : Fleet) (d : ServiceDescriptor) (outcome : Option ScriptedOutcome)
    (patterns : Option PatternSet) : Fleet :=
  let probe := match outcome with
    | some outcome => ServiceProbe.scripted outcome 0 0
    | none => .none
  f.placeService d [] (fun _ => probe) patterns 0

def build (f : Fleet) (options : ServiceOptions) (services : List ServiceDescriptor) :
    Except ConfigError Fleet := do
  (← dependencyOrder services).foldlM (fun f d => f.addService options d) f

def ofConfig (f : Fleet) (c : Config) : Except ConfigError Fleet := do
  let f ← f.build c.serviceOptions c.services
  return { f with statusTimeout := c.settings.statusTimeout * 1000 }

end Fleet

end FleetWatch
