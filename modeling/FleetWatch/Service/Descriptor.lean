import FleetWatch.Error
import FleetWatch.Text.Digit
/-!
The description of a service, as it stands in the configuration.

The kind of a service chooses how its health is asked for; kinds without a backend of their own are
judged by their container alone.  A service sees the services that it depends on and the one whose
environment tells its mode, and no others.
-/

namespace FleetWatch

inductive ServiceKind where
  | bitcoind
  | litecoind
  | geth
  | lnd
  | xud
  | connext
  | boltz
  | arby
  | webui
  | proxy
  | generic
deriving Repr, DecidableEq, Inhabited

namespace ServiceKind

def name : ServiceKind → String
  | .bitcoind => "bitcoind"
  | .litecoind => "litecoind"
  | .geth => "geth"
  | .lnd => "lnd"
  | .xud => "xud"
  | .connext => "connext"
  | .boltz => "boltz"
  | .arby => "arby"
  | .webui => "webui"
  | .proxy => "proxy"
  | .generic => "generic"

def all : List ServiceKind :=
  [.bitcoind, .litecoind, .geth, .lnd, .xud, .connext, .boltz, .arby, .webui, .proxy, .generic]

def ofName? (text : String) : Option ServiceKind :=
  all.find? fun k => k.name == text

/-- The kind with a name in any case, or the refusal. -/
def parse (text : String) : Except String ServiceKind :=
  match ofName? (Text.asciiLower text) with
  | some k => .ok k
  | none => .error ("unknown service kind '" ++ Text.asciiLower text ++ "'")

/-- Kinds that are judged by their container alone. -/
def isContainerOnly : ServiceKind → Bool
  | .arby | .webui | .proxy | .generic => true
  | _ => false

/-- The port of the backend when none is configured. -/
def defaultPort? : ServiceKind → Option Nat
  | .bitcoind => some 18332
  | .litecoind => some 19332
  | .geth => some 8545
  | .lnd => some 8080
  | .connext => some 5040
  | _ => none

theorem ofName?_name (k : ServiceKind) : ofName? k.name = some k := by
  cases k <;> decide

end ServiceKind

/-- How a backend is provided: in its own container, by a node run elsewhere, or by a light client
or public provider. -/
inductive Mode where
  | native
  | external
  | light
deriving Repr, DecidableEq, Inhabited

namespace Mode

def name : Mode → String
  | .native => "native"
  | .external => "external"
  | .light => "light"

def ofName? (text : String) : Option Mode :=
  [native, external, light].find? fun m => m.name == text

end Mode

/-- Tells a service's mode by a variable of a peer's container. -/
structure ModeProbe where
  peer : String
  env : String
  nativeHost : String
  lightEndpoints : List String
deriving Repr, DecidableEq, Inhabited

/-- How a backend is reached.  Which fields matter depends on the kind. -/
structure RpcSettings where
  host : String
  port : Option Nat := none
  /-- Ports by chain, in the order of the chains' names. -/
  ports : List (String × Nat) := []
  tlsCert : Option String := none
  macaroon : Option String := none
  username : Option String := none
  password : Option String := none
  cookieFile : Option String := none
  cli : Option String := none
deriving Repr, DecidableEq, Inhabited

structure ServiceDescriptor where
  name : String
  container : String
  kind : ServiceKind
  disabled : Bool := false
  mode : Mode := .native
  dependsOn : List String := []
  rpc : RpcSettings
  modeProbe : Option ModeProbe := none
deriving Repr, DecidableEq, Inhabited

namespace ServiceDescriptor

/-- The services that this one sees, in the order they are named. -/
def peers (d : ServiceDescriptor) : List String :=
  d.dependsOn ++ (d.modeProbe.map ModeProbe.peer).toList

/-- The port of the backend, by the configuration or by its kind. -/
def port? (d : ServiceDescriptor) : Option Nat :=
  d.rpc.port.or d.kind.defaultPort?

/-- Why a service is refused that has no port and whose kind has none. -/
def noPortReason : String := "rpc.port is required"

/-- The port of the backend, or the refusal of a service without one. -/
def port (d : ServiceDescriptor) : Except ConfigError Nat :=
  match d.port? with
  | some port => .ok port
  | none => .error (.invalidService d.name noPortReason)

/-- What keeps a service's control settings from being used, if anything. -/
def rpcFault? (d : ServiceDescriptor) : Option String :=
  match d.kind with
  | .bitcoind | .litecoind =>
    if d.port?.isNone then some noPortReason
    else if d.rpc.username.isSome != d.rpc.password.isSome then
      some "rpc.username and rpc.password must be set together"
    else none
  | .geth | .connext => if d.port?.isNone then some noPortReason else none
  | .lnd =>
    if d.port?.isNone then some noPortReason
    else if d.rpc.tlsCert.isNone then some "rpc.tls_cert is required"
    else if d.rpc.macaroon.isNone then some "rpc.macaroon is required"
    else none
  | .boltz => if d.rpc.ports.isEmpty then some "rpc.ports needs at least one chain" else none
  | .xud | .arby | .webui | .proxy | .generic => none

/-- Accepts the control settings of a service or says what is wrong with them. -/
def validateRpc (d : ServiceDescriptor) : Except ConfigError Unit :=
  match d.rpcFault? with
  | some reason => .error (.invalidService d.name reason)
  | none => .ok ()

end ServiceDescriptor

/-- What is listed of a service. -/
structure ServiceSummary where
  name : String
  container : String
  kind : ServiceKind
  disabled : Bool
  mode : Mode
  dependsOn : List String
deriving Repr, DecidableEq, Inhabited

/-- What is listed of a service with a description. -/
def ServiceDescriptor.summary (d : ServiceDescriptor) : ServiceSummary :=
  { name := d.name, container := d.container, kind := d.kind, disabled := d.disabled,
    mode := d.mode, dependsOn := d.dependsOn }

/-- The container of a service that names none. -/
def defaultContainerName (network service : String) : String :=
  network ++ "_" ++ service ++ "_1"

/-- The endpoints that count as a light client where the configuration lists none. -/
def defaultLightEndpoints (network : String) : List String :=
  if network = "testnet" then
    ["http://eth.kilrau.com:52041",
     "http://michael1011.at:8546",
     "http://gethxudxv2k4pv5t5a5lswq2hcv3icmj3uwg7m2n2vuykiyv77legiad.onion:8546"]
  else if network = "mainnet" then
    ["http://eth.kilrau.com:41007",
     "http://michael1011.at:8545",
     "http://gethxudxv2k4pv5t5a5lswq2hcv3icmj3uwg7m2n2vuykiyv77legiad.onion:8545"]
  else []

end FleetWatch
