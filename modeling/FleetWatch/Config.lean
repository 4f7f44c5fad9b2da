import FleetWatch.Config.File
import FleetWatch.Registry.Order
import FleetWatch.Text.Lossy
/-!
The configuration of a run.

The network is settled first, then the settings, then each service in the order of the file, then
the order in which the services are built; the first fault found is the one reported.
-/

namespace FleetWatch

/-- How a service is built and its backend called; times are in milliseconds. -/
structure ServiceOptions where
  network : String := "testnet"
  retryDelay : Nat := 3000
  connectTimeout : Nat := 3000
  maxAttempts : Option Nat := none
  callTimeout : Nat := 3000
deriving Repr, DecidableEq, Inhabited

/-- A configuration that was accepted.  The services stand in the order in which they are built. -/
structure Config where
  network : String
  path : String
  settings : Settings
  services : List ServiceDescriptor
deriving Repr, DecidableEq, Inhabited

/-- The service that an entry describes on a network. -/
def ServiceEntry.descriptor (e : ServiceEntry) (network : String) :
    Except ConfigError ServiceDescriptor := do
  if (Text.trim e.name).isEmpty then
    throw (.invalidService e.name "name must not be empty")
  let d : ServiceDescriptor := {
    name := e.name
    container := e.container.getD (defaultContainerName network e.name)
    kind := e.kind
    disabled := e.disabled
    mode := e.mode
    dependsOn := e.dependsOn
    rpc := {
      host := e.host.getD e.name
      port := e.port
      ports := e.ports
      tlsCert := e.tlsCert
      macaroon := e.macaroon
      username := e.username
      password := e.password
      cookieFile := e.cookieFile
      cli := e.cli }
    modeProbe := e.modeProbe.map fun p => {
      peer := p.peer
      env := p.env
      nativeHost := p.nativeHost.getD e.name
      lightEndpoints := p.lightEndpoints.getD
        (if e.kind = .geth then defaultLightEndpoints network else []) } }
  d.validateRpc
  return d

namespace Config

/-- The network of a configuration that names none. -/
def defaultNetwork : String := "testnet"

/-- The file that is read when none is named. -/
def defaultPath : String := "dockwatch.toml"

def pathVariable : String := "DOCKWATCH_CONFIG"

/-- Whether a text can name a network: it is not empty and has no blank in it. -/
def isNetworkName (network : String) : Bool :=
  !network.isEmpty && !network.toList.any Text.isBlank

/-- The configuration that the contents of a file and an environment make. -/
def ofFile (file : ConfigFile) (path : String) (env : Environment) :
    Except ConfigError Config := do
  let network := (← env "DOCKWATCH_NETWORK").getD (file.network.getD defaultNetwork)
  if !isNetworkName network then
    throw (.invalidValue "network" ("'" ++ network ++ "' is not a network name"))
  let settings ← Settings.resolve file.settings network env
  let entries ← file.services.mapM fun e => e.descriptor network
  let services ← dependencyOrder entries
  return { network, path, settings, services }

/-- The configuration that the text of a file and an environment make. -/
def parse (text path : String) (env : Environment) : Except ConfigError Config :=
  match ConfigFile.parse text with
  | .error reason => .error (.parseError path reason)
  | .ok file => ofFile file path env

def serviceOptions (c : Config) : ServiceOptions :=
  { network := c.network
    retryDelay := c.settings.rpcRetryDelay * 1000
    connectTimeout := c.settings.rpcConnectTimeout * 1000
    maxAttempts := c.settings.rpcMaxAttempts
    callTimeout := c.settings.rpcCallTimeout * 1000 }

abbrev FileContents : Type := Except FileFault (List UInt8)

def load (path : String) (contents : FileContents) (env : Environment) :
    Except ConfigError Config :=
  match contents with
  | .error fault => .error (.unreadable path fault)
  | .ok bytes =>
    match Text.strictString? bytes with
    | none => .error (.unreadable path .notText)
    | some text => parse text path env

/-- The configuration of the file that the environment names, or of the default file. -/
def fromEnvironment (files : String → FileContents) (env : Environment) :
    Except ConfigError Config := do
  match ← env pathVariable with
  | some path => load path (files path) env
  | none =>
    match files defaultPath with
    | .error .notFound =>
      throw (.missingRequired pathVariable
        ("Set it to a service list, or create ./" ++ defaultPath))
    | contents => load defaultPath contents env

end Config

end FleetWatch
