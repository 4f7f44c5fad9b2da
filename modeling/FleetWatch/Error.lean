import FleetWatch.Calendar.Span
/-!
What can go wrong, as causes, and the text of each.

A failure keeps what a reader needs to name it.  `RpcError.isUnreachable` separates a backend that
is not there yet from one that answered with a failure; the status of a service depends on it.
-/

namespace FleetWatch

/-- Why a file could not be read. -/
inductive FileFault where
  | notFound
  | isDirectory
  | notText
deriving Repr, DecidableEq, Inhabited

def FileFault.message : FileFault → String
  | .notFound => "No such file or directory (os error 2)"
  | .isDirectory => "Is a directory (os error 21)"
  | .notText => "stream did not contain valid UTF-8"

/-- Why a configuration is refused. -/
inductive ConfigError where
  | missingRequired (key hint : String)
  | invalidValue (key reason : String)
  | parseError (path reason : String)
  | invalidService (service reason : String)
  | dependencyCycle (services : List String)
  | unreadable (path : String) (fault : FileFault)
deriving Repr, DecidableEq, Inhabited

def ConfigError.message : ConfigError → String
  | .missingRequired key hint => "Missing required configuration: " ++ key ++ ". " ++ hint
  | .invalidValue key reason => "Invalid configuration value for " ++ key ++ ": " ++ reason
  | .parseError path reason => "Failed to parse " ++ path ++ ": " ++ reason
  | .invalidService service reason =>
    "Service '" ++ service ++ "' is misconfigured: " ++ reason
  | .dependencyCycle services =>
    "Dependency cycle between services: " ++ ", ".intercalate services
  | .unreadable path fault => "I/O error reading " ++ path ++ ": " ++ fault.message

/-- Why an operation on a container failed. -/
inductive ContainerError where
  | notFound (name : String)
  | notAvailable (reason : String)
  | engine (name reason : String)
  | execFailed (name reason : String)
  | cancelled (name : String)
deriving Repr, DecidableEq, Inhabited

def ContainerError.message : ContainerError → String
  | .notFound name => "No such container: " ++ name
  | .notAvailable reason => "Docker not available: " ++ reason
  | .engine name reason => "Container runtime error for '" ++ name ++ "': " ++ reason
  | .execFailed name reason => "Exec in '" ++ name ++ "' failed: " ++ reason
  | .cancelled name => "Operation on '" ++ name ++ "' was cancelled"

/-- Whether the engine has no such container. -/
def ContainerError.isNotFound : ContainerError → Bool
  | .notFound _ => true
  | _ => false

/-- Why a question to a backend got no answer. -/
inductive RpcError where
  | noClientYet
  | credentialsUnavailable (reason : String)
  | connectFailed (endpoint reason : String)
  | timeout (ms : Nat)
  | backend (code : Option Int) (text : String)
  | invalidResponse (endpoint reason : String)
  | permanentlyFailed (attempts : Nat)
  | closed
deriving Repr, DecidableEq, Inhabited

/-- The failure in words; a backend's own words are kept as they are. -/
def RpcError.message : RpcError → String
  | .noClientYet => "no client yet"
  | .credentialsUnavailable reason => "credentials unavailable: " ++ reason
  | .connectFailed endpoint reason => "failed to connect to " ++ endpoint ++ ": " ++ reason
  | .timeout ms => "RPC call timed out after " ++ Span.text ms
  | .backend _ text => text
  | .invalidResponse endpoint reason => "invalid response from " ++ endpoint ++ ": " ++ reason
  | .permanentlyFailed attempts =>
    "giving up after " ++ toString attempts ++ " connection attempts"
  | .closed => "RPC client closed"

/-- Whether the backend is not there yet. -/
def RpcError.isUnreachable : RpcError → Bool
  | .noClientYet => true
  | .credentialsUnavailable _ => true
  | .connectFailed _ _ => true
  | _ => false

/-- Why a service has no status. -/
inductive StatusError where
  | container (cause : ContainerError)
  | rpc (cause : RpcError)
  | dependency (service peer reason : String)
  | timeout (service : String) (ms : Nat)
deriving Repr, DecidableEq, Inhabited

def StatusError.message : StatusError → String
  | .container cause => cause.message
  | .rpc cause => cause.message
  | .dependency service peer reason =>
    "cannot resolve dependency '" ++ peer ++ "' of '" ++ service ++ "': " ++ reason
  | .timeout service ms => "status of '" ++ service ++ "' timed out after " ++ Span.text ms

/-- Why a setup milestone was not published. -/
inductive SetupError where
  | unreadable (path : String) (fault : FileFault)
  | closed
deriving Repr, DecidableEq, Inhabited

def SetupError.message : SetupError → String
  | .unreadable path fault => "failed to read setup log " ++ path ++ ": " ++ fault.message
  | .closed => "setup progress broadcaster is shut down"

/-- A failure of the whole program's interface. -/
inductive FleetError where
  | config (cause : ConfigError)
  | container (cause : ContainerError)
  | rpc (cause : RpcError)
  | status (cause : StatusError)
  | setup (cause : SetupError)
  | serviceNotFound (name : String)
deriving Repr, DecidableEq, Inhabited

def FleetError.message : FleetError → String
  | .config cause => "Configuration error: " ++ cause.message
  | .container cause => "Container error: " ++ cause.message
  | .rpc cause => "RPC error: " ++ cause.message
  | .status cause => cause.message
  | .setup cause => "Setup progress error: " ++ cause.message
  | .serviceNotFound name => "service not found: " ++ name

end FleetWatch
