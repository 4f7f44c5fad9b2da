import FleetWatch.Container.State
import FleetWatch.Json.Value
import FleetWatch.Text.Search
/-!
Status texts.

A report is a text and, for some backends, a document with details.  Some failures of a backend are
known to pass: their texts are listed in `transientErrors`, in the order in which they are looked
for, and shown as guidance.
-/

namespace FleetWatch

/-- The status of a service. -/
structure StatusReport where
  text : String
  detail : Option Json := none
deriving Repr, BEq, Inhabited

namespace StatusReport

def readyText : String := "Ready"

/-- A service that is ready. -/
def ready : StatusReport := { text := readyText }

/-- Whether a report says that the service is ready, and nothing else. -/
def isReady (r : StatusReport) : Bool :=
  r.text == readyText

end StatusReport

def startingText : String := "Starting..."

/-- The text of a backend whose wallet is locked. -/
def walletLockedText : String := "Wallet locked. Unlock with xucli unlock."

/-- The text of a service that uses a node run elsewhere. -/
def readyExternalText : String := "Ready (connected to external)"

/-- The text of a service that uses a light client. -/
def readyLightText : String := "Ready (light mode)"

/-- The text of a composite backend that has no channels yet. -/
def waitingForChannelsText : String := "Waiting for channels"

/-- What a component says while it has no channels. -/
def noChannelsMark : String := "has no active channels"

/-- Conditions of a backend that pass. -/
inductive BackendCondition where
  | walletLocked
  | starting
deriving Repr, DecidableEq, Inhabited

def BackendCondition.text : BackendCondition → String
  | .walletLocked => walletLockedText
  | .starting => startingText

/-- What a backend says in a condition that passes. -/
def transientErrors : List (String × BackendCondition) :=
  [("Wallet is encrypted", .walletLocked),
   ("wallet locked", .walletLocked),
   ("xud is locked", .walletLocked),
   ("no such file or directory, open '/root/.xud/tls.cert'", .starting),
   ("xud is starting", .starting)]

/-- The condition that an error text tells of. -/
def classifyError (message : String) : Option BackendCondition :=
  (transientErrors.find? fun entry => Text.contains message entry.1).map Prod.snd

/-- The text of a service whose container does not run.  A container that is missing because its
native service is disabled is no fault. -/
def containerStateText (state : LifecycleState) (disabled native : Bool) : String :=
  match state with
  | .missing => if disabled && native then "Disabled" else "Container missing"
  | other => "Container " ++ other.name

/-- The text of a backend that is not reachable yet. -/
def waitingFor (service : String) : String :=
  "Waiting for " ++ service ++ " to come up..."

/-- One status out of several.  A component without channels is told before the components that are
merely not ready, and those are listed in order. -/
def compositeStatus (components : List (String × String)) : String :=
  if components.all fun c => c.2 == StatusReport.readyText then StatusReport.readyText
  else if components.any fun c => Text.contains c.2 noChannelsMark then waitingForChannelsText
  else
    "Waiting for " ++ ", ".intercalate
      ((components.filter fun c => c.2 != StatusReport.readyText).map Prod.fst)

end FleetWatch
