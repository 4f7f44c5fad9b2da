import FleetWatch.Calendar.Rfc3339
import FleetWatch.Text.Digit
import FleetWatch.Text.Search
/-!
What is known of a container.

A snapshot is one answer of the engine about one container; it is replaced as a whole and never
changed.  Its environment keeps the engine's order, and the first entry of a name counts.
-/

namespace FleetWatch

/-- The states of a container's life.  `missing` stands for a container the engine does not have,
`unknown` for a state it does not name. -/
inductive LifecycleState where
  | missing
  | created
  | running
  | paused
  | restarting
  | exited
  | dead
  | unknown
deriving Repr, DecidableEq, Inhabited

namespace LifecycleState

def name : LifecycleState → String
  | .missing => "missing"
  | .created => "created"
  | .running => "running"
  | .paused => "paused"
  | .restarting => "restarting"
  | .exited => "exited"
  | .dead => "dead"
  | .unknown => "unknown"

/-- The states that have a name of their own. -/
def named : List LifecycleState :=
  [.missing, .created, .running, .paused, .restarting, .exited, .dead]

/-- The state with a name in any case; every other text is `unknown`. -/
def ofName (text : String) : LifecycleState :=
  (named.find? fun s => s.name == Text.asciiLower text).getD .unknown

/-- Whether the container runs. -/
def isRunning (s : LifecycleState) : Bool :=
  s == .running

theorem ofName_name (s : LifecycleState) : ofName s.name = s := by
  cases s <;> decide

end LifecycleState

/-- The name and value of an environment entry; `none` for an entry without an equals sign. -/
def splitEntry? (entry : String) : Option (String × String) :=
  (Text.splitOnce? ['='] entry.toList).map fun (k, v) => (String.ofList k, String.ofList v)

/-- The value of the first entry for a name. -/
def envValue? (env : List String) (key : String) : Option String :=
  env.findSome? fun entry =>
    match splitEntry? entry with
    | some (k, v) => if k = key then some v else none
    | none => none

/-- The variables of an environment, each with the value that counts, in the order of their first
entries. -/
def envPairs (env : List String) : List (String × String) :=
  (env.filterMap splitEntry?).foldl
    (fun kept pair => if kept.any (fun p => p.1 == pair.1) then kept else kept ++ [pair]) []

structure Snapshot where
  id : String
  name : String
  state : LifecycleState
  env : List String
  startedAt : Option Instant
deriving Repr, DecidableEq, Inhabited

/-- The value of a variable in the container's environment. -/
def Snapshot.getenv (s : Snapshot) (key : String) : Option String :=
  envValue? s.env key

/-- A container name without the slashes in front of it. -/
def normalizeName (name : String) : String :=
  String.ofList (name.toList.dropWhile (· == '/'))

/-- When a container was started.  The engine writes the first day of year 1 for a container that
never was. -/
def startTime? (raw : Option String) : Option Instant := do
  let raw ← raw
  if "0001-01-01".toList.isPrefixOf raw.toList then none else Rfc3339.parse? raw

inductive EventKind where
  | create
  | start
  | die
  | destroy
  | other (action : String)
deriving Repr, DecidableEq, Inhabited

/-- The event that an action of the engine is. -/
def EventKind.ofAction (action : String) : EventKind :=
  if action = "create" then .create
  else if action = "start" then .start
  else if action = "die" then .die
  else if action = "destroy" then .destroy
  else .other action

def EventKind.name : EventKind → String
  | .create => "create"
  | .start => "start"
  | .die => "die"
  | .destroy => "destroy"
  | .other _ => "other"

structure EngineEvent where
  kind : EventKind
  containerId : String
  containerName : Option String
deriving Repr, DecidableEq, Inhabited

/-- What a command printed, standard and error output together, and how it ended. -/
structure ExecOutput where
  output : String
  exitCode : Int
deriving Repr, DecidableEq, Inhabited

/-- Whether the command ended well. -/
def ExecOutput.success (o : ExecOutput) : Bool :=
  o.exitCode == 0

end FleetWatch
