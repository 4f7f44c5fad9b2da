import FleetWatch.Container.Feed
import FleetWatch.Container.LogWindow
import FleetWatch.Text.Digit
/-!
A container engine in memory.

Containers are known by name.  One that was never added, or was removed, is missing.  Followers of a
container's log see lines as they are added and may be `lineCapacity` lines behind; subscribers to
events may be `eventCapacity` events behind.
-/

namespace FleetWatch

namespace Memory

def lineCapacity : Nat := 256

def eventCapacity : Nat := 64

/-- A container.  A removed one is kept for the followers of its log. -/
structure Entry where
  uid : Nat
  name : String
  state : LifecycleState
  env : List String
  startedAt : Option Instant
  lines : List (Instant × String) := []
  exec : ExecOutput := ⟨"", 0⟩
  inspectFault : Option String := none
  inspectHangs : Bool := false
  isRemoved : Bool := false
deriving Repr, DecidableEq, Inhabited

/-- The engine.  Every line and every start happens at `wall`. -/
structure Engine where
  wall : Instant
  entries : List Entry := []
  events : List (Except ContainerError EngineEvent) := []
  nextId : Nat := 1
  inspects : Nat := 0
  eventSubscriptions : Nat := 0
deriving Inhabited

/-- Twelve hexadecimal digits of a number. -/
def idText (n : Nat) : String :=
  let digits := (Nat.toDigits 16 n)
  String.ofList (List.replicate (12 - digits.length) '0' ++ digits)

def Entry.id (c : Entry) : String :=
  idText c.uid

def Entry.snapshot (c : Entry) : Snapshot :=
  { id := c.id, name := c.name, state := c.state, env := c.env, startedAt := c.startedAt }

namespace Engine

def entry? (e : Engine) (name : String) : Option Entry :=
  e.entries.find? fun c => c.name == name && !c.isRemoved

/-- The engine with the container of a name changed, if there is one. -/
def change (e : Engine) (name : String) (f : Entry → Entry) : Engine :=
  { e with entries := e.entries.map fun c => if c.name = name ∧ !c.isRemoved then f c else c }

/-- Adds a container, or gives an existing one another state and environment. -/
def add (e : Engine) (name : String) (state : LifecycleState) (env : List String) : Engine :=
  let startedAt := if state.isRunning then some e.wall else none
  match e.entry? name with
  | some _ =>
    e.change name fun c => { c with state, env, startedAt := startedAt.or c.startedAt }
  | none =>
    { e with
      entries := e.entries ++ [{ uid := e.nextId, name, state, env, startedAt }]
      nextId := e.nextId + 1 }

def remove (e : Engine) (name : String) : Engine :=
  e.change name fun c => { c with isRemoved := true }

/-- Gives a container another state; one that starts to run has a new start time. -/
def setState (e : Engine) (name : String) (state : LifecycleState) : Engine :=
  e.change name fun c =>
    let startedAt :=
      if state.isRunning && !c.state.isRunning then some e.wall else c.startedAt
    { c with state, startedAt }

def pushLines (e : Engine) (name : String) (lines : List String) : Engine :=
  e.change name fun c => { c with lines := c.lines ++ lines.map fun l => (e.wall, l) }

/-- Publishes an event of a container.  For a removed one the name stands for the id. -/
def emit (e : Engine) (name : String) (kind : EventKind) : Engine :=
  let containerId := ((e.entry? name).map Entry.id).getD name
  { e with events := e.events ++ [.ok { kind, containerId, containerName := some name }] }

def failEvents (e : Engine) (reason : String) : Engine :=
  { e with events := e.events ++ [.error (.engine "events" reason)] }

def inspect (e : Engine) (name : String) : Reply Snapshot × Engine :=
  let reply := match e.entry? name with
    | none => .answer (.error (.notFound name))
    | some c =>
      match c.inspectFault with
      | some reason => .answer (.error (.engine name reason))
      | none => if c.inspectHangs then .never else .answer (.ok c.snapshot)
  (reply, { e with inspects := e.inspects + 1 })

def logs (e : Engine) (name : String) (request : LogRequest) :
    Except ContainerError (Feed String) :=
  match e.entry? name with
  | none => .error (.notFound name)
  | some c =>
    let stored := (c.lines.filter fun l => request.since.unix ≤ l.1.secs).map Prod.snd
    .ok
      { items := (request.tail.take stored).map .ok
        rest := if request.follow then .live c.uid c.lines.length else .over }

/-- Lines of a followed log from a position on, and whether the log is over. -/
def liveLine (e : Engine) (uid position : Nat) :
    Option (Except ContainerError String × Nat) × Bool :=
  match e.entries.find? fun c => c.uid == uid with
  | none => (none, true)
  | some c =>
    ((pullLive lineCapacity c.lines position).map fun (l, next) => (.ok l.2, next), c.isRemoved)

/-- Events from a position on. -/
def liveEvent (e : Engine) (_source position : Nat) :
    Option (Except ContainerError EngineEvent × Nat) × Bool :=
  (pullLive eventCapacity e.events position, false)

/-- Runs a command, which prints what the container was told it prints. -/
def exec (e : Engine) (name : String) : Except ContainerError ExecOutput :=
  match e.entry? name with
  | none => .error (.notFound name)
  | some c => .ok c.exec

/-- Attaches to a command that prints what is written to it. -/
def attach (e : Engine) (name : String) : Except ContainerError Attachment × Engine :=
  match e.entry? name with
  | none => (.error (.notFound name), e)
  | some _ =>
    (.ok
      { execId := "exec-" ++ toString e.nextId
        output := { items := [], rest := .silent }
        echoes := true
        inputClosed := false },
     { e with nextId := e.nextId + 1 })

def subscribe (e : Engine) : Feed EngineEvent × Engine :=
  ({ items := [], rest := .live 0 e.events.length },
   { e with eventSubscriptions := e.eventSubscriptions + 1 })

end Engine

end Memory

end FleetWatch
