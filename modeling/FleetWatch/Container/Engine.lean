import FleetWatch.Container.Memory
import FleetWatch.Container.Script
/-!
The container engine that the rest of the program talks to.
-/

namespace FleetWatch

/-- A container engine: in memory, or scripted. -/
inductive Engine where
  | memory (engine : Memory.Engine)
  | script (engine : Script.Engine)
deriving Inhabited

namespace Engine

/-- The time that the engine stamps things with. -/
def wall : Engine → Instant
  | .memory e => e.wall
  | .script e => e.wall

def inspect (name : String) : Engine → Reply Snapshot × Engine
  | .memory e => let (r, e) := e.inspect name; (r, .memory e)
  | .script e => let (r, e) := e.inspect name; (r, .script e)

def inspects : Engine → Nat
  | .memory e => e.inspects
  | .script e => e.inspects

def logs (name : String) (request : LogRequest) :
    Engine → Except ContainerError (Feed String) × Engine
  | .memory e => (e.logs name request, .memory e)
  | .script e => let (r, e) := e.logs name request; (r, .script e)

def pullLine (feed : Feed String) : Engine → Pull (Except ContainerError String) × Feed String
  | .memory e => feed.pull e.liveLine
  | .script _ => feed.pull fun _ _ => (none, true)

def exec (name : String) (command : List String) :
    Engine → Except ContainerError ExecOutput × Engine
  | .memory e => (e.exec name, .memory e)
  | .script e => let (r, e) := e.run name command; (r, .script e)

def attach (name : String) : Engine → Except ContainerError Attachment × Engine
  | .memory e => let (r, e) := e.attach name; (r, .memory e)
  | .script e => (e.attach name, .script e)

def subscribe : Engine → Except ContainerError (Feed EngineEvent) × Engine
  | .memory e => let (f, e) := e.subscribe; (.ok f, .memory e)
  | .script e => let (r, e) := e.subscribe; (r, .script e)

def eventSubscriptions : Engine → Nat
  | .memory e => e.eventSubscriptions
  | .script e => e.eventSubscriptions

def pullEvent (feed : Feed EngineEvent) :
    Engine → Pull (Except ContainerError EngineEvent) × Feed EngineEvent
  | .memory e => feed.pull e.liveEvent
  | .script _ => feed.pull fun _ _ => (none, true)

/-- The engine with its containers in memory changed. -/
def onMemory (f : Memory.Engine → Memory.Engine) : Engine → Engine
  | .memory e => .memory (f e)
  | .script e => .script e

end Engine

end FleetWatch
