import FleetWatch.Calendar.Rfc3339
import FleetWatch.Container.Engine
import FleetWatch.Json.Fields
/-!
Engines that a document describes.

A scripted engine is described by its answers.  An engine in memory is described by the containers
that it starts with, and is changed by documents that say what to `do` with which `container`.
-/

namespace FleetWatch

/-- The state of a container in a document; it runs unless the document says otherwise. -/
def LifecycleState.ofJson (j : Json) : LifecycleState :=
  ofName (j.text "state" "running")

def EngineEvent.ofJson (j : Json) : EngineEvent :=
  { kind := .ofAction (j.text "kind"), containerId := j.text "container_id"
    containerName := j.text? "container_name" }

/-- What a command prints, in a document. -/
def ExecOutput.ofJson (j : Json) : ExecOutput :=
  ⟨j.text "output", j.integer "exit_code"⟩

namespace Script

/-- A failure in a document, by its name. -/
def Fault.ofJson (j : Json) : Fault :=
  let reason := j.text "reason"
  match j.text "error" with
  | "NotFound" => .notFound
  | "DockerNotAvailable" => .notAvailable reason
  | "ExecFailed" => .execFailed reason
  | "Cancelled" => .cancelled
  | _ => .engine reason

/-- A failure, or what `read` makes of the document. -/
def answerOfJson {α : Type} (read : Json → α) (j : Json) : Except Fault α :=
  if (j.field? "error").isSome then .error (Fault.ofJson j) else .ok (read j)

/-- How a scripted stream goes on `then`. -/
def Ending.ofJson (j : Json) : Ending :=
  match j.field? "then" with
  | some (.string "open") => .silent
  | some (.object ms) => .failing (Fault.ofJson (.object ms))
  | _ => .over

/-- What an inspection shows.  The engine fills in the name. -/
def snapshotOfJson (j : Json) : Snapshot :=
  { id := j.text "id" "id", name := "", state := .ofJson j, env := j.texts "env"
    startedAt := startTime? (j.text? "started_at") }

def AttachScript.ofJson (j : Json) : AttachScript :=
  { chunks := (j.items "chunks").map Json.toBytes, ending := .ofJson j
    inputClosed := j.flag "stdin_closed" }

def Engine.ofJson (wall : Instant) (j : Json) : Engine :=
  { wall
    inspections := (j.items "inspects").map (answerOfJson snapshotOfJson)
    logReplies := (j.items "log_replies").map
      (answerOfJson fun r => (r.texts "lines", Ending.ofJson r))
    stored := (j.items "logs").map fun l =>
      ({ wall with secs := wall.secs - l.integer "age_secs" }, l.text "line")
    exec := answerOfJson ExecOutput.ofJson (j.child "exec")
    attachment := (j.field? "attach").map AttachScript.ofJson
    eventReplies := (j.items "event_replies").map
      (answerOfJson fun r => ((r.items "events").map EngineEvent.ofJson, Ending.ofJson r)) }

end Script

namespace Memory.Engine

/-- The engine with one more container. -/
def addFromJson (e : Engine) (j : Json) : Engine :=
  let name := j.text "name"
  let added := e.add name (.ofJson j) (j.texts "env")
  (added.pushLines name (j.texts "logs")).change name fun c =>
    { c with exec := .ofJson (j.child "exec") }

/-- An engine with containers, at a time. -/
def ofJson (wall : Instant) (containers : List Json) : Engine :=
  containers.foldl addFromJson { wall }

/-- What a document says to do with a container. -/
def act? (e : Engine) (container : String) (j : Json) : Option Engine :=
  let entry (f : Entry → Entry) := some (e.change container f)
  match j.text "do" with
  | "add" => some (e.add container (.ofJson j) (j.texts "env"))
  | "remove" => some (e.remove container)
  | "set_state" => some (e.setState container (.ofJson j))
  | "set_env" => entry fun c => { c with env := j.texts "env" }
  | "fail_inspect" => entry fun c => { c with inspectFault := some (j.text "reason") }
  | "hang_inspect" => entry fun c => { c with inspectHangs := true }
  | "push_logs" => some (e.pushLines container (j.texts "lines"))
  | "push_many" =>
    some (e.pushLines container
      ((List.range (j.count "count")).map fun i => j.text "line" ++ toString i))
  | "set_exec" => entry fun c => { c with exec := .ofJson j }
  | "emit" => some (e.emit container (.ofAction (j.text "kind")))
  | "fail_events" => some (e.failEvents (j.text "reason"))
  | _ => none

end Memory.Engine

end FleetWatch
