import FleetWatch.Container.Feed
import FleetWatch.Container.LogWindow
/-!
A container engine that answers from a script.

Successive questions of a kind get successive answers, whatever container they are about.  The last
answer to an inspection repeats.  When the scripted logs are used up, the stored lines since the
requested time answer, however few of them were asked for.
-/

namespace FleetWatch

namespace Script

/-- A scripted failure; the container that is asked about completes it. -/
inductive Fault where
  | notFound
  | notAvailable (reason : String)
  | engine (reason : String)
  | execFailed (reason : String)
  | cancelled
deriving Repr, DecidableEq, Inhabited

/-- The failure of an operation on a container. -/
def Fault.on (name : String) : Fault → ContainerError
  | .notFound => .notFound name
  | .notAvailable reason => .notAvailable reason
  | .engine reason => .engine name reason
  | .execFailed reason => .execFailed name reason
  | .cancelled => .cancelled name

/-- A scripted answer, as an answer about a container. -/
def answerOn {α : Type} (name : String) : Except Fault α → Except ContainerError α
  | .ok a => .ok a
  | .error f => .error (f.on name)

/-- How a scripted stream goes on after its items. -/
inductive Ending where
  | over
  | silent
  | failing (fault : Fault)
deriving Repr, DecidableEq, Inhabited

def feed {α : Type} (name : String) (items : List α) : Ending → Feed α
  | .over => { items := items.map .ok, rest := .over }
  | .silent => { items := items.map .ok, rest := .silent }
  | .failing f => { items := items.map .ok ++ [.error (f.on name)], rest := .over }

structure AttachScript where
  chunks : List (List UInt8)
  ending : Ending
  inputClosed : Bool
deriving Repr, Inhabited

structure Engine where
  wall : Instant
  inspections : List (Except Fault Snapshot) := []
  logReplies : List (Except Fault (List String × Ending)) := []
  stored : List (Instant × String) := []
  exec : Except Fault ExecOutput := .ok ⟨"", 0⟩
  attachment : Option AttachScript := none
  eventReplies : List (Except Fault (List EngineEvent × Ending)) := []
  inspects : Nat := 0
  logRequests : List LogRequest := []
  commands : List (List String) := []
  eventSubscriptions : Nat := 0
deriving Inhabited

namespace Engine

def inspect (e : Engine) (name : String) : Reply Snapshot × Engine :=
  let e := { e with inspects := e.inspects + 1 }
  match e.inspections with
  | [] => (.answer (.error (.notFound name)), e)
  | [last] => (.answer ((answerOn name last).map fun s => { s with name }), e)
  | next :: rest =>
    (.answer ((answerOn name next).map fun s => { s with name }), { e with inspections := rest })

def logs (e : Engine) (name : String) (request : LogRequest) :
    Except ContainerError (Feed String) × Engine :=
  let e := { e with logRequests := e.logRequests ++ [request] }
  match e.logReplies with
  | reply :: rest =>
    ((answerOn name reply).map fun (lines, ending) => feed name lines ending,
     { e with logReplies := rest })
  | [] =>
    let kept := (e.stored.filter fun l => request.since.unix ≤ l.1.secs).map Prod.snd
    (.ok (feed name kept (if request.follow then .silent else .over)), e)

def run (e : Engine) (name : String) (command : List String) :
    Except ContainerError ExecOutput × Engine :=
  (answerOn name e.exec, { e with commands := e.commands ++ [command] })

def attach (e : Engine) (name : String) : Except ContainerError Attachment :=
  match e.attachment with
  | none => .error (.notFound name)
  | some a =>
    .ok
      { execId := "exec-s"
        output := feed name a.chunks a.ending
        echoes := false
        inputClosed := a.inputClosed }

def subscribe (e : Engine) : Except ContainerError (Feed EngineEvent) × Engine :=
  let e := { e with eventSubscriptions := e.eventSubscriptions + 1 }
  match e.eventReplies with
  | reply :: rest =>
    ((answerOn "events" reply).map fun (events, ending) => feed "events" events ending,
     { e with eventReplies := rest })
  | [] => (.ok { items := [], rest := .silent }, e)

end Engine

end Script

end FleetWatch
