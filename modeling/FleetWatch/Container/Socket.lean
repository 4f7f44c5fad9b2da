import FleetWatch.Error
/-!
Finding the engine's socket.

The configured socket is asked first, then those at the usual places that are there.  The first that
answers is used; if none does, the failure of the last one that was asked is told.
-/

namespace FleetWatch

inductive SocketState where
  | absent
  | answering
  | refusing (status : Nat) (body : String)
deriving Repr, DecidableEq, Inhabited

/-- A place where the engine's socket may be. -/
structure EngineSocket where
  name : String
  state : SocketState
deriving Repr, DecidableEq, Inhabited

namespace EngineSocket

/-- Why a socket that is not there is not used. -/
def absentReason : String := "socket not found"

/-- Why a socket is not used. -/
def refusal? (s : EngineSocket) : Option String :=
  match s.state with
  | .absent => some absentReason
  | .answering => none
  | .refusing status body =>
    some ("Docker responded with status code " ++ toString status ++ ": " ++ body)

/-- Whether anything is at the socket's place. -/
def isThere (s : EngineSocket) : Bool :=
  s.state != .absent

/-- The first of some sockets that answers, or the last reason why one does not. -/
def choose (reason : String) : List EngineSocket → Except ContainerError EngineSocket
  | [] => .error (.notAvailable reason)
  | s :: rest =>
    match s.refusal? with
    | none => .ok s
    | some reason => choose reason rest

/-- The sockets that are asked: up to the first that answers. -/
def asked : List EngineSocket → List EngineSocket
  | [] => []
  | s :: rest => if s.state = .answering then [s] else s :: asked rest

/-- The sockets in the order in which they are asked. -/
def candidates (configured : EngineSocket) (usual : List EngineSocket) : List EngineSocket :=
  configured :: usual.filter isThere

def connect (configured : EngineSocket) (usual : List EngineSocket) :
    Except ContainerError EngineSocket :=
  choose absentReason (candidates configured usual)

end EngineSocket

end FleetWatch
