import FleetWatch.Container.Feed
import FleetWatch.Flow.Channel
import FleetWatch.Text.Lossy
/-!
An interactive command in a container.

A pump passes the command's output on, chunk by chunk, into a channel of `outputCapacity` chunks.
Cancelling the session stops the pump when it next waits for output, fails writes and ends reads.
Closing cancels the session and waits for the pump.
-/

namespace FleetWatch

namespace Session

def outputCapacity : Nat := 64

/-- How many bytes an echoing command takes in at once. -/
def echoChunk : Nat := 1024

/-- How many chunks an echoing command may be ahead of the pump. -/
def echoCapacity : Nat := 16

inductive Pump where
  | reading
  | passing (chunk : List UInt8)
  | stopped
deriving Repr, DecidableEq, Inhabited

/-- Bytes in pieces of at most `size`, which is positive. -/
def pieces (size : Nat) (hsize : 0 < size) (bytes : List UInt8) : List (List UInt8) :=
  match bytes with
  | [] => []
  | b :: rest => (b :: rest).take size :: pieces size hsize ((b :: rest).drop size)
termination_by bytes.length
decreasing_by simp only [List.length_drop, List.length_cons]; omega

/-- What reading a session gives. -/
inductive Chunk where
  | bytes (chunk : List UInt8)
  | pending
  | ended
deriving Repr, DecidableEq, Inhabited

end Session

structure Session where
  execId : String
  container : String
  feed : Feed (List UInt8)
  echoes : Bool
  inputClosed : Bool
  pump : Session.Pump := .reading
  output : Channel (List UInt8) := { capacity := Session.outputCapacity }
  isCancelled : Bool := false
deriving Inhabited

namespace Session

def start (container : String) (a : Attachment) : Session :=
  { execId := a.execId, container, feed := a.output, echoes := a.echoes
    inputClosed := a.inputClosed }

def stopPump (s : Session) : Session :=
  { s with pump := .stopped, output := s.output.finish }

/-- The pump takes in the next chunk of output; `none` while there is none. -/
def pull? (s : Session) : Option Session :=
  match s.feed.pull fun _ _ => (none, true) with
  | (.pending, _) => none
  | (.item (.ok chunk), feed) => some { s with feed, pump := .passing chunk }
  | (.item (.error _), feed) => some { s with feed }.stopPump
  | (.over, _) => some s.stopPump

/-- The pump passes a chunk on; `none` while the channel is full. -/
def pass? (s : Session) (chunk : List UInt8) : Option Session :=
  if s.output.readerGone then some s.stopPump
  else if s.output.hasRoom then
    some { s with pump := .reading, output := s.output.send chunk }
  else none

/-- The next thing that the pump does, or `none` while it has to wait. -/
def step? (s : Session) : Option Session :=
  match s.pump with
  | .stopped => none
  | .reading => if s.isCancelled then some s.stopPump else s.pull?
  | .passing chunk => s.pass? chunk

def write (s : Session) (bytes : List UInt8) : Except ContainerError Unit × Session :=
  if s.isCancelled then (.error (.cancelled s.container), s)
  else if s.inputClosed then
    (if bytes.isEmpty then .ok () else .error (.execFailed s.container "broken pipe"), s)
  else if s.echoes then
    let chunks := pieces echoChunk (by decide) bytes
    (.ok (), { s with feed := { s.feed with items := s.feed.items ++ chunks.map .ok } })
  else (.ok (), s)

def read (s : Session) : Chunk × Session :=
  if s.isCancelled then (.ended, s)
  else
    match s.output.items with
    | chunk :: rest => (.bytes chunk, { s with output := { s.output with items := rest } })
    | [] => (if s.output.senderGone then .ended else .pending, s)

def cancel (s : Session) : Session :=
  { s with isCancelled := true }

/-- Whether the pump has ended, which is what closing waits for. -/
def hasStopped (s : Session) : Bool :=
  s.pump == .stopped

end Session

end FleetWatch
