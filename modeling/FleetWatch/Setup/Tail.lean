import FleetWatch.Container.Lines
import FleetWatch.Flow.Channel
import FleetWatch.Setup.Disk
/-!
Following a growing log.

A follower opens the file once it is there, reads it to its end and then looks again every
`pollInterval`.  A file that was replaced, removed or cut below what was read is opened again from
its start.  A line is delivered when it is complete; an unfinished line is dropped with the file it
was read from.  Only the first open starts at the offset that the follower was given.

Times are in milliseconds.
-/

namespace FleetWatch

namespace Tail

/-- How long a follower waits before it tries to open the file again. -/
def openRetryDelay : Nat := 1000

/-- How long a follower at the end of the file waits before it looks again. -/
def pollInterval : Nat := 250

/-- How many lines may wait for the reader. -/
def lineCapacity : Nat := 256

/-- How many bytes are read from a file at once. -/
def readSize : Nat := 8192

/-- An open file.  Bytes are read ahead: those that were read but not looked at stand in `ahead`,
and are kept whatever becomes of the file. -/
structure OpenFile where
  id : Nat
  /-- Where the next bytes are read from. -/
  next : Nat
  /-- How far the lines taken so far go. -/
  position : Nat
  ahead : List UInt8 := []
  /-- The bytes of the line being read. -/
  pending : List UInt8 := []
deriving Repr, DecidableEq, Inhabited

inductive Phase where
  | opening
  | retrying (due : Nat)
  | reading (file : OpenFile)
  | delivering (file : OpenFile) (line : String)
  | resting (file : OpenFile) (due : Nat)
  | stopped
deriving Repr, DecidableEq, Inhabited

/-- A follower with the lines that it delivered and nobody took yet. -/
structure Follower where
  phase : Phase := .opening
  /-- Where the first open starts; used up by it. -/
  offset : Nat
  lines : Channel String := { capacity := lineCapacity }
deriving Repr, DecidableEq, Inhabited

/-- What can fail without the follower's doing. -/
inductive Fault where
  /-- The path cannot be opened. -/
  | opening
  /-- The place to start from cannot be sought. -/
  | seeking
  /-- The file cannot be read on. -/
  | reading
  /-- The path cannot be looked at. -/
  | examining
deriving Repr, DecidableEq

/-- The bytes up to and with the first line feed, or all of them. -/
def nextPiece : List UInt8 → List UInt8
  | [] => []
  | b :: rest => if b = 10 then [b] else b :: nextPiece rest

namespace Follower

/-- The follower after it was told to stop or found nobody to deliver to. -/
def stop (f : Follower) : Follower :=
  { f with phase := .stopped, lines := f.lines.finish }

def openFile (f : Follower) (disk : Disk) (now : Nat) : Follower :=
  match disk.place with
  | .absent => { f with phase := .retrying (now + openRetryDelay) }
  | .directory => { f with phase := .retrying (now + openRetryDelay), offset := 0 }
  | .file id =>
    { f with phase := .reading { id, next := f.offset, position := f.offset }, offset := 0 }

/-- Takes one piece of the bytes that were read ahead, or reads more of them. -/
def readPiece (f : Follower) (disk : Disk) (now : Nat) (file : OpenFile) : Follower :=
  let piece := nextPiece file.ahead
  if piece.isEmpty then
    let more := ((disk.contents file.id).drop file.next).take readSize
    if more.isEmpty then { f with phase := .resting file (now + pollInterval) }
    else { f with phase := .reading { file with next := file.next + more.length, ahead := more } }
  else
    let pending := file.pending ++ piece
    let file :=
      { file with position := file.position + piece.length, ahead := file.ahead.drop piece.length }
    if piece.getLast? = some 10 then
      { f with phase := .delivering { file with pending := [] } (decodeLine pending) }
    else { f with phase := .reading { file with pending } }

/-- Looks at the path again after a rest. -/
def recheck (f : Follower) (disk : Disk) (file : OpenFile) : Follower :=
  match disk.place with
  | .file id =>
    if id = file.id ∧ file.position ≤ (disk.contents id).length then
      { f with phase := .reading file }
    else { f with phase := .opening }
  | _ => { f with phase := .opening }

/-- How many bytes were read ahead. -/
def aheadLength (f : Follower) : Nat :=
  match f.phase with
  | .reading file | .delivering file _ | .resting file _ => file.ahead.length
  | _ => 0

/-- The next thing that a follower does, or `none` while it has to wait. -/
def step? (f : Follower) (disk : Disk) (now : Nat) (isCancelled : Bool) : Option Follower :=
  match f.phase with
  | .opening => some (f.openFile disk now)
  | .retrying due =>
    if isCancelled then some f.stop
    else if due ≤ now then some { f with phase := .opening }
    else none
  | .reading file => if isCancelled then some f.stop else some (f.readPiece disk now file)
  | .delivering file line =>
    if f.lines.readerGone then some f.stop
    else if f.lines.hasRoom then
      some { f with phase := .reading file, lines := f.lines.send line }
    else none
  | .resting file due =>
    if isCancelled then some f.stop
    else if due ≤ now then some (f.recheck disk file)
    else none
  | .stopped => none

/-- The follower after something failed that it was about to do; `none` if it was about to do
something else.  A file that cannot be sought in is opened again at once, and the offset is used up. -/
def fault? (f : Follower) (disk : Disk) (now : Nat) : Fault → Option Follower
  | .opening =>
    match f.phase with
    | .opening => some { f with phase := .retrying (now + openRetryDelay) }
    | _ => none
  | .seeking =>
    match f.phase with
    | .opening => if disk.place = .absent ∨ f.offset = 0 then none else some { f with offset := 0 }
    | _ => none
  | .reading =>
    match f.phase with
    | .reading file =>
      if file.ahead.isEmpty then some { f with phase := .retrying (now + openRetryDelay) } else none
    | _ => none
  | .examining =>
    match f.phase with
    | .resting _ due => if due ≤ now then some { f with phase := .opening } else none
    | _ => none

/-- When a follower that has to wait goes on by itself. -/
def wake? (f : Follower) : Option Nat :=
  match f.phase with
  | .retrying due => some due
  | .resting _ due => some due
  | _ => none

end Follower

end Tail

end FleetWatch
