import FleetWatch.Container.Handle
import FleetWatch.Flow.Channel
/-!
Following a container's log over its restarts.

The follower waits for the container, reads its log from the container's start and passes the lines
on.  When the log ends or fails it looks at the container, waits `retryDelay` and opens the log
again: from the new start, or from now on if the container did not restart.  Errors are not passed
on.

Times are in milliseconds.
-/

namespace FleetWatch

namespace Follow

/-- How long a follower waits before it opens the log again. -/
def retryDelay : Nat := 3000

def lineCapacity : Nat := 256

inductive Phase where
  | awaiting (w : Waiter)
  | reading (feed : Feed String)
  | passing (feed : Feed String) (line : String)
  /-- The log could not be opened. -/
  | retrying (due : Nat)
  /-- A look at the container is never answered. -/
  | looking
  | resting (due : Nat)
  | stopped
deriving Inhabited

/-- A follower, with the lines that nobody took yet. -/
structure Follower where
  phase : Phase := .awaiting .fresh
  /-- The start of the container that the log was last opened for. -/
  lastStart : Option Instant := none
  lines : Channel (Except ContainerError String) := { capacity := lineCapacity }
  isCancelled : Bool := false
deriving Inhabited

/-- Where the log is opened: at the container's start, unless it was opened for that start
before. -/
def since (lastStart : Option Instant) (seen : Snapshot) (wall : Instant) : LogSince :=
  match seen.startedAt with
  | none => .beginning
  | some t => if some t = lastStart then .at wall else .at t

namespace Follower

def stop (f : Follower) : Follower :=
  { f with phase := .stopped, lines := f.lines.finish }

/-- What is asked of the engine when the log of a container that was seen is opened. -/
def request (f : Follower) (seen : Snapshot) (wall : Instant) : LogRequest :=
  { since := since f.lastStart seen wall, tail := .all, follow := true }

/-- Opens the log of a container that was seen. -/
def openLog (f : Follower) (seen : Snapshot) (s : Site) : Follower × Site :=
  let request := f.request seen s.engine.wall
  let f := { f with lastStart := seen.startedAt }
  match s.openLog request with
  | (.ok feed, s) => ({ f with phase := .reading feed }, s)
  | (.error e, s) =>
    let s := if e.isNotFound then { s with handle := s.handle.clear } else s
    ({ f with phase := .retrying (s.now + retryDelay) }, s)

/-- A follower whose wait for the container went on so. -/
def afterWait (f : Follower) : Waited × Site → Follower × Site
  | (.cancelled, s) => (f.stop, s)
  | (.again w, s) => ({ f with phase := .awaiting w }, s)
  | (.ready seen, s) => f.openLog seen s

/-- What a follower does when its log is over. -/
def endOfLog (f : Follower) (s : Site) : Follower × Site :=
  if f.lines.readerGone then (f.stop, s)
  else
    match s.refresh with
    | (none, s) => ({ f with phase := .looking }, s)
    | (some _, s) => ({ f with phase := .resting (s.now + retryDelay) }, s)

/-- The next thing that a follower does, or `none` while it has to wait. -/
def step? (f : Follower) (s : Site) : Option (Follower × Site) :=
  match f.phase with
  | .stopped => none
  | _ =>
    if s.handle.isCancelled then some (f.stop, s)
    else
      match f.phase with
      | .stopped => none
      | .awaiting w =>
        (w.step? .observed f.isCancelled s).map f.afterWait
      | .reading feed =>
        if f.isCancelled then some (f.stop, s)
        else
          match s.engine.pullLine feed with
          | (.pending, _) => none
          | (.item (.ok line), feed) => some ({ f with phase := .passing feed line }, s)
          | (.item (.error _), _) => some (f.endOfLog s)
          | (.over, _) => some (f.endOfLog s)
      | .passing feed line =>
        if f.lines.readerGone then some (f.stop, s)
        else if f.lines.hasRoom then
          some ({ f with phase := .reading feed, lines := f.lines.send (.ok line) }, s)
        else none
      | .retrying due =>
        if f.isCancelled then some (f.stop, s)
        else if due ≤ s.now then some ({ f with phase := .awaiting .fresh }, s)
        else none
      | .looking => none
      | .resting due =>
        if f.isCancelled then some (f.stop, s)
        else if due ≤ s.now then some ({ f with phase := .awaiting .fresh }, s)
        else none

/-- When a follower that has to wait goes on by itself. -/
def wake? (f : Follower) : Option Nat :=
  match f.phase with
  | .awaiting w => w.wake?
  | .retrying due => some due
  | .resting due => some due
  | _ => none

end Follower

end Follow

end FleetWatch
