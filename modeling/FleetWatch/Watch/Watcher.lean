import FleetWatch.Container.Follow
import FleetWatch.Watch.Progress
/-!
Watching a container's log for sync progress.

A watcher follows the log and applies each line to its progress, until a line says that the backend
caught up or the watcher is stopped; then the follower is stopped too.
-/

namespace FleetWatch

structure Watcher where
  patterns : PatternSet
  follower : Follow.Follower := {}
  progress : SyncProgress := {}
  isDone : Bool := false
deriving Inhabited

namespace Watcher

def finish (w : Watcher) : Watcher :=
  { w with
    isDone := true
    follower := { w.follower with isCancelled := true, lines := w.follower.lines.drop } }

def stop (w : Watcher) : Watcher :=
  { w with follower := { w.follower with isCancelled := true } }

def applyLine (w : Watcher) (line : String) : Watcher :=
  let progress := w.progress.apply w.patterns (Text.trim line)
  let next := { w with progress }
  if progress ≠ w.progress ∧ progress.caughtUp then next.finish else next

/-- The next thing that the watcher does, or `none` while it has to wait. -/
def step? (w : Watcher) (s : Site) : Option (Watcher × Site) :=
  if w.isDone then (w.follower.step? s).map fun (follower, s) => ({ w with follower }, s)
  else if w.follower.isCancelled then some (w.finish, s)
  else
    match w.follower.lines.items with
    | item :: rest =>
      let lines := { w.follower.lines with items := rest }
      let w := { w with follower := { w.follower with lines } }
      -- an error of the stream tells nothing
      some (match item with
        | .ok line => w.applyLine line
        | .error _ => w, s)
    | [] =>
      if w.follower.lines.senderGone then some (w.finish, s)
      else (w.follower.step? s).map fun (follower, s) => ({ w with follower }, s)

/-- When a watcher that has to wait goes on by itself. -/
def wake? (w : Watcher) : Option Nat :=
  w.follower.wake?

end Watcher

end FleetWatch
