import FleetWatch.Setup.Broadcast
import FleetWatch.Setup.Tail
/-!
Publishing what a growing log tells.

Each line that a follower delivers is read, and what it tells is published.  The follower is told to
stop once nothing can be published any more.
-/

namespace FleetWatch

/-- A log that is followed, and where its lines go: to the reader of the follower's lines, or to a
broadcaster. -/
structure FollowedLog where
  now : Nat := 0
  disk : Disk
  follower : Tail.Follower
  isCancelled : Bool := false
  broadcaster : Option Broadcaster := none
deriving Inhabited

namespace FollowedLog

/-- Publishes the lines that wait, up to the first failure. -/
def publishLines (b : Broadcaster) : List String → Option SetupError × Broadcaster
  | [] => (none, b)
  | line :: rest =>
    match readSetupLine line with
    | none => publishLines b rest
    | some m =>
      match b.publishMatch m with
      | .ok (_, b) => publishLines b rest
      | .error e => (some e, b)

/-- Hands the lines that wait to the broadcaster, if there is one. -/
def handOver (l : FollowedLog) : FollowedLog :=
  match l.broadcaster with
  | none => l
  | some b =>
    let waiting := l.follower.lines.items
    let lines := { l.follower.lines with items := [] }
    match publishLines b waiting with
    | (none, b) => { l with broadcaster := some b, follower := { l.follower with lines } }
    | (some _, b) =>
      { l with broadcaster := some b, isCancelled := true,
               follower := { l.follower with lines := lines.drop } }

/-- The next thing that happens without time passing. -/
def step? (l : FollowedLog) : Option FollowedLog :=
  if l.broadcaster.isSome && !l.follower.lines.items.isEmpty then some l.handOver
  else (l.follower.step? l.disk l.now l.isCancelled).map fun f => { l with follower := f }

/-- Everything that happens up to a time.  `fuel` bounds the steps. -/
def runUntil : Nat → Nat → FollowedLog → FollowedLog
  | 0, _, l => l
  | fuel + 1, deadline, l =>
    match l.step? with
    | some next => runUntil fuel deadline next
    | none =>
      match l.follower.wake? with
      | some t =>
        if t ≤ deadline then runUntil fuel deadline { l with now := t }
        else { l with now := deadline }
      | none => { l with now := deadline }

/-- A bound on the steps that a time can take. -/
def stepBound (l : FollowedLog) (ms : Nat) : Nat :=
  let bytes := l.follower.aheadLength + (l.disk.files.flatMap Prod.snd).length
  (ms / Tail.pollInterval + 2) * 4 + 6 * bytes + 16

def elapse (l : FollowedLog) (ms : Nat) : FollowedLog :=
  runUntil (l.stepBound ms) (l.now + ms) l

end FollowedLog

end FleetWatch
