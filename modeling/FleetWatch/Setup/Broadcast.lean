import FleetWatch.Error
import FleetWatch.Flow.Channel
import FleetWatch.Setup.Milestone
import FleetWatch.Text.Lossy
/-!
Publishing the steps of a bring-up to any number of subscribers.

Steps are numbered from 1.  The broadcaster keeps the latest of them as its history, up to a
capacity, and the latest `liveCapacity` for subscribers that have not taken them yet.  A subscription
first yields the part of the history it asked for and then every later step; a subscriber that falls
more than `liveCapacity` steps behind goes on with the oldest step still kept.
-/

namespace FleetWatch

/-- One published step. -/
structure SetupMilestone where
  seq : Nat
  status : String
  details : Option (List (String × String))
deriving Repr, DecidableEq, Inhabited

/-- How much of the history a new subscriber wants first. -/
inductive Replay where
  | none
  | last (count : Nat)
  | all
deriving Repr, DecidableEq, Inhabited

namespace Replay

/-- A negative count asks for everything, zero for nothing. -/
def ofCount (count : Int) : Replay :=
  match count with
  | .negSucc _ => .all
  | .ofNat 0 => .none
  | .ofNat n => .last n

/-- How many of the steps in the history are left out. -/
def skip (r : Replay) (available : Nat) : Nat :=
  match r with
  | .none => available
  | .last n => available - n
  | .all => 0

end Replay

/-- How many steps a subscriber may leave untaken before it misses some. -/
def liveCapacity : Nat := 256

/-- The last elements of a list. -/
def lastOf {α : Type} (count : Nat) (xs : List α) : List α :=
  xs.drop (xs.length - count)

/-- A subscription: what is left of its replay, and the number of the live step it takes next.
A subscription made after the end has no live part. -/
structure Subscription where
  replayed : List SetupMilestone
  next : Option Nat
deriving Repr, DecidableEq, Inhabited

structure Broadcaster where
  /-- Most steps kept as history, at least one. -/
  capacity : Nat
  capacity_pos : 0 < capacity
  history : List SetupMilestone := []
  nextSeq : Nat := 1
  /-- The latest steps, for subscribers that are behind. -/
  recent : List SetupMilestone := []
  /-- Whether steps can still be published. -/
  isOpen : Bool := true

namespace Broadcaster

/-- A broadcaster that nothing was published to; a capacity of nothing counts as one. -/
def create (capacity : Nat) : Broadcaster :=
  { capacity := max capacity 1, capacity_pos := by omega }

instance : Inhabited Broadcaster := ⟨create 1⟩

/-- Publishes a step under the next number. -/
def publish (b : Broadcaster) (status : String) (details : Option (List (String × String))) :
    Except SetupError (SetupMilestone × Broadcaster) :=
  if b.isOpen then
    let m : SetupMilestone := { seq := b.nextSeq, status, details }
    .ok (m, { b with
      history := lastOf b.capacity (b.history ++ [m])
      recent := lastOf liveCapacity (b.recent ++ [m])
      nextSeq := b.nextSeq + 1 })
  else .error .closed

/-- Publishes what a line of the setup log tells. -/
def publishMatch (b : Broadcaster) (m : LineMatch) :
    Except SetupError (SetupMilestone × Broadcaster) :=
  b.publish m.status m.details

/-- Publishes matches in order, up to the first failure. -/
def publishAll (b : Broadcaster) : List LineMatch → Option SetupError × Broadcaster
  | [] => (none, b)
  | m :: rest =>
    match b.publishMatch m with
    | .error e => (some e, b)
    | .ok (_, b) => b.publishAll rest

def subscribe (b : Broadcaster) (replay : Replay) : Subscription :=
  { replayed := b.history.drop (replay.skip b.history.length)
    next := if b.isOpen then some b.nextSeq else none }

/-- Ends every subscription: what is kept for one is still yielded, and nothing is published any
more. -/
def close (b : Broadcaster) : Broadcaster :=
  { b with isOpen := false }

end Broadcaster

/-- What asking a subscription for a step gives. -/
inductive Delivery where
  | milestone (m : SetupMilestone)
  | pending
  | ended
deriving Repr, DecidableEq, Inhabited

namespace Subscription

/-- The oldest live step that is kept and not taken yet. -/
def nextLive? (s : Subscription) (b : Broadcaster) : Option SetupMilestone :=
  s.next.bind fun n => b.recent.find? fun m => n ≤ m.seq

def poll (s : Subscription) (b : Broadcaster) : Delivery × Subscription :=
  match s.replayed with
  | m :: rest => (.milestone m, { s with replayed := rest })
  | [] =>
    match s.nextLive? b with
    | some m => (.milestone m, { s with next := some (m.seq + 1) })
    | none => (if b.isOpen && s.next.isSome then .pending else .ended, s)

/-- Everything that is ready, whether the subscription has ended, and the subscription after it. -/
def drain (s : Subscription) (b : Broadcaster) : List SetupMilestone × Bool × Subscription :=
  let live := match s.next with
    | none => []
    | some n => b.recent.filter fun m => n ≤ m.seq
  (s.replayed ++ live, !(b.isOpen && s.next.isSome),
    { replayed := [], next := s.next.map fun n => max n b.nextSeq })

/-- Everything that an uninterrupted reading takes: the replay, and live steps by at most `burst`
looks.  The look that finds steps missing takes none. -/
def read (s : Subscription) (b : Broadcaster) (burst : Nat) : Batch SetupMilestone × Subscription :=
  match s.next with
  | none => ({ items := s.replayed, hasEnded := true }, { s with replayed := [] })
  | some n =>
    let live := b.recent.filter fun m => n ≤ m.seq
    let looks := if (live.head?.map SetupMilestone.seq).any (· != n) then burst - 1 else burst
    let taken := live.take looks
    ({ items := s.replayed ++ taken, hasEnded := !b.isOpen && live.length < looks },
     { replayed := [], next := some (((taken.getLast?.map SetupMilestone.seq).map (· + 1)).getD n) })

end Subscription

/-! ### Several subscribers -/

/-- A broadcaster with its subscribers, each under a name. -/
structure SetupHub where
  broadcaster : Broadcaster
  subscriptions : List (String × Subscription) := []
deriving Inhabited

/-- What is done to a broadcaster and its subscribers. -/
inductive SetupAction where
  | publish (status : String) (details : Option (List (String × String)))
  | subscribe (subscriber : String) (replay : Replay)
  | poll (subscriber : String)
  | drain (subscriber : String)
  | unsubscribe (subscriber : String)
  | close
deriving Repr, DecidableEq, Inhabited

inductive SetupAnswer where
  | published (m : SetupMilestone)
  | failed (e : SetupError)
  | delivered (d : Delivery)
  | drained (items : List SetupMilestone) (hasEnded : Bool)
  | done
deriving Repr, DecidableEq, Inhabited

namespace SetupHub

def subscription? (h : SetupHub) (subscriber : String) : Option Subscription :=
  (h.subscriptions.find? fun s => s.1 == subscriber).map Prod.snd

/-- The hub without a subscriber. -/
def remove (h : SetupHub) (subscriber : String) : SetupHub :=
  { h with subscriptions := h.subscriptions.filter fun s => s.1 != subscriber }

/-- The hub with the subscription of a subscriber replaced. -/
def replace (h : SetupHub) (subscriber : String) (s : Subscription) : SetupHub :=
  { h with subscriptions :=
      (h.subscriptions.filter fun o => o.1 != subscriber) ++ [(subscriber, s)] }

/-- How many subscribers can still get live steps. -/
def subscriberCount (h : SetupHub) : Nat :=
  if h.broadcaster.isOpen then h.subscriptions.countP fun s => s.2.next.isSome else 0

def step (h : SetupHub) : SetupAction → SetupAnswer × SetupHub
  | .publish status details =>
    match h.broadcaster.publish status details with
    | .ok (m, b) => (.published m, { h with broadcaster := b })
    | .error e => (.failed e, h)
  | .subscribe who replay => (.done, h.replace who (h.broadcaster.subscribe replay))
  | .poll who =>
    match h.subscription? who with
    | none => (.delivered .ended, h)
    | some s =>
      let (d, s) := s.poll h.broadcaster
      (.delivered d, h.replace who s)
  | .drain who =>
    match h.subscription? who with
    | none => (.drained [] true, h)
    | some s =>
      let (items, hasEnded, s) := s.drain h.broadcaster
      (.drained items hasEnded, h.replace who s)
  | .unsubscribe who => (.done, h.remove who)
  | .close => (.done, { h with broadcaster := h.broadcaster.close })

end SetupHub

/-! ### The log that is there already -/

/-- The bytes of a file up to its last line feed. -/
def completePart (bytes : List UInt8) : List UInt8 :=
  (bytes.reverse.dropWhile (· != 10)).reverse

/-- The latest session that the complete lines of a log tell. -/
def loadedSession (bytes : List UInt8) : List LineMatch :=
  lastSession (Text.lossyString (completePart bytes))

/-- Where the log goes on, and whether its latest session is over. -/
structure LoadedLog where
  offset : Nat
  isFinished : Bool
deriving Repr, DecidableEq, Inhabited

/-- Publishes the latest session of a log.  A log that is not there publishes nothing and goes on
from its start. -/
def Broadcaster.loadLastSession (b : Broadcaster) (path : String)
    (contents : Except FileFault (List UInt8)) : Except SetupError LoadedLog × Broadcaster :=
  match contents with
  | .error .notFound => (.ok ⟨0, false⟩, b)
  | .error fault => (.error (.unreadable path fault), b)
  | .ok bytes =>
    let session := loadedSession bytes
    match b.publishAll session with
    | (some e, b) => (.error e, b)
    | (none, b) =>
      (.ok ⟨(completePart bytes).length, session.getLast? == some .finished⟩, b)

end FleetWatch
