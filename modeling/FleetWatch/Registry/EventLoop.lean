import FleetWatch.Container.Feed
/-!
The loop that hears the engine's events.

The loop subscribes, looks at every container, and hands each event to the service that it is about.
When the stream fails or ends, or the subscription fails, it waits and subscribes again.  The delay
doubles from `firstDelay` up to `longestDelay`, and starts over when an event arrives.

`EventLoop.on` says what each thing that can happen does to the loop.  A thing that cannot happen in
the loop's phase changes nothing.  Times are in milliseconds.
-/

namespace FleetWatch

inductive EventPhase where
  | subscribing
  /-- Looking at every container. -/
  | refreshing (feed : Feed EngineEvent)
  | listening (feed : Feed EngineEvent)
  /-- Handing an event to its service. -/
  | handling (feed : Feed EngineEvent) (event : EngineEvent)
  | backingOff (due : Nat)
  /-- A look at a container is never answered. -/
  | stalled
  | stopped
deriving Inhabited

/-- The first delay before a new subscription. -/
def firstDelay : Nat := 1000

/-- The longest delay before a new subscription. -/
def longestDelay : Nat := 30000

structure EventLoop where
  phase : EventPhase := .subscribing
  delay : Nat := firstDelay
  isCancelled : Bool := false
deriving Inhabited

inductive LoopEvent where
  | subscribed (result : Except ContainerError (Feed EngineEvent))
  /-- Every container was looked at. -/
  | refreshed
  /-- An event arrives; the stream goes on as `rest`. -/
  | arrived (event : EngineEvent) (rest : Feed EngineEvent)
  /-- The event's service is done with it. -/
  | handled
  /-- The stream ends or fails. -/
  | lost
  /-- The delay is over. -/
  | rested
  /-- A look at a container will not be answered. -/
  | stalled
  /-- The loop notices that it is cancelled. -/
  | noticedCancel
  /-- Somebody cancels the loop. -/
  | cancel

namespace EventLoop

/-- The loop when it starts to wait for a new subscription. -/
def backOff (l : EventLoop) (now : Nat) : EventLoop :=
  { l with phase := .backingOff (now + l.delay) }

/-- What happens at a time does to the loop. -/
def on (l : EventLoop) (now : Nat) (event : LoopEvent) : EventLoop :=
  match event, l.phase with
  | .subscribed (.ok feed), .subscribing => { l with phase := .refreshing feed }
  | .subscribed (.error _), .subscribing => l.backOff now
  | .refreshed, .refreshing feed => { l with phase := .listening feed }
  | .arrived event rest, .listening _ =>
    { l with phase := .handling rest event, delay := firstDelay }
  | .handled, .handling feed _ => { l with phase := .listening feed }
  | .lost, .listening _ => l.backOff now
  | .rested, .backingOff _ =>
    { l with phase := .subscribing, delay := min (l.delay * 2) longestDelay }
  | .stalled, .refreshing _ => { l with phase := .stalled }
  | .stalled, .handling _ _ => { l with phase := .stalled }
  | .noticedCancel, .subscribing => if l.isCancelled then { l with phase := .stopped } else l
  | .noticedCancel, .listening _ => if l.isCancelled then { l with phase := .stopped } else l
  | .noticedCancel, .backingOff _ => if l.isCancelled then { l with phase := .stopped } else l
  | .cancel, _ => { l with isCancelled := true }
  | _, _ => l

/-- Whether the loop has returned. -/
def hasStopped (l : EventLoop) : Bool :=
  match l.phase with
  | .stopped => true
  | _ => false

/-- When a loop that has to wait goes on by itself. -/
def wake? (l : EventLoop) : Option Nat :=
  match l.phase with
  | .backingOff due => some due
  | _ => none

end EventLoop

end FleetWatch
