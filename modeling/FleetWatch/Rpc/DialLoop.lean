import FleetWatch.Container.Handle
/-!
Connecting to a backend, and staying connected.

An attempt loads the credentials, waits for the container to run, and dials.  An attempt that fails
is followed by a delay and the next one, up to a ceiling if there is one.  A client that is
published stays until it is invalidated, which starts the next attempt, or until the loop is closed
or cancelled.

`DialLoop.on` says what each thing that can happen does to a loop.  A thing that cannot happen in
the loop's phase changes nothing.  Times are in milliseconds.
-/

namespace FleetWatch

/-- How a loop tries again. -/
structure RetryPolicy where
  retryDelay : Nat := 3000
  connectTimeout : Nat := 3000
  /-- No ceiling when absent. -/
  maxAttempts : Option Nat := none
deriving Repr, DecidableEq, Inhabited

/-- What a loop shows of itself. -/
inductive RpcState where
  | uninitialized
  | dialing (attempt : Nat)
  | connected
  | permanentlyFailed (attempts : Nat)
  | closed
deriving Repr, DecidableEq, Inhabited

/-- Where a loop is.  What a loop shares with others it reads or writes in one step at a time, so
each such access is the end of a phase of its own, and others can come in between. -/
inductive DialPhase where
  /-- About to look whether it is cancelled. -/
  | starting
  /-- About to show its next attempt. -/
  | opening
  /-- The credentials are being loaded. -/
  | loading
  /-- The container is not seen running yet. -/
  | waiting (w : Waiter)
  | dialing (due : Nat)
  /-- A dial made a client, which is about to be published. -/
  | publishing
  /-- The client is published, and the state is about to say so. -/
  | announcing
  /-- Waiting for the client to be invalidated. -/
  | connected
  | backingOff (due : Nat)
  /-- The attempts are over, and the loop is about to look whether it is cancelled. -/
  | leaving
  /-- Cancelled, and about to withdraw the client. -/
  | withdrawing
  /-- Cancelled, and about to show its end. -/
  | closing
  | ended
deriving Repr, DecidableEq, Inhabited

structure DialLoop where
  policy : RetryPolicy := {}
  phase : DialPhase := .starting
  /-- Attempts that failed since the last client or the start. -/
  failures : Nat := 0
  state : RpcState := .uninitialized
  /-- The published client: the number of the dial that made it. -/
  client : Option Nat := none
  /-- A client was invalidated and the loop has not noticed yet. -/
  wakeUp : Bool := false
  isCancelled : Bool := false
  loads : Nat := 0
  dials : Nat := 0
deriving Repr, DecidableEq, Inhabited

inductive DialEvent where
  /-- The loop does what it is about to do. -/
  | proceed
  /-- The credentials are loaded or not. -/
  | loaded (result : Except RpcError Unit)
  /-- The loop goes on waiting for the container. -/
  | waited (w : Waiter)
  /-- The container is seen running. -/
  | admitted
  /-- Waiting for the container was cancelled. -/
  | turnedAway
  /-- The dial ended. -/
  | dialed (result : Except RpcError Unit)
  /-- The dial took too long. -/
  | timedOut
  /-- The delay after a failure is over. -/
  | rested
  /-- The loop notices that its client was invalidated. -/
  | noticedInvalidation
  /-- The loop notices that it is cancelled. -/
  | noticedCancel
  /-- Somebody invalidates the client.  The slot is locked meanwhile, so this is one step. -/
  | invalidate
  /-- Somebody cancels the loop, or drops it, or starts to close it. -/
  | cancel
  /-- Somebody who closes the loop withdraws its client. -/
  | withdraw
  /-- Somebody who closes the loop shows that it is closed. -/
  | showClosed
  /-- Somebody closes the loop with nothing happening in between. -/
  | close

namespace DialLoop

/-- The state of a loop that ended: one that gave up or was closed says so. -/
def endState : RpcState → RpcState
  | .permanentlyFailed n => .permanentlyFailed n
  | _ => .closed

def fail (l : DialLoop) (now : Nat) : DialLoop :=
  let l := { l with failures := l.failures + 1 }
  match l.policy.maxAttempts with
  | some most =>
    if most ≤ l.failures then
      { l with phase := .leaving, state := .permanentlyFailed l.failures }
    else { l with phase := .backingOff (now + l.policy.retryDelay) }
  | none => { l with phase := .backingOff (now + l.policy.retryDelay) }

/-- The loop after what it was about to do. -/
def proceed (l : DialLoop) : DialLoop :=
  match l.phase with
  | .starting => { l with phase := if l.isCancelled then .leaving else .opening }
  | .opening =>
    { l with phase := .loading, state := .dialing (l.failures + 1), loads := l.loads + 1 }
  | .publishing => { l with phase := .announcing, client := some l.dials }
  | .announcing => { l with phase := .connected, state := .connected }
  | .leaving => { l with phase := if l.isCancelled then .withdrawing else .ended }
  | .withdrawing => { l with phase := .closing, client := none }
  | .closing => { l with phase := .ended, state := endState l.state }
  | _ => l

/-- The loop after its client was invalidated, if it had one. -/
def invalidate (l : DialLoop) : DialLoop :=
  match l.client with
  | some _ => { l with client := none, wakeUp := true }
  | none => l

/-- The loop after somebody withdrew its client.  Only a loop that is cancelled is closed. -/
def withdraw (l : DialLoop) : DialLoop :=
  if l.isCancelled then { l with client := none } else l

/-- The loop after somebody showed that it is closed. -/
def showClosed (l : DialLoop) : DialLoop :=
  if l.isCancelled then { l with state := .closed } else l

/-- What happens at a time does to a loop. -/
def on (l : DialLoop) (now : Nat) (event : DialEvent) : DialLoop :=
  match event, l.phase with
  | .proceed, _ => l.proceed
  | .loaded (.ok _), .loading => { l with phase := .waiting .fresh }
  | .loaded (.error _), .loading => l.fail now
  | .waited w, .waiting _ => { l with phase := .waiting w }
  | .admitted, .waiting _ =>
    { l with phase := .dialing (now + l.policy.connectTimeout), dials := l.dials + 1 }
  | .turnedAway, .waiting _ => { l with phase := .leaving }
  | .dialed (.ok _), .dialing _ => { l with phase := .publishing, failures := 0 }
  | .dialed (.error _), .dialing _ => l.fail now
  | .timedOut, .dialing _ => l.fail now
  | .rested, .backingOff _ => { l with phase := .starting }
  | .noticedInvalidation, .connected =>
    if l.wakeUp then { l with phase := .starting, wakeUp := false } else l
  | .noticedCancel, .dialing _ => if l.isCancelled then { l with phase := .leaving } else l
  | .noticedCancel, .connected => if l.isCancelled then { l with phase := .leaving } else l
  | .noticedCancel, .backingOff _ => if l.isCancelled then { l with phase := .leaving } else l
  | .invalidate, _ => l.invalidate
  | .cancel, _ => { l with isCancelled := true }
  | .withdraw, _ => l.withdraw
  | .showClosed, _ => l.showClosed
  | .close, _ => { l with isCancelled := true }.withdraw.showClosed
  | _, _ => l

/-- The published client, or why there is none. -/
def current (l : DialLoop) : Except RpcError Nat :=
  match l.client, l.state with
  | some id, _ => .ok id
  | none, .permanentlyFailed n => .error (.permanentlyFailed n)
  | none, .closed => .error .closed
  | none, _ => .error .noClientYet

/-- How the dials and loads of a loop come out, by their numbers.  A dial may never end. -/
structure Outcomes where
  load : Nat → Except RpcError Unit
  dial : Nat → Option (Except RpcError Unit)

/-- The next thing that happens to a loop by itself, or `none` while it has to wait. -/
def next? (l : DialLoop) (outcomes : Outcomes) (s : Site) : Option (DialEvent × Site) :=
  match l.phase with
  | .starting | .opening | .publishing | .announcing | .leaving | .withdrawing | .closing =>
    some (.proceed, s)
  | .loading => some (.loaded (outcomes.load l.loads), s)
  | .waiting w =>
    (w.step? .running l.isCancelled s).map fun
      | (.ready _, s) => (.admitted, s)
      | (.cancelled, s) => (.turnedAway, s)
      | (.again w, s) => (.waited w, s)
  | .dialing due =>
    if l.isCancelled then some (.noticedCancel, s)
    else
      match outcomes.dial l.dials with
      | some result => some (.dialed result, s)
      | none => if due ≤ s.now then some (.timedOut, s) else none
  | .connected =>
    if l.isCancelled then some (.noticedCancel, s)
    else if l.wakeUp then some (.noticedInvalidation, s)
    else none
  | .backingOff due =>
    if l.isCancelled then some (.noticedCancel, s)
    else if due ≤ s.now then some (.rested, s)
    else none
  | .ended => none

/-- When a loop that has to wait goes on by itself. -/
def wake? (l : DialLoop) : Option Nat :=
  match l.phase with
  | .waiting w => w.wake?
  | .dialing due => some due
  | .backingOff due => some due
  | _ => none

end DialLoop

end FleetWatch
