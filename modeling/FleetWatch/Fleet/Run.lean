import FleetWatch.Fleet.Basic
/-!
How a fleet runs by itself.

Whatever can go on does so, one step at a time, until nothing can; then time passes to the next
moment at which something goes on by itself.
-/

namespace FleetWatch

namespace Fleet

/-- The next thing that happens to the event loop, with what it does to the fleet. -/
def nextLoopEvent? (f : Fleet) (l : EventLoop) : Option (LoopEvent × Fleet) :=
  match l.phase with
  | .subscribing =>
    if l.isCancelled then some (.noticedCancel, f)
    else
      let (r, engine) := f.engine.subscribe
      some (.subscribed r, { f with engine })
  | .refreshing _ =>
    match f.refreshAll with
    | (true, f) => some (.refreshed, f)
    | (false, f) => some (.stalled, f)
  | .listening feed =>
    if l.isCancelled then some (.noticedCancel, f)
    else
      match f.engine.pullEvent feed with
      | (.pending, _) => none
      | (.item (.ok e), rest) => some (.arrived e rest, f)
      | (.item (.error _), _) => some (.lost, f)
      | (.over, _) => some (.lost, f)
  | .handling _ e =>
    match f.dispatch e with
    | (true, f) => some (.handled, f)
    | (false, f) => some (.stalled, f)
  | .backingOff due =>
    if l.isCancelled then some (.noticedCancel, f)
    else if due ≤ f.now then some (.rested, f)
    else none
  | .stalled => none
  | .stopped => none

def stepLoop? (f : Fleet) : Option Fleet := do
  let l ← f.eventLoop
  let (event, f) ← f.nextLoopEvent? l
  return { f with eventLoop := some (l.on f.now event) }

/-- The first element that something can be done with, and the list with it replaced. -/
def firstStep? {α β : Type} (step : α → Option (α × β)) : List α → Option (List α × β)
  | [] => none
  | a :: rest =>
    match step a with
    | some (a, b) => some (a :: rest, b)
    | none => (firstStep? step rest).map fun (rest, b) => (a :: rest, b)

/-- A step of something that works at a handle, with the site that the step leaves behind. -/
def stepAt {α : Type} (f : Fleet) (step : α → Site → Option (α × Site)) (p : Placed α) :
    Option (Placed α × (Nat × Site)) :=
  (step p.it (f.site p.handle)).map fun (it, s) => ({ p with it }, (p.handle, s))

def stepNamed {α β : Type} (step : α → Option (α × β)) (e : String × α) :
    Option ((String × α) × β) :=
  (step e.2).map fun (a, b) => ((e.1, a), b)

/-- A step of the first client that can go on, of those that `admits` lets. -/
def stepClient? (f : Fleet) (admits : Client → Bool) : Option Fleet :=
  let step (c : Client) (s : Site) : Option (Client × Site) :=
    if admits c then c.step? f.fileAt f.network s else none
  (firstStep? (f.stepAt step) f.clients).map
    fun (clients, (place, s)) => { f with clients }.putSite place s

def stepWatcher? (f : Fleet) : Option Fleet :=
  (firstStep? (f.stepAt Watcher.step?) f.watchers).map
    fun (watchers, (place, s)) => { f with watchers }.putSite place s

def stepFollower? (f : Fleet) : Option Fleet :=
  (firstStep? (stepNamed (f.stepAt Follow.Follower.step?)) f.followers).map
    fun (followers, (place, s)) => { f with followers }.putSite place s

def stepWait? (f : Fleet) : Option Fleet :=
  let step (w : Wait) (s : Site) : Option (Wait × Site) :=
    match w.state with
    | .again waiter =>
      (waiter.step? w.want w.isCancelled s).map fun (state, s) => ({ w with state }, s)
    | _ => none
  (firstStep? (stepNamed (f.stepAt step)) f.waits).map
    fun (waits, (place, s)) => { f with waits }.putSite place s

def stepSession? (f : Fleet) : Option Fleet :=
  let step (s : Placed Session) : Option (Placed Session × Unit) :=
    let isCancelled := s.it.isCancelled || (f.handle s.handle).isCancelled
    ({ s.it with isCancelled }.step?).map fun it => ({ s with it }, ())
  (firstStep? (stepNamed step) f.sessions).map fun (sessions, _) => { f with sessions }

/-- The next thing that happens without time passing, if only some clients are let go on. -/
def step? (f : Fleet) (admits : Client → Bool := fun _ => true) : Option Fleet :=
  f.stepLoop? <|> f.stepClient? admits <|> f.stepWatcher? <|> f.stepFollower? <|> f.stepWait? <|>
    f.stepSession?

/-- The times at which something goes on by itself. -/
def wakes (f : Fleet) : List Nat :=
  (f.eventLoop.bind EventLoop.wake?).toList ++
    f.clients.filterMap (fun c => c.it.dialLoop.wake?) ++
    f.watchers.filterMap (fun w => w.it.wake?) ++
    f.followers.filterMap (fun w => w.2.it.wake?) ++
    f.waits.filterMap fun w =>
      match w.2.it.state with
      | .again waiter => waiter.wake?
      | _ => none

/-- The next time after now at which something goes on by itself. -/
def nextWake? (f : Fleet) : Option Nat :=
  (f.wakes.filter (f.now < ·)).min?

/-- Everything that happens up to a time.  `fuel` bounds the steps. -/
def runUntil : Nat → Nat → Fleet → Fleet
  | 0, _, f => f
  | fuel + 1, deadline, f =>
    match f.step? with
    | some next => runUntil fuel deadline next
    | none =>
      match f.nextWake? with
      | some t => if t ≤ deadline then runUntil fuel deadline { f with now := t }
                  else { f with now := deadline }
      | none => { f with now := deadline }

/-- How many items the streams of a fleet can still yield. -/
def backlog (f : Fleet) : Nat :=
  let stored := match f.engine with
    | .memory e => (e.entries.flatMap fun c => c.lines).length + e.events.length
    | .script e =>
      e.stored.length + e.logReplies.length + e.eventReplies.length +
      (e.logReplies.flatMap fun r =>
        match r with | .ok (lines, _) => lines | .error _ => []).length +
      (e.eventReplies.flatMap fun r =>
        match r with | .ok (events, _) => events | .error _ => []).length +
      ((e.attachment.map fun a => a.chunks.length).getD 0)
  let held := (f.followers.flatMap fun w => w.2.it.lines.items).length +
    (f.sessions.flatMap fun s => s.2.it.feed.items).length
  stored + held

/-- A bound on the steps that a time can take. -/
def stepBound (f : Fleet) (ms : Nat) : Nat :=
  let workers := f.clients.length + f.watchers.length + f.followers.length + f.waits.length +
    f.sessions.length + 2
  (ms + 4) * workers * 8 + workers * (f.backlog + 16) * 8

def elapse (f : Fleet) (ms : Nat) : Fleet :=
  runUntil (f.stepBound ms) (f.now + ms) f

/-- Everything that happens before files are read: a client that reads its credentials from files
has not got them yet.  `fuel` bounds the steps. -/
def runBeforeReading : Nat → Fleet → Fleet
  | 0, f => f
  | fuel + 1, f =>
    match f.step? fun c => !c.isReading with
    | some next => runBeforeReading fuel next
    | none => f

/-- Lets everybody go on at once, in less time than reading a file takes. -/
def settle (f : Fleet) : Fleet :=
  runBeforeReading (f.stepBound 0) f

end Fleet

end FleetWatch
