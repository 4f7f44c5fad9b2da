import FleetWatch.Command.Invocation
import FleetWatch.Command.Output
import FleetWatch.Setup.Publishing
/-!
Running a command.

A command that only asks is over at once.  Following a log, watching the fleet and showing the
bring-up go on, and print as they go, until they are cancelled or have nothing left to show.

Times are in milliseconds.
-/

namespace FleetWatch

/-- How a command ended: with an exit code, or with a failure, in words unless the program stopped
without any. -/
abbrev Outcome : Type := Except (Option String) Int

/-- The exit code of a command that went well. -/
def exitSuccess : Int := 0

/-- What is shown of the bring-up.  A session that is over always shows its last step, so nobody
waits for a bring-up that was. -/
def sessionReplay (history : Int) (isFinished : Bool) : Replay :=
  match Replay.ofCount history with
  | .none => if isFinished then .last 1 else .none
  | replay => replay

structure SetupShow where
  log : FollowedLog
  subscription : Subscription
  isDone : Bool := false
deriving Inhabited

namespace SetupShow

/-- Starts to show the bring-up of a log: the latest session in it is history, and the log is
followed from where that was read to. -/
def start (path : String) (capacity : Nat) (disk : Disk) (history : Int) :
    Except SetupError SetupShow :=
  match (Broadcaster.create capacity).loadLastSession path disk.read with
  | (.error e, _) => .error e
  | (.ok loaded, broadcaster) =>
    .ok
      { log := { disk, follower := { offset := loaded.offset }, broadcaster := some broadcaster }
        subscription := broadcaster.subscribe (sessionReplay history loaded.isFinished) }

/-- The milestone that is shown next, if there is one.  The last step ends the show. -/
def take? (s : SetupShow) : Option (SetupMilestone × SetupShow) :=
  match s.log.broadcaster with
  | none => none
  | some b =>
    match s.subscription.poll b with
    | (.milestone m, subscription) =>
      some (m, { s with subscription, isDone := m.status == LineMatch.doneStatus })
    | _ => none

/-- Everything that is shown up to a time, and the show after it.  `fuel` bounds the steps. -/
def runUntil : Nat → Nat → SetupShow → List SetupMilestone × SetupShow
  | 0, _, s => ([], s)
  | fuel + 1, deadline, s =>
    if s.isDone then ([], s)
    else
      match s.take? with
      | some (m, s) =>
        let (shown, s) := runUntil fuel deadline s
        (m :: shown, s)
      | none =>
        match s.log.step? with
        | some log => runUntil fuel deadline { s with log }
        | none =>
          match s.log.follower.wake? with
          | some t =>
            if t ≤ deadline then runUntil fuel deadline { s with log := { s.log with now := t } }
            else ([], { s with log := { s.log with now := deadline } })
          | none => ([], { s with log := { s.log with now := deadline } })

def elapse (s : SetupShow) (ms : Nat) : List SetupMilestone × SetupShow :=
  let bound := 2 * s.log.stepBound ms + s.subscription.replayed.length + 1
  s.runUntil bound (s.log.now + ms)

end SetupShow

inductive Job where
  | ended (outcome : Outcome)
  /-- Following a log, under a name. -/
  | following (name : String)
  /-- Printing the status table every `interval`. -/
  | watching (interval due : Nat)
  | showing (view : SetupShow)
deriving Inhabited

structure CommandRun where
  fleet : Fleet
  /-- The time of day as it is printed. -/
  clock : String
  printed : String := ""
  job : Job
deriving Inhabited

namespace CommandRun

/-- The run with more printed. -/
def print (r : CommandRun) (text : String) : CommandRun :=
  { r with printed := r.printed ++ text }

def finish (r : CommandRun) (outcome : Outcome) : CommandRun :=
  { r with job := .ended outcome }

def followName : String := "log"

/-- Prints what a followed log has ready.  `fuel` bounds the readings. -/
def printFollowed (name : String) : Nat → CommandRun → CommandRun
  | 0, r => r
  | fuel + 1, r =>
    match r.fleet.readFollower? name with
    | none => r
    | some (batch, fleet) =>
      let r := { r with fleet }.print (Output.lines (batch.items.filterMap Except.toOption))
      if batch.hasEnded then r.finish (.ok exitSuccess)
      else if batch.items.isEmpty then r
      else printFollowed name fuel { r with fleet := r.fleet.elapse 0 }

/-- Prints the status table with the time of day. -/
def printStatus (r : CommandRun) : CommandRun :=
  let (rows, fleet) := r.fleet.statusTable
  { r with fleet }.print (r.clock ++ "\n" ++ Output.statuses rows false)

/-- The status of one service as a row.  Only a service that does not exist is a failure. -/
def statusOfOne (f : Fleet) (name : String) : Except FleetError StatusRow × Fleet :=
  match f.statusOf name with
  | (.ok report, f) => (.ok { service := name, status := report.text, detail := report.detail }, f)
  | (.error (.serviceNotFound name), f) => (.error (.serviceNotFound name), f)
  | (.error e, f) => (.ok { service := name, status := "Error: " ++ e.message, detail := none }, f)

/-- Reads a log once. -/
def logsText (f : Fleet) (service since tail : String) : Except (Option String) String × Fleet :=
  match LogSince.parse since f.engine.wall with
  | .error fault => (.error fault.message?, f)
  | .ok since =>
    match LogTail.parse tail with
    | .error reason => (.error (some reason), f)
    | .ok tail =>
      let (r, f) := f.logsOf service since tail
      (match r with
        | .ok lines => .ok (Output.lines lines)
        | .error e => .error (some e.message), f)

/-- Starts a command on a fleet.  Showing the bring-up needs the log instead, see `startSetup`. -/
def start (f : Fleet) (clock : String) (command : Command) : CommandRun :=
  let r : CommandRun := { fleet := f, clock, job := .ended (.ok exitSuccess) }
  match command with
  | .services asJson => r.print (Output.services f.summaries asJson)
  | .status none asJson =>
    let (rows, fleet) := f.statusTable
    { r with fleet }.print (Output.statuses rows asJson)
  | .status (some name) asJson =>
    match statusOfOne f name with
    | (.ok row, fleet) => { r with fleet }.print (Output.statuses [row] asJson)
    | (.error e, fleet) => { r with fleet }.finish (.error (some e.message))
  | .logs service since tail false =>
    match logsText f service since tail with
    | (.ok text, fleet) => { r with fleet }.print text
    | (.error reason, fleet) => { r with fleet }.finish (.error reason)
  | .logs service _ _ true =>
    match f.followOf followName service with
    | .ok fleet => { r with fleet, job := .following followName }
    | .error e => r.finish (.error (some e.message))
  | .exec service command =>
    match f.execOf service command with
    | (.ok out, fleet) =>
      ({ r with fleet }.print (Output.commandText out.output)).finish
        (.ok (Output.exitCode out.exitCode))
    | (.error e, fleet) => { r with fleet }.finish (.error (some e.message))
  | .setupStatus _ => r
  | .watch interval =>
    let interval := max interval 1 * 1000
    let r := { r with fleet := f.startEventLoop, job := .watching interval f.now }.printStatus
    { r with job := .watching interval (f.now + interval) }

def startSetup (settings : Settings) (disk : Disk) (clock : String) (history : Int) :
    CommandRun :=
  let r : CommandRun := { fleet := default, clock, job := .ended (.ok exitSuccess) }
  match SetupShow.start settings.setupLog settings.setupHistory disk history with
  | .error e => r.finish (.error (some e.message))
  | .ok s => { r with job := .showing s }

/-- Prints tables up to a time.  `fuel` bounds them. -/
def watchUntil (interval : Nat) : Nat → Nat → Nat → CommandRun → CommandRun
  | 0, _, _, r => r
  | fuel + 1, due, deadline, r =>
    if due ≤ deadline then
      let r := { r with fleet := r.fleet.elapse (due - r.fleet.now) }.printStatus
      watchUntil interval fuel (due + interval) deadline r
    else
      { r with
        fleet := r.fleet.elapse (deadline - r.fleet.now)
        job := .watching interval due }

def elapse (r : CommandRun) (ms : Nat) : CommandRun :=
  match r.job with
  | .ended _ => r
  | .following name =>
    let r := { r with fleet := r.fleet.elapse ms }
    printFollowed name (r.fleet.backlog + 2) r
  | .watching interval due => r.watchUntil interval (ms + 2) due (r.fleet.now + ms)
  | .showing s =>
    let (shown, s) := s.elapse ms
    let text := String.join (shown.map fun m => (m.toJson r.clock).compact ++ "\n")
    let r := r.print text
    if s.isDone then r.finish (.ok exitSuccess) else { r with job := .showing s }

/-- Does something to the engine's containers while the command runs. -/
def onMemory (r : CommandRun) (change : Memory.Engine → Memory.Engine) : CommandRun :=
  { r with fleet := { r.fleet with engine := r.fleet.engine.onMemory change } }

/-- Changes the log of the bring-up while it is shown. -/
def onDisk (r : CommandRun) (change : Disk → Disk) : CommandRun :=
  match r.job with
  | .showing s => { r with job := .showing { s with log := { s.log with disk := change s.log.disk } } }
  | _ => r

/-- Cancels the command.  What is under way is printed; then the command ends well. -/
def cancel (r : CommandRun) : CommandRun :=
  match r.job with
  | .ended _ => r
  | _ => { r with fleet := r.fleet.cancelAll }.finish (.ok exitSuccess)

/-- How the command ended, if it did. -/
def outcome? (r : CommandRun) : Option Outcome :=
  match r.job with
  | .ended outcome => some outcome
  | _ => none

end CommandRun

end FleetWatch
