import FleetWatch.Fleet.Status
/-!
What a fleet's users do with it: reading and following logs, running commands, interactive sessions,
events and shutting down.
-/

namespace FleetWatch

namespace Fleet

def logs (f : Fleet) (place : Nat) (since : LogSince) (tail : LogTail) :
    Except ContainerError (List String) × Fleet :=
  let (r, s) := (f.site place).logs since tail
  (r, f.putSite place s)

def exec (f : Fleet) (place : Nat) (command : List String) :
    Except ContainerError ExecOutput × Fleet :=
  let (r, s) := (f.site place).exec command
  (r, f.putSite place s)

/-- Calls a scripted backend through the client at a place, and lets the time pass that the call
takes. -/
def callScripted (f : Fleet) (place : Nat) (call : ScriptedCall) (timeout : Nat) :
    Except RpcError Nat × Fleet :=
  let (r, duration) := (f.client place).call call timeout
  (r, f.elapse duration)

/-- Starts to follow the log at a handle under a name. -/
def follow (f : Fleet) (name : String) (place : Nat) : Fleet :=
  { f with followers := putNamed name { handle := place, it := {} } f.followers }

def onFollower (f : Fleet) (name : String) (change : Follow.Follower → Follow.Follower) : Fleet :=
  let changed := f.followers.map fun e =>
    if e.1 = name then (e.1, { e.2 with it := change e.2.it }) else e
  { f with followers := changed }

def cancelFollower (f : Fleet) (name : String) : Fleet :=
  f.onFollower name fun w => { w with isCancelled := true }

/-- Drops a followed log: nobody reads it any more. -/
def dropFollower (f : Fleet) (name : String) : Fleet :=
  f.onFollower name fun w => { w with lines := w.lines.drop }

def readFollower? (f : Fleet) (name : String) :
    Option (Batch (Except ContainerError String) × Fleet) :=
  (getNamed? name f.followers).map fun w =>
    let (batch, lines) := w.it.lines.read readBurst
    (batch, f.onFollower name fun w => { w with lines })

def serviceOf (f : Fleet) (name : String) : Except FleetError Service :=
  match f.service? name with
  | some s => .ok s
  | none => .error (.serviceNotFound name)

/-- Reads the log of the service with a name. -/
def logsOf (f : Fleet) (name : String) (since : LogSince) (tail : LogTail) :
    Except FleetError (List String) × Fleet :=
  match f.serviceOf name with
  | .error e => (.error e, f)
  | .ok s =>
    let (r, f) := f.logs s.handle since tail
    (r.mapError .container, f)

/-- Starts to follow, as `id`, the log of the service with a name. -/
def followOf (f : Fleet) (id name : String) : Except FleetError Fleet :=
  (f.serviceOf name).map fun s => f.follow id s.handle

/-- Runs a command in the container of the service with a name. -/
def execOf (f : Fleet) (name : String) (command : List String) :
    Except FleetError ExecOutput × Fleet :=
  match f.serviceOf name with
  | .error e => (.error e, f)
  | .ok s =>
    let (r, f) := f.exec s.handle command
    (r.mapError .container, f)

/-- Starts to wait for the container at a handle under a name. -/
def await (f : Fleet) (name : String) (place : Nat) (want : Awaited) : Fleet :=
  let wait : Wait := { want, state := .again .fresh }
  { f with waits := putNamed name { handle := place, it := wait } f.waits }

def cancelWait (f : Fleet) (name : String) : Fleet :=
  let waits := f.waits.map fun e =>
    if e.1 = name then (e.1, { e.2 with it := { e.2.it with isCancelled := true } }) else e
  { f with waits }

/-- Starts an interactive session at a handle under a name; an older one of that name is
cancelled. -/
def openSession (f : Fleet) (name : String) (place : Nat) :
    Except ContainerError String × Fleet :=
  let container := (f.handle place).name
  let (r, engine) := f.engine.attach container
  let f := { f with engine }
  match r with
  | .error e => (.error e, f)
  | .ok a =>
    let session := Session.start container a
    (.ok a.execId, { f with sessions := putNamed name { handle := place, it := session } f.sessions })

/-- Starts a session, as `id`, in the container of the service with a name. -/
def openSessionOf (f : Fleet) (id name : String) : Except FleetError String × Fleet :=
  match f.serviceOf name with
  | .error e => (.error e, f)
  | .ok s =>
    let (r, f) := f.openSession id s.handle
    (r.mapError .container, f)

/-- The session of a name, cancelled if its container's handle is. -/
def session? (f : Fleet) (name : String) : Option (Placed Session) :=
  (getNamed? name f.sessions).map fun s =>
    let isCancelled := s.it.isCancelled || (f.handle s.handle).isCancelled
    { s with it := { s.it with isCancelled } }

def putSession (f : Fleet) (name : String) (s : Placed Session) : Fleet :=
  { f with sessions := f.sessions.map fun e => if e.1 = name then (name, s) else e }

def writeSession? (f : Fleet) (name : String) (bytes : List UInt8) :
    Option (Except ContainerError Unit × Fleet) :=
  (f.session? name).map fun s =>
    let (r, it) := s.it.write bytes
    (r, f.putSession name { s with it })

/-- How long reading a session waits for a chunk. -/
def sessionPatience : Nat := 10

/-- Reads a chunk of a session's output, waiting a little for one. -/
def readSession? (f : Fleet) (name : String) : Option (Session.Chunk × Fleet) :=
  (f.session? name).map fun s =>
    match s.it.read with
    | (.pending, _) =>
      let f := f.elapse sessionPatience
      match f.session? name with
      | none => (.ended, f)
      | some s =>
        let (chunk, it) := s.it.read
        (chunk, f.putSession name { s with it })
    | (chunk, it) => (chunk, f.putSession name { s with it })

def cancelSession (f : Fleet) (name : String) : Fleet :=
  match f.session? name with
  | none => f
  | some s => f.putSession name { s with it := s.it.cancel }

/-- Closes the session of a name, once its pump has stopped; `none` if the pump never does. -/
def closeSession? (f : Fleet) (name : String) : Option Fleet :=
  let f := (f.cancelSession name).elapse 0
  if (f.session? name).all fun s => s.it.hasStopped then
    some { f with sessions := f.sessions.filter fun e => e.1 != name }
  else none

def startEventLoop (f : Fleet) : Fleet :=
  { f with eventLoop := some {} }

def forget (f : Fleet) (place : Nat) : Fleet :=
  { f with handles := f.handles.modify place Handle.clear }

/-- Cancels a handle: whoever waits at it or follows its log stops. -/
def cancelHandle (f : Fleet) (place : Nat) : Fleet :=
  { f with handles := f.handles.modify place fun h => { h with isCancelled := true } }

/-- Cancels a handle and the clients and watchers that work at it. -/
def cancelWorkAt (f : Fleet) (place : Nat) : Fleet :=
  { f.cancelHandle place with
    clients := f.clients.map fun c =>
      if c.handle = place then { c with it := c.it.on .cancel } else c
    watchers := f.watchers.map fun w =>
      if w.handle = place then { w with it := w.it.stop } else w }

/-- How many clients an uninterrupted closing closes. -/
def closeBurst : Nat := 128

/-- A fleet that is being closed, and how many more clients are closed before everybody else goes
on. -/
structure Closing where
  fleet : Fleet
  left : Nat := closeBurst
deriving Inhabited

/-- Closes a client for good.  One that is already cancelled may have to wait for its turn. -/
def Closing.client (c : Closing) (place : Nat) : Closing :=
  let f := c.fleet.onClient .cancel place
  let c : Closing := if c.left = 0 then { fleet := f.settle } else { c with fleet := f }
  { fleet := (c.fleet.onClient .withdraw place).onClient .showClosed place, left := c.left - 1 }

/-- Closes a service: its clients for good, then everything that works at its handle. -/
def Closing.service (c : Closing) (s : Service) : Closing :=
  let c := s.probe.clients.foldl Closing.client c
  { c with fleet := c.fleet.cancelWorkAt s.handle }

def closeService (f : Fleet) (s : Service) : Fleet :=
  (Closing.service { fleet := f } s).fleet

def cancelAll (f : Fleet) : Fleet :=
  let f := (List.range f.handles.length).foldl cancelWorkAt f
  { f with eventLoop := f.eventLoop.map fun l => l.on f.now .cancel }

/-- Closes every service, the last one built first. -/
def close (f : Fleet) : Fleet :=
  (f.services.reverse.foldl Closing.service { fleet := f }).fleet.cancelAll

end Fleet

end FleetWatch
