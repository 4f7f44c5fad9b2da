import FleetWatch.Fleet.Run
import FleetWatch.Flow.Later
/-!
The status of a service.

The mode comes first: a service whose node is run elsewhere is ready, and its own container is not
looked at.  Then the container: one that does not run decides.  Then the backend's probe.  A failure
of the probe is told as the condition it is known to mean, or, while the backend is not reachable, by
the progress seen in its log; any other failure is passed on.
-/

namespace FleetWatch

/-- A line of the status table. -/
structure StatusRow where
  service : String
  status : String
  detail : Option Json
deriving Repr, BEq, Inhabited

/-- The line of a service whose status came out in a way. -/
def StatusRow.ofResult (service : String) : Except StatusError StatusReport → StatusRow
  | .ok report => { service, status := report.text, detail := report.detail }
  | .error e => { service, status := "Error: " ++ e.message, detail := none }

namespace Fleet

/-- The mode of a service; `none` if the engine never answers. -/
def mode (f : Fleet) (s : Service) : Option (Except StatusError Mode) × Fleet :=
  match s.descriptor.modeProbe with
  | none => (some (.ok s.descriptor.mode), f)
  | some probe =>
    let fault (reason : String) : StatusError :=
      .dependency s.descriptor.name probe.peer reason
    match (getNamed? probe.peer s.peers).bind fun place => f.services[place]? with
    | none => (some (.error (fault "not a declared dependency")), f)
    | some peer =>
      let (r, site) := (f.site peer.handle).getenv probe.env
      (r.map fun
        | .error e => .error (fault e.message)
        | .ok none => .error (fault (probe.env ++ " is not set"))
        | .ok (some value) => .ok (classifyMode value probe.nativeHost probe.lightEndpoints),
       f.putSite peer.handle site)

/-- What the service's container says of it: a report if it does not run. -/
def containerReport (d : ServiceDescriptor) (state : LifecycleState) : Option StatusReport :=
  if state.isRunning then none else some { text := containerStateText state d.disabled true }

/-- What a failed probe means. -/
def probeFault (name : String) (progress : Option SyncProgress) (e : RpcError) :
    Except StatusError StatusReport :=
  match classifyError e.message with
  | some condition => .ok { text := condition.text }
  | none =>
    if e.isUnreachable then
      match progress with
      | some p => .ok { text := if p.hasProgress then p.text else waitingFor name }
      | none => .ok { text := waitingFor name }
    else .error (.rpc e)

/-- How long a question to a backend takes that may take `timeout`: only one without an answer takes
any time. -/
def answered {α : Type} (timeout : Nat) (r : Except RpcError α) : Later (Except RpcError α) :=
  match r with
  | .error (.timeout _) => .after timeout r
  | _ => .now r

def ask (f : Fleet) (place : Nat) (s : Service) :
    Later (Except RpcError StatusReport) × Fleet :=
  match s.probe with
  | .none => (.now (.ok .ready), f)
  | .scripted outcome calls stopped =>
    let counted := { s with probe := .scripted outcome (calls + 1) stopped }
    let f := { f with services := f.services.set place counted }
    match outcome with
    | .report text => (.now (.ok { text }), f)
    | .failing message => (.now (.error (.backend none message)), f)
    | .noClient => (.now (.error .noClientYet), f)
    | .hanging => (.never, f)
  | .chainDaemon c =>
    let r := (f.client c).blockchainInfo f.network s.callTimeout
    ((answered s.callTimeout r).map Probe.chainDaemon, f)
  | .geth c =>
    let r := (f.client c).syncing f.network s.callTimeout
    ((answered s.callTimeout r).map Probe.geth, f)
  | .lnd c =>
    match (f.client c).lndInfo f.network s.callTimeout with
    | .error e => (answered s.callTimeout (.error e), f)
    | .ok info =>
      let wall := f.engine.wall
      let since := LogSince.at { wall with secs := wall.secs - Probe.newBlockWindow }
      let (lines, site) := (f.site s.handle).logs since .all
      let f := f.putSite s.handle site
      (.now (.ok (Probe.lnd info (Probe.newestBlock lines) (f.progress s))), f)
  | .xud c =>
    match (f.client c).dialLoop.current, (f.client c).dialer with
    | .error e, _ => (.now (.error e), f)
    | .ok _, .xucli container cli _ =>
      let (out, site) := (f.site s.handle).exec (Xucli.command cli)
      (.now (Probe.xud (Xucli.info container out)), f.putSite s.handle site)
    | .ok _, _ => (.now (.error .noClientYet), f)
  | .connext c =>
    let r := (f.client c).isHealthy f.network s.callTimeout
    ((answered s.callTimeout r).map Probe.connext, f)
  | .boltz chains =>
    let checks := chains.map fun chain => (chain.1, (f.client chain.2).check f.network)
    (.now (Probe.boltz checks), f)

def status (f : Fleet) (place : Nat) (s : Service) :
    Later (Except StatusError StatusReport) × Fleet :=
  match f.mode s with
  | (none, f) => (.never, f)
  | (some (.error e), f) => (.now (.error e), f)
  | (some (.ok .external), f) => (.now (.ok { text := readyExternalText }), f)
  | (some (.ok .light), f) => (.now (.ok { text := readyLightText }), f)
  | (some (.ok .native), f) =>
    let (state, site) := (f.site s.handle).status
    let f := f.putSite s.handle site
    match state with
    | none => (.never, f)
    | some (.error e) => (.now (.error (.container e)), f)
    | some (.ok state) =>
      match containerReport s.descriptor state with
      | some report => (.now (.ok report), f)
      | none =>
        let (answer, f) := f.ask place s
        let conclude (r : Except RpcError StatusReport) : Except StatusError StatusReport :=
          match r with
          | .ok report => .ok report
          | .error e => probeFault s.descriptor.name (f.progress s) e
        (answer.map conclude, f)

/-- What a status comes to for somebody who waits for it as long as a status may take. -/
def bounded (timeout : Nat) (name : String) (answer : Later (Except StatusError StatusReport)) :
    Except StatusError StatusReport :=
  (answer.within timeout).getD (.error (.timeout name timeout))

/-- The status of the service with a name, within the time that a status may take. -/
def statusOf (f : Fleet) (name : String) : Except FleetError StatusReport × Fleet :=
  match f.placeOf? name with
  | none => (.error (.serviceNotFound name), f)
  | some place =>
    match f.services[place]? with
    | none => (.error (.serviceNotFound name), f)
    | some s =>
      let (answer, f) := f.status place s
      let result := bounded f.statusTimeout name answer
      (result.mapError .status, f.elapse (answer.wait f.statusTimeout))

/-- The rows of the services from a place on, and how long they are waited for. -/
def statusRows (f : Fleet) (place : Nat) : List Service → List StatusRow × Nat × Fleet
  | [] => ([], 0, f)
  | s :: rest =>
    let name := s.descriptor.name
    let (answer, f) := f.status place ((f.services[place]?).getD s)
    let row := StatusRow.ofResult name (bounded f.statusTimeout name answer)
    let (rows, longest, f) := statusRows f (place + 1) rest
    (row :: rows, max (answer.wait f.statusTimeout) longest, f)

/-- The status of every service, in the order in which they were built.  All are asked at once, so
together they take no longer than one status may. -/
def statusTable (f : Fleet) : List StatusRow × Fleet :=
  let (rows, longest, f) := f.statusRows 0 f.services
  (rows, f.elapse longest)

end Fleet

end FleetWatch
