import FleetWatch.Rpc.Client
import FleetWatch.Service.Report
import FleetWatch.Watch.Progress
/-!
What a backend's answer says of its service.

Each kind of backend has a rule that turns the answer to one question into a report.  An answer that
is an error is passed on, unless the rule says otherwise.
-/

namespace FleetWatch

namespace Probe

/-- A text with details, whose members are sorted. -/
def withDetail (text : String) (members : List (String × Json)) : StatusReport :=
  { text, detail := some (Json.sorted (.object members)) }

/-- A chain daemon is ready when it has every header's block.  Its own error messages are its
status. -/
def chainDaemon : Except RpcError JsonRpc.BlockchainInfo → Except RpcError StatusReport
  | .ok info =>
    let text :=
      if 0 < info.blocks ∧ info.blocks = info.headers then StatusReport.readyText
      else syncingText info.blocks info.headers
    .ok (withDetail text
      [("blocks", .nat info.blocks), ("headers", .nat info.headers),
       ("chain", .string info.chain)])
  | .error (.backend _ message) => .ok { text := message }
  | .error e => .error e

/-- A node is ready when it does not sync. -/
def geth : Except RpcError (Option JsonRpc.SyncHeights) → Except RpcError StatusReport
  | .ok none => .ok .ready
  | .ok (some h) =>
    .ok (withDetail (syncingText h.current h.highest)
      [("current_block", .nat h.current), ("highest_block", .nat h.highest)])
  | .error e => .error e

/-- How far back lnd's log is searched for its newest block, in seconds. -/
def newBlockWindow : Nat := 600

/-- The height of the newest block that lnd logged.  A log that could not be read tells none, and
neither does a height of zero. -/
def newestBlock : Except ContainerError (List String) → Option Nat
  | .error _ => none
  | .ok lines =>
    ((lines.reverse.findSome? fun line => PatternSet.newBlocks.read? (Text.trim line)).map
      Reading.height).filter fun height => 0 < height

/-- Lnd's status.  The block that it logged last counts first: lnd is ready once it has reached
that height. -/
def lndText (info : Lnd.Info) (logged : Option Nat) (progress : Option SyncProgress) : String :=
  match logged with
  | some height =>
    if info.blockHeight ≤ height then StatusReport.readyText
    else syncingText height info.blockHeight
  | none =>
    if info.syncedToChain then StatusReport.readyText
    else
      match progress with
      | some p =>
        if p.caughtUp then StatusReport.readyText
        else if p.hasProgress then p.text
        else "Syncing"
      | none => "Syncing"

def lnd (info : Lnd.Info) (logged : Option Nat) (progress : Option SyncProgress) :
    StatusReport :=
  withDetail (lndText info logged progress)
    [("block_height", .nat info.blockHeight),
     ("log_height", match logged with | some h => .nat h | none => .null),
     ("synced_to_chain", .bool info.syncedToChain),
     ("num_active_channels", .nat info.activeChannels)]

/-- The statuses of the parts of xud.  One that xud does not tell is empty. -/
def xudParts (info : Xucli.Info) : List (String × String) :=
  [("lndbtc", (info.lndStatus "BTC").getD ""), ("lndltc", (info.lndStatus "LTC").getD ""),
   ("connext", info.connext.getD "")]

/-- Xud is what its parts are. -/
def xud : Except RpcError Xucli.Info → Except RpcError StatusReport
  | .ok info =>
    .ok (withDetail (compositeStatus (xudParts info))
      ((xudParts info).map fun p => (p.1, .string p.2)))
  | .error e => .error e

/-- A health page that does not say all is well belongs to a backend that starts. -/
def connext : Except RpcError Bool → Except RpcError StatusReport
  | .ok isHealthy => .ok { text := if isHealthy then StatusReport.readyText else startingText }
  | .error e => .error e

/-- Whether a check found the backend not there yet. -/
def isUnreachable : Except RpcError Unit → Bool
  | .error e => e.isUnreachable
  | .ok _ => false

/-- Whether a check found the backend. -/
def isReached : Except RpcError Unit → Bool
  | .ok _ => true
  | .error _ => false

/-- Boltz is what its chains are.  While none of them is there yet, the failure of the first is
passed on. -/
def boltz (checks : List (String × Except RpcError Unit)) : Except RpcError StatusReport :=
  match checks with
  | (_, .error e) :: _ =>
    if checks.all fun c => isUnreachable c.2 then .error e else .ok (report checks)
  | _ => .ok (report checks)
where
  /-- The report of chains that are not all waited for. -/
  report (checks : List (String × Except RpcError Unit)) : StatusReport :=
    withDetail
      (compositeStatus (checks.map fun c =>
        (c.1, if isReached c.2 then StatusReport.readyText else "unreachable")))
      (checks.map fun c => (c.1, .bool (isReached c.2)))

end Probe

end FleetWatch
