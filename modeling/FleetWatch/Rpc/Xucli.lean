import FleetWatch.Container.State
import FleetWatch.Error
import FleetWatch.Json.Record
import FleetWatch.Text.Blank
/-!
The state of xud as its command line tool prints it.

The statuses of the lnd clients come as an object by currency, or as a list of pairs; a status that
is missing or is no text is empty.
-/

namespace FleetWatch

namespace Xucli

/-- What xud tells of itself and its parts. -/
structure Info where
  version : Option String
  /-- Statuses by currency, in the order of the currencies. -/
  lnd : List (String × String)
  connext : Option String
deriving Repr, DecidableEq, Inhabited

def Info.lndStatus (info : Info) (currency : String) : Option String :=
  (info.lnd.find? fun s => s.1 == currency).map Prod.snd

def command (cli : String) : List String :=
  [cli, "getinfo", "-j"]

def statusOf (j : Json) : String :=
  ((j.get? "status").bind Json.string?).getD ""

def pairStatus? (j : Json) : Option (String × String) :=
  match j with
  | .array (.string currency :: info :: _) => some (currency, statusOf info)
  | _ => none

def lndStatuses (j : Json) : List (String × String) :=
  match j.get? "lnd", j.get? "lndMap" with
  | some (.object members), _ => Json.sortMembers (members.map fun m => (m.1, statusOf m.2))
  | _, some (.array pairs) => Json.sortMembers (pairs.filterMap pairStatus?)
  | _, _ => []

def ofJson (j : Json) : Info :=
  { version := (j.get? "version").bind Json.string?
    lnd := lndStatuses j
    connext := (j.get? "connext").map statusOf }

def readInfo (endpoint output : String) : Except RpcError Info :=
  match Json.parse (Text.trim output) with
  | .ok j => .ok (ofJson j)
  | .error fault => .error (.invalidResponse endpoint fault.message)

/-- The state, given how the command went. -/
def info (endpoint : String) : Except ContainerError ExecOutput → Except RpcError Info
  | .error e => .error (.connectFailed endpoint e.message)
  | .ok out =>
    if out.success then readInfo endpoint out.output
    else .error (.backend (some out.exitCode) (Text.trim out.output))

end Xucli

end FleetWatch
