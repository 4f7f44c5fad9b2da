import FleetWatch.Command.Table
import FleetWatch.Fleet.Control
import FleetWatch.Service.Document
import FleetWatch.Setup.Broadcast
/-!
What the commands print.

In JSON the members of a row stand in the order in which the row declares them, and a row without
details has none.  A milestone is one line.
-/

namespace FleetWatch

/-- What the table says of a service beside its name. -/
def ServiceSummary.info (s : ServiceSummary) : String :=
  s.kind.name ++ " (" ++ s.container ++ ")" ++ if s.disabled then " [disabled]" else ""

def StatusRow.toJson (r : StatusRow) : Json :=
  .object ([("service", .string r.service), ("status", .string r.status)] ++
    (r.detail.map fun d => ("detail", d)).toList)

/-- A milestone in JSON, with the time at which it was published. -/
def SetupMilestone.toJson (m : SetupMilestone) (time : String) : Json :=
  let details : Json := match m.details with
    | some pairs => .object (pairs.map fun p => (p.1, .string p.2))
    | none => .null
  .object
    [("seq", .nat m.seq), ("at", .string time), ("status", .string m.status),
     ("details", details)]

namespace Fleet

def summaries (f : Fleet) : List ServiceSummary :=
  f.services.map fun s => s.descriptor.summary

end Fleet

namespace Output

def services (summaries : List ServiceSummary) (asJson : Bool) : String :=
  if asJson then (Json.array (summaries.map ServiceSummary.toJson)).pretty ++ "\n"
  else renderTable ("SERVICE", "KIND") (summaries.map fun s => (s.name, s.info))

def statuses (rows : List StatusRow) (asJson : Bool) : String :=
  if asJson then (Json.array (rows.map StatusRow.toJson)).pretty ++ "\n"
  else renderTable ("SERVICE", "STATUS") (rows.map fun r => (r.service, r.status))

def lines (lines : List String) : String :=
  String.join (lines.map fun l => l ++ "\n")

/-- What a command printed, with its last line ended. -/
def commandText (output : String) : String :=
  if output.isEmpty || output.toList.getLast? = some '\n' then output else output ++ "\n"

/-- The exit code that is passed on; one that no process can have counts as failure. -/
def exitCode (code : Int) : Int :=
  if -0x80000000 ≤ code ∧ code ≤ 0x7FFFFFFF then code else 1

end Output

end FleetWatch
