import FleetWatch.Fleet.Build
import FleetWatch.Scenario.Engines
import FleetWatch.Service.Document
/-!
Fleets that a document describes.

The document has the engine's containers and either the text of a configuration, or descriptions of
services with the options that they are built with.  Services may also be put together without any
clients: each then has the outcome that its probe is given, and a watcher if it names one.
-/

namespace FleetWatch

/-- The environment that a document gives; a variable that is no text cannot be read. -/
def Environment.ofJson (j : Json) : Environment := fun key =>
  match j.get? key with
  | none => .ok none
  | some (.string s) => .ok (some s)
  | some _ => .error (.invalidValue key notTextReason)

/-- The configuration whose text and environment stand in a document. -/
def Config.ofJson (j : Json) : Except ConfigError Config :=
  Config.parse (j.text "text") (j.text "path" Config.defaultPath) (.ofJson (j.child "env"))

/-- How a loop tries again, in a document. -/
def RetryPolicy.ofJson (j : Json) : RetryPolicy :=
  { retryDelay := j.count "retry_ms" 3000, connectTimeout := j.count "connect_ms" 3000
    maxAttempts := j.count? "max_attempts" }

/-- How services are built, in a document. -/
def ServiceOptions.ofJson (j : Json) : ServiceOptions :=
  let policy := RetryPolicy.ofJson j
  { network := j.text "network" "testnet", retryDelay := policy.retryDelay
    connectTimeout := policy.connectTimeout, maxAttempts := policy.maxAttempts
    callTimeout := j.count "call_timeout_ms" 3000 }

/-- How a scripted probe comes out, in a document; `none` for a service without a backend. -/
def ScriptedOutcome.ofJson? : Json → Option ScriptedOutcome
  | .string "ready" => some (.report StatusReport.readyText)
  | .string "no_client" => some .noClient
  | .string "hang" => some .hanging
  | j => ((j.text? "report").map .report).or ((j.text? "fail").map .failing)

def PatternSet.ofName (name : String) : PatternSet :=
  if name = "neutrino_simnet" then .neutrino true
  else if name = "lnd_new_block" then .newBlocks
  else .neutrino false

namespace Fleet

/-- A fleet without services. -/
def onEngine (engine : Engine) (j : Json) : Fleet :=
  { engine, statusTimeout := j.count "status_timeout_ms" 10000 }

/-- Adds a service that is put together without clients. -/
def addFromJson (f : Fleet) (j : Json) : Fleet :=
  f.addScripted (.ofJson j) ((j.field? "probe").bind ScriptedOutcome.ofJson?)
    ((j.text? "watcher").map PatternSet.ofName)

/-- A fleet on containers in memory, at a time. -/
def ofJson (wall : Instant) (j : Json) : Except ConfigError Fleet :=
  let f := onEngine (.memory (.ofJson wall (j.items "containers"))) j
  if j.text "build" = "services" then .ok ((j.items "services").foldl addFromJson f)
  else if (j.field? "text").isSome then do f.ofConfig (← Config.ofJson j)
  else f.build (.ofJson j) ((j.items "services").map ServiceDescriptor.ofJson)

end Fleet

end FleetWatch
