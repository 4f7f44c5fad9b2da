import FleetWatch.Error
import FleetWatch.Text.Blank
import FleetWatch.Text.Integer
/-!
The settings of a run, from three layers: the environment, the file, the defaults.

A variable that is present decides, also when its text is no number: then the whole configuration is
refused and the file is not fallen back on.  A time of no seconds is refused from either layer, and
so is a ceiling of no attempts.
-/

namespace FleetWatch

/-- Looks a variable up in the environment.  A value that is no text is an error. -/
abbrev Environment : Type := String → Except ConfigError (Option String)

/-- Why a variable's value that is no text is refused. -/
def notTextReason : String := "not valid unicode"

structure FileSettings where
  statusTimeoutSecs : Option Nat := none
  rpcRetryDelaySecs : Option Nat := none
  rpcConnectTimeoutSecs : Option Nat := none
  rpcCallTimeoutSecs : Option Nat := none
  rpcMaxAttempts : Option Nat := none
  setupLog : Option String := none
  setupHistory : Option Nat := none
deriving Repr, DecidableEq, Inhabited

/-- The settings of a run; times are in seconds. -/
structure Settings where
  statusTimeout : Nat := 10
  rpcRetryDelay : Nat := 3
  rpcConnectTimeout : Nat := 3
  rpcCallTimeout : Nat := 3
  /-- No ceiling when absent. -/
  rpcMaxAttempts : Option Nat := none
  setupLog : String
  setupHistory : Nat := 1024
deriving Repr, DecidableEq, Inhabited

namespace Settings

/-- The settings of a network when nothing is set. -/
def defaults (network : String) : Settings :=
  { setupLog := "/root/network/logs/" ++ network ++ ".log" }

/-- A variable's text as a number up to `limit`, between blanks. -/
def readVariable (limit : Nat) (key raw : String) : Except ConfigError Nat :=
  match Text.readNat limit (Text.trimChars raw.toList) with
  | .ok n => .ok n
  | .error fault => .error (.invalidValue key ("'" ++ raw ++ "': " ++ fault.message))

/-- The number of a variable, or `fallback` when the variable is absent. -/
def number (env : Environment) (key : String) (fallback : Nat) : Except ConfigError Nat := do
  match ← env key with
  | some raw => readVariable Text.max64 key raw
  | none => return fallback

/-- A number of seconds, at least one. -/
def seconds (env : Environment) (key : String) (fallback : Nat) : Except ConfigError Nat := do
  let n ← number env key fallback
  if n = 0 then throw (.invalidValue key "must be at least 1 second")
  return n

/-- The ceiling of connection attempts, which is positive where there is one. -/
def attempts (env : Environment) (file : Option Nat) : Except ConfigError (Option Nat) := do
  let key := "DOCKWATCH_RPC_MAX_ATTEMPTS"
  let ceiling ←
    match ← env key with
    | some raw => some <$> readVariable Text.max32 key raw
    | none => pure file
  if ceiling = some 0 then
    throw (.invalidValue key "must be positive; leave unset to retry forever")
  return ceiling

def resolve (file : FileSettings) (network : String) (env : Environment) :
    Except ConfigError Settings := do
  let base := defaults network
  let rpcMaxAttempts ← attempts env file.rpcMaxAttempts
  let statusTimeout ← seconds env "DOCKWATCH_STATUS_TIMEOUT_SECS"
    (file.statusTimeoutSecs.getD base.statusTimeout)
  let rpcRetryDelay ← seconds env "DOCKWATCH_RPC_RETRY_DELAY_SECS"
    (file.rpcRetryDelaySecs.getD base.rpcRetryDelay)
  let rpcConnectTimeout ← seconds env "DOCKWATCH_RPC_CONNECT_TIMEOUT_SECS"
    (file.rpcConnectTimeoutSecs.getD base.rpcConnectTimeout)
  let rpcCallTimeout ← seconds env "DOCKWATCH_RPC_CALL_TIMEOUT_SECS"
    (file.rpcCallTimeoutSecs.getD base.rpcCallTimeout)
  let setupLog := (← env "DOCKWATCH_SETUP_LOG").getD (file.setupLog.getD base.setupLog)
  let setupHistory ← number env "DOCKWATCH_SETUP_HISTORY"
    (file.setupHistory.getD base.setupHistory)
  return { statusTimeout, rpcRetryDelay, rpcConnectTimeout, rpcCallTimeout, rpcMaxAttempts,
           setupLog, setupHistory }

end Settings

end FleetWatch
