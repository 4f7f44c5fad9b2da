import FleetWatch.Calendar.Stamp
import FleetWatch.Command.Run
import FleetWatch.Container.Socket
import Std.Time.Format
/-!
The program.

Standard output gets what a command prints and standard error its failure.  The bring-up is shown as
the log grows.  Commands about containers need an engine behind a socket; there is no transport to
one here, so they end by saying that none is available.
-/

namespace FleetWatch

namespace Program

def usage : String :=
  "Readiness status for a fleet of containerized backends\n\n" ++
  "Usage: fleetwatch [-c FILE] [--json-logs] COMMAND\n\n" ++
  "  services [--json]\n" ++
  "  status [SERVICE] [--json]\n" ++
  "  logs SERVICE [--since TIME] [--tail COUNT] [-f]\n" ++
  "  exec SERVICE CMD...\n" ++
  "  setup-status [--history COUNT]\n" ++
  "  watch [--interval SECONDS]\n"

def versionText : String := "fleetwatch 0.1.0"

/-- The variables that a configuration may look up. -/
def consulted : List String :=
  ["DOCKWATCH_CONFIG", "DOCKWATCH_NETWORK", "DOCKWATCH_STATUS_TIMEOUT_SECS",
   "DOCKWATCH_RPC_RETRY_DELAY_SECS", "DOCKWATCH_RPC_CONNECT_TIMEOUT_SECS",
   "DOCKWATCH_RPC_CALL_TIMEOUT_SECS", "DOCKWATCH_RPC_MAX_ATTEMPTS", "DOCKWATCH_SETUP_LOG",
   "DOCKWATCH_SETUP_HISTORY"]

/-- The process's environment.  An empty variable counts as unset. -/
def environment : IO Environment := do
  let found ← consulted.filterMapM fun key => do
    match ← IO.getEnv key with
    | some value => return if value.isEmpty then none else some (key, value)
    | none => return none
  return fun key => .ok (found.lookup key)

/-- What stands under a path. -/
def readFile (path : String) : IO Config.FileContents := do
  try
    return .ok (← IO.FS.readBinFile path).toList
  catch
    | .noFileOrDirectory _ _ _ => return .error .notFound
    | _ => return .error .isDirectory

/-- The configuration that the command line or the environment names. -/
def readConfig (named : Option String) : IO (Except ConfigError Config) := do
  let env ← environment
  match named with
  | some path => return Config.load path (← readFile path) env
  | none =>
    let path := match env Config.pathVariable with
      | .ok (some path) => path
      | _ => Config.defaultPath
    let contents ← readFile path
    return Config.fromEnvironment (fun _ => contents) env

def now : IO Instant := do
  let nanos := (← Std.Time.Timestamp.now).toNanosecondsSinceUnixEpoch.val
  return ⟨nanos / 1000000000, (nanos % 1000000000).toNat⟩

/-- What a disk's path comes to after the file was looked at. -/
def lookAgain (contents : Config.FileContents) (disk : Disk) : Disk :=
  match contents with
  | .ok bytes => disk.removeDirectory.write bytes
  | .error .notFound => disk.remove.removeDirectory
  | .error _ => disk.remove.makeDirectory

def fail (message : String) : IO UInt32 := do
  IO.eprintln ("Error: " ++ message)
  return 1

/-- Shows the bring-up until it is done. -/
partial def follow (path : String) (run : CommandRun) : IO UInt32 := do
  IO.print run.printed
  (← IO.getStdout).flush
  let run := { run with printed := "" }
  match run.outcome? with
  | some (.ok code) => return code.toNat.toUInt32
  | some (.error message) => fail (message.getD "stopped")
  | none =>
    IO.sleep Tail.pollInterval.toUInt32
    let contents ← readFile path
    let clock := (← now).stamp
    follow path (({ run with clock }.onDisk (lookAgain contents)).elapse Tail.pollInterval)

def run (i : Invocation) : IO UInt32 := do
  match ← readConfig i.config with
  | .error e => fail e.message
  | .ok config =>
    match i.command with
    | .setupStatus history =>
      let path := config.settings.setupLog
      let disk := lookAgain (← readFile path) {}
      let clock := (← now).stamp
      follow path ((CommandRun.startSetup config.settings disk clock history).elapse 0)
    | _ => fail (ContainerError.notAvailable EngineSocket.absentReason).message

end Program

end FleetWatch

/-- Reads the command line and does what it asks for. -/
def main (arguments : List String) : IO UInt32 := do
  match FleetWatch.Invocation.parse arguments with
  | .ok i => FleetWatch.Program.run i
  | .error .helpWanted =>
    IO.print FleetWatch.Program.usage
    return 0
  | .error .versionWanted =>
    IO.println FleetWatch.Program.versionText
    return 0
  | .error e =>
    IO.eprintln ("error: " ++ e.message ++ "\n\n" ++ FleetWatch.Program.usage)
    return 2
