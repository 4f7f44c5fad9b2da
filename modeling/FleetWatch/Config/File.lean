import FleetWatch.Config.Settings
import FleetWatch.Config.Toml.Reader
import FleetWatch.Json.Value
import FleetWatch.Service.Descriptor
/-!
The contents of a configuration file.

A record is a table with the keys that its type names and no others, or an array of the values in
the order of the type's fields.  In an array the fields with a default may be left out at the end;
optional fields have none there.
-/

namespace FleetWatch

structure ModeProbeEntry where
  peer : String
  env : String
  nativeHost : Option String := none
  lightEndpoints : Option (List String) := none
deriving Repr, DecidableEq, Inhabited

structure ServiceEntry where
  name : String
  kind : ServiceKind
  container : Option String := none
  disabled : Bool := false
  mode : Mode := .native
  dependsOn : List String := []
  host : Option String := none
  port : Option Nat := none
  ports : List (String × Nat) := []
  tlsCert : Option String := none
  macaroon : Option String := none
  username : Option String := none
  password : Option String := none
  cookieFile : Option String := none
  cli : Option String := none
  modeProbe : Option ModeProbeEntry := none
deriving Repr, DecidableEq, Inhabited

structure ConfigFile where
  network : Option String := none
  settings : FileSettings := {}
  services : List ServiceEntry := []
deriving Repr, DecidableEq, Inhabited

namespace Toml

/-- What a value was expected to be, when it is something else. -/
abbrev Decoded (α : Type) : Type := Except String α

def asString : Toml → Decoded String
  | .string s => .ok s
  | _ => .error "expected a string"

def asBool : Toml → Decoded Bool
  | .boolean b => .ok b
  | _ => .error "expected a boolean"

/-- A natural number up to a limit. -/
def asNat (limit : Nat) : Toml → Decoded Nat
  | .integer (.ofNat n) =>
    if n ≤ limit then .ok n else .error "integer out of range"
  | _ => .error "expected an unsigned integer"

/-- A list of values of one kind. -/
def asList {α : Type} (item : Toml → Decoded α) : Toml → Decoded (List α)
  | .array items => items.mapM item
  | _ => .error "expected an array"

/-- A table from keys to values of one kind, in the order of the keys. -/
def asMap {α : Type} (item : Toml → Decoded α) : Toml → Decoded (List (String × α))
  | .table members => do
    return Json.sortMembers (← members.mapM fun m => do return (m.1, ← item m.2))
  | _ => .error "expected a table"

/-- A name, or a table with the name as its only key and nothing under it. -/
def asName : Toml → Decoded String
  | .string s => .ok s
  | .table [(name, .table [])] => .ok name
  | .table [(name, .array [])] => .ok name
  | _ => .error "expected a name"

/-- One of the values with a name. -/
def asChoice {α : Type} (choose : String → Option α) (v : Toml) : Decoded α := do
  let name ← asName v
  match choose name with
  | some a => return a
  | none => throw ("unknown variant " ++ name)

/-- A field of a record, with whether an array may end before it. -/
structure Field where
  key : String
  hasDefault : Bool := false

/-- The values of a record's fields in order; absent ones are `none`. -/
def asRecord (fields : List Field) : Toml → Decoded (List (Option Toml))
  | .table members =>
    match members.find? fun m => !fields.any fun f => f.key == m.1 with
    | some m => .error ("unknown field " ++ m.1)
    | none => .ok (fields.map fun f => lookup? f.key members)
  | .array items =>
    if (fields.drop items.length).all Field.hasDefault then
      .ok ((items.take fields.length).map some ++
        (fields.drop items.length).map fun _ => none)
    else .error "too few values"
  | _ => .error "expected a table"

/-- The value of a field that may be absent. -/
def optional {α : Type} (item : Toml → Decoded α) : Option Toml → Decoded (Option α)
  | none => .ok none
  | some v => some <$> item v

def withDefault {α : Type} (d : α) (item : Toml → Decoded α) : Option Toml → Decoded α
  | none => .ok d
  | some v => item v

/-- The value of a field that has to be there. -/
def required {α : Type} (key : String) (item : Toml → Decoded α) : Option Toml → Decoded α
  | none => .error ("missing field " ++ key)
  | some v => item v

def settingsFields : List Field :=
  [⟨"status_timeout_secs", false⟩, ⟨"rpc_retry_delay_secs", false⟩,
   ⟨"rpc_connect_timeout_secs", false⟩, ⟨"rpc_call_timeout_secs", false⟩,
   ⟨"rpc_max_attempts", false⟩, ⟨"setup_log", false⟩, ⟨"setup_history", false⟩]

def asSettings (v : Toml) : Decoded FileSettings := do
  match ← asRecord settingsFields v with
  | [status, retry, connect, call, attempts, log, history] =>
    return {
      statusTimeoutSecs := ← optional (asNat Text.max64) status
      rpcRetryDelaySecs := ← optional (asNat Text.max64) retry
      rpcConnectTimeoutSecs := ← optional (asNat Text.max64) connect
      rpcCallTimeoutSecs := ← optional (asNat Text.max64) call
      rpcMaxAttempts := ← optional (asNat Text.max32) attempts
      setupLog := ← optional asString log
      setupHistory := ← optional (asNat Text.max64) history }
  | _ => throw "expected settings"

def modeProbeFields : List Field :=
  [⟨"peer", false⟩, ⟨"env", false⟩, ⟨"native_host", false⟩, ⟨"light_endpoints", false⟩]

def asModeProbe (v : Toml) : Decoded ModeProbeEntry := do
  match ← asRecord modeProbeFields v with
  | [peer, env, host, light] =>
    return {
      peer := ← required "peer" asString peer
      env := ← required "env" asString env
      nativeHost := ← optional asString host
      lightEndpoints := ← optional (asList asString) light }
  | _ => throw "expected a mode probe"

def rpcFields : List Field :=
  [⟨"host", false⟩, ⟨"port", false⟩, ⟨"ports", true⟩, ⟨"tls_cert", false⟩, ⟨"macaroon", false⟩,
   ⟨"username", false⟩, ⟨"password", false⟩, ⟨"cookie_file", false⟩, ⟨"cli", false⟩]

def withRpc (entry : ServiceEntry) (v : Toml) : Decoded ServiceEntry := do
  match ← asRecord rpcFields v with
  | [host, port, ports, tls, macaroon, username, password, cookie, cli] =>
    return { entry with
      host := ← optional asString host
      port := ← optional (asNat Text.max16) port
      ports := ← withDefault [] (asMap (asNat Text.max16)) ports
      tlsCert := ← optional asString tls
      macaroon := ← optional asString macaroon
      username := ← optional asString username
      password := ← optional asString password
      cookieFile := ← optional asString cookie
      cli := ← optional asString cli }
  | _ => throw "expected control settings"

def serviceFields : List Field :=
  [⟨"name", false⟩, ⟨"kind", false⟩, ⟨"container", false⟩, ⟨"disabled", true⟩, ⟨"mode", true⟩,
   ⟨"depends_on", true⟩, ⟨"rpc", true⟩, ⟨"mode_probe", false⟩]

def asService (v : Toml) : Decoded ServiceEntry := do
  match ← asRecord serviceFields v with
  | [name, kind, container, disabled, mode, dependsOn, rpc, modeProbe] => do
    let entry : ServiceEntry := {
      name := ← required "name" asString name
      kind := ← required "kind" (asChoice ServiceKind.ofName?) kind
      container := ← optional asString container
      disabled := ← withDefault false asBool disabled
      mode := ← withDefault .native (asChoice Mode.ofName?) mode
      dependsOn := ← withDefault [] (asList asString) dependsOn
      modeProbe := ← optional asModeProbe modeProbe }
    withDefault entry (withRpc entry) rpc
  | _ => throw "expected a service"

def fileFields : List Field :=
  [⟨"network", false⟩, ⟨"settings", true⟩, ⟨"services", true⟩]

def asFile (v : Toml) : Decoded ConfigFile := do
  match ← asRecord fileFields v with
  | [network, settings, services] =>
    return {
      network := ← optional asString network
      settings := ← withDefault {} asSettings settings
      services := ← withDefault [] (asList asService) services }
  | _ => throw "expected a configuration"

end Toml

/-- The contents of a file with a text, or why it has none. -/
def ConfigFile.parse (text : String) : Except String ConfigFile :=
  match Toml.parse text with
  | .error fault => .error fault.message
  | .ok document => Toml.asFile document

end FleetWatch
