import FleetWatch.Json.Record
import FleetWatch.Rpc.Network
import FleetWatch.Text.Blank
import FleetWatch.Text.Lossy
import FleetWatch.Text.Search
/-!
JSON-RPC over HTTP.

The credentials are a user and a password, given or read from a cookie file.  A reply is an envelope
with a result or an error; an error's message is passed on word for word.
-/

namespace FleetWatch

namespace JsonRpc

/-- Where the credentials come from. -/
inductive Auth where
  | none
  | basic (username password : String)
  | cookie (path : String)
deriving Repr, DecidableEq, Inhabited

/-- User and password, if the backend asks for any. -/
abbrev Credentials : Type := Option (String × String)

/-- The user and password of a cookie: what stands before and after the first colon. -/
def readCookie? (text : String) : Option (String × String) :=
  match Text.splitOnce? [':'] (Text.trimChars text.toList) with
  | some (user, password) =>
    if user.isEmpty then none else some (String.ofList user, String.ofList password)
  | none => none

/-- Loads the credentials; `file` is what stands at a cookie's path. -/
def Auth.load (file : String → Except FileFault (List UInt8)) : Auth → Except RpcError Credentials
  | .none => .ok Option.none
  | .basic username password =>
    if username.isEmpty || password.isEmpty then
      .error (.credentialsUnavailable "rpc username or password is empty")
    else .ok (some (username, password))
  | .cookie path =>
    match file path with
    | .error fault => .error (.credentialsUnavailable (path ++ ": " ++ fault.message))
    | .ok bytes =>
      match Text.strictString? bytes with
      | Option.none => .error (.credentialsUnavailable (path ++ ": " ++ FileFault.notText.message))
      | some text =>
        match readCookie? text with
        | some credentials => .ok (some credentials)
        | Option.none => .error (.credentialsUnavailable (path ++ ": malformed cookie"))

def request (url : String) (credentials : Credentials) (method : String) (params : Json) :
    HttpRequest :=
  { method := "POST"
    url
    credentials
    body := some (.object
      [("jsonrpc", .string "2.0"), ("id", .string "dockwatch"), ("method", .string method),
       ("params", params)]) }

/-- The error object of an envelope: a code, if there is one, and the message. -/
def readFault? (j : Json) : Option (Option Int × String) := do
  match ← j.record? true [⟨"code", false⟩, ⟨"message", false⟩] with
  | [code, message] =>
    return (← Json.optional Json.signedWord? code, ← message.bind Json.string?)
  | _ => Option.none

/-- The result that a reply's envelope holds. -/
def readEnvelope (endpoint text : String) : Except RpcError Json :=
  match Json.parse text with
  | .error fault => .error (.invalidResponse endpoint fault.message)
  | .ok j =>
    match j.record? true [⟨"result", true⟩, ⟨"error", true⟩] with
    | some [result, fault] =>
      match Json.optional readFault? fault with
      | some (some (code, message)) => .error (.backend code message)
      | some Option.none => .ok (result.getD .null)
      | Option.none => .error (.invalidResponse endpoint "malformed error object")
    | _ => .error (.invalidResponse endpoint "malformed envelope")

def call (net : Network) (url : String) (credentials : Credentials) (timeout : Nat)
    (method : String) (params : Json) : Except RpcError Json :=
  match net.answer (request url credentials method params) with
  | .unreachable => .error (.connectFailed url Network.refusedReason)
  | .timedOut => .error (.timeout timeout)
  | .cutOff status =>
    if status = 401 ∨ status = 403 then
      .error (.backend (some status) ("HTTP " ++ statusText status ++ " from " ++ url))
    else .error (.invalidResponse url "the body broke off")
  | .reply status body =>
    if status = 401 ∨ status = 403 then
      .error (.backend (some status) ("HTTP " ++ statusText status ++ " from " ++ url))
    else readEnvelope url body

/-- What a chain daemon tells of its chain. -/
structure BlockchainInfo where
  chain : String
  blocks : Nat
  headers : Nat
  initialBlockDownload : Bool
deriving Repr, DecidableEq, Inhabited

def readBlockchainInfo? (j : Json) : Option BlockchainInfo := do
  match ← j.record? false
    [⟨"chain", false⟩, ⟨"blocks", false⟩, ⟨"headers", false⟩, ⟨"initialblockdownload", true⟩] with
  | [chain, blocks, headers, download] =>
    return {
      chain := ← chain.bind Json.string?
      blocks := ← blocks.bind Json.word?
      headers := ← headers.bind Json.word?
      initialBlockDownload := ← Json.withDefault false Json.bool? download }
  | _ => Option.none

def blockchainInfo (endpoint : String) (result : Except RpcError Json) :
    Except RpcError BlockchainInfo := do
  match readBlockchainInfo? (← result) with
  | some info => return info
  | Option.none => throw (.invalidResponse endpoint "not a chain's state")

/-- How far a node is with a sync that runs. -/
structure SyncHeights where
  current : Nat
  highest : Nat
deriving Repr, DecidableEq, Inhabited

/-- A hexadecimal number with any number of `0x` in front. -/
def readQuantity (text : String) : Except Text.IntegerFault Nat :=
  let rec strip : List Char → List Char
    | '0' :: 'x' :: rest => strip rest
    | cs => cs
  let rec digits (value : Nat) : List Char → Except Text.IntegerFault Nat
    | [] => .ok value
    | c :: rest =>
      match Text.hexValue? c with
      | Option.none => .error .invalidDigit
      | some d =>
        if value * 16 + d ≤ Text.max64 then digits (value * 16 + d) rest else .error .tooLarge
  match strip text.toList with
  | [] => .error .empty
  | ['+'] => .error .invalidDigit
  | '+' :: rest => digits 0 rest
  | cs => digits 0 cs

/-- The heights of a sync out of a result; nothing if the node does not sync. -/
def readSyncing (endpoint : String) : Json → Except RpcError (Option SyncHeights)
  | .bool false => .ok Option.none
  | .object members =>
    let field (name : String) : Except RpcError Nat :=
      let raw := ((Json.lookup? members name).bind Json.string?).getD "0x0"
      match readQuantity raw with
      | .ok n => .ok n
      | .error fault => .error (.invalidResponse endpoint (name ++ ": " ++ fault.message))
    do
      let current ← field "currentBlock"
      let highest ← field "highestBlock"
      return some { current, highest }
  | other =>
    .error (.invalidResponse endpoint ("unexpected eth_syncing result: " ++ other.sorted.compact))

end JsonRpc

end FleetWatch
