import FleetWatch.Json.Record
import FleetWatch.Rpc.Network
import FleetWatch.Text.Blank
import FleetWatch.Text.Digit
/-!
The REST interface of lnd.

A client needs a certificate and a macaroon, both read from files.  A reply that is no success
carries an error object, or text that is passed on as it is.
-/

namespace FleetWatch

namespace Lnd

/-- What a client needs: the certificate, and the macaroon in hexadecimal digits. -/
structure Credentials where
  certificate : List UInt8
  macaroon : String
deriving Repr, DecidableEq, Inhabited

def hexText (bytes : List UInt8) : String :=
  String.ofList (bytes.flatMap fun b =>
    [Text.hexDigit (b.toNat / 16), Text.hexDigit (b.toNat % 16)])

/-- Loads certificate and macaroon, in this order. -/
def load (file : String → Except FileFault (List UInt8)) (certificate macaroon : String) :
    Except RpcError Credentials := do
  let read (path : String) : Except RpcError (List UInt8) :=
    match file path with
    | .ok bytes => .ok bytes
    | .error fault => .error (.credentialsUnavailable (path ++ ": " ++ fault.message))
  return { certificate := ← read certificate, macaroon := hexText (← read macaroon) }

structure Info where
  identityPubkey : String
  blockHeight : Nat
  syncedToChain : Bool
  activeChannels : Nat
deriving Repr, DecidableEq, Inhabited

def readInfo? (j : Json) : Option Info := do
  match ← j.record? true
    [⟨"identity_pubkey", true⟩, ⟨"block_height", true⟩, ⟨"synced_to_chain", true⟩,
     ⟨"num_active_channels", true⟩] with
  | [pubkey, height, synced, channels] =>
    return {
      identityPubkey := ← Json.withDefault "" Json.string? pubkey
      blockHeight := ← Json.withDefault 0 Json.word? height
      syncedToChain := ← Json.withDefault false Json.bool? synced
      activeChannels := ← Json.withDefault 0 Json.word? channels }
  | _ => none

/-- The error that a reply without success tells. -/
def backendError (status : Nat) (text : String) : RpcError :=
  let plain := Text.trim text
  let read : Option RpcError := do
    let j ← (Json.parse text).toOption
    match ← j.record? true [⟨"code", true⟩, ⟨"message", true⟩, ⟨"error", true⟩] with
    | [code, message, error] =>
      let code ← Json.optional Json.signedWord? code
      let message ← Json.optional Json.string? message
      let error ← Json.optional Json.string? error
      return .backend code ((message.or error).getD ("HTTP " ++ statusText status))
    | _ => none
  read.getD
    (.backend (some status) (if plain.isEmpty then "HTTP " ++ statusText status else plain))

def getInfo (net : Network) (endpoint : String) (port : Nat) (credentials : Credentials)
    (timeout : Nat) : Except RpcError Info :=
  let request : HttpRequest :=
    { method := "GET"
      url := "https://localhost:" ++ toString port ++ "/v1/getinfo"
      macaroon := some credentials.macaroon }
  match net.answer request with
  | .unreachable => .error (.connectFailed endpoint Network.refusedReason)
  | .timedOut => .error (.timeout timeout)
  | .cutOff _ => .error (.invalidResponse endpoint "the body broke off")
  | .reply status body =>
    if 200 ≤ status ∧ status < 300 then
      match (Json.parse body).toOption.bind readInfo? with
      | some info => .ok info
      | none => .error (.invalidResponse endpoint "not lnd's state")
    else .error (backendError status body)

end Lnd

end FleetWatch
