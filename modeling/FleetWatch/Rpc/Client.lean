import FleetWatch.Rpc.DialLoop
import FleetWatch.Rpc.JsonRpc
import FleetWatch.Rpc.Lnd
import FleetWatch.Rpc.Xucli
/-!
Clients of the backends, each with the loop that connects it.

A `Dialer` knows how a backend is reached and what it needs to be.  The scripted one fails its first
loads and dials as it is told.
-/

namespace FleetWatch

abbrev Files : Type := String → Except FileFault (List UInt8)

inductive Dialer where
  /-- The first loads fail; the first dials hang and the next ones fail. -/
  | scripted (failingLoads hangingDials failingDials : Nat)
  | jsonRpc (host : String) (port : Nat) (auth : JsonRpc.Auth)
  | lnd (host : String) (port : Nat) (certificate macaroon : String)
  | xucli (container cli : String) (certificate : Option String)
  | health (url : String)
  | tcp (host : String) (port : Nat)
deriving Repr, DecidableEq, Inhabited

inductive Credentials where
  | none
  | login (login : JsonRpc.Credentials)
  | lnd (credentials : Lnd.Credentials)
deriving Repr, DecidableEq, Inhabited

namespace Dialer

def address (host : String) (port : Nat) : String :=
  host ++ ":" ++ toString port

def endpoint : Dialer → String
  | .scripted _ _ _ => "stub://backend"
  | .jsonRpc host port _ => "http://" ++ address host port ++ "/"
  | .lnd host port _ _ => address host port
  | .xucli container cli _ => cli ++ " (" ++ container ++ ")"
  | .health url => url
  | .tcp host port => address host port

/-- Whether anything stands at a path. -/
def isThere (files : Files) (path : String) : Bool :=
  match files path with
  | .error .notFound => false
  | _ => true

/-- The outcome of the load with a number. -/
def load (files : Files) (number : Nat) : Dialer → Except RpcError Credentials
  | .scripted failing _ _ =>
    if number ≤ failing then
      .error (.credentialsUnavailable ("credential load " ++ toString number ++ " failed"))
    else .ok .none
  | .jsonRpc _ _ auth => (auth.load files).map .login
  | .lnd _ _ certificate macaroon => (Lnd.load files certificate macaroon).map .lnd
  | .xucli _ _ (some certificate) =>
    if isThere files certificate then .ok .none
    else .error (.credentialsUnavailable (certificate ++ " does not exist yet"))
  | _ => .ok .none

/-- The outcome of the dial with a number; `none` if it never ends. -/
def dial (net : Network) (number : Nat) : Dialer → Option (Except RpcError Unit)
  | .scripted _ hanging failing =>
    if number ≤ hanging then Option.none
    else if number ≤ hanging + failing then
      some (.error (.connectFailed "stub://backend"
        ("dial " ++ toString number ++ " refused")))
    else some (.ok ())
  | .jsonRpc host port _ => some (net.connect (address host port) host port)
  | .lnd host port _ _ => some (net.connect (address host port) host port)
  | .xucli _ _ _ => some (.ok ())
  | .health _ => some (.ok ())
  | .tcp host port => some (net.connect (address host port) host port)

/-- Whether loading the credentials reads files. -/
def readsFiles : Dialer → Bool
  | .jsonRpc _ _ (.cookie _) => true
  | .lnd _ _ _ _ => true
  | .xucli _ _ (some _) => true
  | _ => false

def outcomes (d : Dialer) (files : Files) (net : Network) : DialLoop.Outcomes :=
  { load := fun n => (d.load files n).map fun _ => (), dial := fun n => d.dial net n }

end Dialer

inductive ScriptedCall where
  | answering (delay : Nat)
  | failing (message : String)
  | hanging
deriving Repr, DecidableEq, Inhabited

namespace ScriptedCall

/-- What comes of a call that may take `timeout`, and how long it takes. -/
def outcome (timeout : Nat) : ScriptedCall → Except RpcError Unit × Nat
  | .answering delay =>
    if delay ≤ timeout then (.ok (), delay) else (.error (.timeout timeout), timeout)
  | .failing message => (.error (.backend none message), 0)
  | .hanging => (.error (.timeout timeout), timeout)

end ScriptedCall

structure Client where
  dialer : Dialer
  /-- What the latest load gave. -/
  credentials : Credentials := .none
  dialLoop : DialLoop := {}
deriving Repr, DecidableEq, Inhabited

namespace Client

def credentialsAfter (c : Client) (files : Files) : DialEvent → Credentials
  | .loaded (.ok _) => (c.dialer.load files c.dialLoop.loads).toOption.getD .none
  | _ => c.credentials

/-- The next thing that the client's loop does, or `none` while it has to wait. -/
def step? (c : Client) (files : Files) (net : Network) (s : Site) : Option (Client × Site) :=
  (c.dialLoop.next? (c.dialer.outcomes files net) s).map fun (event, after) =>
    ({ c with
        credentials := c.credentialsAfter files event
        dialLoop := c.dialLoop.on s.now event }, after)

/-- Whether the client's credentials are being read from files. -/
def isReading (c : Client) : Bool :=
  c.dialLoop.phase == .loading && c.dialer.readsFiles

def on (c : Client) (event : DialEvent) : Client :=
  { c with dialLoop := c.dialLoop.on 0 event }

/-- Calls a scripted backend.  Without a client the call is not made; an answer tells which client
made it. -/
def call (c : Client) (call : ScriptedCall) (timeout : Nat) : Except RpcError Nat × Nat :=
  match c.dialLoop.current with
  | .error e => (.error e, 0)
  | .ok id =>
    let (r, duration) := call.outcome timeout
    (r.map fun _ => id, duration)

def blockchainInfo (c : Client) (net : Network) (timeout : Nat) :
    Except RpcError JsonRpc.BlockchainInfo := do
  let _ ← c.dialLoop.current
  let url := c.dialer.endpoint
  let login := match c.credentials with
    | .login login => login
    | _ => Option.none
  JsonRpc.blockchainInfo url
    (JsonRpc.call net url login timeout "getblockchaininfo" (.array []))

def syncing (c : Client) (net : Network) (timeout : Nat) :
    Except RpcError (Option JsonRpc.SyncHeights) := do
  let _ ← c.dialLoop.current
  let url := c.dialer.endpoint
  JsonRpc.readSyncing url
    (← JsonRpc.call net url Option.none timeout "eth_syncing" (.array []))

def lndInfo (c : Client) (net : Network) (timeout : Nat) : Except RpcError Lnd.Info := do
  let _ ← c.dialLoop.current
  match c.dialer, c.credentials with
  | .lnd _ port _ _, .lnd credentials =>
    Lnd.getInfo net c.dialer.endpoint port credentials timeout
  | _, _ => throw .noClientYet

/-- Whether a health page answers that all is well. -/
def isHealthy (c : Client) (net : Network) (timeout : Nat) : Except RpcError Bool := do
  let _ ← c.dialLoop.current
  let url := c.dialer.endpoint
  match net.answer { method := "GET", url } with
  | .unreachable => throw (.connectFailed url Network.refusedReason)
  | .timedOut => throw (.timeout timeout)
  | .cutOff status => return status == 204
  | .reply status _ => return status == 204

/-- Whether a port still accepts connections. -/
def check (c : Client) (net : Network) : Except RpcError Unit := do
  let _ ← c.dialLoop.current
  match c.dialer with
  | .tcp host port => net.connect c.dialer.endpoint host port
  | _ => throw .noClientYet

end Client

end FleetWatch
