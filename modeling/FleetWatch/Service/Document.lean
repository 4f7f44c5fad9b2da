import FleetWatch.Json.Fields
import FleetWatch.Service.Descriptor
/-!
Descriptions of services as documents.

Reading fills in what a document leaves out; writing leaves nothing out.
-/

namespace FleetWatch

namespace ServiceDescriptor

/-- The settings of a backend in a document; the host is the service's name unless it is given. -/
def rpcOfJson (name : String) (j : Json) : RpcSettings :=
  { host := j.text "host" name
    port := j.count? "port"
    ports := Json.sortMembers
      ((j.members "ports").filterMap fun m => m.2.nat?.map fun n => (m.1, n))
    tlsCert := j.text? "tls_cert"
    macaroon := j.text? "macaroon"
    username := j.text? "username"
    password := j.text? "password"
    cookieFile := j.text? "cookie_file"
    cli := j.text? "cli" }

def modeProbeOfJson (j : Json) : ModeProbe :=
  { peer := j.text "peer", env := j.text "env", nativeHost := j.text "native_host"
    lightEndpoints := j.texts "light_endpoints" }

/-- The description in a document.  The container is the one that the service has on the network
`testnet` unless it is given. -/
def ofJson (j : Json) : ServiceDescriptor :=
  let name := j.text "name"
  { name
    container := j.text "container" (defaultContainerName "testnet" name)
    kind := (ServiceKind.parse (j.text "kind")).toOption.getD .generic
    disabled := j.flag "disabled"
    mode := (Mode.ofName? (j.text "mode")).getD .native
    dependsOn := j.texts "depends_on"
    rpc := rpcOfJson name (j.child "rpc")
    modeProbe := (j.field? "mode_probe").map modeProbeOfJson }

end ServiceDescriptor

def RpcSettings.toJson (r : RpcSettings) : Json :=
  .object
    [("host", .string r.host), ("port", Json.optNat r.port),
     ("ports", .object (r.ports.map fun p => (p.1, .nat p.2))),
     ("tls_cert", Json.optString r.tlsCert), ("macaroon", Json.optString r.macaroon),
     ("username", Json.optString r.username), ("password", Json.optString r.password),
     ("cookie_file", Json.optString r.cookieFile), ("cli", Json.optString r.cli)]

def ModeProbe.toJson (p : ModeProbe) : Json :=
  .object
    [("peer", .string p.peer), ("env", .string p.env), ("native_host", .string p.nativeHost),
     ("light_endpoints", Json.ofTexts p.lightEndpoints)]

/-- A description as a document, with the services that it sees. -/
def ServiceDescriptor.toJson (d : ServiceDescriptor) : Json :=
  .object
    [("name", .string d.name), ("container", .string d.container), ("kind", .string d.kind.name),
     ("disabled", .bool d.disabled), ("mode", .string d.mode.name),
     ("depends_on", Json.ofTexts d.dependsOn), ("peers", Json.ofTexts d.peers),
     ("rpc", d.rpc.toJson),
     ("mode_probe", (d.modeProbe.map ModeProbe.toJson).getD .null)]

/-- What is listed of a service, as a document. -/
def ServiceSummary.toJson (s : ServiceSummary) : Json :=
  .object
    [("name", .string s.name), ("container", .string s.container), ("kind", .string s.kind.name),
     ("disabled", .bool s.disabled), ("mode", .string s.mode.name),
     ("depends_on", Json.ofTexts s.dependsOn)]

end FleetWatch
