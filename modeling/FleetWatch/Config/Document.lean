import FleetWatch.Config
import FleetWatch.Service.Document
/-!
An accepted configuration as a document, with everything that was filled in.  Spans of time are in
seconds.
-/

namespace FleetWatch

def Settings.toJson (s : Settings) : Json :=
  .object
    [("status_timeout", .nat s.statusTimeout), ("rpc_retry_delay", .nat s.rpcRetryDelay),
     ("rpc_connect_timeout", .nat s.rpcConnectTimeout),
     ("rpc_call_timeout", .nat s.rpcCallTimeout),
     ("rpc_max_attempts", Json.optNat s.rpcMaxAttempts), ("setup_log", .string s.setupLog),
     ("setup_history", .nat s.setupHistory)]

/-- The options that services are built with, as a document. -/
def ServiceOptions.toJson (o : ServiceOptions) : Json :=
  .object
    [("network", .string o.network), ("retry_delay", .nat (o.retryDelay / 1000)),
     ("connect_timeout", .nat (o.connectTimeout / 1000)),
     ("max_attempts", Json.optNat o.maxAttempts), ("call_timeout", .nat (o.callTimeout / 1000))]

def Config.toJson (c : Config) : Json :=
  .object
    [("network", .string c.network), ("path", .string c.path), ("settings", c.settings.toJson),
     ("services", .array (c.services.map ServiceDescriptor.toJson)),
     ("summaries", .array (c.services.map fun d => d.summary.toJson)),
     ("options", c.serviceOptions.toJson)]

end FleetWatch
