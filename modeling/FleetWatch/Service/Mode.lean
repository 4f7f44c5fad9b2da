import FleetWatch.Service.Descriptor
import FleetWatch.Text.Blank
/-!
Telling a service's mode from the endpoint that a peer is configured with.
-/

namespace FleetWatch

/-- Our own host means that the backend runs in its container, an endpoint of the light list that a
light client is used, and anything else that the node is run elsewhere. -/
def classifyMode (value nativeHost : String) (lightEndpoints : List String) : Mode :=
  let value := Text.trim value
  if value = nativeHost then .native
  else if lightEndpoints.contains value then .light
  else .external

end FleetWatch
