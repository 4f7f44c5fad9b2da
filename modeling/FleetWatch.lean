import FleetWatch.Json.Reader
import FleetWatch.Json.Writer
import FleetWatch.Container.Lines
import FleetWatch.Service.Mode
import FleetWatch.Config.Document
import FleetWatch.Scenario.Fleets
import FleetWatch.Main
import FleetWatch.Proofs.Setup.Delivery
import FleetWatch.Proofs.Rpc.Redial
import FleetWatch.Proofs.Registry.DependencyOrder
import FleetWatch.Proofs.Setup.LoadThenFollow
import FleetWatch.Proofs.Container.LogOpenings
import FleetWatch.Proofs.Container.SessionClosing
import FleetWatch.Proofs.Rpc.Closing
import FleetWatch.Proofs.Service.Reconnect
import FleetWatch.Proofs.Config.Accepted
import FleetWatch.Proofs.Fleet.StatusDerivation
import FleetWatch.Proofs.Fleet.Gathering
import FleetWatch.Proofs.Fleet.StatusTable
import FleetWatch.Proofs.Fleet.Deafness
import FleetWatch.Proofs.Registry.MissedStop
import FleetWatch.Proofs.Fleet.PeerSight
import FleetWatch.Proofs.Registry.Schedule
import FleetWatch.Proofs.Registry.Cancellation
import FleetWatch.Proofs.Rpc.LoopEnd
import FleetWatch.Proofs.Fleet.Wiring
import FleetWatch.Proofs.Setup.Rotation
import FleetWatch.Proofs.Rpc.Licence
import FleetWatch.Proofs.Setup.Additions
import FleetWatch.Proofs.Rpc.Ceiling
import FleetWatch.Proofs.Rpc.DialTiming
import FleetWatch.Proofs.Watch.CaughtUp
import FleetWatch.Proofs.Command.SetupStatus
import FleetWatch.Proofs.Text.Decimal
import FleetWatch.Proofs.Container.Reassembly
import FleetWatch.Proofs.Watch.HeightLines
import FleetWatch.Proofs.Container.FollowerTurn
import FleetWatch.Proofs.Container.CachedSnapshot
import FleetWatch.Proofs.Container.FollowedLines
import FleetWatch.Proofs.Container.FollowedToRest
import FleetWatch.Proofs.Setup.LatestSession
import FleetWatch.Proofs.Setup.RetainedHistory
import FleetWatch.Proofs.Registry.CycleDiagnosis
import FleetWatch.Proofs.Service.XudStatus
import FleetWatch.Proofs.Config.Layers
import FleetWatch.Proofs.Container.LogStart
import FleetWatch.Proofs.Service.BoltzStatus
import FleetWatch.Proofs.Service.LndStatus
