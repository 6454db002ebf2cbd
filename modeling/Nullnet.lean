import Nullnet.Auth.LastAdmin
import Nullnet.Auth.Lockout
import Nullnet.Auth.MfaProofs
import Nullnet.Auth.Revocation
import Nullnet.Client.AddressPlan
import Nullnet.Client.EpochRestarts
import Nullnet.Client.FlowRevisions
import Nullnet.Client.HostNames
import Nullnet.Client.Liveness
import Nullnet.Client.PolicyFlows
import Nullnet.Client.PolicyVerdicts
import Nullnet.Client.SetupRecords
import Nullnet.Client.SteerPurge
import Nullnet.Client.SteeringFrame
import Nullnet.Client.Triggers
import Nullnet.Client.XfrmContract
import Nullnet.Client.XfrmIdentity
import Nullnet.Config.Startup
import Nullnet.Ebpf.Peers
import Nullnet.Ebpf.RealPorts
import Nullnet.Proxy.Http
import Nullnet.Proxy.PortMappings
import Nullnet.Server.Admission
import Nullnet.Server.BackendHistory
import Nullnet.Server.BackendHolds
import Nullnet.Server.Connections
import Nullnet.Server.ControlStreams
import Nullnet.Server.EgressProtocol
import Nullnet.Server.EgressRows
import Nullnet.Server.EventWriter
import Nullnet.Server.HistoryGaps
import Nullnet.Server.IngressReload
import Nullnet.Server.OneBuild
import Nullnet.Server.Ownership
import Nullnet.Server.PauseAliases
import Nullnet.Server.Teardown
import Nullnet.Vxlan.Protocol
