import Mlrc.Repair.Solve
import Mlrc.Repair.Decode
import Mlrc.Pipeline.Plan
import Mlrc.Pipeline.Chain
import Mlrc.Pipeline.Stream
import Mlrc.Pipeline.LocalDirect
import Mlrc.Pipeline.Hub
import Mlrc.Pipeline.HubDecode
import Mlrc.Pipeline.Deliver
import Mlrc.Repair.HelperDecode
import Mlrc.Data.Run
import Mlrc.Phase2.Launch
import Mlrc.Phase2.Exchange
import Mlrc.Phase2.ExchangeInv
import Mlrc.Phase2.Sound
import Mlrc.Data.Files
import Mlrc.Datanode.Commit
import Mlrc.Datanode.Verdict
import Mlrc.Datanode.RangeWrite
import Mlrc.Datanode.Publish
import Mlrc.Coordinator.Layout
import Mlrc.Client.Counts
import Mlrc.Client.Agree
import Mlrc.Coordinator.LocalEquations
import Mlrc.Coordinator.RecoveryGroups
import Mlrc.Coordinator.RecoveryFits
import Mlrc.Coordinator.Placement
import Mlrc.Coordinator.Plans
import Mlrc.Coordinator.Feasible
import Mlrc.Coordinator.Upload
import Mlrc.Coordinator.GroupSizes
import Mlrc.Coordinator.Recovery
import Mlrc.Coordinator.Locations
import Mlrc.Coordinator.Replacement
import Mlrc.Coordinator.Report
import Mlrc.Data.Slots
import Mlrc.Proxy.Split
import Mlrc.Client.Set
import Mlrc.Client.Stored
import Mlrc.Coordinator.GetStripe
import Mlrc.Client.Get
import Mlrc.Data.Port
import Mlrc.Proxy.Append
import Mlrc.Proxy.Save
import Mlrc.Hmbr.Split
import Mlrc.Hmbr.Writes
import Mlrc.Repair.Decoders
import Mlrc.Coordinator.AppendLayout
import Mlrc.Datanode.ParityFile
import Mlrc.Datanode.RecoveryRoute
import Mlrc.Data.Pool
import Mlrc.Pipeline.PortSessions
import Mlrc.Data.Queue
import Mlrc.Pipeline.Truncated
import Mlrc.Pipeline.WindowFlow
import Mlrc.Pipeline.WindowStream
import Mlrc.Algebra.Cauchy
import Mlrc.Repair.Tolerance
import Mlrc.Repair.Optimal
import Mlrc.Repair.GlobalFirst
import Mlrc.Decode.Single
import Mlrc.Algebra.PowerSums
import Mlrc.Decode.AzureRows
import Mlrc.Decode.AzureOne
import Mlrc.Decode.Azure
import Mlrc.Decode.Optimal
import Mlrc.Client.SubSet
import Mlrc.Hybrid.Partitions
import Mlrc.Hybrid.Choose
import Mlrc.Pipeline.PortRuns
import Mlrc.Client.Append
import Mlrc.Hmbr.Conv
import Mlrc.Pipeline.HubRun
import Mlrc.Gf.Vector
import Mlrc.Decode.Recovery
import Mlrc.Proxy.Limiter
