import ResilientCtp.Py.Int
import ResilientCtp.Py.Value
import ResilientCtp.Model.Gslb
import ResilientCtp.Model.Spec
import ResilientCtp.Model.Election
import ResilientCtp.Model.GslbBuild
import ResilientCtp.Model.K8gbInstall
import ResilientCtp.Model.Reconcile
import ResilientCtp.Model.Compose
import ResilientCtp.Election.Gates
import ResilientCtp.Election.LostReads
import ResilientCtp.Election.Order
import ResilientCtp.Lib.Lease
import ResilientCtp.Run.Solo
import ResilientCtp.Run.Hysteresis
import ResilientCtp.Run.Outage
import ResilientCtp.Run.Tenure
import ResilientCtp.Cluster.System
import ResilientCtp.Cluster.SingleLeader
import ResilientCtp.Cluster.Evidence
import ResilientCtp.Cluster.Handoff
import ResilientCtp.Cluster.Agreement
import ResilientCtp.Run.Install
import ResilientCtp.Cluster.Refinement
import ResilientCtp.Lib.Throttle
import ResilientCtp.Run.Stamps
import ResilientCtp.Run.Renewal
import ResilientCtp.Run.Drift
import ResilientCtp.Run.Rewind
import ResilientCtp.Run.Modes
import ResilientCtp.Reads.Evidence
import ResilientCtp.Lib.Collect
import ResilientCtp.Reads.Pool
import ResilientCtp.Reads.Ledger
import ResilientCtp.Reads.Signal
import ResilientCtp.Reads.Observed
import ResilientCtp.Run.OwnGslb
import ResilientCtp.Lib.Memo
import ResilientCtp.Model.CloudRead
import ResilientCtp.Reads.Clients
import ResilientCtp.Py.Null
import ResilientCtp.Model.Received
import ResilientCtp.Reads.Nulls
import ResilientCtp.Reads.Records
import ResilientCtp.Run.Nulls
import ResilientCtp.Lib.Detector
import ResilientCtp.Cluster.Detector
import ResilientCtp.Cluster.Overlap
import ResilientCtp.Cluster.Failover
import ResilientCtp.Run.Damping
import ResilientCtp.Run.History
import ResilientCtp.Model.Entry
import ResilientCtp.Run.Loop
import ResilientCtp.Py.Fits
import ResilientCtp.Reads.Total
import ResilientCtp.Run.Fatal
import ResilientCtp.Cluster.Cloud
import ResilientCtp.Cluster.World
import ResilientCtp.Run.Settle
import ResilientCtp.Lib.Workers
import ResilientCtp.Reads.Budget
import ResilientCtp.Run.MemberOrder
import ResilientCtp.Cluster.Dns
import ResilientCtp.Cluster.Sdk
import ResilientCtp.Cluster.Direct
