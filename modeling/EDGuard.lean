import EDGuard.ProbeLoss
import EDGuard.ProbeCluster
import EDGuard.PumpDelivery
import EDGuard.RunnerProgress
import EDGuard.PodDeletion
import EDGuard.GroupStart
import EDGuard.RunnerStop
import EDGuard.RunnerAttach
import EDGuard.GroupWait
import EDGuard.Manager
import EDGuard.GroupStop
import EDGuard.ManagerInv
import EDGuard.ManagerShutdown
import EDGuard.ManagerOrder
import EDGuard.GroupHalt
import EDGuard.ManagerCancel
import EDGuard.ProbePrivate
import EDGuard.Lib.Interleave
import EDGuard.PodRegistry
import EDGuard.PodIndependence
import EDGuard.RunnerKeys
import EDGuard.PodPanic
import EDGuard.PodResync
import EDGuard.ProbeOnce
import EDGuard.ProbeCapture
import EDGuard.Lib.Layout
import EDGuard.RecordLayout
import EDGuard.ManagerReady
import EDGuard.ManagerFail
import EDGuard.Lib.AddressMap
import EDGuard.SymbolOffset
import EDGuard.ChildPid
import EDGuard.ClusterName
import EDGuard.Lib.Settling
import EDGuard.Lib.Simulation
import EDGuard.PumpSettles
import EDGuard.Agent
import EDGuard.RunnerOrigin
import EDGuard.AgentOrigin
import EDGuard.AgentDelivery
import EDGuard.AgentShutdown
import EDGuard.RunnerSettles
import EDGuard.AgentThreads
import EDGuard.RunnerLinear
import EDGuard.GroupWork
import EDGuard.Process
import EDGuard.AgentTiming
import EDGuard.PumpLedger
import EDGuard.AgentOffsets
