import GpuChannel.Library.Run
import GpuChannel.ZeroCopy
import GpuChannel.Publication
import GpuChannel.DeclaredModel
import GpuChannel.Rejection
import GpuChannel.BatchIsolation
import GpuChannel.RingWindow
import GpuChannel.CommitAtomicity
import GpuChannel.LaneAgreement
import GpuChannel.KeyInjectivity
import GpuChannel.NodeCalls
import GpuChannel.LaneMatrices
import GpuChannel.Fragmentation
import GpuChannel.CudaFading
import GpuChannel.Pacer
import GpuChannel.LostWake
import GpuChannel.WarmupHistory
import GpuChannel.RingRoom
import GpuChannel.TimingMetrics
import GpuChannel.JsonBodies
import GpuChannel.MixingFactor
import GpuChannel.ParallelTdl
import GpuChannel.CfoPhase
import GpuChannel.Activation
import GpuChannel.ParserPointers
import GpuChannel.CorrelationAcceptance
import GpuChannel.FadingSeeds
import GpuChannel.WireCapture
import GpuChannel.Telemetry
import GpuChannel.UsrpUplink
import GpuChannel.SionnaTaps
import GpuChannel.ControlReplies
import GpuChannel.FadingTime
import GpuChannel.LinkClock
import GpuChannel.AbsoluteFading
import GpuChannel.CudaBackend
import GpuChannel.ChannelKernel
import GpuChannel.ChainParity
import GpuChannel.LaneParity
import GpuChannel.CudaCalls
import GpuChannel.CpuRows
import GpuChannel.BackendParity
import GpuChannel.DeviceBounds
import GpuChannel.BackendPrepare
import GpuChannel.BackendRuns
import GpuChannel.CudaRuns
import GpuChannel.CudaIsolation
import GpuChannel.CudaReceiver
