import PorthCore.Verified.Transition
import PorthCore.Verified.BoundedFifo
import PorthCore.Verified.Circular
import PorthCore.Ports.RingBuffer
import PorthCore.Ports.RingFifo
import PorthCore.Verified.Location
import PorthCore.Verified.Pursuit
import PorthCore.Ports.RingSteps
import PorthCore.Ports.RingSpsc
import PorthCore.Ports.SimDevice
import PorthCore.Ports.Driver
import PorthCore.Ports.TwinGeometry
import PorthCore.Ports.XdpPortal
import PorthCore.Ports.Conservation
import PorthCore.Ports.DmaSteps
import PorthCore.Ports.Contention
import PorthCore.Ports.Completion
import PorthCore.Ports.Teardown
import PorthCore.Ports.Handshake
import PorthCore.Ports.Sessions
import PorthCore.Ports.ChaosGuard
import PorthCore.Ports.GuardIsolation
import PorthCore.Ports.Thermal
import PorthCore.Ports.OperatingEnvelope
import PorthCore.Ports.Monitor
import PorthCore.Ports.Watchdog
import PorthCore.Ports.InjectedBreach
import PorthCore.Ports.SafetyTrip
import PorthCore.Ports.PortalBinding
import PorthCore.Ports.XskRings
import PorthCore.Ports.Reception
import PorthCore.Ports.RxAccounting
import PorthCore.Ports.FrameOwnership
import PorthCore.Ports.ProtocolDelay
import PorthCore.Verified.ByteProbe
import PorthCore.Ports.XdpFilter
import PorthCore.Ports.NetworkPortal
import PorthCore.Ports.PayloadView
import PorthCore.Ports.BridgeSteps
import PorthCore.Ports.FramePool
import PorthCore.Ports.Overshoot
import PorthCore.Ports.PortalHandles
import PorthCore.Ports.Observer
import PorthCore.Ports.ThermalInertia
import PorthCore.Ports.SnrFeedback
import PorthCore.Ports.ShuttleAddress
import PorthCore.Ports.SizeGuard
import PorthCore.Ports.DmaRegion
import PorthCore.Ports.SentinelLifecycle
import PorthCore.Verified.OrderStatistic
import PorthCore.Ports.Metric
import PorthCore.Ports.MetricObjects
import PorthCore.Ports.MetricJitter
import PorthCore.Ports.MockHandshake
import PorthCore.Verified.Dictionary
import PorthCore.Ports.LatencyGuard
import PorthCore.Ports.FuzzHarness
import PorthCore.Ports.FuzzRing
import PorthCore.Ports.FuzzProgress
import PorthCore.Verified.Ledger
import PorthCore.Ports.VfioDevice
import PorthCore.Ports.DriverLifecycle
import PorthCore.Ports.FullDemo
import PorthCore.Ports.Dashboard
import PorthCore.Ports.SharedMemory
import PorthCore.Ports.Heartbeat
import PorthCore.Ports.DelayEnvelope
import PorthCore.Ports.FrameBudget
import PorthCore.Ports.SignalPath
import PorthCore.Ports.UnprimedDemo
import PorthCore.Ports.PortalReopen
import PorthCore.Ports.OverflowDrill
import PorthCore.Ports.SimCtl
