import ServiceSteward.Bridge
import ServiceSteward.Listener
import ServiceSteward.Authentication
import ServiceSteward.Handover
import ServiceSteward.Config
import ServiceSteward.Schedule
import ServiceSteward.Scripted
import ServiceSteward.Logging
import ServiceSteward.Wildcards
import ServiceSteward.FilterTriggers
import ServiceSteward.CommandFragment
import ServiceSteward.JvmRun
import ServiceSteward.Launch
import ServiceSteward.Frame
import ServiceSteward.Turns
import ServiceSteward.Loop
import ServiceSteward.Lifecycle
import ServiceSteward.OneJvm
import ServiceSteward.OutputLines
import ServiceSteward.Batches
import ServiceSteward.FirstLine
import ServiceSteward.Requests
import ServiceSteward.Monitor
import ServiceSteward.Phases
import ServiceSteward.PausedState
import ServiceSteward.PauseHolds
import ServiceSteward.Onward
import ServiceSteward.StartupDeadline
import ServiceSteward.Throttle
import ServiceSteward.LogHistory
import ServiceSteward.LogWriter
import ServiceSteward.LostChannel
import ServiceSteward.AnnouncedStop
import ServiceSteward.HeapDumps
import ServiceSteward.Watchdog
import ServiceSteward.ConfigLoader
import ServiceSteward.BridgeProperties
import ServiceSteward.ConfigText
import ServiceSteward.Environment
import ServiceSteward.EnvironmentAgreement
import ServiceSteward.StopControls
import ServiceSteward.InterruptedRotation
import ServiceSteward.Slots
import ServiceSteward.BridgeReader
import ServiceSteward.Pieces
import ServiceSteward.LogDecoding
import ServiceSteward.OutputDrain
import ServiceSteward.OutputReader
import ServiceSteward.Groups
import ServiceSteward.DumpReader
import ServiceSteward.PendingControls
import ServiceSteward.LossyChannel
import ServiceSteward.StatusReporter
import ServiceSteward.PingLimits
import ServiceSteward.ControlLoop
import ServiceSteward.Cli
import ServiceSteward.PersistedOverrides
import ServiceSteward.Deadlines
import ServiceSteward.Slices
import ServiceSteward.Expansion
import ServiceSteward.Inlining
import ServiceSteward.Numbering
import ServiceSteward.StartStopApp
import ServiceSteward.JarScan
import ServiceSteward.Acts
import ServiceSteward.Dialogue
import ServiceSteward.Interleaving
import ServiceSteward.BridgeThreads
import ServiceSteward.WholeFrames
import ServiceSteward.OneReport
import ServiceSteward.Briefing
import ServiceSteward.LastResort
import ServiceSteward.CommandLine
import ServiceSteward.Pumps
import ServiceSteward.Capture
import ServiceSteward.Secrets
import ServiceSteward.ServiceWorker
