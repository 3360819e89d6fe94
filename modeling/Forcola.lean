import Forcola.Library.Transition
import Forcola.Library.History
import Forcola.Native.TrackedExit
import Forcola.Native.KillDelivery
import Forcola.Beam.ExitEvidence
import Forcola.Beam.InputDelivery
import Forcola.Native.OutputOrder
import Forcola.Native.GroupKill
import Forcola.Native.Closure
import Forcola.Native.TrackedHistory
import Forcola.Native.StageOrder
import Forcola.Beam.Confirming
import Forcola.Beam.DaemonGroups
import Forcola.Beam.DuplexErasure
import Forcola.Beam.IdentityCodec
import Forcola.Beam.StreamOutput
import Forcola.Library.Posix
import Forcola.Native.Privdrop
import Forcola.Native.RecordedStop
import Forcola.Beam.BoundedWaits
import Forcola.Beam.DaemonLogger
import Forcola.Beam.Framing
import Forcola.Beam.GroupsReply
import Forcola.Beam.ObservedGroups
import Forcola.Beam.PortGuard
import Forcola.Beam.Session
import Forcola.Beam.StderrBound
import Forcola.Native.GroupsVerdict
import Forcola.Native.SpawnError
import Forcola.Native.FrameReader
import Forcola.Native.ScanBounds
import Forcola.Native.DeadlineKill
import Forcola.Native.ProcStat
import Forcola.Native.TimeoutFlag
import Forcola.Beam.DuplexWaiting
import Forcola.Beam.LockSession
import Forcola.Beam.Fidelity
import Forcola.Beam.LockSharing
import Forcola.Native.Protocol
import Forcola.Native.Startup
import Forcola.Native.Equipped
import Forcola.Beam.SpawnCodec
