import DvbHdhomerun.ForStd.Bytes
import DvbHdhomerun.ForStd.CInt
import DvbHdhomerun.ForStd.CString
import DvbHdhomerun.ForStd.Fifo
import DvbHdhomerun.ForStd.Hex
import DvbHdhomerun.ForStd.Intern
import DvbHdhomerun.ForStd.Lines
import DvbHdhomerun.ForStd.List
import DvbHdhomerun.ForStd.OFStream
import DvbHdhomerun.ForStd.Relay
import DvbHdhomerun.ForStd.Run
import DvbHdhomerun.Kernel.Channel
import DvbHdhomerun.Kernel.ControlDevice
import DvbHdhomerun.Kernel.ControlMesg
import DvbHdhomerun.Kernel.DataWrite
import DvbHdhomerun.Kernel.Exit
import DvbHdhomerun.Kernel.Init
import DvbHdhomerun.Kernel.NameAccess
import DvbHdhomerun.Kernel.Register
import DvbHdhomerun.Kernel.Requests
import DvbHdhomerun.User.ConfIniFile
import DvbHdhomerun.User.Control
import DvbHdhomerun.User.ControlThread
import DvbHdhomerun.User.Controller
import DvbHdhomerun.User.DataStream
import DvbHdhomerun.User.LogFile
import DvbHdhomerun.User.Thread
import DvbHdhomerun.User.Tuner
import DvbHdhomerun.User.TunerConf
import DvbHdhomerun.Spec.BlockedWriter
import DvbHdhomerun.Spec.CallsReturn
import DvbHdhomerun.Spec.ChannelClients
import DvbHdhomerun.Spec.ChannelMoves
import DvbHdhomerun.Spec.ChannelRelay
import DvbHdhomerun.Spec.ChannelSteps
import DvbHdhomerun.Spec.ControlMoves
import DvbHdhomerun.Spec.DataNumbers
import DvbHdhomerun.Spec.DataPath
import DvbHdhomerun.Spec.DeviceFilter
import DvbHdhomerun.Spec.Disconnect
import DvbHdhomerun.Spec.DiscoveryOrder
import DvbHdhomerun.Spec.DroppedReply
import DvbHdhomerun.Spec.EarlyUse
import DvbHdhomerun.Spec.FailedCalls
import DvbHdhomerun.Spec.FeedLock
import DvbHdhomerun.Spec.FeedResult
import DvbHdhomerun.Spec.FilterHistory
import DvbHdhomerun.Spec.FilterString
import DvbHdhomerun.Spec.FirstConfiguration
import DvbHdhomerun.Spec.Handlers
import DvbHdhomerun.Spec.InFlight
import DvbHdhomerun.Spec.InFlightCount
import DvbHdhomerun.Spec.IniMeaning
import DvbHdhomerun.Spec.IniRoundTrip
import DvbHdhomerun.Spec.LogLines
import DvbHdhomerun.Spec.NameFields
import DvbHdhomerun.Spec.OneCaller
import DvbHdhomerun.Spec.OpenHandles
import DvbHdhomerun.Spec.PagedWrite
import DvbHdhomerun.Spec.PidFilter
import DvbHdhomerun.Spec.QueueReplies
import DvbHdhomerun.Spec.Readings
import DvbHdhomerun.Spec.Registration
import DvbHdhomerun.Spec.ReplyMatching
import DvbHdhomerun.Spec.ReplyOrder
import DvbHdhomerun.Spec.RequestOutcome
import DvbHdhomerun.Spec.RequestStream
import DvbHdhomerun.Spec.Sequential
import DvbHdhomerun.Spec.SessionIsolation
import DvbHdhomerun.Spec.Shutdown
import DvbHdhomerun.Spec.SignalStrength
import DvbHdhomerun.Spec.StackContents
import DvbHdhomerun.Spec.StreamState
import DvbHdhomerun.Spec.StreamThread
import DvbHdhomerun.Spec.TableEntries
import DvbHdhomerun.Spec.ThreadEnd
import DvbHdhomerun.Spec.TuneCache
import DvbHdhomerun.Spec.TunerIds
import DvbHdhomerun.Spec.Unload
import DvbHdhomerun.Spec.Unwinding
import DvbHdhomerun.Spec.WakeUp
