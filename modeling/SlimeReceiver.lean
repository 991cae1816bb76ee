import SlimeReceiver.Library.EventSystem
import SlimeReceiver.Library.WordMask
import SlimeReceiver.Library.WrappingClock
import SlimeReceiver.Library.CountedLoop
import SlimeReceiver.Library.History
import SlimeReceiver.Tdma.State
import SlimeReceiver.Tdma.Shadow
import SlimeReceiver.Tdma.Layout
import SlimeReceiver.Tdma.LossController
import SlimeReceiver.Tdma.Roster
import SlimeReceiver.Tdma.Machine
import SlimeReceiver.Tdma.Membership
import SlimeReceiver.Tdma.LayoutChange
import SlimeReceiver.Tdma.SlotAssignment
import SlimeReceiver.Tdma.MembershipDeadline
import SlimeReceiver.Tdma.PublicationTrace
import SlimeReceiver.Tdma.MembershipLaw
import SlimeReceiver.Tdma.LossTrace
import SlimeReceiver.Link.TestAll
import SlimeReceiver.Link.Wom
import SlimeReceiver.Link.Ping
import SlimeReceiver.Receiver.Machine
import SlimeReceiver.Receiver.Steps
import SlimeReceiver.Receiver.Scheduler
import SlimeReceiver.Tdma.LossHistory
import SlimeReceiver.Receiver.EvidenceFence
import SlimeReceiver.Receiver.JoinGrace
import SlimeReceiver.Receiver.WomConfirmation
import SlimeReceiver.Receiver.WomPoll
import SlimeReceiver.Events.Cache
import SlimeReceiver.Events.CacheSystem
import SlimeReceiver.Events.Codec
import SlimeReceiver.Events.ReplayWindow
import SlimeReceiver.Events.Sessions
import SlimeReceiver.AutoChannel.LossWindow
import SlimeReceiver.AutoChannel.Policy
import SlimeReceiver.AutoChannel.PeerTable
import SlimeReceiver.AutoChannel.Sweep
import SlimeReceiver.AutoChannel.SweepEvidence
import SlimeReceiver.Events.Entries
import SlimeReceiver.Events.Host
import SlimeReceiver.Events.Lease
import SlimeReceiver.Events.Outcomes
import SlimeReceiver.Events.PowerOrder
import SlimeReceiver.Events.Silence
import SlimeReceiver.Library.Evaluation
import SlimeReceiver.Link.PongReply
import SlimeReceiver.Ota.SessionLaw
import SlimeReceiver.Ota.AbortFence
import SlimeReceiver.Ota.Ring
import SlimeReceiver.Ota.SessionData
import SlimeReceiver.Ota.FwInfo
import SlimeReceiver.Collect.RawArq
import SlimeReceiver.Collect.RawArqGaps
import SlimeReceiver.Pairing.RosterFormat
import SlimeReceiver.Library.RingQueue
import SlimeReceiver.Library.NorFlash
import SlimeReceiver.Library.Framing
import SlimeReceiver.Collect.HidQueue
import SlimeReceiver.Collect.CdcFrames
import SlimeReceiver.Collect.CdcStream
import SlimeReceiver.Pairing.Store
import SlimeReceiver.Pairing.Session
import SlimeReceiver.Pairing.TargetCount
import SlimeReceiver.Hid.Fifo
import SlimeReceiver.Hid.Refusal
import SlimeReceiver.SelfUpdate.Verification
import SlimeReceiver.SelfUpdate.FlashCopy
import SlimeReceiver.SelfUpdate.Layout
import SlimeReceiver.Receiver.StatusReport
import SlimeReceiver.Receiver.PingFilter
import SlimeReceiver.Collect.Reorder
import SlimeReceiver.System.Button
import SlimeReceiver.Receiver.ChannelChange
import SlimeReceiver.Receiver.SlotRevocation
import SlimeReceiver.Hid.Wakeup
import SlimeReceiver.Ota.HostSteps
import SlimeReceiver.Ota.HostWindow
import SlimeReceiver.Ota.ReportBounds
import SlimeReceiver.Ota.AckPriority
import SlimeReceiver.Ota.UpdateProcedure
import SlimeReceiver.Ota.UpdateOutcome
import SlimeReceiver.Ota.GapFill
import SlimeReceiver.Collect.CdcDiscard
import SlimeReceiver.SelfUpdate.Transfer
import SlimeReceiver.SelfUpdate.TransferSafety
import SlimeReceiver.SelfUpdate.Completeness
import SlimeReceiver.Library.NumberText
import SlimeReceiver.Console.Send
import SlimeReceiver.Console.SendTarget
import SlimeReceiver.Library.Observing
import SlimeReceiver.Rssi.Measure
import SlimeReceiver.Rssi.FrontEnd
import SlimeReceiver.Rssi.Bounded
import SlimeReceiver.System.Led
import SlimeReceiver.System.LedArbitration
import SlimeReceiver.Events.RestEntries
import SlimeReceiver.Events.RestNotice
import SlimeReceiver.Library.Crc
import SlimeReceiver.SelfUpdate.SettingsCrc
import SlimeReceiver.Library.SignedRange
import SlimeReceiver.Library.MovingAverage
import SlimeReceiver.Hid.RssiSmooth
import SlimeReceiver.Library.NewtonSqrt
import SlimeReceiver.Receiver.PingClock
import SlimeReceiver.Library.InsertionSort
import SlimeReceiver.Rssi.Ranking
import SlimeReceiver.AutoChannel.SweepOrder
import SlimeReceiver.Library.LineEditor
import SlimeReceiver.Library.Terminal
import SlimeReceiver.Console.LineInput
import SlimeReceiver.Console.LineEditing
import SlimeReceiver.Console.LineEcho
import SlimeReceiver.Library.EpochQueue
import SlimeReceiver.Console.Admission
import SlimeReceiver.Library.Binary32
import SlimeReceiver.Collect.Calibration
import SlimeReceiver.Collect.BatchCapture
import SlimeReceiver.Library.PythonInt
import SlimeReceiver.Library.SignificantDigits
import SlimeReceiver.Console.HidCmd
import SlimeReceiver.Console.FrontEnds
import SlimeReceiver.Library.ByteImage
import SlimeReceiver.Ota.FirmwareFile
import SlimeReceiver.SelfUpdate.HostSide
import SlimeReceiver.SelfUpdate.Activation
