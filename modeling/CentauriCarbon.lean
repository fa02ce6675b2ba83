import CentauriCarbon.SerialLink.ReceiveBuffer
import CentauriCarbon.SerialLink.Notifications
import CentauriCarbon.Config.NumberOptions
import CentauriCarbon.Stepping.Fidelity
import CentauriCarbon.Stepping.MoveAccounting
import CentauriCarbon.Motion.FlushDelay
import CentauriCarbon.Motion.VelocityPlanning
import CentauriCarbon.Scheduler.TimerRun
import CentauriCarbon.Homing.TriggerLatch
import CentauriCarbon.Homing.TimeoutRule
import CentauriCarbon.Outputs.MaxDuration
import CentauriCarbon.Outputs.HoldBack
import CentauriCarbon.Outputs.LastFanCommand
import CentauriCarbon.LoadCell.Watchdog
import CentauriCarbon.LoadCell.ProbingSession
import CentauriCarbon.Reactor.CheckTimers
import CentauriCarbon.Reactor.ResponseHandlers
import CentauriCarbon.Reactor.MutexFairness
import CentauriCarbon.Mcu.ObjectIds
import CentauriCarbon.Clock.ClockSync
import CentauriCarbon.Moves.MoveNodes
import CentauriCarbon.VirtualSd.PowerOutage
import CentauriCarbon.VirtualSd.SdcardLoop
import CentauriCarbon.VirtualSd.Stopping
import CentauriCarbon.GCode.Condition
import CentauriCarbon.GCode.Exclusion
import CentauriCarbon.GCode.GCodeOffset
import CentauriCarbon.GCode.LineSplit
import CentauriCarbon.GCode.ToolheadShutdown
import CentauriCarbon.GCode.ConsoleSettled
import CentauriCarbon.Config.SaveConfig
import CentauriCarbon.Config.SaveVariables
import CentauriCarbon.Canvas.FrameDelivery
import CentauriCarbon.Canvas.ReadBounds
import CentauriCarbon.Canvas.FeederReports
import CentauriCarbon.Canvas.HeadFilament
import CentauriCarbon.Canvas.RecordInfo
import CentauriCarbon.Heaters.FaultDetection
import CentauriCarbon.Heaters.FaultClearing
import CentauriCarbon.Heaters.PowerCutoff
import CentauriCarbon.Heaters.BedProtection
import CentauriCarbon.Bootloader.RequestSafety
import CentauriCarbon.Bootloader.UpdatedFlash
import CentauriCarbon.Drivers.TmcUart
import CentauriCarbon.Codec.CommandDispatch
import CentauriCarbon.LoadCell.FilterSections
import CentauriCarbon.LoadCell.FilterConfig
