import GamZ.Foundation.TextRows
import GamZ.TextLcd
import GamZ.AccountTree.FiniteMap
import GamZ.AccountTree.Operations
import GamZ.AccountTree.Refinement
import GamZ.AccountTree.InsertionLaws
import GamZ.AccountTree.SuccessorSplice
import GamZ.Server.Framing
import GamZ.Server.HistoryLoader
import GamZ.Server.HistoryView
import GamZ.Server.HistoryBrowsing
import GamZ.Server.LiveUpdate
import GamZ.Server.MakeRadar
import GamZ.Server.Processes
import GamZ.Server.FileLoading
import GamZ.Server.EndOfStream
import GamZ.Server.AlarmVisible
import GamZ.Server.Ghosts
import GamZ.Client.Repaint
import GamZ.Client.Processes
import GamZ.Client.Mailbox
import GamZ.Client.Reconnect
import GamZ.Client.SweepLog
import GamZ.Client.Controls
import GamZ.Client.Footprints
import GamZ.Client.Taps
import GamZ.Client.TouchDecoder
import GamZ.Driver.Ultrasonic
import GamZ.Driver.PushSwitch
import GamZ.Driver.DisplayWrites
import GamZ.Driver.FndReadBack
import GamZ.Driver.ExclusiveOpen
import GamZ.System.SamePicture
import GamZ.System.OneSocket
import GamZ.Practice.MakeButtonY
import GamZ.Test.EncDecSample
import GamZ.Foundation.Interleaving
import GamZ.Client.ButtonPicture
import GamZ.Foundation.StringRewrite
import GamZ.Foundation.Simulation
import GamZ.Foundation.Channel
import GamZ.System.Boards
import GamZ.System.Delivery
import GamZ.System.Arrival
import GamZ.Foundation.LeadsTo
import GamZ.System.AlarmPictures
import GamZ.Client.Overpaint
import GamZ.Client.PanelDisplay
import GamZ.Client.Measuring
import GamZ.Client.MeasuringDisplays
import GamZ.Client.SensorAlarms
import GamZ.Foundation.Stretch
import GamZ.Foundation.FlagGuard
import GamZ.Client.ServoPulses
import GamZ.Client.SharedScreen
import GamZ.Client.Shutdown
import GamZ.Client.ExitSwitch
import GamZ.Server.HistoryShown
import GamZ.Server.Logout
import GamZ.System.SessionEnd
import GamZ.Client.Buzzer
