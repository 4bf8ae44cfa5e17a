import QspiTool.Properties.BringUp
import QspiTool.Properties.BusyTruth
import QspiTool.Properties.Chunks
import QspiTool.Properties.ClockProtocol
import QspiTool.Properties.CommandLog
import QspiTool.Properties.CommandRegisters
import QspiTool.Properties.Completion
import QspiTool.Properties.Configuration
import QspiTool.Properties.Confinement
import QspiTool.Properties.Crash
import QspiTool.Properties.Deadlock
import QspiTool.Properties.ErrorReports
import QspiTool.Properties.FpgaSequences
import QspiTool.Properties.Initialized
import QspiTool.Properties.InstalledSequences
import QspiTool.Properties.Leaks
import QspiTool.Properties.LiveMappings
import QspiTool.Properties.LogDelivery
import QspiTool.Properties.LogLevels
import QspiTool.Properties.LogPaths
import QspiTool.Properties.LogReading
import QspiTool.Properties.LogResources
import QspiTool.Properties.LogRotation
import QspiTool.Properties.LookupTable
import QspiTool.Properties.MainProgram
import QspiTool.Properties.MappedRegisters
import QspiTool.Properties.Rejection
import QspiTool.Properties.RoundTrip
import QspiTool.Properties.RxIntegrity
import QspiTool.Properties.Sessions
import QspiTool.Properties.Transparency
import QspiTool.Properties.TxIntegrity
import QspiTool.Properties.UnmapFrame
import QspiTool.Properties.WholeBuffer
import QspiTool.Properties.WindowBounds
