import BekenSoc.AonRtcRegister
import BekenSoc.AonRtcClock
import BekenSoc.AonRtcAssertions
import BekenSoc.AonRtcCompare
import BekenSoc.AmpResLockLedger
import BekenSoc.SpinLockRuns
import BekenSoc.MailboxStranded
import BekenSoc.MailboxSessions
import BekenSoc.IpcExchange
import BekenSoc.RpcClient
import BekenSoc.EventRegistryErrors
import BekenSoc.HalFileLooks
import BekenSoc.HalFileReads
import BekenSoc.WifiStations
import BekenSoc.FrameBufferReinit
import BekenSoc.FrameBufferModules
import BekenSoc.ShellLogRoom
import BekenSoc.ShellLogStream
import BekenSoc.ConsoleInput
import BekenSoc.ShellRx
import BekenSoc.ShellUartRing
import BekenSoc.ShellLinkPackets
import BekenSoc.ModuleLogs
import BekenSoc.CommandForward
import BekenSoc.RtosEventTimeouts
import BekenSoc.RtosHisrRuns
import BekenSoc.FlashWrites
import BekenSoc.FlashErases
import BekenSoc.QspiFlash
import BekenSoc.IotUart
import BekenSoc.SpiBuffers
import BekenSoc.SpiReads
import BekenSoc.I2cReads
import BekenSoc.SdioHostBlocks
import BekenSoc.SdioHostCmds
import BekenSoc.SdCardTransfers
import BekenSoc.PwmGroups
import BekenSoc.PwmClocks
import BekenSoc.PwmTimes
import BekenSoc.GpioWakeup
import BekenSoc.TimerDelivery
import BekenSoc.Calendar
import BekenSoc.AdcReads
import BekenSoc.KeyHandle
import BekenSoc.Utf8Conv
import BekenSoc.DriverModel
import BekenSoc.MediaReplies
import BekenSoc.UvcCopies
import BekenSoc.DvpFrames
import BekenSoc.CameraHandover
import BekenSoc.NetAddresses
import BekenSoc.Base64RoundTrip
import BekenSoc.GattServer
