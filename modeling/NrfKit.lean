import NrfKit.Firmware.Sessions
import NrfKit.Firmware.TimeslotOwnership
import NrfKit.Firmware.TimeslotDeadline
import NrfKit.Firmware.Lifetime
import NrfKit.Firmware.RramTransaction
import NrfKit.Firmware.Lifecycle
import NrfKit.RetryLink.ExactlyOnce
import NrfKit.RetryLink.Recovery
import NrfKit.Hci.RoundTrip
import NrfKit.Hci.Stream
import NrfKit.Firmware.LowLatency
import NrfKit.Usb.Attach
import NrfKit.Bridge.Main
import NrfKit.Bridge.Ring
import NrfKit.Bridge.Framing
import NrfKit.Lib.Effects
import NrfKit.Tools.Instrument
import NrfKit.Lib.IntelHex
import NrfKit.Lib.Python
import NrfKit.Lib.Spans
import NrfKit.Tools.Image
import NrfKit.Tools.Eeprom
import NrfKit.Tools.ElfFormat
import NrfKit.Tools.Bond
import NrfKit.Tools.Cli
import NrfKit.Tools.BondClear
import NrfKit.Tools.PowerRecovery
import NrfKit.Lib.Struct
import NrfKit.Tools.Elf
import NrfKit.Tools.Sdk
import NrfKit.Tools.Manifest
import NrfKit.Tools.HexFormat
import NrfKit.Tools.OpenOcd
import NrfKit.Hci.Session
import NrfKit.Firmware.RramBounds
import NrfKit.Firmware.RramOutcome
import NrfKit.Firmware.TimeslotRequest
import NrfKit.Firmware.TimeslotReturn
import NrfKit.Firmware.Controller
import NrfKit.Firmware.EntropyDriver
import NrfKit.Tools.Programming
import NrfKit.Tools.PeerProgramming
import NrfKit.Tools.RamBudget
import NrfKit.Hci.Malformed
import NrfKit.Hci.Advertising
import NrfKit.Lib.Trapezoid
import NrfKit.Tools.Capture
import NrfKit.Tools.PowerCapture
import NrfKit.Tools.OpenOcdBackup
import NrfKit.Tools.Merging
import NrfKit.Tools.PowerReport
import NrfKit.Runtime.Freestanding
import NrfKit.Tools.EepromDump
import NrfKit.Lib.Pattern
import NrfKit.Build.Resources
import NrfKit.Usb.Validation
import NrfKit.Lib.Cut
import NrfKit.Lib.Attempt
import NrfKit.Tools.OpenOcdFlash
import NrfKit.Tools.OpenOcdRecovery
import NrfKit.Tools.OpenOcdClear
import NrfKit.Tools.Created
import NrfKit.Lib.Fields
import NrfKit.RetryLink.Counters
import NrfKit.RetryLink.Report
import NrfKit.RadioLink.OneWay
import NrfKit.RadioLink.Report
import NrfKit.Firmware.ScratchLog
import NrfKit.Lib.RingLog
