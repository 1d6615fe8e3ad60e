import Px4Firmware.HxStream.RoundTrip
import Px4Firmware.Commander.Calibration
import Px4Firmware.Hrt.Machine
import Px4Firmware.Hrt.Ppm
import Px4Firmware.Uorb.Delivery
import Px4Firmware.Uorb.Interleaving
import Px4Firmware.Waypoints.Isolation
import Px4Firmware.Param.RoundTrip
import Px4Firmware.Bson.Document
import Px4Firmware.Px4io.Failsafe
import Px4Firmware.Gps.Decode
import Px4Firmware.Uploader.Truthful
import Px4Firmware.Mixer.Group
import Px4Firmware.Mixer.Entries
import Px4Firmware.Mixer.Parsing
import Px4Firmware.Commander.Hil
import Px4Firmware.Drivers.Lockdown
import Px4Firmware.Mavlink.Addressing
import Px4Firmware.Waypoints.Abort
import Px4Firmware.Waypoints.Current
import Px4Firmware.Waypoints.RoundTrip
import Px4Firmware.Uorb.Mirror
import Px4Firmware.Drivers.TonePriority
import Px4Firmware.Drivers.ManualMode
import Px4Firmware.Hrt.IoBoard
import Px4Firmware.Px4io.Fidelity
import Px4Firmware.Param.TypeSafety
import Px4Firmware.Param.Structures
import Px4Firmware.Param.FailedSet
import Px4Firmware.Param.FailedExport
import Px4Firmware.Param.Save
import Px4Firmware.Param.Handles
import Px4Firmware.Param.Accesses
import Px4Firmware.Bson.Names
import Px4Firmware.HxStream.Receiver
import Px4Firmware.HxStream.SendResult
import Px4Firmware.Uorb.RateLimit
import Px4Firmware.Drivers.PollWaiters
import Px4Firmware.Hrt.Timebase
import Px4Firmware.Hrt.Periodic
import Px4Firmware.Hrt.PpmWhole
import Px4Firmware.Px4io.Recovery
import Px4Firmware.Px4io.Validation
import Px4Firmware.Mixer.MultirotorRange
import Px4Firmware.Mixer.Checking
import Px4Firmware.Mixer.ControlNames
import Px4Firmware.Mixer.FailedLoad
import Px4Firmware.Drivers.PwmServo
import Px4Firmware.Drivers.ServoRange
import Px4Firmware.Drivers.MixerSwap
import Px4Firmware.Mavlink.Publications
import Px4Firmware.Mavlink.ReceiveLoop
import Px4Firmware.Mavlink.Parameters
import Px4Firmware.Mavlink.ListTransfer
import Px4Firmware.Commander.Selection
import Px4Firmware.Commander.SensorCalibration
import Px4Firmware.Waypoints.Replies
import Px4Firmware.Waypoints.Clearing
import Px4Firmware.Waypoints.Progress
import Px4Firmware.Mixer.Stores
import Px4Firmware.Lib.CInt
import Px4Firmware.Drivers.Compensation
import Px4Firmware.Lib.Extremes
import Px4Firmware.Commander.MagExtremes
import Px4Firmware.Commander.BatteryEstimate
import Px4Firmware.Lib.Stretch
import Px4Firmware.Commander.MainLoop
import Px4Firmware.Commander.Debounce
import Px4Firmware.Commander.StickGesture
import Px4Firmware.Commander.FailsafeTimeout
import Px4Firmware.Lib.Hysteresis
import Px4Firmware.Gps.Watchdog
import Px4Firmware.Lib.OpenRing
import Px4Firmware.Drivers.SensorQueue
import Px4Firmware.Gps.Checksum
import Px4Firmware.Lib.SyncPair
import Px4Firmware.Gps.Mtk
import Px4Firmware.Gps.Resync
import Px4Firmware.Drivers.I2cBus
import Px4Firmware.Drivers.TransferErrors
import Px4Firmware.Eeprom.BlockAccess
import Px4Firmware.Sensors.RcInput
import Px4Firmware.Sensors.RcMapping
import Px4Firmware.Lib.DeadZone
import Px4Firmware.Sensors.StickScaling
import Px4Firmware.ArDrone.MotorControl
import Px4Firmware.Px4io.PpmInput
import Px4Firmware.Px4io.ChannelLock
import Px4Firmware.Hrt.IoTimebase
import Px4Firmware.Px4io.MainLoop
import Px4Firmware.Px4io.TornFrames
import Px4Firmware.Px4io.RcClients
import Px4Firmware.Lib.Copies
import Px4Firmware.Eeprom.RawAccess
import Px4Firmware.Lib.Crc
import Px4Firmware.Uploader.ImageCrc
import Px4Firmware.Control.Pid
import Px4Firmware.Gps.Nmea
import Px4Firmware.Uploader.Compare
import Px4Firmware.Sched.CpuLoad
import Px4Firmware.Sched.CpuAccounts
import Px4Firmware.Drivers.L3gd20
import Px4Firmware.Drivers.GyroRace
import Px4Firmware.Mavlink.Wire
import Px4Firmware.Mavlink.Framing
import Px4Firmware.Mavlink.FrameStream
import Px4Firmware.Lib.Memory
import Px4Firmware.Lib.Links
import Px4Firmware.Mm.Heap
import Px4Firmware.Mm.Layout
import Px4Firmware.Mm.Nodes
import Px4Firmware.Mm.FreeList
import Px4Firmware.Mm.Invariant
import Px4Firmware.Mm.Rewrite
import Px4Firmware.Mm.Steps
import Px4Firmware.Mm.Malloc
import Px4Firmware.Mm.Free
import Px4Firmware.Mm.Shrink
import Px4Firmware.Mm.Extend
import Px4Firmware.Mm.Realloc
import Px4Firmware.Mm.Memalign
import Px4Firmware.Mm.Init
import Px4Firmware.Mm.Mallinfo
import Px4Firmware.Mm.Clients
import Px4Firmware.Mm.Runs
