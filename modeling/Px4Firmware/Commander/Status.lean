import Px4Firmware.Lib.CFloat

/-!
# Px4Firmware.Commander.Status

The data of the commander app: the vehicle status it owns
(`uORB/topics/vehicle_status.h`), the topics it publishes, and the commands it
receives (`uORB/topics/vehicle_command.h`).

The app runs in the monad `Exec`, a state monad over `App` with one
exception: `reboot()` does not return. Everything the app sends out is appended to
`App.sent` in order, so "was published" and "was not published" are facts
about that list. Console output is left out.
-/

namespace Px4Firmware.Commander

open Px4Firmware.Lib

/-- `commander_state_machine_t`. A C enum can hold any number of its underlying
type: `other k` is the value `11 + k`, which is no enumerator. -/
inductive CommanderState
  | preflight
  | standby
  | groundReady
  | manual
  | stabilized
  | auto
  | missionAbort
  | emcyLanding
  | emcyCutoff
  | groundError
  | reboot
  | other (k : Nat)
  deriving Repr, DecidableEq

/-- `enum VEHICLE_FLIGHT_MODE`. -/
inductive FlightMode
  | manual
  | attitude
  | stabilized
  | auto
  deriving Repr, DecidableEq

/-- `struct vehicle_status_s`, the fields that take part in state transitions,
commands, calibration and signal-loss handling. -/
structure VehicleStatus where
  counter : UInt16
  timestamp : UInt64
  failsaveLowlevelStartTime : UInt64
  stateMachine : CommanderState
  flightMode : FlightMode
  flagSystemArmed : Bool
  flagControlManualEnabled : Bool
  flagControlOffboardEnabled : Bool
  flagHilEnabled : Bool
  flagControlRatesEnabled : Bool
  flagControlAttitudeEnabled : Bool
  flagControlVelocityEnabled : Bool
  flagControlPositionEnabled : Bool
  flagPreflightGyroCalibration : Bool
  flagPreflightMagCalibration : Bool
  flagPreflightAccelCalibration : Bool
  rcSignalFoundOnce : Bool
  rcSignalLost : Bool
  rcSignalCuttingOff : Bool
  rcSignalLostInterval : UInt64
  offboardControlSignalFoundOnce : Bool
  offboardControlSignalLost : Bool
  offboardControlSignalWeak : Bool
  offboardControlSignalLostInterval : UInt64
  failsaveLowlevel : Bool
  deriving DecidableEq

/-- `struct actuator_armed_s`. -/
structure ActuatorArmed where
  armed : Bool
  lockdown : Bool
  deriving Repr, DecidableEq

/-- `struct vehicle_command_s`. -/
structure VehicleCommand where
  param1 : CFloat
  param2 : CFloat
  param3 : CFloat
  param4 : CFloat
  param5 : CFloat
  param6 : CFloat
  param7 : CFloat
  command : UInt16
  targetSystem : UInt8
  targetComponent : UInt8
  sourceSystem : UInt8
  sourceComponent : UInt8
  confirmation : UInt8

/-- What leaves the app: a publication of one of its two topics, or a text for the
ground station. -/
inductive Sent
  | vehicleStatus (s : VehicleStatus)
  | actuatorArmed (a : ActuatorArmed)
  | logCritical (text : String)
  | logInfo (text : String)
  deriving DecidableEq

/-- Is this a publication of `vehicle_status` or of `actuator_armed`? -/
def Sent.isPublication : Sent → Bool
  | vehicleStatus _ => true
  | actuatorArmed _ => true
  | _ => false

/-- The app: its status, what it has sent, and how often it has read the clock. -/
structure App where
  status : VehicleStatus
  sent : List Sent
  clockReads : Nat

/-- `reboot()` was called. -/
inductive Reboot
  | reboot

/-- A computation of the app; the exception is a call that does not return. -/
abbrev Exec := EStateM Reboot App

/-- The status of `commander_thread_main`: everything zero, both signals lost. -/
def initialStatus : VehicleStatus :=
  { counter := 0, timestamp := 0, failsaveLowlevelStartTime := 0,
    stateMachine := .preflight, flightMode := .manual,
    flagSystemArmed := false, flagControlManualEnabled := false,
    flagControlOffboardEnabled := false, flagHilEnabled := false,
    flagControlRatesEnabled := false, flagControlAttitudeEnabled := false,
    flagControlVelocityEnabled := false, flagControlPositionEnabled := false,
    flagPreflightGyroCalibration := false, flagPreflightMagCalibration := false,
    flagPreflightAccelCalibration := false,
    rcSignalFoundOnce := false, rcSignalLost := true, rcSignalCuttingOff := false,
    rcSignalLostInterval := 0,
    offboardControlSignalFoundOnce := false, offboardControlSignalLost := true,
    offboardControlSignalWeak := false, offboardControlSignalLostInterval := 0,
    failsaveLowlevel := false }

/-- The app right after its status is set up. -/
def initialCommander : App := { status := initialStatus, sent := [], clockReads := 0 }

/-! ### Primitive effects -/

/-- Append to what was sent. -/
def send (e : Sent) : Exec Unit := modify fun c => { c with sent := c.sent ++ [e] }

/-- `mavlink_log_critical`. -/
def mavlinkLogCritical (text : String) : Exec Unit := send (.logCritical text)

/-- `mavlink_log_info`. -/
def mavlinkLogInfo (text : String) : Exec Unit := send (.logInfo text)

/-- Change the status. -/
def modifyStatus (f : VehicleStatus → VehicleStatus) : Exec Unit :=
  modify fun c => { c with status := f c.status }

/-- `hrt_absolute_time`: the successive readings of the clock. -/
def hrtAbsoluteTime (clock : Nat → UInt64) : Exec UInt64 :=
  modifyGet fun c => (clock c.clockReads, { c with clockReads := c.clockReads + 1 })

end Px4Firmware.Commander
