import Px4Firmware.Commander.Status

/-!
# Px4Firmware.Commander.StateMachine

The state machine of `commander/state_machine_helper.c`. `doStateUpdate` is the
one function that changes the state; the `updateStateMachine…` helpers decide
when it is called.

The source calls `do_state_update` recursively for a mission abort, once, with the
emergency-landing state. The switch is therefore one definition with the recursive
call as a parameter (`stateUpdateSwitch`), and `doStateUpdate` closes the knot;
`doStateUpdate_eq` is the recursion as the source writes it.
-/

namespace Px4Firmware.Commander

/-- `OK`. -/
def ok : Int := 0

/-- `ERROR`. -/
def error : Int := -1

section

variable (clock : Nat → UInt64)

/-- Publish `vehicle_status`, with a new counter and timestamp. -/
def stateMachinePublish : Exec Unit := do
  modifyStatus fun s => { s with counter := s.counter + 1 }
  let now ← hrtAbsoluteTime clock
  modifyStatus fun s => { s with timestamp := now }
  send (.vehicleStatus (← get).status)

/-- The value `publish_armed_status` computes. -/
def armedStatus (s : VehicleStatus) : ActuatorArmed :=
  { armed := s.flagSystemArmed
    lockdown := (s.rcSignalLost && s.offboardControlSignalLost) || s.flagHilEnabled }

/-- Publish `actuator_armed`: once when it is advertised, once explicitly. -/
def publishArmedStatus : Exec Unit := do
  let armed := armedStatus (← get).status
  send (.actuatorArmed armed)
  send (.actuatorArmed armed)

/-- Set `flag_system_armed`. -/
def setArmed (armed : Bool) : Exec Unit := modifyStatus fun s => { s with flagSystemArmed := armed }

/-- `do_state_update`, with the recursive call of the mission-abort case as a
parameter. -/
def stateUpdateSwitch (onMissionAbort : Exec Int) (newState : CommanderState) : Exec Int := do
  let mut invalidState := false
  let mut ret := error
  let oldState := (← get).status.stateMachine
  match newState with
  | .missionAbort =>
      ret ← onMissionAbort
  | .emcyLanding =>
      setArmed true
      mavlinkLogCritical "[commander] EMERGENCY LANDING!"
  | .emcyCutoff =>
      setArmed false
      mavlinkLogCritical "[commander] EMERGENCY MOTOR CUTOFF!"
  | .groundError =>
      setArmed false
      mavlinkLogCritical "[commander] GROUND ERROR, locking down propulsion system"
  | .preflight =>
      if (← get).status.stateMachine = .standby ∨ (← get).status.stateMachine = .preflight then
        setArmed false
        mavlinkLogCritical "[commander] Switched to PREFLIGHT state"
      else
        invalidState := true
        mavlinkLogCritical "[commander] REFUSED to switch to PREFLIGHT state"
  | .reboot =>
      if (← get).status.stateMachine = .standby ∨ (← get).status.stateMachine = .preflight then
        invalidState := false
        setArmed false
        mavlinkLogCritical "[commander] REBOOTING SYSTEM"
        throw .reboot
      else
        invalidState := true
        mavlinkLogCritical "[commander] REFUSED to REBOOT"
  | .standby =>
      setArmed false
      mavlinkLogCritical "[commander] Switched to STANDBY state"
  | .groundReady =>
      setArmed true
      mavlinkLogCritical "[commander] Switched to GROUND READY state"
  | .auto =>
      setArmed true
      mavlinkLogCritical "[commander] Switched to FLYING / AUTO mode"
  | .stabilized =>
      setArmed true
      mavlinkLogCritical "[commander] Switched to FLYING / STABILIZED mode"
  | .manual =>
      setArmed true
      mavlinkLogCritical "[commander] Switched to FLYING / MANUAL mode"
  | .other _ =>
      invalidState := true
  -- A refused state passes this test too, unless it is the present one.
  if invalidState = false ∨ oldState ≠ newState then
    modifyStatus fun s => { s with stateMachine := newState }
    stateMachinePublish clock
    publishArmedStatus
    ret := ok
  if invalidState then
    mavlinkLogCritical "[commander] REJECTING invalid state transition"
    ret := error
  return ret

/-- `do_state_update`. -/
def doStateUpdate (newState : CommanderState) : Exec Int :=
  stateUpdateSwitch clock (stateUpdateSwitch clock (pure error) .emcyLanding) newState

/-- The recursion of the source: a mission abort updates to the emergency-landing
state first. -/
theorem doStateUpdate_eq (newState : CommanderState) :
    doStateUpdate clock newState =
      stateUpdateSwitch clock (doStateUpdate clock .emcyLanding) newState := by
  cases newState <;> rfl

/-! ### Mode requests -/

/-- `VEHICLE_MODE_FLAG_SAFETY_ARMED`. -/
def vehicleModeFlagSafetyArmed : UInt8 := 128

/-- `VEHICLE_MODE_FLAG_HIL_ENABLED`. -/
def vehicleModeFlagHilEnabled : UInt8 := 32

/-- `mode & flag`, as a condition. -/
def hasFlag (mode flag : UInt8) : Bool := mode &&& flag ≠ 0

/-! `update_state_machine_mode_request` is four conditions in a row, each of which may
replace the value to be returned. Each is a definition that takes that value. -/

/-- The vehicle is disarmed, the mode requests arming: arm in standby or preflight. -/
def armOnRequest (mode ret : UInt8) : Exec UInt8 := do
  if !(← get).status.flagSystemArmed && hasFlag mode vehicleModeFlagSafetyArmed then
    if (← get).status.stateMachine = .standby ∨ (← get).status.stateMachine = .preflight then
      discard <| doStateUpdate clock .groundReady
      return 0
  return ret

/-- The vehicle is armed, the mode requests disarming: disarm in ground ready. -/
def disarmOnRequest (mode ret : UInt8) : Exec UInt8 := do
  if (← get).status.flagSystemArmed && !hasFlag mode vehicleModeFlagSafetyArmed then
    if (← get).status.stateMachine = .groundReady then
      discard <| doStateUpdate clock .standby
      return 0
  return ret

/-- Switch HIL on in standby. -/
def enableHilOnRequest (mode ret : UInt8) : Exec UInt8 := do
  if (← get).status.stateMachine = .standby ∧ hasFlag mode vehicleModeFlagHilEnabled = true
      ∧ (← get).status.flagHilEnabled = false then
    modifyStatus fun s => { s with flagHilEnabled := true }
    stateMachinePublish clock
    publishArmedStatus
    return 0
  return ret

/-- HIL is never switched off: such a request is answered with `ERROR`, as a byte. -/
def denyHilOff (mode ret : UInt8) : Exec UInt8 := do
  if (← get).status.flagHilEnabled && !hasFlag mode vehicleModeFlagHilEnabled then
    return 255
  return ret

/-- `update_state_machine_mode_request`. -/
def updateStateMachineModeRequest (mode : UInt8) : Exec UInt8 := do
  let ret ← armOnRequest clock mode 1
  let ret ← disarmOnRequest clock mode ret
  let ret ← enableHilOnRequest clock mode ret
  denyHilOff mode ret

/-- The value of an enumerator. -/
def CommanderState.ofCode : Nat → CommanderState
  | 0 => .preflight
  | 1 => .standby
  | 2 => .groundReady
  | 3 => .manual
  | 4 => .stabilized
  | 5 => .auto
  | 6 => .missionAbort
  | 7 => .emcyLanding
  | 8 => .emcyCutoff
  | 9 => .groundError
  | 10 => .reboot
  | n + 11 => .other n

/-- `update_state_machine_custom_mode_request`. -/
def updateStateMachineCustomModeRequest (customMode : UInt8) : Exec UInt8 := do
  let currentSystemState := (← get).status.stateMachine
  match CommanderState.ofCode customMode.toNat with
  | .reboot =>
      if currentSystemState = .standby ∨ currentSystemState = .preflight then
        discard <| doStateUpdate clock .reboot
        return 0
      return 1
  | .auto =>
      if currentSystemState = .groundReady ∨ currentSystemState = .manual then
        discard <| doStateUpdate clock .auto
        return 0
      return 1
  | .manual =>
      if currentSystemState = .groundReady ∨ currentSystemState = .auto then
        discard <| doStateUpdate clock .manual
        return 0
      return 1
  | _ => return 1

/-! ### Emergencies -/

/-- `state_machine_emergency_always_critical`. -/
def stateMachineEmergencyAlwaysCritical : Exec Unit := do
  let state := (← get).status.stateMachine
  if state = .preflight ∨ state = .standby ∨ state = .groundReady then
    discard <| doStateUpdate clock .groundError
  else if state = .auto ∨ state = .manual then
    discard <| doStateUpdate clock .missionAbort

/-- `state_machine_emergency`: in the manual state it is left to the pilot. -/
def stateMachineEmergency : Exec Unit := do
  if (← get).status.stateMachine ≠ .manual then
    stateMachineEmergencyAlwaysCritical clock

/-! ### Events -/

/-- Go to a state if the current one is among these. -/
def updateFrom (sources : List CommanderState) (new : CommanderState) : Exec Unit := do
  if (← get).status.stateMachine ∈ sources then
    discard <| doStateUpdate clock new

/-- `update_state_machine_got_position_fix`. -/
def updateStateMachineGotPositionFix : Exec Unit := updateFrom clock [.preflight] .standby

/-- `update_state_machine_no_position_fix`. -/
def updateStateMachineNoPositionFix : Exec Unit := do
  let state := (← get).status.stateMachine
  if state = .standby ∨ state = .groundReady ∨ state = .auto then
    stateMachineEmergency clock

/-- `update_state_machine_arm`. -/
def updateStateMachineArm : Exec Unit := updateFrom clock [.standby] .groundReady

/-- `update_state_machine_disarm`. Its two branches go to the same state. -/
def updateStateMachineDisarm : Exec Unit := do
  let state := (← get).status.stateMachine
  if state = .groundReady ∨ state = .manual ∨ state = .preflight then
    discard <| doStateUpdate clock .standby
  else if state = .stabilized ∨ state = .auto then
    discard <| doStateUpdate clock .standby

/-- The shape of `update_state_machine_mode_*`: set the flight mode and its control flags, publish
when the mode is new, and go to the flying state from these states. -/
def updateStateMachineMode (mode : FlightMode) (sources : List CommanderState)
    (new : CommanderState) : Exec Unit := do
  let oldMode := (← get).status.flightMode
  modifyStatus fun s => { s with
    flightMode := mode
    flagControlManualEnabled := true
    flagControlAttitudeEnabled := true
    flagControlRatesEnabled := false }
  if oldMode ≠ mode then
    stateMachinePublish clock
  updateFrom clock sources new

/-- `update_state_machine_mode_manual`. -/
def updateStateMachineModeManual : Exec Unit :=
  updateStateMachineMode clock .manual [.groundReady, .stabilized, .auto] .manual

/-- `update_state_machine_mode_stabilized`. -/
def updateStateMachineModeStabilized : Exec Unit :=
  updateStateMachineMode clock .stabilized [.groundReady, .manual, .auto] .stabilized

/-- `update_state_machine_mode_auto`. -/
def updateStateMachineModeAuto : Exec Unit :=
  updateStateMachineMode clock .auto [.groundReady, .manual, .stabilized] .auto

end

end Px4Firmware.Commander
