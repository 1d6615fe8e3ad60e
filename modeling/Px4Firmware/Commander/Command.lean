import Px4Firmware.Commander.Transition

/-!
# Px4Firmware.Commander.Command

The command handler of `commander/commander.c` (`handle_command`), and what the
arm/disarm command does.

The calibration routines that the handler starts are parameters (`Calibrations`):
what is said about the handler here holds whatever they do. `handleCommand` returns
the local `result` of the source, the acknowledgement it prepares and does not
send.
-/

namespace Px4Firmware.Commander

open Px4Firmware.Lib

/-- `MAV_CMD_DO_SET_MODE`. -/
def mavCmdDoSetMode : UInt16 := 176

/-- `MAV_CMD_PREFLIGHT_CALIBRATION`. -/
def mavCmdPreflightCalibration : UInt16 := 241

/-- `MAV_CMD_PREFLIGHT_STORAGE`. -/
def mavCmdPreflightStorage : UInt16 := 245

/-- `MAV_CMD_PREFLIGHT_REBOOT_SHUTDOWN`. -/
def mavCmdPreflightRebootShutdown : UInt16 := 246

/-- `MAV_CMD_COMPONENT_ARM_DISARM`. -/
def mavCmdComponentArmDisarm : UInt16 := 400

/-- `PX4_CMD_CONTROLLER_SELECTION`. -/
def px4CmdControllerSelection : UInt16 := 1000

/-- `enum MAV_RESULT`, the values the handler uses. -/
inductive MavResult
  | accepted
  | denied
  | unsupported
  deriving Repr, DecidableEq

/-- `do_gyro_calibration`, `do_mag_calibration` and `do_accel_calibration`. -/
structure Calibrations where
  gyro : Exec Unit
  mag : Exec Unit
  accel : Exec Unit

section

variable (clock : Nat → UInt64) (cal : Calibrations)

/-- One branch of the calibration command: go to the preflight state, calibrate if
the state is reached, go to standby. The branches differ in the name of the sensor
and in how a rejection starts. -/
def calibrate (name rejecting : String) (routine : Exec Unit) : Exec MavResult := do
  discard <| doStateUpdate clock .preflight
  if (← get).status.stateMachine = .preflight then
    mavlinkLogInfo ("[commander] CMD starting " ++ name ++ " calibration")
    routine
    mavlinkLogInfo ("[commander] CMD finished " ++ name ++ " calibration")
    discard <| doStateUpdate clock .standby
    return .accepted
  else
    mavlinkLogCritical (rejecting ++ name ++ " calibration")
    return .denied

/-- The case `MAV_CMD_PREFLIGHT_CALIBRATION` of the handler. -/
def preflightCalibration (cmd : VehicleCommand) : Exec MavResult := do
  let mut result := MavResult.unsupported
  let mut handled := false
  if cmd.param1.toInt = 1 then
    result ← calibrate clock "gyro" "[commander] REJECTING " cal.gyro
    handled := true
  if cmd.param2.toInt = 1 then
    result ← calibrate clock "mag" "[commander] CMD REJECTING " cal.mag
    handled := true
  if cmd.param5.toInt = 1 then
    result ← calibrate clock "accel" "[commander] REJECTING " cal.accel
    handled := true
  if !handled then
    mavlinkLogCritical "[commander] CMD refusing unsup. calib. request"
    result := .unsupported
  return result

/-- The case `PX4_CMD_CONTROLLER_SELECTION` of the handler: each flag takes its
parameter where the two differ as integers. -/
def controllerSelection (cmd : VehicleCommand) : Exec Unit := do
  let differs (p : CFloat) (flag : Bool) : Bool := p.toInt ≠ (if flag then 1 else 0)
  let mut changed := false
  if differs cmd.param1 (← get).status.flagControlRatesEnabled then
    modifyStatus fun s => { s with flagControlRatesEnabled := cmd.param1.toBool }
    changed := true
  if differs cmd.param2 (← get).status.flagControlAttitudeEnabled then
    modifyStatus fun s => { s with flagControlAttitudeEnabled := cmd.param2.toBool }
    changed := true
  if differs cmd.param3 (← get).status.flagControlVelocityEnabled then
    modifyStatus fun s => { s with flagControlVelocityEnabled := cmd.param3.toBool }
    changed := true
  if differs cmd.param4 (← get).status.flagControlPositionEnabled then
    modifyStatus fun s => { s with flagControlPositionEnabled := cmd.param4.toBool }
    changed := true
  if changed then
    stateMachinePublish clock

/-- The answer to a mode request. -/
def modeResult (ret : UInt8) : MavResult := if ret = 0 then .accepted else .denied

/-- The case `MAV_CMD_COMPONENT_ARM_DISARM` of the handler. Both branches make the
same mode request. -/
def componentArmDisarm (cmd : VehicleCommand) : Exec MavResult := do
  if cmd.param1.toInt = 1 then
    return modeResult (← updateStateMachineModeRequest clock vehicleModeFlagSafetyArmed)
  else if cmd.param1.toInt = 0 then
    return modeResult (← updateStateMachineModeRequest clock vehicleModeFlagSafetyArmed)
  else
    return .unsupported

/-- `handle_command`. The controller-selection case has no `break` and runs into
the calibration case. -/
def handleCommand (cmd : VehicleCommand) : Exec MavResult := do
  if cmd.command = mavCmdDoSetMode then
    return modeResult (← updateStateMachineModeRequest clock cmd.param1.toUInt8)
  else if cmd.command = mavCmdComponentArmDisarm then
    componentArmDisarm clock cmd
  else if cmd.command = mavCmdPreflightRebootShutdown then
    if cmd.param1.toInt = 1 then
      if (← doStateUpdate clock .reboot) = ok then return .accepted else return .denied
    else
      return .unsupported
  else if cmd.command = px4CmdControllerSelection then
    controllerSelection clock cmd
    preflightCalibration clock cal cmd
  else if cmd.command = mavCmdPreflightCalibration then
    preflightCalibration clock cal cmd
  else if cmd.command = mavCmdPreflightStorage then
    return .unsupported
  else
    mavlinkLogCritical "[commander] refusing unsupported command"
    return .unsupported

/-! ### The disarm command -/

/-- In which states a mode request for arming arms. -/
def armable (s : VehicleStatus) : Prop :=
  s.flagSystemArmed = false ∧ (s.stateMachine = .standby ∨ s.stateMachine = .preflight)

instance (s : VehicleStatus) : Decidable (armable s) := by unfold armable; infer_instance

theorem armOnRequest_apply {mode : UInt8} (hmode : hasFlag mode vehicleModeFlagSafetyArmed = true)
    (ret : UInt8) (c : App) :
    armOnRequest clock mode ret c =
      if armable c.status then .ok 0 (committed clock (announced c .groundReady) .groundReady)
      else .ok ret c := by
  unfold armOnRequest
  simp only [get_bind_apply, hmode]
  cases harmed : c.status.flagSystemArmed with
  | true => simp [armable, harmed]; rfl
  | false =>
      by_cases hstate : c.status.stateMachine = .standby ∨ c.status.stateMachine = .preflight
      · rw [if_pos (show armable c.status from ⟨harmed, hstate⟩)]
        simp only [Bool.not_false, Bool.and_true, if_true, get_bind_apply, if_pos hstate]
        rfl
      · rw [if_neg (show ¬ armable c.status from fun h => hstate h.2)]
        simp only [Bool.not_false, Bool.and_true, if_true, get_bind_apply, if_neg hstate]
        rfl

/-- A request that carries the armed flag never disarms. -/
theorem disarmOnRequest_apply {mode : UInt8}
    (hmode : hasFlag mode vehicleModeFlagSafetyArmed = true) (ret : UInt8) (c : App) :
    disarmOnRequest clock mode ret c = .ok ret c := by
  unfold disarmOnRequest
  simp only [get_bind_apply, hmode, Bool.not_true, Bool.and_false]
  rfl

/-- A request without the HIL flag never switches HIL on. -/
theorem enableHilOnRequest_apply {mode : UInt8}
    (hmode : hasFlag mode vehicleModeFlagHilEnabled = false) (ret : UInt8) (c : App) :
    enableHilOnRequest clock mode ret c = .ok ret c := by
  unfold enableHilOnRequest
  simp only [get_bind_apply, hmode]
  rw [if_neg (fun h => Bool.false_ne_true h.2.1)]
  rfl

/-- A denied request changes nothing. -/
theorem denyHilOff_apply (mode ret : UInt8) (c : App) :
    ∃ ret', denyHilOff mode ret c = .ok ret' c := by
  unfold denyHilOff
  simp only [get_bind_apply]
  by_cases h : (c.status.flagHilEnabled && !hasFlag mode vehicleModeFlagHilEnabled) = true
  · exact ⟨255, by rw [if_pos h]; rfl⟩
  · exact ⟨ret, by rw [if_neg h]; rfl⟩

/-- Run one computation, then go on: how a sequence of requests reduces. -/
theorem bind_apply_ok {α β : Type} {x : Exec α} {f : α → Exec β} {c c' : App} {a : α}
    (h : x c = .ok a c') : (x >>= f) c = f a c' := by
  show EStateM.bind x f c = _
  unfold EStateM.bind
  rw [h]

/-- The mode request that carries the armed flag and nothing else: it arms a
disarmed vehicle in standby or preflight and changes nothing otherwise. -/
theorem modeRequest_safetyArmed (c : App) :
    ∃ ret, updateStateMachineModeRequest clock vehicleModeFlagSafetyArmed c =
      .ok ret (if armable c.status then
        committed clock (announced c .groundReady) .groundReady else c) := by
  have hflag : hasFlag vehicleModeFlagSafetyArmed vehicleModeFlagSafetyArmed = true := by decide
  have hhil : hasFlag vehicleModeFlagSafetyArmed vehicleModeFlagHilEnabled = false := by decide
  have harm : ∃ ret, armOnRequest clock vehicleModeFlagSafetyArmed 1 c =
      .ok ret (if armable c.status then
        committed clock (announced c .groundReady) .groundReady else c) := by
    rw [armOnRequest_apply clock hflag]
    by_cases h : armable c.status
    · exact ⟨0, by rw [if_pos h, if_pos h]⟩
    · exact ⟨1, by rw [if_neg h, if_neg h]⟩
  obtain ⟨ret, harm⟩ := harm
  unfold updateStateMachineModeRequest
  rw [bind_apply_ok harm, bind_apply_ok (disarmOnRequest_apply clock hflag _ _),
    bind_apply_ok (enableHilOnRequest_apply clock hhil _ _)]
  exact denyHilOff_apply _ _ _

/-- What the disarm command does to the vehicle: it makes the mode request that
arms. -/
theorem handleCommand_disarm {cmd : VehicleCommand}
    (hcmd : cmd.command = mavCmdComponentArmDisarm) (hparam : cmd.param1.toInt = 0)
    (c : App) :
    ∃ result, handleCommand clock cal cmd c =
      .ok result (if armable c.status then
        committed clock (announced c .groundReady) .groundReady else c) := by
  obtain ⟨ret, hreq⟩ := modeRequest_safetyArmed clock c
  unfold handleCommand
  rw [if_neg (by rw [hcmd]; decide), if_pos hcmd]
  unfold componentArmDisarm
  rw [if_neg (by rw [hparam]; decide), if_pos hparam, bind_apply_ok hreq]
  exact ⟨modeResult ret, rfl⟩

/-- What the disarm command is for: it takes a vehicle that is ready on the ground
to standby and disarms it, and it arms no vehicle. -/
def DisarmOk (cmd : VehicleCommand) (c : App) : Prop :=
  match handleCommand clock cal cmd c with
  | .ok _ c' =>
      (c.status.stateMachine = .groundReady →
        c'.status.stateMachine = .standby ∧ c'.status.flagSystemArmed = false) ∧
      (c.status.flagSystemArmed = false → c'.status.flagSystemArmed = false)
  | .error _ _ => False

/-- **When the disarm command does what it is for**: exactly when there is nothing
to do, on a vehicle that is not ready on the ground and that an arming request
would not arm. -/
theorem disarmOk_iff {cmd : VehicleCommand} (hcmd : cmd.command = mavCmdComponentArmDisarm)
    (hparam : cmd.param1.toInt = 0) (c : App) :
    DisarmOk clock cal cmd c ↔
      c.status.stateMachine ≠ .groundReady ∧ ¬ armable c.status := by
  obtain ⟨result, hrun⟩ := handleCommand_disarm clock cal hcmd hparam c
  unfold DisarmOk
  rw [hrun]
  by_cases h : armable c.status
  · rw [if_pos h]
    constructor
    · intro hok
      have harmed : (committed clock (announced c .groundReady) .groundReady).status.flagSystemArmed
          = true := rfl
      exact absurd (hok.2 h.1) (by rw [harmed]; decide)
    · intro hcond
      exact absurd h hcond.2
  · rw [if_neg h]
    constructor
    · intro hok
      refine ⟨fun hready => ?_, h⟩
      have hstandby := (hok.1 hready).1
      rw [hready] at hstandby
      cases hstandby
    · intro hcond
      exact ⟨fun hready => absurd hready hcond.1, fun harmed => harmed⟩

end

/-- The disarm command, as a ground station sends it. -/
def disarmCommand : VehicleCommand :=
  { param1 := .finite 0, param2 := .finite 0, param3 := .finite 0, param4 := .finite 0,
    param5 := .finite 0, param6 := .finite 0, param7 := .finite 0,
    command := mavCmdComponentArmDisarm, targetSystem := 1, targetComponent := 50,
    sourceSystem := 255, sourceComponent := 0, confirmation := 0 }

/-- Calibration routines that do nothing. -/
def noCalibrations : Calibrations := { gyro := pure (), mag := pure (), accel := pure () }

/-- After an emergency on the ground the vehicle is left alone. -/
theorem disarmOk_groundError :
    ∃ c, stateMachineEmergency (fun _ => 0) initialCommander = .ok () c ∧
      c.status.stateMachine = .groundError ∧
      DisarmOk (fun _ => 0) noCalibrations disarmCommand c := by
  have hcmd : disarmCommand.command = mavCmdComponentArmDisarm := rfl
  refine ⟨committed (fun _ => 0) (announced initialCommander .groundError) .groundError,
    rfl, rfl, ?_⟩
  exact (disarmOk_iff (fun _ => 0) noCalibrations hcmd (by decide) _).mpr (by decide)

/-- Right after the app has started, the disarm command arms the vehicle. -/
theorem disarm_arms_preflight :
    ¬ DisarmOk (fun _ => 0) noCalibrations disarmCommand initialCommander := by
  have hcmd : disarmCommand.command = mavCmdComponentArmDisarm := rfl
  obtain ⟨result, hrun⟩ :=
    handleCommand_disarm (fun _ => 0) noCalibrations hcmd (by decide) initialCommander
  unfold DisarmOk
  rw [hrun]
  intro hok
  exact absurd (hok.2 rfl) (by decide)

end Px4Firmware.Commander
