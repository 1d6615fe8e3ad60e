import Px4Firmware.Commander.GroundOnly
import Px4Firmware.Lib.Hoare

/-!
# Px4Firmware.Commander.Selection

**The controller selection** sets the four flags that enable the controllers. Its case in
`handle_command` has no `break`: the command runs into the case of the preflight calibration, which
reads the same parameters in its own way, and the fifth one as well.

`selects_only_iff` says when the command does what it is for, and nothing else: when the calibration
case finds nothing to calibrate. It then still refuses a request that nobody has made.
-/

namespace Px4Firmware.Commander

open Px4Firmware.Lib

/-- A parameter that says yes or no. -/
def IsFlag (param : CFloat) : Prop := param = .finite 0 ∨ param = .finite 1

/-- A controller selection with such parameters. The others are arbitrary. -/
structure SelectionCommand (cmd : VehicleCommand) : Prop where
  command : cmd.command = px4CmdControllerSelection
  rates : IsFlag cmd.param1
  attitude : IsFlag cmd.param2
  velocity : IsFlag cmd.param3
  position : IsFlag cmd.param4

/-- The status with the flags that the command asks for. -/
def VehicleCommand.select (cmd : VehicleCommand) (s : VehicleStatus) : VehicleStatus :=
  { s with
    flagControlRatesEnabled := cmd.param1 = .finite 1
    flagControlAttitudeEnabled := cmd.param2 = .finite 1
    flagControlVelocityEnabled := cmd.param3 = .finite 1
    flagControlPositionEnabled := cmd.param4 = .finite 1 }

/-- The text of the calibration case when nothing is asked for. -/
def refusing : String := "[commander] CMD refusing unsup. calib. request"

section

variable (clock : Nat → UInt64)

/-- The law: the handler returns, with the same result whatever the calibrations do, because none of
them is started. The flags are as selected, and nothing else of the status is different but its
counter and its time. Nothing is sent but the status and a refusal; a state transition would at
least have sent a text of its own. -/
def SelectsOnly (cmd : VehicleCommand) (c : App) : Prop :=
  ∃ result c' sent,
    (∀ cal, handleCommand clock cal cmd c = .ok result c') ∧
    c'.status = { cmd.select c.status with
      counter := c'.status.counter, timestamp := c'.status.timestamp } ∧
    c'.sent = c.sent ++ sent ∧
    ∀ e ∈ sent, e = .vehicleStatus c'.status ∨ e = .logCritical refusing

theorem IsFlag.toBool {param : CFloat} (h : IsFlag param) :
    param.toBool = decide (param = .finite 1) := by
  rcases h with rfl | rfl <;> decide

/-- A flag that does not differ from its parameter is like it. -/
theorem IsFlag.eq_of_toInt {param : CFloat} {flag : Bool} (h : IsFlag param)
    (hflag : param.toInt = if flag then 1 else 0) : flag = decide (param = .finite 1) := by
  rcases h with rfl | rfl <;> cases flag <;> revert hflag <;> decide

/-- One flag takes its parameter if the two differ, and the selection goes on. -/
def settle (param : CFloat) (flag : VehicleStatus → Bool) (set : VehicleStatus → VehicleStatus)
    (rest : Bool → Exec Unit) (changed : Bool) : Exec Unit := do
  if (decide (param.toInt ≠ if flag (← get).status then 1 else 0)) = true then
    modifyStatus set
    rest true
  else
    rest changed

/-- A status with one flag set. -/
def VehicleStatus.setRates (enabled : Bool) (s : VehicleStatus) : VehicleStatus :=
  { s with flagControlRatesEnabled := enabled }

def VehicleStatus.setAttitude (enabled : Bool) (s : VehicleStatus) : VehicleStatus :=
  { s with flagControlAttitudeEnabled := enabled }

def VehicleStatus.setVelocity (enabled : Bool) (s : VehicleStatus) : VehicleStatus :=
  { s with flagControlVelocityEnabled := enabled }

def VehicleStatus.setPosition (enabled : Bool) (s : VehicleStatus) : VehicleStatus :=
  { s with flagControlPositionEnabled := enabled }

/-- The selection, flag by flag. -/
theorem controllerSelection_eq (cmd : VehicleCommand) :
    controllerSelection clock cmd =
      settle cmd.param1 VehicleStatus.flagControlRatesEnabled (.setRates cmd.param1.toBool)
        (settle cmd.param2 VehicleStatus.flagControlAttitudeEnabled
          (.setAttitude cmd.param2.toBool)
          (settle cmd.param3 VehicleStatus.flagControlVelocityEnabled
            (.setVelocity cmd.param3.toBool)
            (settle cmd.param4 VehicleStatus.flagControlPositionEnabled
              (.setPosition cmd.param4.toBool)
              fun changed => if changed then stateMachinePublish clock else pure ())))
        false := rfl

/-- The four flags together. -/
theorem VehicleCommand.select_eq (cmd : VehicleCommand) (s : VehicleStatus) :
    cmd.select s = (((s.setRates (cmd.param1 = .finite 1)).setAttitude
      (cmd.param2 = .finite 1)).setVelocity (cmd.param3 = .finite 1)).setPosition
        (cmd.param4 = .finite 1) := rfl

/-- Whether or not it has to be changed, the flag is as its parameter says then. -/
theorem wp_settle {param : CFloat} (hparam : IsFlag param) {flag : VehicleStatus → Bool}
    {set : VehicleStatus → VehicleStatus} {rest : Bool → Exec Unit} {changed : Bool}
    {Q : Unit → App → Prop} {c : App}
    (hset : flag c.status = param.toBool → set c.status = c.status)
    (h : ∀ changed, wp (rest changed) Q { c with status := set c.status }) :
    wp (settle param flag set rest changed) Q c := by
  unfold settle
  rw [wp_bind, wp_get]
  by_cases hsame : param.toInt = if flag c.status = true then 1 else 0
  · have hflag := hparam.eq_of_toInt hsame
    rw [if_neg (by simpa using hsame)]
    have hsettled := h changed
    rwa [hset (hflag.trans hparam.toBool.symm)] at hsettled
  · rw [if_pos (by simpa using hsame)]
    exact h true

/-- The selection itself sets the flags, and publishes the status if one of them has changed. -/
theorem controllerSelection_wp {cmd : VehicleCommand} (h : SelectionCommand cmd) (c : App) :
    wp (controllerSelection clock cmd) (fun _ c' =>
      c'.status = { cmd.select c.status with
        counter := c'.status.counter, timestamp := c'.status.timestamp } ∧
      (c'.sent = c.sent ∨ c'.sent = c.sent ++ [.vehicleStatus c'.status])) c := by
  rw [controllerSelection_eq]
  refine wp_settle h.rates (fun hflag => by rw [← hflag]; rfl) fun changed => ?_
  refine wp_settle h.attitude (fun hflag => by rw [← hflag]; rfl) fun changed => ?_
  refine wp_settle h.velocity (fun hflag => by rw [← hflag]; rfl) fun changed => ?_
  refine wp_settle h.position (fun hflag => by rw [← hflag]; rfl) fun changed => ?_
  rw [h.rates.toBool, h.attitude.toBool, h.velocity.toBool, h.position.toBool,
    ← cmd.select_eq c.status]
  cases changed with
  | false => exact ⟨rfl, .inl rfl⟩
  | true => exact ⟨rfl, .inr rfl⟩

/-- The handler makes the selection, and goes on with the calibration case. -/
theorem handleCommand_selection {cmd : VehicleCommand} (h : SelectionCommand cmd) (c : App) :
    ∃ c₁, (∀ cal, handleCommand clock cal cmd c = preflightCalibration clock cal cmd c₁) ∧
      c₁.status = { cmd.select c.status with
        counter := c₁.status.counter, timestamp := c₁.status.timestamp } ∧
      (c₁.sent = c.sent ∨ c₁.sent = c.sent ++ [.vehicleStatus c₁.status]) := by
  obtain ⟨_, c₁, hselect, hselected⟩ := wp_iff.mp (controllerSelection_wp clock h c)
  refine ⟨c₁, fun cal => ?_, hselected⟩
  unfold handleCommand
  rw [if_neg (by rw [h.command]; decide), if_neg (by rw [h.command]; decide),
    if_neg (by rw [h.command]; decide), if_pos h.command, bind_apply_ok hselect]

/-- A calibration that does not return makes a difference. -/
theorem not_selectsOnly {cmd : VehicleCommand} (h : SelectionCommand cmd)
    (hasks : asksCalibration cmd) (c : App) : ¬ SelectsOnly clock cmd c := by
  rintro ⟨result, c', sent, hall, -⟩
  obtain ⟨c₁, hrun, -⟩ := handleCommand_selection clock h c
  obtain ⟨c'', hthrow⟩ := preflightCalibration_throws clock hasks c₁
  have hok := hall throwingCalibrations
  rw [hrun, hthrow] at hok
  cases hok

/-- **A controller selection touches only its flags** exactly if, read as a calibration command, it
asks for no calibration. -/
theorem selects_only_iff {cmd : VehicleCommand} (h : SelectionCommand cmd) (c : App) :
    SelectsOnly clock cmd c ↔ ¬ asksCalibration cmd := by
  constructor
  · exact fun honly hasks => not_selectsOnly clock h hasks c honly
  · intro hasks
    obtain ⟨c₁, hrun, hstatus, hsent⟩ := handleCommand_selection clock h c
    have hnone := fun cal => (hrun cal).trans (preflightCalibration_none clock hasks cal c₁)
    rcases hsent with hsent | hsent
    · refine ⟨.unsupported, _, [.logCritical refusing], hnone, hstatus, ?_, ?_⟩
      · rw [hsent]
        rfl
      · intro e he
        exact .inr (List.mem_singleton.mp he)
    · refine ⟨.unsupported, _, [.vehicleStatus c₁.status, .logCritical refusing], hnone, hstatus,
        ?_, ?_⟩
      · rw [hsent, List.append_assoc]
        rfl
      · intro e he
        simpa using he

end

/-- The selection of the velocity and the position controller. -/
def selectPosition : VehicleCommand :=
  { disarmCommand with
    command := px4CmdControllerSelection, param3 := .finite 1, param4 := .finite 1 }

/-- The selection of the rate controller. -/
def selectRates : VehicleCommand :=
  { disarmCommand with command := px4CmdControllerSelection, param1 := .finite 1 }

theorem selectPosition_selection : SelectionCommand selectPosition :=
  ⟨rfl, .inl rfl, .inl rfl, .inr rfl, .inr rfl⟩

theorem selectRates_selection : SelectionCommand selectRates :=
  ⟨rfl, .inr rfl, .inl rfl, .inl rfl, .inl rfl⟩

/-- The position controller is selected, and nothing else happens. -/
theorem selects_only_position : SelectsOnly (fun _ => 0) selectPosition initialCommander :=
  (selects_only_iff (fun _ => 0) selectPosition_selection initialCommander).mpr (by decide)

/-- With the rate controller, a gyro calibration is started. -/
theorem selectRates_calibrates :
    ¬ ∀ (clock : Nat → UInt64) (cmd : VehicleCommand) (c : App), SelectionCommand cmd →
      SelectsOnly clock cmd c := by
  intro honly
  exact not_selectsOnly (fun _ => 0) selectRates_selection (by decide) initialCommander
    (honly (fun _ => 0) selectRates initialCommander selectRates_selection)

end Px4Firmware.Commander
