import Px4Firmware.Commander.Command

/-!
# Px4Firmware.Commander.GroundOnly

The calibration and reboot commands are meant for a vehicle in standby or preflight. **In another
state they are harmless exactly when they ask for nothing**, except that a reboot may be asked for
in the reboot state (`harmless_iff`).

The guard of a calibration is the state after the transition to preflight. The transition is
refused, and stored nevertheless, so the guard holds in every state: `calibrate_starts` says that a
calibration always starts.
-/

namespace Px4Firmware.Commander

open Px4Firmware.Lib

section

variable (clock : Nat → UInt64)

/-- A command is harmless: it returns with the status as it was, and the calibration routines do
not matter, because none of them is started. -/
def Harmless (cmd : VehicleCommand) (c : App) : Prop :=
  ∃ result c', (∀ cal, handleCommand clock cal cmd c = .ok result c') ∧ c'.status = c.status

/-- After the transition to preflight, carried out or refused, the state is preflight. -/
theorem doStateUpdate_preflight (c : App) :
    ∃ ret c', doStateUpdate clock .preflight c = .ok ret c' ∧
      c'.status.stateMachine = .preflight := by
  by_cases h : accepts c.status.stateMachine .preflight
  · exact ⟨ok, _, doStateUpdate_accepted clock h (by decide), rfl⟩
  · obtain ⟨c', hrun, hstate⟩ := refused_commits clock h fun heq => h (Or.inr heq)
    exact ⟨error, c', hrun, hstate⟩

/-- A calibration always starts. -/
theorem calibrate_starts (name rejecting : String) (c : App) :
    ∃ c', ∀ routine, calibrate clock name rejecting routine c =
      (do
        routine
        mavlinkLogInfo ("[commander] CMD finished " ++ name ++ " calibration")
        discard <| doStateUpdate clock .standby
        return .accepted : Exec MavResult) c' := by
  obtain ⟨ret, c₁, hrun, hstate⟩ := doStateUpdate_preflight clock c
  refine ⟨{ c₁ with
    sent := c₁.sent ++ [.logInfo ("[commander] CMD starting " ++ name ++ " calibration")] }, ?_⟩
  intro routine
  have hdiscard : (discard <| doStateUpdate clock .preflight : Exec Unit) c = .ok () c₁ := by
    show EStateM.map _ _ c = _
    unfold EStateM.map
    rw [hrun]
  unfold calibrate
  rw [bind_apply_ok hdiscard, get_bind_apply, if_pos hstate]
  rfl

/-- Calibration routines that do not return. -/
def throwingCalibrations : Calibrations :=
  { gyro := throw .reboot, mag := throw .reboot, accel := throw .reboot }

theorem bind_apply_error {α β : Type} {x : Exec α} {f : α → Exec β} {c c' : App} {e : Reboot}
    (h : x c = .error e c') : (x >>= f) c = .error e c' := by
  show EStateM.bind x f c = _
  unfold EStateM.bind
  rw [h]

theorem calibrate_throws (name rejecting : String) (c : App) :
    ∃ c', calibrate clock name rejecting (throw .reboot) c = .error .reboot c' := by
  obtain ⟨c', hrun⟩ := calibrate_starts clock name rejecting c
  exact ⟨c', (hrun _).trans (bind_apply_error rfl)⟩

/-- A calibration command asks for a calibration. -/
def asksCalibration (cmd : VehicleCommand) : Prop :=
  cmd.param1.toInt = 1 ∨ cmd.param2.toInt = 1 ∨ cmd.param5.toInt = 1

instance (cmd : VehicleCommand) : Decidable (asksCalibration cmd) := by
  unfold asksCalibration; infer_instance

/-- A command that asks for a calibration starts one. -/
theorem preflightCalibration_throws {cmd : VehicleCommand} (h : asksCalibration cmd) (c : App) :
    ∃ c', preflightCalibration clock throwingCalibrations cmd c = .error .reboot c' := by
  unfold preflightCalibration throwingCalibrations
  by_cases hgyro : cmd.param1.toInt = 1
  · obtain ⟨c', hrun⟩ := calibrate_throws clock "gyro" "[commander] REJECTING " c
    rw [if_pos hgyro]
    exact ⟨c', bind_apply_error hrun⟩
  · rw [if_neg hgyro]
    dsimp only
    by_cases hmag : cmd.param2.toInt = 1
    · obtain ⟨c', hrun⟩ := calibrate_throws clock "mag" "[commander] CMD REJECTING " c
      rw [if_pos hmag]
      exact ⟨c', bind_apply_error hrun⟩
    · rw [if_neg hmag]
      have haccel : cmd.param5.toInt = 1 := (h.resolve_left hgyro).resolve_left hmag
      obtain ⟨c', hrun⟩ := calibrate_throws clock "accel" "[commander] REJECTING " c
      rw [if_pos haccel]
      exact ⟨c', bind_apply_error hrun⟩

/-- A command that asks for none only says so. -/
theorem preflightCalibration_none {cmd : VehicleCommand} (h : ¬ asksCalibration cmd)
    (cal : Calibrations) (c : App) :
    preflightCalibration clock cal cmd c = .ok .unsupported
      { c with
        sent := c.sent ++ [.logCritical "[commander] CMD refusing unsup. calib. request"] } := by
  unfold asksCalibration at h
  rw [not_or, not_or] at h
  unfold preflightCalibration
  simp only [if_neg h.1, if_neg h.2.1, if_neg h.2.2]
  rfl

/-- The calibration command. -/
theorem harmless_calibration_iff {cmd : VehicleCommand}
    (hcmd : cmd.command = mavCmdPreflightCalibration) (c : App) :
    Harmless clock cmd c ↔ ¬ asksCalibration cmd := by
  have hrun : ∀ cal, handleCommand clock cal cmd c = preflightCalibration clock cal cmd c := by
    intro cal
    unfold handleCommand
    rw [if_neg (by rw [hcmd]; decide), if_neg (by rw [hcmd]; decide), if_neg (by rw [hcmd]; decide),
      if_neg (by rw [hcmd]; decide), if_pos hcmd]
  constructor
  · intro ⟨result, c', hall, _⟩ hasks
    obtain ⟨c'', hthrow⟩ := preflightCalibration_throws clock hasks c
    have hok := hall throwingCalibrations
    rw [hrun, hthrow] at hok
    cases hok
  · intro hasks
    exact ⟨_, _, fun cal => (hrun cal).trans (preflightCalibration_none clock hasks cal c), rfl⟩

/-- The reboot command, outside the ground states. -/
theorem harmless_reboot_iff {cmd : VehicleCommand}
    (hcmd : cmd.command = mavCmdPreflightRebootShutdown) {c : App}
    (hground : ¬ accepts c.status.stateMachine .reboot) :
    Harmless clock cmd c ↔ (cmd.param1.toInt = 1 → c.status.stateMachine = .reboot) := by
  have hrun : ∀ cal, handleCommand clock cal cmd c =
      (if cmd.param1.toInt = 1 then (do
        if (← doStateUpdate clock .reboot) = ok then return .accepted else return .denied)
      else return .unsupported : Exec MavResult) c := by
    intro cal
    unfold handleCommand
    rw [if_neg (by rw [hcmd]; decide), if_neg (by rw [hcmd]; decide), if_pos hcmd]
  by_cases hparam : cmd.param1.toInt = 1
  · have hrefused := doStateUpdate_refused clock hground
    have hdenied : ∀ cal, handleCommand clock cal cmd c = .ok .denied (rejected
        (if c.status.stateMachine = .reboot then refused c .reboot
          else committed clock (refused c .reboot) .reboot)) := by
      intro cal
      rw [hrun, if_pos hparam, bind_apply_ok hrefused]
      rfl
    constructor
    · intro ⟨result, c', hall, hstatus⟩ _
      have hok := hall noCalibrations
      rw [hdenied] at hok
      by_cases hstate : c.status.stateMachine = .reboot
      · exact hstate
      · -- The refused transition was stored.
        rw [if_neg hstate] at hok
        cases hok
        exact (congrArg VehicleStatus.stateMachine hstatus).symm
    · intro hstate
      refine ⟨_, _, hdenied, ?_⟩
      rw [if_pos (hstate hparam)]
      rfl
  · constructor
    · intro _ h
      exact absurd h hparam
    · intro _
      refine ⟨.unsupported, c, ?_, rfl⟩
      intro cal
      rw [hrun, if_neg hparam]
      rfl

/-- **When a calibration or reboot command is harmless** in a state other than standby and
preflight: when it asks for no calibration, and when it asks for no reboot or the state is the
reboot state already. -/
theorem harmless_iff {cmd : VehicleCommand} {c : App}
    (hcmd : cmd.command = mavCmdPreflightCalibration ∨
      cmd.command = mavCmdPreflightRebootShutdown)
    (hstandby : c.status.stateMachine ≠ .standby)
    (hpreflight : c.status.stateMachine ≠ .preflight) :
    Harmless clock cmd c ↔
      (cmd.command = mavCmdPreflightCalibration → ¬ asksCalibration cmd) ∧
      (cmd.command = mavCmdPreflightRebootShutdown → cmd.param1.toInt = 1 →
        c.status.stateMachine = .reboot) := by
  have hground : ¬ accepts c.status.stateMachine .reboot := not_or.mpr ⟨hstandby, hpreflight⟩
  rcases hcmd with hcal | hreboot
  · rw [harmless_calibration_iff clock hcal]
    refine ⟨fun h => ⟨fun _ => h, fun heq => ?_⟩, fun h => h.1 hcal⟩
    rw [hcal] at heq
    exact absurd heq (by decide)
  · rw [harmless_reboot_iff clock hreboot hground]
    refine ⟨fun h => ⟨fun heq => ?_, fun _ => h⟩, fun h => h.2 hreboot⟩
    rw [hreboot] at heq
    exact absurd heq (by decide)

end

/-- The command for a gyro calibration, as a ground station sends it. -/
def gyroCalibrationCommand : VehicleCommand :=
  { disarmCommand with command := mavCmdPreflightCalibration, param1 := .finite 1 }

/-- A reboot command that asks for nothing is harmless in flight. -/
theorem harmless_shutdown : Harmless (fun _ => 0)
    { disarmCommand with command := mavCmdPreflightRebootShutdown } manualFlight := by
  refine (harmless_iff (fun _ => 0) (Or.inr rfl) (by decide) (by decide)).mpr ⟨?_, ?_⟩
  · intro heq
    exact absurd heq (by decide)
  · intro _ hparam
    exact absurd hparam (by decide)

/-- In flight, the gyro calibration command starts a gyro calibration. -/
theorem calibration_starts_in_flight :
    ¬ Harmless (fun _ => 0) gyroCalibrationCommand manualFlight := by
  intro h
  have hcmd : gyroCalibrationCommand.command = mavCmdPreflightCalibration := rfl
  exact (harmless_calibration_iff (fun _ => 0) hcmd manualFlight).mp h (by decide)

end Px4Firmware.Commander
