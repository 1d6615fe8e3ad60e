import Mathlib.Tactic.SplitIfs
import Px4Firmware.Commander.Coherence
import Px4Firmware.Commander.GroundOnly

/-!
# Px4Firmware.Commander.Calibration

**Calibration and arming in two threads.** The command thread executes calibration commands step by
step, and between any two of its steps the main loop may check the sticks, switch the mode or go to
standby. The two share the status without a lock.

A vehicle can be armed during a calibration: the main loop goes to standby between the check of the
state and the setting of the flag, or a disarm gesture takes it there, or an aborted calibration
leaves its flag behind, and in standby the arm gesture arms. `calibration_safe` says when this does
not happen: in a run in which no calibration begins on an armed vehicle and no arm gesture takes
effect during a calibration, no vehicle is armed during a calibration. Each step that does not meet
the condition leads to a violation, so the condition cannot be weakened.
-/

namespace Px4Firmware.Commander

open Px4Firmware.Lib

/-! ### The command thread -/

/-- The calibrations, in the order of the handler. -/
inductive Calibration
  | gyro
  | mag
  | accel
  deriving DecidableEq

/-- The name of a calibration in the handler's texts. -/
def Calibration.name : Calibration → String
  | gyro => "gyro"
  | mag => "mag"
  | accel => "accel"

/-- How the handler's rejection of a calibration starts. -/
def Calibration.rejecting : Calibration → String
  | mag => "[commander] CMD REJECTING "
  | _ => "[commander] REJECTING "

/-- Write the flag of a calibration. -/
def Calibration.writeFlag (flag : Bool) (s : VehicleStatus) : Calibration → VehicleStatus
  | gyro => { s with flagPreflightGyroCalibration := flag }
  | mag => { s with flagPreflightMagCalibration := flag }
  | accel => { s with flagPreflightAccelCalibration := flag }

/-- Is the flag of a calibration set? -/
def VehicleStatus.calibrating (s : VehicleStatus) : Bool :=
  s.flagPreflightGyroCalibration || s.flagPreflightMagCalibration ||
    s.flagPreflightAccelCalibration

/-- The calibrations that a command asks for. -/
def VehicleCommand.calibrations (cmd : VehicleCommand) : List Calibration :=
  (if cmd.param1.toInt = 1 then [.gyro] else []) ++
    (if cmd.param2.toInt = 1 then [.mag] else []) ++
    (if cmd.param5.toInt = 1 then [.accel] else [])

/-- The next step of a branch of the handler. -/
inductive BranchStep
  | toPreflight
  | check
  | setFlag
  | sampling
  | clearFlag
  | toStandby
  deriving DecidableEq

/-- Has the branch passed its check of the state? -/
def BranchStep.pastCheck : BranchStep → Bool
  | toPreflight => false
  | check => false
  | _ => true

/-- Where the command thread is: in a branch, with the calibrations that are to follow. -/
structure Branch where
  kind : Calibration
  step : BranchStep
  rest : List Calibration

/-- Begin the first of these calibrations. -/
def Branch.begin : List Calibration → Option Branch
  | [] => none
  | kind :: rest => some { kind := kind, step := .toPreflight, rest := rest }

section

variable (clock : Nat → UInt64)

/-- One step of a branch: what it does, and where the thread is then. `pollOk` says how the sampling
ends; only the magnetometer's one clears its flag in both cases. -/
def Branch.next (branch : Branch) (s : VehicleStatus) (pollOk : Bool) :
    Exec Unit × Option Branch :=
  match branch.step with
  | .toPreflight =>
      (discard <| doStateUpdate clock .preflight, some { branch with step := .check })
  | .check =>
      if s.stateMachine = .preflight then
        (mavlinkLogInfo ("[commander] CMD starting " ++ branch.kind.name ++ " calibration"),
          some { branch with step := .setFlag })
      else
        (mavlinkLogCritical (branch.kind.rejecting ++ branch.kind.name ++ " calibration"),
          Branch.begin branch.rest)
  | .setFlag =>
      (do
        modifyStatus fun s => branch.kind.writeFlag true s
        stateMachinePublish clock,
        some { branch with step := .sampling })
  | .sampling =>
      (pure (), some { branch with
        step := if pollOk ∨ branch.kind = .mag then .clearFlag else .toStandby })
  | .clearFlag =>
      (do
        modifyStatus fun s => branch.kind.writeFlag false s
        stateMachinePublish clock,
        some { branch with step := .toStandby })
  | .toStandby =>
      (do
        mavlinkLogInfo ("[commander] CMD finished " ++ branch.kind.name ++ " calibration")
        discard <| doStateUpdate clock .standby,
        Branch.begin branch.rest)

/-! ### The main loop -/

/-- The left stick, at low throttle: in the lower left or right corner, or elsewhere. -/
inductive Stick
  | lowerLeft
  | lowerRight
  | elsewhere
  deriving DecidableEq

/-- The override mode switch. -/
inductive ModeSwitch
  | manual
  | auto
  | stabilized

/-- A recent RC input. -/
structure RcSample where
  stick : Stick
  modeSwitch : ModeSwitch

/-- `STICK_ON_OFF_COUNTER_LIMIT`. -/
def stickOnOffCounterLimit : Nat := 20

/-- The next part of the main loop. -/
inductive LoopPoint
  | start
  | stickOn (rc : RcSample)
  | modeSwitch (rc : RcSample)
  | standby

/-- The main loop: its counters and where it is. -/
structure MainLoop where
  stickOffCounter : Nat
  stickOnCounter : Nat
  point : LoopPoint

/-- The first part of an iteration: the disarm gesture. Without a recent RC input, the checks of the
sticks are left out. -/
def MainLoop.start (loop : MainLoop) : Option RcSample → Exec Unit × MainLoop
  | none => (pure (), { loop with point := .standby })
  | some rc =>
      if rc.stick = .lowerLeft then
        if stickOnOffCounterLimit < loop.stickOffCounter then
          (updateStateMachineDisarm clock,
            { loop with stickOnCounter := 0, point := .stickOn rc })
        else
          (pure (),
            { stickOffCounter := loop.stickOffCounter + 1
              stickOnCounter := 0
              point := .stickOn rc })
      else
        (pure (), { loop with point := .stickOn rc })

/-- The second part: the arm gesture. -/
def MainLoop.checkStickOn (loop : MainLoop) (rc : RcSample) : Exec Unit × MainLoop :=
  if rc.stick = .lowerRight then
    if stickOnOffCounterLimit < loop.stickOnCounter then
      (updateStateMachineArm clock, { loop with stickOnCounter := 0, point := .modeSwitch rc })
    else
      (pure (),
        { stickOffCounter := 0
          stickOnCounter := loop.stickOnCounter + 1
          point := .modeSwitch rc })
  else
    (pure (), { loop with point := .modeSwitch rc })

/-- The third part: the mode switch. -/
def switchMode : ModeSwitch → Exec Unit
  | .manual => updateStateMachineModeManual clock
  | .auto => updateStateMachineModeAuto clock
  | .stabilized => updateStateMachineModeStabilized clock

/-- The last part: go to standby if no calibration is going on. -/
def standbyWhenClean : Exec Unit := do
  let s := (← get).status
  if s.stateMachine = .preflight ∧ s.flagPreflightGyroCalibration = false ∧
      s.flagPreflightMagCalibration = false ∧ s.flagPreflightAccelCalibration = false then
    discard <| doStateUpdate clock .standby

/-- The parts of an iteration after the first one. -/
def MainLoop.next (loop : MainLoop) : Option (Exec Unit × MainLoop) :=
  match loop.point with
  | .start => none
  | .stickOn rc => some (loop.checkStickOn clock rc)
  | .modeSwitch rc => some (switchMode clock rc.modeSwitch, { loop with point := .standby })
  | .standby => some (standbyWhenClean clock, { loop with point := .start })

/-! ### The two threads -/

/-- The app and its two threads. -/
structure Threads where
  app : App
  command : Option Branch
  loop : MainLoop

/-- What happens next: an iteration of the main loop starts, the main loop goes on, a calibration
command arrives, or the command thread goes on. -/
inductive ThreadEvent
  | iterate (rc : Option RcSample)
  | loop
  | command (cmd : VehicleCommand)
  | thread (pollOk : Bool)

/-- The next state. A step that reboots has none. -/
def Threads.next (t : Threads) : ThreadEvent → Option Threads
  | .iterate rc =>
      match t.loop.point with
      | .start =>
          (completes (t.loop.start clock rc).1 t.app).map fun app =>
            { t with app := app, loop := (t.loop.start clock rc).2 }
      | _ => none
  | .loop =>
      (t.loop.next clock).bind fun (program, loop) =>
        (completes program t.app).map fun app => { t with app := app, loop := loop }
  | .command cmd =>
      match t.command with
      | none => some { t with command := Branch.begin cmd.calibrations }
      | some _ => none
  | .thread pollOk =>
      t.command.bind fun branch =>
        (completes (branch.next clock t.app.status pollOk).1 t.app).map fun app =>
          { t with app := app, command := (branch.next clock t.app.status pollOk).2 }

/-- The two threads as a transition system. It starts with a new app, an idle command thread and a
main loop that has seen no gesture. -/
def threads : LTS Threads ThreadEvent where
  init t := t.app = initialCommander ∧ t.command = none ∧ t.loop = ⟨0, 0, .start⟩
  step t e t' := t.next clock e = some t'

end

/-! ### The law and its condition -/

/-- Is a calibration going on? A branch has passed its check, or a flag is set. -/
def Threads.calibrating (t : Threads) : Bool :=
  t.app.status.calibrating || t.command.any fun branch => branch.step.pastCheck

/-- The law: with a flag set the vehicle is not armed, and the transition at the end of a
calibration finds it disarmed. -/
def Threads.Safe (t : Threads) : Prop :=
  (t.app.status.calibrating = true → t.app.status.flagSystemArmed = false) ∧
    (t.command.map Branch.step = some .toStandby → t.app.status.flagSystemArmed = false)

/-- The next part of the main loop is the arm gesture, long enough held. -/
def MainLoop.arms (loop : MainLoop) : Bool :=
  match loop.point with
  | .stickOn rc => rc.stick = .lowerRight && stickOnOffCounterLimit < loop.stickOnCounter
  | _ => false

/-- The condition on a step: no calibration begins on an armed vehicle, and in standby no arm
gesture takes effect during a calibration. -/
def Threads.Careful (t : Threads) : ThreadEvent → Prop
  | .thread _ =>
      t.command.map Branch.step = some .toPreflight → t.app.status.flagSystemArmed = false
  | .loop =>
      t.loop.arms = true → t.app.status.stateMachine = .standby → t.calibrating = false
  | _ => True

instance (t : Threads) (e : ThreadEvent) : Decidable (t.Careful e) := by
  cases e <;> unfold Threads.Careful <;> infer_instance

/-- The invariant: the armed flag is the one of the state, and it is clear during a calibration. -/
structure CalibrationInv (t : Threads) : Prop where
  coherent : Coherent t.app
  disarmed : t.calibrating = true → t.app.status.flagSystemArmed = false

/-! ### What the programs of the threads keep -/

section

variable (clock : Nat → UInt64)

/-- A disarmed vehicle, with a coherent flag. -/
def Disarmed (c : App) : Prop := Coherent c ∧ c.status.flagSystemArmed = false

/-- What a transition keeps: the property is kept when a request is accepted, and when it is refused
with or without a commit. -/
theorem doStateUpdate_preserves {P : App → Prop} {new : CommanderState}
    (haccepted : ∀ c, P c → P (committed clock (prepared clock c new) new))
    (hrefused : ∀ c, P c → P (rejected (refused c new)) ∧
      P (rejected (committed clock (refused c new) new))) :
    Preserves P (doStateUpdate clock new) := by
  intro c hc
  unfold outcome
  by_cases h : accepts c.status.stateMachine new
  · by_cases hreboot : new = .reboot
    · subst hreboot
      rw [doStateUpdate_reboot clock h]
      trivial
    · rw [doStateUpdate_accepted clock h hreboot]
      exact haccepted c hc
  · rw [doStateUpdate_refused clock h]
    dsimp only
    split_ifs
    · exact (hrefused c hc).1
    · exact (hrefused c hc).2

/-- No transition concerns the calibration flags. -/
theorem doStateUpdate_calibrating (new : CommanderState) (flag : Bool) :
    Preserves (fun c => c.status.calibrating = flag) (doStateUpdate clock new) :=
  doStateUpdate_preserves clock (fun _ hc => by cases new <;> exact hc) fun _ hc => ⟨hc, hc⟩

theorem keptByParts_calibrating (flag : Bool) :
    KeptByParts clock fun c => c.status.calibrating = flag where
  update new _ _ := doStateUpdate_calibrating clock new flag
  publish _ hc := hc
  publishArmed _ hc := hc
  mode _ _ hc := hc
  hil _ hc := hc

/-- A transition to a disarmed state disarms. -/
theorem doStateUpdate_disarmed {new : CommanderState} (hreboot : new ≠ .reboot) {c : App}
    (h : accepts c.status.stateMachine new) (harmed : armedOf new = false) :
    outcome (doStateUpdate clock new) (fun _ c' => Disarmed c') (fun _ _ => True) c := by
  have hcoherent := doStateUpdate_coherent clock hreboot h
  unfold outcome at hcoherent ⊢
  rw [doStateUpdate_accepted clock h hreboot] at hcoherent ⊢
  exact ⟨hcoherent, hcoherent.1.trans harmed⟩

/-- Going on from armed states does not concern a disarmed vehicle. -/
theorem updateFrom_disarmed {sources : List CommanderState}
    (h : ∀ old ∈ sources, armedOf old = true) (new : CommanderState) :
    Preserves Disarmed (updateFrom clock sources new) := by
  refine .get_bind fun c hc => ?_
  have hnot : c.status.stateMachine ∉ sources := by
    intro hmem
    have harmed := hc.1.1.symm.trans hc.2
    rw [h _ hmem] at harmed
    cases harmed
  rw [if_neg hnot]
  exact hc

theorem updateStateMachineMode_disarmed (mode : FlightMode) {sources : List CommanderState}
    (h : ∀ old ∈ sources, armedOf old = true) (new : CommanderState) :
    Preserves Disarmed (updateStateMachineMode clock mode sources new) := by
  unfold updateStateMachineMode
  have hfrom := updateFrom_disarmed clock h new
  have hpublish : Preserves Disarmed (stateMachinePublish clock) := by
    intro c hc
    exact ⟨(keptByParts_coherent clock).publish c hc.1, hc.2⟩
  refine .get_bind fun c hc => ?_
  refine Preserves.bind ?_ (fun _ => .ite (.bind hpublish fun _ => hfrom) hfrom) c hc
  intro c hc
  exact ⟨(keptByParts_coherent clock).mode mode c hc.1, hc.2⟩

theorem switchMode_disarmed (modeSwitch : ModeSwitch) :
    Preserves Disarmed (switchMode clock modeSwitch) := by
  cases modeSwitch <;> exact updateStateMachineMode_disarmed clock _ (by decide) _

theorem toStandby_disarmed :
    Preserves Disarmed (discard <| doStateUpdate clock .standby : Exec Unit) :=
  Preserves.discard fun _ _ => doStateUpdate_disarmed clock (by decide) trivial rfl

theorem standbyWhenClean_disarmed : Preserves Disarmed (standbyWhenClean clock) :=
  .get_bind fun c hc => Preserves.ite (toStandby_disarmed clock) (.pure ()) c hc

theorem updateStateMachineDisarm_disarmed :
    Preserves Disarmed (updateStateMachineDisarm clock) :=
  .get_bind fun c hc =>
    Preserves.ite (toStandby_disarmed clock) (.ite (toStandby_disarmed clock) (.pure ())) c hc

/-- Keeping an invariant is the same for every program of the main loop. -/
theorem preserves_standbyWhenClean {I : App → Prop} (hI : KeptByParts clock I) :
    Preserves I (standbyWhenClean clock) :=
  .get_bind fun c hc =>
    Preserves.ite (hI.update .standby (by decide) fun _ => trivial).discard (.pure ()) c hc

theorem preserves_switchMode {I : App → Prop} (hI : KeptByParts clock I)
    (modeSwitch : ModeSwitch) : Preserves I (switchMode clock modeSwitch) := by
  cases modeSwitch
  · exact preserves_exec hI .modeManual
  · exact preserves_exec hI .modeAuto
  · exact preserves_exec hI .modeStabilized

theorem preserves_start {I : App → Prop} (hI : KeptByParts clock I) (loop : MainLoop)
    (rc : Option RcSample) : Preserves I (loop.start clock rc).1 := by
  cases rc with
  | none => exact .pure ()
  | some rc =>
      simp only [MainLoop.start]
      split_ifs
      · exact preserves_exec hI .disarm
      · exact .pure ()
      · exact .pure ()

theorem preserves_checkStickOn {I : App → Prop} (hI : KeptByParts clock I) (loop : MainLoop)
    (rc : RcSample) : Preserves I (loop.checkStickOn clock rc).1 := by
  unfold MainLoop.checkStickOn
  split_ifs
  · exact preserves_exec hI .arm
  · exact .pure ()
  · exact .pure ()

theorem preserves_loop {I : App → Prop} (hI : KeptByParts clock I) {loop : MainLoop}
    {p : Exec Unit × MainLoop} (h : loop.next clock = some p) : Preserves I p.1 := by
  unfold MainLoop.next at h
  split at h
  · cases h
  · cases h
    exact preserves_checkStickOn clock hI loop _
  · cases h
    exact preserves_switchMode clock hI _
  · cases h
    exact preserves_standbyWhenClean clock hI

theorem start_disarmed (loop : MainLoop) (rc : Option RcSample) :
    Preserves Disarmed (loop.start clock rc).1 := by
  cases rc with
  | none => exact .pure ()
  | some rc =>
      simp only [MainLoop.start]
      split_ifs
      · exact updateStateMachineDisarm_disarmed clock
      · exact .pure ()
      · exact .pure ()

/-- The arm gesture is the one part of the main loop that may arm, and it does so in standby. -/
theorem loop_disarmed {loop : MainLoop} {p : Exec Unit × MainLoop}
    (h : loop.next clock = some p) {c : App} (hc : Disarmed c)
    (harms : loop.arms = true → c.status.stateMachine ≠ .standby) :
    outcome p.1 (fun _ c' => Disarmed c') (fun _ _ => True) c := by
  unfold MainLoop.next at h
  unfold MainLoop.arms at harms
  split at h
  · cases h
  · next rc hpoint =>
      cases h
      rw [hpoint] at harms
      unfold MainLoop.checkStickOn
      split_ifs with hstick hcounter
      · have hstate : c.status.stateMachine ≠ .standby := harms (by simp [hstick, hcounter])
        show outcome (updateFrom clock [.standby] .groundReady) _ _ c
        unfold updateFrom
        rw [outcome_bind, outcome_get, if_neg (by simpa using hstate)]
        exact hc
      · exact hc
      · exact hc
  · cases h
    exact switchMode_disarmed clock _ c hc
  · cases h
    exact standbyWhenClean_disarmed clock c hc

/-- The transition that begins a calibration, on a disarmed vehicle. It keeps the flag coherent
also when it is refused. -/
theorem toPreflight_disarmed :
    Preserves Disarmed (discard <| doStateUpdate clock .preflight : Exec Unit) := by
  refine Preserves.discard ?_
  intro c hc
  by_cases h : accepts c.status.stateMachine .preflight
  · exact doStateUpdate_disarmed clock (by decide) h rfl
  · have hne : c.status.stateMachine ≠ .preflight := fun heq => h (Or.inr heq)
    unfold outcome
    rw [doStateUpdate_refused clock h, if_neg hne]
    have hcoherent : Coherent (committed clock (refused c .preflight) .preflight) :=
      Coherent.of_published _ hc.2 rfl
    exact ⟨hcoherent.congr rfl rfl (latestArmed_append _ (.logCritical _)), hc.2⟩

theorem writeFlag_disarmed (kind : Calibration) (flag : Bool) :
    Preserves Disarmed (do
      modifyStatus fun s => kind.writeFlag flag s
      stateMachinePublish clock) := by
  refine .bind ?_ fun _ => ?_
  · intro c hc
    cases kind <;> exact ⟨hc.1.congr rfl rfl rfl, hc.2⟩
  · intro c hc
    exact ⟨(keptByParts_coherent clock).publish c hc.1, hc.2⟩

theorem send_disarmed {e : Sent} (h : e.armed? = none) : Preserves Disarmed (send e) := by
  intro c hc
  refine ⟨hc.1.congr rfl rfl ?_, hc.2⟩
  show latestArmed (c.sent ++ [e]) = _
  rw [latestArmed_append, h]
  rfl

/-! ### The invariant along a run -/

variable {clock}

theorem CalibrationInv.of_disarmed {t : Threads} (h : Disarmed t.app) : CalibrationInv t :=
  ⟨h.1, fun _ => h.2⟩

/-- A step of the command thread. -/
theorem CalibrationInv.thread {t : Threads} {branch : Branch} {pollOk : Bool} {app : App}
    (h : CalibrationInv t) (hcommand : t.command = some branch)
    (hcareful : branch.step = .toPreflight → t.app.status.flagSystemArmed = false)
    (happ : completes (branch.next clock t.app.status pollOk).1 t.app = some app) :
    CalibrationInv
      { t with app := app, command := (branch.next clock t.app.status pollOk).2 } := by
  obtain ⟨kind, step, rest⟩ := branch
  -- Past the check the vehicle is disarmed, and the program keeps that.
  have hpast : step.pastCheck = true → Disarmed t.app := by
    intro hstep
    refine ⟨h.coherent, h.disarmed ?_⟩
    unfold Threads.calibrating
    rw [hcommand]
    simp [hstep]
  cases step with
  | toPreflight =>
      have hbefore : Disarmed t.app := ⟨h.coherent, hcareful rfl⟩
      exact .of_disarmed ((toPreflight_disarmed clock t.app hbefore).of_completes happ)
  | check =>
      simp only [Branch.next] at happ ⊢
      by_cases hstate : t.app.status.stateMachine = .preflight
      · rw [if_pos hstate] at happ ⊢
        have hbefore : Disarmed t.app := by
          refine ⟨h.coherent, h.coherent.1.trans ?_⟩
          rw [hstate]
          rfl
        exact .of_disarmed ((send_disarmed rfl t.app hbefore).of_completes happ)
      · rw [if_neg hstate] at happ ⊢
        cases happ
        refine ⟨h.coherent.congr rfl rfl (latestArmed_append _ (.logCritical _)), ?_⟩
        intro hcal
        refine h.disarmed ?_
        -- The next branch has not passed its check, so a flag is set.
        have hflags : t.app.status.calibrating = true := by
          cases rest with
          | nil => simpa [Threads.calibrating, Branch.begin] using hcal
          | cons kind rest =>
              simpa [Threads.calibrating, Branch.begin, BranchStep.pastCheck] using hcal
        unfold Threads.calibrating
        rw [hflags]
        rfl
  | setFlag =>
      exact .of_disarmed ((writeFlag_disarmed clock kind true t.app (hpast rfl)).of_completes happ)
  | sampling =>
      cases happ
      exact .of_disarmed (hpast rfl)
  | clearFlag =>
      exact .of_disarmed ((writeFlag_disarmed clock kind false t.app (hpast rfl)).of_completes happ)
  | toStandby =>
      have hprogram : Preserves Disarmed (do
          mavlinkLogInfo ("[commander] CMD finished " ++ kind.name ++ " calibration")
          discard <| doStateUpdate clock .standby) :=
        .bind (send_disarmed rfl) fun _ => toStandby_disarmed clock
      exact .of_disarmed ((hprogram t.app (hpast rfl)).of_completes happ)

/-- A step of the main loop: it concerns neither the flags nor the command thread. -/
theorem CalibrationInv.loop {t : Threads} {program : Exec Unit} {app : App} (h : CalibrationInv t)
    (happ : completes program t.app = some app) (hcoherent : Preserves Coherent program)
    (hflags : ∀ flag, Preserves (fun c => c.status.calibrating = flag) program)
    (hdisarmed : t.calibrating = true → Disarmed t.app →
      outcome program (fun _ c => Disarmed c) (fun _ _ => True) t.app) (loop : MainLoop) :
    CalibrationInv { t with app := app, loop := loop } := by
  refine ⟨(hcoherent t.app h.coherent).of_completes happ, ?_⟩
  intro hcal
  have hsame : app.status.calibrating = t.app.status.calibrating :=
    (hflags _ t.app rfl).of_completes happ
  have hbefore : t.calibrating = true := by
    unfold Threads.calibrating at hcal ⊢
    rw [← hsame]
    exact hcal
  exact ((hdisarmed hbefore ⟨h.coherent, h.disarmed hbefore⟩).of_completes happ).2

/-- **The step lemma.** -/
theorem CalibrationInv.step {t t' : Threads} {e : ThreadEvent} (h : CalibrationInv t)
    (hcareful : t.Careful e) (hstep : (threads clock).step t e t') : CalibrationInv t' := by
  cases e with
  | iterate rc =>
      unfold threads Threads.next at hstep
      dsimp only at hstep
      split at hstep
      · obtain ⟨app, happ, rfl⟩ := Option.map_eq_some_iff.mp hstep
        exact h.loop happ (preserves_start clock (keptByParts_coherent clock) t.loop rc)
          (fun flag => preserves_start clock (keptByParts_calibrating clock flag) t.loop rc)
          (fun _ hdisarmed => start_disarmed clock t.loop rc t.app hdisarmed) _
      · cases hstep
  | loop =>
      obtain ⟨⟨program, loop⟩, hnext, hrest⟩ := Option.bind_eq_some_iff.mp hstep
      obtain ⟨app, happ, rfl⟩ := Option.map_eq_some_iff.mp hrest
      refine h.loop happ (preserves_loop clock (keptByParts_coherent clock) hnext)
        (fun flag => preserves_loop clock (keptByParts_calibrating clock flag) hnext) ?_ loop
      intro hcal hdisarmed
      refine loop_disarmed clock hnext hdisarmed ?_
      -- Arming in standby is what the condition excludes while a calibration goes on.
      intro harms hstate
      rw [hcareful harms hstate] at hcal
      cases hcal
  | command cmd =>
      unfold threads Threads.next at hstep
      dsimp only at hstep
      split at hstep
      · next hcommand =>
          cases hstep
          refine ⟨h.coherent, ?_⟩
          intro hcal
          refine h.disarmed ?_
          unfold Threads.calibrating at hcal ⊢
          rw [hcommand]
          -- A command that is taken up has not passed a check yet.
          cases hcals : cmd.calibrations with
          | nil => simpa [hcals, Branch.begin] using hcal
          | cons kind rest => simpa [hcals, Branch.begin, BranchStep.pastCheck] using hcal
      · cases hstep
  | thread pollOk =>
      obtain ⟨branch, hcommand, hrest⟩ := Option.bind_eq_some_iff.mp hstep
      obtain ⟨app, happ, rfl⟩ := Option.map_eq_some_iff.mp hrest
      refine h.thread hcommand ?_ happ
      intro hbegin
      refine hcareful ?_
      rw [hcommand, Option.map_some, hbegin]

theorem CalibrationInv.reachable {t : Threads}
    (h : ((threads clock).restrict Threads.Careful).Reachable t) : CalibrationInv t := by
  refine h.invariant ?_ fun t e t' ht hstep => ht.step hstep.1 hstep.2
  intro t ⟨happ, _, _⟩
  refine .of_disarmed ?_
  rw [happ]
  refine ⟨⟨rfl, ?_⟩, rfl⟩
  intro a ha
  cases ha

theorem CalibrationInv.safe {t : Threads} (h : CalibrationInv t) : t.Safe := by
  refine ⟨?_, ?_⟩
  · intro hflags
    refine h.disarmed ?_
    unfold Threads.calibrating
    rw [hflags]
    rfl
  · intro hcommand
    refine h.disarmed ?_
    obtain ⟨branch, hbranch, hstep⟩ := Option.map_eq_some_iff.mp hcommand
    unfold Threads.calibrating
    rw [hbranch]
    simp [hstep, BranchStep.pastCheck]

end

/-! ### A careless step leads to a violation -/

section

variable (clock : Nat → UInt64)

/-- An armed vehicle with a flag set. -/
theorem not_safe_of_flag {t : Threads} (hflag : t.app.status.calibrating = true)
    (harmed : t.app.status.flagSystemArmed = true) : ¬ t.Safe := by
  intro h
  have hdisarmed := h.1 hflag
  rw [harmed] at hdisarmed
  cases hdisarmed

/-- About to end a calibration of an armed vehicle. -/
theorem not_safe_of_toStandby {t : Threads} (hcommand : t.command.map Branch.step = some .toStandby)
    (harmed : t.app.status.flagSystemArmed = true) : ¬ t.Safe := by
  intro h
  have hdisarmed := h.2 hcommand
  rw [harmed] at hdisarmed
  cases hdisarmed

theorem step_thread {t : Threads} {branch : Branch} (hcommand : t.command = some branch)
    (pollOk : Bool) {app : App}
    (happ : (branch.next clock t.app.status pollOk).1 t.app = .ok () app) :
    (threads clock).step t (.thread pollOk)
      { t with app := app, command := (branch.next clock t.app.status pollOk).2 } := by
  show t.next clock (.thread pollOk) = _
  unfold Threads.next
  dsimp only
  rw [hcommand, Option.bind_some, completes_of_ok happ]
  rfl

theorem writeFlag_run (kind : Calibration) (flag : Bool) (c : App) :
    ∃ c', (do
        modifyStatus fun s => kind.writeFlag flag s
        stateMachinePublish clock : Exec Unit) c = .ok () c' ∧
      c'.status.flagSystemArmed = c.status.flagSystemArmed ∧
      (flag = true → c'.status.calibrating = true) := by
  refine ⟨_, rfl, ?_, ?_⟩
  · cases kind <;> rfl
  · intro hflag
    subst hflag
    cases kind <;> simp [VehicleStatus.calibrating, Calibration.writeFlag]

/-- On an armed vehicle, a branch that has passed its check breaks the law by itself. -/
theorem breaks_of_pastCheck {t : Threads} {branch : Branch} (hcommand : t.command = some branch)
    (hpast : branch.step.pastCheck = true) (harmed : t.app.status.flagSystemArmed = true) :
    ∃ es t', (threads clock).Run t es t' ∧ ¬ t'.Safe := by
  obtain ⟨kind, step, rest⟩ := branch
  -- From the clearing of the flag on, the thread comes to its last transition.
  have hclear : ∀ t : Threads, t.command = some ⟨kind, .clearFlag, rest⟩ →
      t.app.status.flagSystemArmed = true → ∃ es t', (threads clock).Run t es t' ∧ ¬ t'.Safe := by
    intro t hcommand harmed
    obtain ⟨app, hrun, hsame, -⟩ := writeFlag_run clock kind false t.app
    exact ⟨[.thread true], _, .cons (step_thread clock hcommand true hrun) (.nil _),
      not_safe_of_toStandby rfl (hsame.trans harmed)⟩
  cases step with
  | toPreflight => cases hpast
  | check => cases hpast
  | setFlag =>
      obtain ⟨app, hrun, hsame, hflag⟩ := writeFlag_run clock kind true t.app
      exact ⟨[.thread true], _, .cons (step_thread clock hcommand true hrun) (.nil _),
        not_safe_of_flag (hflag rfl) (hsame.trans harmed)⟩
  | sampling =>
      let u : Threads := { t with command := some ⟨kind, .clearFlag, rest⟩ }
      have hstep : (threads clock).step t (.thread true) u := step_thread clock hcommand true rfl
      obtain ⟨es, t', hrun, hunsafe⟩ := hclear u rfl harmed
      exact ⟨.thread true :: es, t', .cons hstep hrun, hunsafe⟩
  | clearFlag => exact hclear t hcommand harmed
  | toStandby =>
      refine ⟨[], t, .nil t, not_safe_of_toStandby ?_ harmed⟩
      rw [hcommand]
      rfl

/-- A calibration that begins on an armed vehicle passes its check. -/
theorem breaks_of_begin {t t' : Threads} {kind : Calibration} {rest : List Calibration}
    (h : CalibrationInv t) (hcommand : t.command = some ⟨kind, .toPreflight, rest⟩)
    (harmed : t.app.status.flagSystemArmed = true) {pollOk : Bool}
    (hstep : (threads clock).step t (.thread pollOk) t') :
    ∃ es t'', (threads clock).Run t' es t'' ∧ ¬ t''.Safe := by
  -- An armed vehicle is in a state in which the transition is refused, and stored.
  have hrefuse : ¬ accepts t.app.status.stateMachine .preflight := by
    intro hground
    have hflag := h.coherent.1
    rw [harmed] at hflag
    rcases hground with heq | heq <;> (rw [heq] at hflag; cases hflag)
  have hne : t.app.status.stateMachine ≠ .preflight := fun heq => hrefuse (Or.inr heq)
  let app := rejected (committed clock (refused t.app .preflight) .preflight)
  have hrun : doStateUpdate clock .preflight t.app = .ok error app := by
    rw [doStateUpdate_refused clock hrefuse, if_neg hne]
  have hdiscard : (discard <| doStateUpdate clock .preflight : Exec Unit) t.app = .ok () app := by
    show EStateM.map _ _ t.app = _
    unfold EStateM.map
    rw [hrun]
  let u : Threads := { t with app := app, command := some ⟨kind, .check, rest⟩ }
  have hnext : (threads clock).step t (.thread pollOk) u :=
    step_thread clock hcommand pollOk hdiscard
  have heq : t' = u := Option.some.inj (Eq.trans (Eq.symm hstep) hnext)
  rw [heq]
  let app' : App := { app with
    sent := app.sent ++ [.logInfo ("[commander] CMD starting " ++ kind.name ++ " calibration")] }
  let v : Threads := { t with app := app', command := some ⟨kind, .setFlag, rest⟩ }
  have hcheck : (threads clock).step u (.thread true) v := rfl
  obtain ⟨es, w, hrest, hunsafe⟩ := breaks_of_pastCheck clock (t := v) rfl rfl harmed
  exact ⟨.thread true :: es, w, .cons hcheck hrest, hunsafe⟩

/-- An arm gesture that takes effect during a calibration breaks the law, now or later. -/
theorem breaks_of_arm {t t' : Threads} (harms : t.loop.arms = true)
    (hstate : t.app.status.stateMachine = .standby) (hcal : t.calibrating = true)
    (hstep : (threads clock).step t .loop t') :
    ∃ es t'', (threads clock).Run t' es t'' ∧ ¬ t''.Safe := by
  obtain ⟨⟨program, loop⟩, hnext, hrest⟩ := Option.bind_eq_some_iff.mp hstep
  obtain ⟨app, happ, rfl⟩ := Option.map_eq_some_iff.mp hrest
  have harm : (updateStateMachineArm clock) t.app =
      .ok () (committed clock (announced t.app .groundReady) .groundReady) := by
    unfold updateStateMachineArm updateFrom
    rw [get_bind_apply, if_pos (by simp [hstate])]
    rfl
  have hprogram : program = updateStateMachineArm clock := by
    unfold MainLoop.arms at harms
    unfold MainLoop.next at hnext
    split at harms
    · next rc hpoint =>
        rw [hpoint] at hnext
        simp only [Bool.and_eq_true, decide_eq_true_eq] at harms
        dsimp only at hnext
        unfold MainLoop.checkStickOn at hnext
        rw [if_pos harms.1, if_pos harms.2] at hnext
        cases hnext
        rfl
    · cases harms
  rw [hprogram, completes_of_ok harm] at happ
  cases happ
  cases hflags : t.app.status.calibrating with
  | true => exact ⟨[], _, .nil _, not_safe_of_flag hflags rfl⟩
  | false =>
      unfold Threads.calibrating at hcal
      rw [hflags, Bool.false_or, Option.any_eq_true] at hcal
      obtain ⟨branch, hcommand, hpast⟩ := hcal
      exact breaks_of_pastCheck clock hcommand hpast rfl

/-- **No arming during calibration.** In every interleaving of the two threads, with any commands
and any RC input, whose steps are careful, the law holds in every state; and every careless step
from such a state leads to a state in which it does not hold. -/
theorem calibration_safe {t : Threads}
    (h : ((threads clock).restrict Threads.Careful).Reachable t) :
    t.Safe ∧ ∀ e t', (threads clock).step t e t' → ¬ t.Careful e →
      ∃ es t'', (threads clock).Run t' es t'' ∧ ¬ t''.Safe := by
  have hinv := CalibrationInv.reachable h
  refine ⟨hinv.safe, ?_⟩
  intro e t' hstep hcareless
  cases e with
  | iterate rc => exact absurd trivial hcareless
  | command cmd => exact absurd trivial hcareless
  | loop =>
      simp only [Threads.Careful, Classical.not_imp, Bool.not_eq_false] at hcareless
      obtain ⟨harms, hstate, hcal⟩ := hcareless
      exact breaks_of_arm clock harms hstate hcal hstep
  | thread pollOk =>
      simp only [Threads.Careful, Classical.not_imp, Bool.not_eq_false] at hcareless
      obtain ⟨hcommand, harmed⟩ := hcareless
      obtain ⟨branch, hbranch, hbegin⟩ := Option.map_eq_some_iff.mp hcommand
      obtain ⟨kind, step, rest⟩ := branch
      cases hbegin
      exact breaks_of_begin clock hinv hbranch harmed hstep

end

/-- Two threads that have just started. -/
def startThreads : Threads :=
  { app := initialCommander, command := none, loop := ⟨0, 0, .start⟩ }

/-- A gyro calibration with its flag set, while nothing else happens. -/
theorem calibration_safe_gyro :
    ∃ t, ((threads fun _ => 0).restrict Threads.Careful).Reachable t ∧
      t.app.status.calibrating = true ∧ t.app.status.flagSystemArmed = false := by
  let next (t : Threads) (e : ThreadEvent) : Option Threads :=
    if t.Careful e then t.next (fun _ => 0) e else none
  have hnext : ∀ t e t', next t e = some t' →
      ((threads fun _ => 0).restrict Threads.Careful).step t e t' := by
    intro t e t' h
    by_cases hcareful : t.Careful e
    · rw [show next t e = _ from if_pos hcareful] at h
      exact ⟨hcareful, h⟩
    · rw [show next t e = _ from if_neg hcareful] at h
      cases h
  let events : List ThreadEvent :=
    .command gyroCalibrationCommand :: List.replicate 3 (.thread true)
  obtain ⟨t, ht⟩ := Option.isSome_iff_exists.mp
    (show (events.foldlM next startThreads).isSome = true by decide)
  have hflag : ∀ t ∈ events.foldlM next startThreads, t.app.status.calibrating = true := by decide
  have hreach : ((threads fun _ => 0).restrict Threads.Careful).Reachable t :=
    ⟨startThreads, events, ⟨rfl, rfl, rfl⟩, LTS.Run.of_foldlM hnext ht⟩
  exact ⟨t, hreach, hflag t ht, (calibration_safe _ hreach).1.1 (hflag t ht)⟩

/-- The arm gesture is held, and a calibration passes its check; the main loop goes to standby and
arms; the calibration sets its flag. -/
theorem armed_during_calibration : ¬ ∀ t, (threads fun _ => 0).Reachable t → t.Safe := by
  intro hsafe
  let gesture : ThreadEvent := .iterate (some ⟨.lowerRight, .stabilized⟩)
  let events : List ThreadEvent :=
    (List.replicate 21 [gesture, .loop, .loop, .loop]).flatten ++
      [.command gyroCalibrationCommand, .thread true, .thread true] ++
      [.iterate none, .loop, gesture, .loop, .thread true]
  obtain ⟨t, ht⟩ := Option.isSome_iff_exists.mp
    (show (events.foldlM (Threads.next fun _ => 0) startThreads).isSome = true by decide +kernel)
  have hbroken : ∀ t ∈ events.foldlM (Threads.next fun _ => 0) startThreads,
      t.app.status.calibrating = true ∧ t.app.status.flagSystemArmed = true := by decide +kernel
  have hreach : (threads fun _ => 0).Reachable t :=
    ⟨startThreads, events, ⟨rfl, rfl, rfl⟩, LTS.Run.of_foldlM (fun _ _ _ h => h) ht⟩
  exact not_safe_of_flag (hbroken t ht).1 (hbroken t ht).2 (hsafe t hreach)

end Px4Firmware.Commander
