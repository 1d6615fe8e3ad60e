import Px4Firmware.Commander.BatteryEstimate
import Px4Firmware.Commander.Monitoring

/-!
# Px4Firmware.Commander.MainLoop

**The main loop of the commander**, `commander_thread_main`, one iteration after the other: the
battery check, the RC block with the stick gestures, the block for offboard control, and the
publication at the end. Between two iterations the command thread may call the entry points of the
state machine. `mainLoop` is the transition system.

The clock is read by the loop and by the entry points. What the loop reads is part of the input of
the iteration, one reading for each place of the source. An iteration returns a report of what it
has done, so that the events of a run say it; `iteration_calls` ties the report to the calls of
`state_machine_emergency` and of the two gestures.

`mainLoop_step` says what an event does to the parts of the state that the results are about, of an
iteration (`Iterates`) and of a call of the command thread. Left out are the LEDs, the buzzer,
the load and the voltage in the status.
-/

namespace Px4Firmware.Commander

open Px4Firmware.Lib

/-! ### The battery -/

/-- A battery reading: whether the voltage is valid, and the estimate. -/
structure BatteryReading where
  valid : Bool
  batRemain : Rat

/-- `0.15f`. -/
def lowBattery : Rat := 5033165 / 33554432

/-- `0.1f`. -/
def criticalBattery : Rat := 13421773 / 134217728

/-- `LOW_VOLTAGE_BATTERY_COUNTER_LIMIT`: the float is 20. -/
def lowVoltageBatteryCounterLimit : Nat := 20

/-- `CRITICAL_VOLTAGE_BATTERY_COUNTER_LIMIT`: the float is 2. -/
def criticalVoltageBatteryCounterLimit : Nat := 2

/-- The counters and latches of the battery check. -/
structure BatteryWatch where
  lowBatteryVoltageActionsDone : Bool
  criticalBatteryVoltageActionsDone : Bool
  lowVoltageCounter : UInt8
  criticalVoltageCounter : UInt16

/-- Below 15 %, with a valid voltage. -/
def BatteryReading.low (reading : BatteryReading) : Bool :=
  reading.valid && reading.batRemain < lowBattery

/-- Below 10 %, with a valid voltage. -/
def BatteryReading.critical (reading : BatteryReading) : Bool :=
  reading.valid && reading.batRemain < criticalBattery

/-- What the check does to the counters and latches, and whether it calls `state_machine_emergency`.
-/
def BatteryWatch.check (watch : BatteryWatch) (reading : BatteryReading) : BatteryWatch × Bool :=
  if reading.low && !watch.lowBatteryVoltageActionsDone then
    ({ watch with
        lowBatteryVoltageActionsDone :=
          decide (lowVoltageBatteryCounterLimit < watch.lowVoltageCounter.toNat)
        lowVoltageCounter := watch.lowVoltageCounter + 1 }, false)
  else if reading.critical &&
      (!watch.criticalBatteryVoltageActionsDone && watch.lowBatteryVoltageActionsDone) then
    let due := decide (criticalVoltageBatteryCounterLimit < watch.criticalVoltageCounter.toNat)
    ({ watch with
        criticalBatteryVoltageActionsDone := due
        criticalVoltageCounter := watch.criticalVoltageCounter + 1 }, due)
  else
    ({ watch with lowVoltageCounter := 0, criticalVoltageCounter := 0 }, false)

/-! ### The sticks -/

/-- `struct manual_control_setpoint_s`, the members that the loop reads. -/
structure ManualControlSetpoint where
  timestamp : UInt64
  yaw : CFloat
  throttle : CFloat
  overrideModeSwitch : CFloat

/-- `STICK_ON_OFF_LIMIT`. -/
def stickOnOffLimit : Rat := 3 / 4

/-- `STICK_THRUST_RANGE*0.2f`. -/
def lowThrottle : Rat := 13421773 / 67108864

namespace ManualControlSetpoint

/-- The left stick. -/
def stick (sp : ManualControlSetpoint) : Stick :=
  if sp.yaw.lt (.finite (-stickOnOffLimit)) && sp.throttle.lt (.finite lowThrottle) then .lowerLeft
  else if (CFloat.finite stickOnOffLimit).lt sp.yaw && sp.throttle.lt (.finite lowThrottle) then
    .lowerRight
  else .elsewhere

/-- The override mode switch. -/
def modeSwitch (sp : ManualControlSetpoint) : ModeSwitch :=
  if (CFloat.finite stickOnOffLimit).lt sp.overrideModeSwitch then .manual
  else if sp.overrideModeSwitch.lt (.finite (-stickOnOffLimit)) then .auto
  else .stabilized

end ManualControlSetpoint

/-- `stick_off_counter` and `stick_on_counter`. -/
structure StickCounters where
  off : UInt16
  on : UInt16
  deriving DecidableEq

/-- What the gestures call. -/
inductive Gesture
  | none
  | disarm
  | arm
  deriving DecidableEq

/-- What a sample does to the counters, and what it calls. The two positions exclude each other. -/
def StickCounters.check (sticks : StickCounters) : Stick → StickCounters × Gesture
  | .lowerLeft =>
      if stickOnOffCounterLimit < sticks.off.toNat then ({ sticks with on := 0 }, .disarm)
      else ({ off := sticks.off + 1, on := 0 }, .none)
  | .lowerRight =>
      if stickOnOffCounterLimit < sticks.on.toNat then ({ sticks with on := 0 }, .arm)
      else ({ off := 0, on := sticks.on + 1 }, .none)
  | .elsewhere => (sticks, .none)

/-! ### Inputs and reports -/

/-- `struct offboard_control_setpoint_s`, the members that the loop reads. -/
structure OffboardControlSetpoint where
  timestamp : UInt64
  mode : OffboardControlMode
  armed : Bool

/-- What `hrt_absolute_time` returns at each place of an iteration. -/
structure LoopTimes where
  estimate : UInt64
  rcAge : UInt64
  rcComplaint : UInt64
  rcLastPrint : UInt64
  rcLost : UInt64
  offboardAge : UInt64
  offboardComplaint : UInt64
  offboardLastPrint : UInt64
  offboardLost : UInt64
  failsaveStart : UInt64
  failsaveTest : UInt64
  status : UInt64

/-- What an iteration reads: the setpoints that are new, the battery, and the clock. -/
structure LoopInput where
  spMan : Option ManualControlSetpoint
  spOffboard : Option OffboardControlSetpoint
  batteryVoltage : Rat
  batteryVoltageValid : Bool
  times : LoopTimes

/-- What the block for offboard control has done: nothing, taken a recent setpoint, waited for one,
or declared the loss of the signal, and then whether it took the branch that kills the motors. -/
inductive OffboardReport
  | nothing
  | found
  | missing
  | lost (killed : Bool)
  deriving DecidableEq

/-- What an iteration has done: the reading that the battery check saw, whether it called
`state_machine_emergency`, the RC sample that was processed, and what the gestures called. -/
structure LoopReport where
  reading : BatteryReading
  emergency : Bool
  sample : Option Stick
  gesture : Gesture
  offboard : OffboardReport

/-! ### The state -/

/-- The app, and the variables of `commander_thread_main` that outlive an iteration. -/
structure ThreadMain where
  app : App
  startTime : UInt64
  counter : UInt16
  batRemain : Rat
  estimate : EstimateStatics
  battery : BatteryWatch
  sticks : StickCounters
  spMan : ManualControlSetpoint
  spOffboard : OffboardControlSetpoint
  rcLastPrintTime : UInt64
  offboardLastPrintTime : UInt64
  stateChanged : Bool

/-- Before the first iteration. -/
def ThreadMain.start (app : App) (startTime : UInt64) : ThreadMain where
  app := app
  startTime := startTime
  counter := 0
  batRemain := 1
  estimate := .init
  battery := ⟨false, false, 0, 0⟩
  sticks := ⟨0, 0⟩
  spMan := ⟨0, .finite 0, .finite 0, .finite 0⟩
  spOffboard := ⟨0, .direct, false⟩
  rcLastPrintTime := 0
  offboardLastPrintTime := 0
  stateChanged := true

/-- A part of an iteration. -/
abbrev LoopPart := EStateM Reboot ThreadMain

/-- What the app does on its own. -/
def inApp {α : Type} (x : Exec α) : LoopPart α := fun s =>
  match x s.app with
  | .ok a app => .ok a { s with app := app }
  | .error e app => .error e { s with app := app }

/-! ### An iteration -/

/-- Get current values. -/
def getCurrentValues (input : LoopInput) : LoopPart Unit :=
  modify fun s =>
    { s with
      spMan := input.spMan.getD s.spMan
      spOffboard := input.spOffboard.getD s.spOffboard }

/-- Update the battery estimate if the voltage is valid and the system has been running for two and
a half seconds. -/
def updateEstimate (table : BatteryTable) (input : LoopInput) : LoopPart Unit :=
  modify fun s =>
    if input.batteryVoltageValid = true ∧ 2500000 < input.times.estimate - s.startTime then
      let (ret, estimate) :=
        batteryRemainingEstimateVoltage table 3 .lithiumPolymere input.batteryVoltage s.estimate
      { s with batRemain := ret, estimate := estimate }
    else s

section

variable (clock : Nat → UInt64)

/-- Check the battery voltage. -/
def checkBattery (valid : Bool) : LoopPart (BatteryReading × Bool) := do
  let s ← get
  let reading : BatteryReading := ⟨valid, s.batRemain⟩
  if reading.low = true ∧ s.battery.lowBatteryVoltageActionsDone = false then
    if lowVoltageBatteryCounterLimit < s.battery.lowVoltageCounter.toNat then
      modify fun s => { s with battery := { s.battery with lowBatteryVoltageActionsDone := true } }
      inApp (mavlinkLogCritical "[commander] WARNING! LOW BATTERY!")
    modify fun s => { s with battery := { s.battery with
      lowVoltageCounter := s.battery.lowVoltageCounter + 1 } }
    return (reading, false)
  else if reading.critical = true ∧ s.battery.criticalBatteryVoltageActionsDone = false ∧
      s.battery.lowBatteryVoltageActionsDone = true then
    if criticalVoltageBatteryCounterLimit < s.battery.criticalVoltageCounter.toNat then
      modify fun s =>
        { s with battery := { s.battery with criticalBatteryVoltageActionsDone := true } }
      inApp (mavlinkLogCritical "[commander] EMERGENCY! CIRITICAL BATTERY!")
      inApp (stateMachineEmergency clock)
      modify fun s => { s with battery := { s.battery with
        criticalVoltageCounter := s.battery.criticalVoltageCounter + 1 } }
      return (reading, true)
    else
      modify fun s => { s with battery := { s.battery with
        criticalVoltageCounter := s.battery.criticalVoltageCounter + 1 } }
      return (reading, false)
  else
    modify fun s => { s with battery := { s.battery with
      lowVoltageCounter := 0
      criticalVoltageCounter := 0 } }
    return (reading, false)

/-- The stick in the lower left position: switch to standby. -/
def checkStickOff : LoopPart Gesture := do
  let s ← get
  if s.spMan.stick = .lowerLeft then
    if stickOnOffCounterLimit < s.sticks.off.toNat then
      inApp (updateStateMachineDisarm clock)
      modify fun s => { s with sticks := { s.sticks with on := 0 } }
      return .disarm
    else
      modify fun s => { s with sticks := { off := s.sticks.off + 1, on := 0 } }
      return .none
  else
    return .none

/-- The stick in the lower right position: arm. -/
def checkStickOn : LoopPart Gesture := do
  let s ← get
  if s.spMan.stick = .lowerRight then
    if stickOnOffCounterLimit < s.sticks.on.toNat then
      inApp (updateStateMachineArm clock)
      modify fun s => { s with sticks := { s.sticks with on := 0 } }
      return .arm
    else
      modify fun s => { s with sticks := { off := 0, on := s.sticks.on + 1 } }
      return .none
  else
    return .none

/-- The RC signal is glitching or gone. -/
def rcGone (times : LoopTimes) : LoopPart Unit := do
  let s ← get
  let again := 5000000 < times.rcComplaint - s.rcLastPrintTime
  if s.app.status.rcSignalCuttingOff = false ∨ again then
    modify fun s => { s with rcLastPrintTime := times.rcLastPrint }
  inApp (rcSignalMissing (fun _ => times.rcLost) s.spMan.timestamp again)
  if 1000000 < times.rcLost - s.spMan.timestamp then
    modify fun s => { s with stateChanged := true }

/-- The RC state check. It ignores RC signals in offboard control mode. -/
def checkRc (times : LoopTimes) : LoopPart (Option Stick × Gesture) := do
  let s ← get
  if s.app.status.offboardControlSignalFoundOnce = false ∧ s.spMan.timestamp ≠ 0 then
    if times.rcAge - s.spMan.timestamp < 100000 then
      let off ← checkStickOff clock
      let on ← checkStickOn clock
      inApp (switchMode clock s.spMan.modeSwitch)
      inApp rcSignalFound
      return (some s.spMan.stick, if off = .none then on else off)
    else
      rcGone times
      return (none, .none)
  else
    return (none, .none)

/-- `failsafe_lowlevel_timeout_ms*1000`, a product of unsigned integers of 32 bits. -/
def failsafeTimeout (failsafeLowlevelTimeoutMs : UInt32) : UInt64 :=
  (failsafeLowlevelTimeoutMs * 1000).toUInt64

/-- There is a recent offboard setpoint. -/
def offboardFound : LoopPart Unit := do
  let s ← get
  let status := s.app.status
  if status.flagControlAttitudeEnabled ≠ s.spOffboard.mode.attitudeCtrlEnabled ∨
      status.flagControlRatesEnabled = false ∨ status.offboardControlSignalFoundOnce = false ∨
      status.offboardControlSignalLost = true then
    modify fun s => { s with stateChanged := true }
  inApp (offboardSignalFound s.spOffboard.mode)
  let armed := (← get).app.status.flagSystemArmed
  if s.spOffboard.armed = true ∧ armed = false then
    inApp (updateStateMachineArm clock)
    inApp (updateStateMachineModeStabilized clock)
  else if s.spOffboard.armed = false ∧ armed = true then
    inApp (updateStateMachineDisarm clock)

/-- The offboard setpoints are glitching or gone. After a tenth of a second the signal is lost, and
after the timeout the motors are killed. -/
def offboardGone (failsafeLowlevelTimeoutMs : UInt32) (times : LoopTimes) :
    LoopPart OffboardReport := do
  let s ← get
  if s.app.status.offboardControlSignalWeak = false ∨
      5000000 < times.offboardComplaint - s.offboardLastPrintTime then
    inApp (modifyStatus fun status => { status with offboardControlSignalWeak := true })
    inApp (mavlinkLogCritical "[commander] CRITICAL - NO OFFBOARD CONTROL SIGNAL!")
    modify fun s => { s with offboardLastPrintTime := times.offboardLastPrint }
  inApp (modifyStatus fun status => { status with
    offboardControlSignalLostInterval := times.offboardLost - s.spOffboard.timestamp })
  if 100000 < times.offboardLost - s.spOffboard.timestamp then
    inApp (modifyStatus fun status => { status with
      offboardControlSignalLost := true
      failsaveLowlevelStartTime := times.failsaveStart
      failsaveLowlevel := true })
    let start := (← get).app.status.failsaveLowlevelStartTime
    if failsafeTimeout failsafeLowlevelTimeoutMs < times.failsaveTest - start then
      modify fun s => { s with stateChanged := true }
      return .lost true
    else
      return .lost false
  else
    return .missing

/-- State machine update for offboard control. -/
def checkOffboard (failsafeLowlevelTimeoutMs : UInt32) (times : LoopTimes) :
    LoopPart OffboardReport := do
  let s ← get
  if s.app.status.rcSignalFoundOnce = false ∧ s.spOffboard.timestamp ≠ 0 then
    if times.offboardAge - s.spOffboard.timestamp < 5000000 then
      offboardFound clock
      return .found
    else
      offboardGone failsafeLowlevelTimeoutMs times
  else
    return .nothing

/-- The end of an iteration. It publishes at least with 1 Hz. -/
def finishIteration (times : LoopTimes) : LoopPart Unit := do
  inApp (modifyStatus fun status => { status with
    counter := status.counter + 1
    timestamp := times.status })
  inApp (standbyWhenClean clock)
  let s ← get
  if s.counter % 20 = 0 ∨ s.stateChanged = true then
    inApp publishArmedStatus
    inApp (send (.vehicleStatus (← get).app.status))
    modify fun s => { s with stateChanged := false }
  modify fun s => { s with counter := s.counter + 1 }

/-- An iteration of `commander_thread_main`. -/
def iteration (table : BatteryTable) (failsafeLowlevelTimeoutMs : UInt32) (input : LoopInput) :
    LoopPart LoopReport := do
  getCurrentValues input
  updateEstimate table input
  let (reading, emergency) ← checkBattery clock input.batteryVoltageValid
  let (sample, gesture) ← checkRc clock input.times
  let offboard ← checkOffboard clock failsafeLowlevelTimeoutMs input.times
  finishIteration clock input.times
  return { reading, emergency, sample, gesture, offboard }

/-- What happens: an iteration with its input and its report, or a call of the command thread. -/
inductive LoopEvent
  | iterate (input : LoopInput) (report : LoopReport)
  | call (entry : Update)

/-- What the app does before the loop. -/
def announceStart : Exec Unit := do
  stateMachinePublish clock
  mavlinkLogInfo "[commander] system is running"

/-- The main loop as a transition system, with its parameters. -/
def mainLoop (table : BatteryTable) (failsafeLowlevelTimeoutMs : UInt32) :
    LTS ThreadMain LoopEvent where
  init s := ∃ app startTime, announceStart clock initialCommander = .ok () app ∧
    s = .start app startTime
  step s e t :=
    match e with
    | .iterate input report =>
        iteration clock table failsafeLowlevelTimeoutMs input s = .ok report t
    | .call entry => inApp (entry.exec clock) s = .ok () t

variable (table : BatteryTable) (failsafeLowlevelTimeoutMs : UInt32)

/-- Iterations with these inputs: the events, and the state after them. -/
def iterations : List LoopInput → ThreadMain → Option (List LoopEvent × ThreadMain)
  | [], s => some ([], s)
  | input :: inputs, s =>
      match iteration clock table failsafeLowlevelTimeoutMs input s with
      | .ok report t =>
          (iterations inputs t).map fun (events, u) => (.iterate input report :: events, u)
      | .error _ _ => none

theorem run_iterations {inputs : List LoopInput} {s t : ThreadMain} {events : List LoopEvent}
    (h : iterations clock table failsafeLowlevelTimeoutMs inputs s = some (events, t)) :
    (mainLoop clock table failsafeLowlevelTimeoutMs).Run s events t := by
  induction inputs generalizing s events with
  | nil =>
      cases h
      exact .nil _
  | cons input inputs ih =>
      cases hrun : iteration clock table failsafeLowlevelTimeoutMs input s with
      | error e u => simp [iterations, hrun] at h
      | ok report u =>
          simp only [iterations, hrun, Option.map_eq_some_iff] at h
          obtain ⟨⟨rest, t'⟩, hrest, heq⟩ := h
          cases heq
          exact .cons hrun (ih hrest)

end

/-! ### What an iteration does -/

/-- The part of the status that the loss of signals is about. -/
structure Signals where
  rcSignalFoundOnce : Bool
  offboardControlSignalFoundOnce : Bool
  failsaveLowlevelStartTime : UInt64

/-- The signals of the app. -/
def App.signals (app : App) : Signals where
  rcSignalFoundOnce := app.status.rcSignalFoundOnce
  offboardControlSignalFoundOnce := app.status.offboardControlSignalFoundOnce
  failsaveLowlevelStartTime := app.status.failsaveLowlevelStartTime

namespace ThreadMain

/-- The manual setpoint that an iteration works with. -/
def manual (s : ThreadMain) (input : LoopInput) : ManualControlSetpoint :=
  input.spMan.getD s.spMan

/-- The RC sample that it processes. -/
def sample (s : ThreadMain) (input : LoopInput) : Option Stick :=
  if s.app.status.offboardControlSignalFoundOnce = false ∧ (s.manual input).timestamp ≠ 0 ∧
      input.times.rcAge - (s.manual input).timestamp < 100000 then
    some (s.manual input).stick
  else none

/-- The offboard setpoint that it works with. -/
def offboard (s : ThreadMain) (input : LoopInput) : OffboardControlSetpoint :=
  input.spOffboard.getD s.spOffboard

/-- What the block for offboard control does. -/
def offboardReport (failsafeLowlevelTimeoutMs : UInt32) (s : ThreadMain) (input : LoopInput) :
    OffboardReport :=
  if s.app.status.rcSignalFoundOnce = false ∧ s.sample input = none ∧
      (s.offboard input).timestamp ≠ 0 then
    if input.times.offboardAge - (s.offboard input).timestamp < 5000000 then .found
    else if 100000 < input.times.offboardLost - (s.offboard input).timestamp then
      .lost (decide (failsafeTimeout failsafeLowlevelTimeoutMs <
        input.times.failsaveTest - input.times.failsaveStart))
    else .missing
  else .nothing

end ThreadMain

/-- What the gestures do, with or without a sample. -/
def StickCounters.next (sticks : StickCounters) : Option Stick → StickCounters × Gesture
  | some stick => sticks.check stick
  | none => (sticks, .none)

/-- The time of the failsafe after a block for offboard control. -/
def OffboardReport.startTime (before declared : UInt64) : OffboardReport → UInt64
  | .lost _ => declared
  | _ => before

/-- The armed flag and the status are the last that has been published. -/
def Published (app : App) : Prop :=
  ∃ before, app.sent =
    before ++ [.actuatorArmed (armedStatus app.status), .vehicleStatus app.status]

/-- **What an iteration does** to the parts of the state that the results are about. -/
structure Iterates (failsafeLowlevelTimeoutMs : UInt32) (s : ThreadMain) (input : LoopInput)
    (report : LoopReport) (t : ThreadMain) : Prop where
  valid : report.reading.valid = input.batteryVoltageValid
  battery : (t.battery, report.emergency) = s.battery.check report.reading
  sample : report.sample = s.sample input
  sticks : (t.sticks, report.gesture) = s.sticks.next report.sample
  offboard : report.offboard = s.offboardReport failsafeLowlevelTimeoutMs input
  startTime : t.app.status.failsaveLowlevelStartTime =
    report.offboard.startTime s.app.status.failsaveLowlevelStartTime input.times.failsaveStart
  published : report.offboard = .lost true → Published t.app

section

variable (clock : Nat → UInt64)

theorem doStateUpdate_signals (new : CommanderState) (signals : Signals) :
    Preserves (fun c => c.signals = signals) (doStateUpdate clock new) :=
  doStateUpdate_preserves clock (fun _ hc => by cases new <;> exact hc) fun _ hc => ⟨hc, hc⟩

/-- No transition concerns the signals. -/
theorem keptByParts_signals (signals : Signals) :
    KeptByParts clock fun c => c.signals = signals where
  update new _ _ := doStateUpdate_signals clock new signals
  publish _ hc := hc
  publishArmed _ hc := hc
  mode _ _ hc := hc
  hil _ hc := hc

end

section

variable {Q : Unit → ThreadMain → Prop} {s : ThreadMain}

@[simp] theorem outcome_inApp {α : Type} {Q : α → ThreadMain → Prop}
    {E : Reboot → ThreadMain → Prop} (x : Exec α) :
    outcome (inApp x) Q E s ↔
      outcome x (fun a app => Q a { s with app := app }) (fun e app => E e { s with app := app })
        s.app := by
  unfold outcome inApp
  cases x s.app with
  | ok a app => rfl
  | error e app => rfl

@[simp] theorem outcome_logCritical {Q : Unit → App → Prop} {E : Reboot → App → Prop} {c : App}
    (text : String) :
    outcome (mavlinkLogCritical text) Q E c ↔
      Q () { c with sent := c.sent ++ [.logCritical text] } := Iff.rfl

@[simp] theorem outcome_modifyStatus {Q : Unit → App → Prop} {E : Reboot → App → Prop} {c : App}
    (f : VehicleStatus → VehicleStatus) :
    outcome (modifyStatus f) Q E c ↔ Q () { c with status := f c.status } := Iff.rfl

@[simp] theorem outcome_hrtAbsoluteTime {Q : UInt64 → App → Prop} {E : Reboot → App → Prop}
    {c : App} (clock : Nat → UInt64) :
    outcome (hrtAbsoluteTime clock) Q E c ↔
      Q (clock c.clockReads) { c with clockReads := c.clockReads + 1 } := Iff.rfl

/-- A part that the app does on its own, by what it keeps of the app. -/
theorem outcome_inApp_of {I : App → Prop} {x : Exec Unit} (hx : Preserves I x) (hI : I s.app)
    (hQ : ∀ app, I app → Q () { s with app := app }) :
    outcome (inApp x) Q (fun _ _ => True) s := by
  rw [outcome_inApp]
  exact (hx s.app hI).mono (fun _ app happ => hQ app happ) fun _ _ _ => trivial

end

section

variable (clock : Nat → UInt64)

/-- What the battery check does. -/
structure BatteryChecked (s : ThreadMain) (valid : Bool) (result : BatteryReading × Bool)
    (t : ThreadMain) : Prop where
  valid : result.1.valid = valid
  battery : (t.battery, result.2) = s.battery.check result.1
  signals : t.app.signals = s.app.signals
  sticks : t.sticks = s.sticks
  spMan : t.spMan = s.spMan
  spOffboard : t.spOffboard = s.spOffboard

theorem checkBattery_spec (valid : Bool) (s : ThreadMain) :
    outcome (checkBattery clock valid) (BatteryChecked s valid) (fun _ _ => True) s := by
  have hemergency := preserves_stateMachineEmergency (keptByParts_signals clock s.app.signals)
  unfold checkBattery
  simp only [outcome_bind, outcome_get, outcome_ite, outcome_modify, outcome_pure, outcome_inApp,
    outcome_logCritical]
  refine ⟨fun hlow => ⟨fun hdue => ?_, fun hdue => ?_⟩,
    fun hlow => ⟨fun hcritical => ⟨fun hdue => ?_, fun hdue => ?_⟩, fun hcritical => ?_⟩⟩
  · refine ⟨rfl, ?_, rfl, rfl, rfl, rfl⟩
    simp [BatteryWatch.check, hlow, hdue]
  · refine ⟨rfl, ?_, rfl, rfl, rfl, rfl⟩
    simp [BatteryWatch.check, hlow, hdue]
  · refine (hemergency _ (by rfl)).mono (fun _ app happ => ?_) fun _ _ h => h
    refine ⟨rfl, ?_, happ, rfl, rfl, rfl⟩
    simp [BatteryWatch.check, hcritical, hdue]
  · refine ⟨rfl, ?_, rfl, rfl, rfl, rfl⟩
    simp [BatteryWatch.check, hcritical, hdue]
  · refine ⟨rfl, ?_, rfl, rfl, rfl, rfl⟩
    simp [BatteryWatch.check, hlow, hcritical]

/-! ### The sticks and the RC signal -/

/-- What the parts for the sticks do, for the sample `stick`. -/
structure SticksChecked (s : ThreadMain) (result : StickCounters × Gesture) (gesture : Gesture)
    (t : ThreadMain) : Prop where
  sticks : (t.sticks, gesture) = result
  signals : t.app.signals = s.app.signals
  battery : t.battery = s.battery
  spMan : t.spMan = s.spMan
  spOffboard : t.spOffboard = s.spOffboard

theorem checkStickOff_spec (s : ThreadMain) :
    outcome (checkStickOff clock)
      (SticksChecked s
        (if s.spMan.stick = .lowerLeft then s.sticks.check .lowerLeft else (s.sticks, .none)))
      (fun _ _ => True) s := by
  have hdisarm := preserves_updateStateMachineDisarm (keptByParts_signals clock s.app.signals)
  unfold checkStickOff
  simp only [outcome_bind, outcome_get, outcome_ite, outcome_modify, outcome_pure]
  refine ⟨fun hstick => ⟨fun hdue => ?_, fun hdue => ?_⟩, fun hstick => ?_⟩
  · refine outcome_inApp_of hdisarm rfl fun app happ => ⟨?_, happ, rfl, rfl, rfl⟩
    simp [StickCounters.check, hstick, hdue]
  · refine ⟨?_, rfl, rfl, rfl, rfl⟩
    simp [StickCounters.check, hstick, hdue]
  · exact ⟨by simp [hstick], rfl, rfl, rfl, rfl⟩

theorem checkStickOn_spec (s : ThreadMain) :
    outcome (checkStickOn clock)
      (SticksChecked s
        (if s.spMan.stick = .lowerRight then s.sticks.check .lowerRight else (s.sticks, .none)))
      (fun _ _ => True) s := by
  have harm := preserves_exec (keptByParts_signals clock s.app.signals) .arm
  unfold checkStickOn
  simp only [outcome_bind, outcome_get, outcome_ite, outcome_modify, outcome_pure]
  refine ⟨fun hstick => ⟨fun hdue => ?_, fun hdue => ?_⟩, fun hstick => ?_⟩
  · refine outcome_inApp_of harm rfl fun app happ => ⟨?_, happ, rfl, rfl, rfl⟩
    simp [StickCounters.check, hstick, hdue]
  · refine ⟨?_, rfl, rfl, rfl, rfl⟩
    simp [StickCounters.check, hstick, hdue]
  · exact ⟨by simp [hstick], rfl, rfl, rfl, rfl⟩

/-- The two parts together. -/
theorem check_of_parts {stick : Stick} {before between after : StickCounters}
    {off on : Gesture}
    (hoff : (between, off) =
      if stick = .lowerLeft then before.check .lowerLeft else (before, .none))
    (hon : (after, on) =
      if stick = .lowerRight then between.check .lowerRight else (between, .none)) :
    (after, if off = .none then on else off) = before.check stick := by
  cases stick with
  | lowerLeft =>
      simp only [if_true] at hoff
      simp only [reduceCtorEq, if_false, Prod.mk.injEq] at hon
      rw [hon.1, hon.2, ← hoff]
      split <;> simp [*]
  | lowerRight =>
      simp only [reduceCtorEq, if_false, Prod.mk.injEq] at hoff
      simp only [if_true] at hon
      rw [hoff.2, if_pos rfl, hon, hoff.1]
  | elsewhere =>
      simp only [reduceCtorEq, if_false, Prod.mk.injEq] at hoff hon
      rw [hoff.2, if_pos rfl, hon.1, hon.2, hoff.1]
      rfl

theorem rcSignalMissing_signals (timestamp : UInt64) (again : Bool) (signals : Signals) :
    Preserves (fun c => c.signals = signals) (rcSignalMissing clock timestamp again) := by
  intro c hc
  unfold rcSignalMissing
  simp only [outcome_bind, outcome_get, outcome_ite, outcome_modifyStatus, outcome_logCritical,
    outcome_hrtAbsoluteTime, outcome_pure]
  exact ⟨fun _ => ⟨fun _ => hc, fun _ => hc⟩, fun _ => ⟨fun _ => hc, fun _ => hc⟩⟩

theorem rcSignalFound_signals (c : App) :
    outcome rcSignalFound (fun _ c' => c'.signals = { c.signals with rcSignalFoundOnce := true })
      (fun _ _ => True) c := by
  unfold rcSignalFound
  simp only [outcome_bind, outcome_get, outcome_ite, outcome_modifyStatus, outcome_logCritical]
  refine ⟨fun _ => rfl, fun hfound => ?_⟩
  have htrue : c.status.rcSignalFoundOnce = true := by simpa using hfound
  exact ⟨fun _ => congrArg₂ (Signals.mk · · _) htrue rfl,
    fun _ => congrArg₂ (Signals.mk · · _) htrue rfl⟩

/-- What the RC state check does. -/
structure RcChecked (s : ThreadMain) (stick : Option Stick) (result : Option Stick × Gesture)
    (t : ThreadMain) : Prop where
  sample : result.1 = stick
  sticks : (t.sticks, result.2) = s.sticks.next stick
  rcFound : t.app.status.rcSignalFoundOnce = (s.app.status.rcSignalFoundOnce || stick.isSome)
  startTime :
    t.app.status.failsaveLowlevelStartTime = s.app.status.failsaveLowlevelStartTime
  battery : t.battery = s.battery
  spOffboard : t.spOffboard = s.spOffboard

/-- It has no sample, and keeps the signals. -/
theorem RcChecked.of_signals {s t : ThreadMain} (hsignals : t.app.signals = s.app.signals)
    (hsticks : t.sticks = s.sticks) (hbattery : t.battery = s.battery)
    (hoffboard : t.spOffboard = s.spOffboard) : RcChecked s none (none, .none) t where
  sample := rfl
  sticks := by rw [hsticks]; rfl
  rcFound := by
    rw [Option.isSome_none, Bool.or_false]
    exact congrArg Signals.rcSignalFoundOnce hsignals
  startTime := congrArg Signals.failsaveLowlevelStartTime hsignals
  battery := hbattery
  spOffboard := hoffboard

theorem rcGone_spec (times : LoopTimes) (s : ThreadMain) :
    outcome (rcGone times) (fun _ t => RcChecked s none (none, .none) t) (fun _ _ => True) s := by
  have hmissing (timestamp : UInt64) (again : Bool) :=
    rcSignalMissing_signals (fun _ => times.rcLost) timestamp again s.app.signals
  unfold rcGone
  simp only [outcome_bind, outcome_get, outcome_ite, outcome_modify, outcome_pure]
  constructor
  · intro _
    refine outcome_inApp_of (hmissing _ _) rfl fun app happ => ?_
    exact ⟨fun _ => .of_signals happ rfl rfl rfl, fun _ => .of_signals happ rfl rfl rfl⟩
  · intro _
    refine outcome_inApp_of (hmissing _ _) rfl fun app happ => ?_
    exact ⟨fun _ => .of_signals happ rfl rfl rfl, fun _ => .of_signals happ rfl rfl rfl⟩

theorem checkRc_spec (times : LoopTimes) (s : ThreadMain) :
    outcome (checkRc clock times)
      (RcChecked s
        (if s.app.status.offboardControlSignalFoundOnce = false ∧ s.spMan.timestamp ≠ 0 ∧
            times.rcAge - s.spMan.timestamp < 100000 then some s.spMan.stick else none))
      (fun _ _ => True) s := by
  unfold checkRc
  simp only [outcome_bind, outcome_get, outcome_ite, outcome_pure]
  refine ⟨fun hcontrol => ⟨fun hrecent => ?_, fun hold => ?_⟩, fun hcontrol => ?_⟩
  · rw [if_pos ⟨hcontrol.1, hcontrol.2, hrecent⟩]
    refine (checkStickOff_spec clock s).mono (fun off t₁ h₁ => ?_) fun _ _ h => h
    refine (checkStickOn_spec clock t₁).mono (fun on t₂ h₂ => ?_) fun _ _ h => h
    have hswitch := preserves_switchMode clock (keptByParts_signals clock s.app.signals)
      s.spMan.modeSwitch
    refine outcome_inApp_of hswitch (h₂.signals.trans h₁.signals) fun app happ => ?_
    rw [outcome_inApp]
    refine (rcSignalFound_signals app).mono (fun _ app' happ' => ?_) fun _ _ h => h
    rw [happ] at happ'
    have hsticks := h₂.sticks
    rw [h₁.spMan] at hsticks
    exact {
      sample := rfl
      sticks := check_of_parts h₁.sticks hsticks
      rcFound := by
        rw [Option.isSome_some, Bool.or_true]
        exact congrArg Signals.rcSignalFoundOnce happ'
      startTime := congrArg Signals.failsaveLowlevelStartTime happ'
      battery := h₂.battery.trans h₁.battery
      spOffboard := h₂.spOffboard.trans h₁.spOffboard }
  · rw [if_neg fun h => hold h.2.2]
    exact rcGone_spec times s
  · rw [if_neg fun h => hcontrol ⟨h.1, h.2.1⟩]
    exact .of_signals rfl rfl rfl rfl

/-! ### The offboard signal and the end -/

/-- What keeps all signals keeps the time of the failsafe. -/
theorem preserves_startTime {x : Exec Unit}
    (h : ∀ signals, Preserves (fun c => c.signals = signals) x) (time : UInt64) :
    Preserves (fun c => c.status.failsaveLowlevelStartTime = time) x := by
  intro c hc
  refine (h c.signals c rfl).mono (fun _ c' hc' => ?_) fun _ _ h => h
  exact (congrArg Signals.failsaveLowlevelStartTime hc').trans hc

theorem offboardSignalFound_startTime (mode : OffboardControlMode) (time : UInt64) :
    Preserves (fun c => c.status.failsaveLowlevelStartTime = time) (offboardSignalFound mode) := by
  intro c hc
  unfold offboardSignalFound
  simp only [outcome_bind, outcome_get, outcome_ite, outcome_modifyStatus, outcome_logCritical]
  exact ⟨fun _ => hc, fun _ => ⟨fun _ => hc, fun _ => hc⟩⟩

/-- What the block for offboard control does. -/
structure OffboardChecked (failsafeLowlevelTimeoutMs : UInt32) (times : LoopTimes)
    (s : ThreadMain) (report : OffboardReport) (t : ThreadMain) : Prop where
  decided : report =
    if s.app.status.rcSignalFoundOnce = false ∧ s.spOffboard.timestamp ≠ 0 then
      if times.offboardAge - s.spOffboard.timestamp < 5000000 then .found
      else if 100000 < times.offboardLost - s.spOffboard.timestamp then
        .lost (decide (failsafeTimeout failsafeLowlevelTimeoutMs <
          times.failsaveTest - times.failsaveStart))
      else .missing
    else .nothing
  startTime : t.app.status.failsaveLowlevelStartTime =
    report.startTime s.app.status.failsaveLowlevelStartTime times.failsaveStart
  changed : report = .lost true → t.stateChanged = true
  battery : t.battery = s.battery
  sticks : t.sticks = s.sticks

/-- Taking a setpoint keeps the time of the failsafe, the counters and the latches. -/
structure Found (s t : ThreadMain) : Prop where
  startTime :
    t.app.status.failsaveLowlevelStartTime = s.app.status.failsaveLowlevelStartTime
  battery : t.battery = s.battery
  sticks : t.sticks = s.sticks

theorem found_inApp {x : Exec Unit} {s : ThreadMain}
    (hx : ∀ time, Preserves (fun c => c.status.failsaveLowlevelStartTime = time) x) :
    Preserves (Found s) (inApp x) := by
  intro t ht
  exact outcome_inApp_of (hx _) ht.startTime fun app happ => ⟨happ, ht.battery, ht.sticks⟩

theorem offboardFound_spec (s : ThreadMain) :
    outcome (offboardFound clock) (fun _ t => Found s t) (fun _ _ => True) s := by
  have harm : Preserves (Found s) (inApp (updateStateMachineArm clock)) :=
    found_inApp (preserves_startTime fun signals =>
      preserves_exec (keptByParts_signals clock signals) .arm)
  have hmode : Preserves (Found s) (inApp (updateStateMachineModeStabilized clock)) :=
    found_inApp (preserves_startTime fun signals =>
      preserves_exec (keptByParts_signals clock signals) .modeStabilized)
  have hdisarm : Preserves (Found s) (inApp (updateStateMachineDisarm clock)) :=
    found_inApp (preserves_startTime fun signals =>
      preserves_updateStateMachineDisarm (keptByParts_signals clock signals))
  have hfound (mode : OffboardControlMode) :
      Preserves (Found s) (inApp (offboardSignalFound mode)) :=
    found_inApp (offboardSignalFound_startTime mode)
  have hrequest (mode : OffboardControlMode) (armed : Bool) :
      Preserves (Found s) (do
        inApp (offboardSignalFound mode)
        let flag := (← get).app.status.flagSystemArmed
        if armed = true ∧ flag = false then
          inApp (updateStateMachineArm clock)
          inApp (updateStateMachineModeStabilized clock)
        else if armed = false ∧ flag = true then
          inApp (updateStateMachineDisarm clock)) := by
    refine (hfound mode).bind fun _ => .get_bind fun t ht => ?_
    exact Preserves.ite (harm.bind fun _ => hmode) (.ite hdisarm (.pure ())) t ht
  unfold offboardFound
  rw [outcome_bind, outcome_get]
  dsimp only
  rw [outcome_ite]
  constructor
  · intro _
    rw [outcome_bind, outcome_modify]
    exact hrequest _ _ _ ⟨rfl, rfl, rfl⟩
  · intro _
    exact hrequest _ _ _ ⟨rfl, rfl, rfl⟩

theorem offboardGone_spec (failsafeLowlevelTimeoutMs : UInt32) (times : LoopTimes)
    (s : ThreadMain) :
    outcome (offboardGone failsafeLowlevelTimeoutMs times)
      (fun report t =>
        (report = if 100000 < times.offboardLost - s.spOffboard.timestamp then
          .lost (decide (failsafeTimeout failsafeLowlevelTimeoutMs <
            times.failsaveTest - times.failsaveStart))
          else .missing) ∧
        t.app.status.failsaveLowlevelStartTime =
          report.startTime s.app.status.failsaveLowlevelStartTime times.failsaveStart ∧
        (report = .lost true → t.stateChanged = true) ∧
        t.battery = s.battery ∧ t.sticks = s.sticks)
      (fun _ _ => True) s := by
  unfold offboardGone
  simp only [outcome_bind, outcome_get, outcome_ite, outcome_modify, outcome_pure, outcome_inApp,
    outcome_modifyStatus, outcome_logCritical]
  refine ⟨fun _ => ?_, fun _ => ?_⟩
  -- The rest is the same, with and without a complaint.
  all_goals
    refine ⟨fun hlost => ⟨fun hkill => ?_, fun hkill => ?_⟩, fun hlost => ?_⟩
    · simp [OffboardReport.startTime, hlost, hkill]
    · simp [OffboardReport.startTime, hlost, UInt64.not_lt.mp hkill]
    · simp [OffboardReport.startTime, hlost]

theorem checkOffboard_spec (failsafeLowlevelTimeoutMs : UInt32) (times : LoopTimes)
    (s : ThreadMain) :
    outcome (checkOffboard clock failsafeLowlevelTimeoutMs times)
      (OffboardChecked failsafeLowlevelTimeoutMs times s) (fun _ _ => True) s := by
  unfold checkOffboard
  simp only [outcome_bind, outcome_get, outcome_ite, outcome_pure]
  refine ⟨fun huse => ⟨fun hrecent => ?_, fun hold => ?_⟩, fun huse => ?_⟩
  · refine (offboardFound_spec clock s).mono (fun _ t ht => ?_) fun _ _ h => h
    refine ⟨?_, ht.startTime, fun h => absurd h (by decide), ht.battery, ht.sticks⟩
    rw [if_pos huse, if_pos hrecent]
  · refine (offboardGone_spec failsafeLowlevelTimeoutMs times s).mono ?_ fun _ _ h => h
    rintro report t ⟨hreport, hstart, hchanged, hbattery, hsticks⟩
    refine ⟨?_, hstart, hchanged, hbattery, hsticks⟩
    rw [if_pos huse, if_neg hold, hreport]
  · refine ⟨?_, rfl, fun h => absurd h (by decide), rfl, rfl⟩
    rw [if_neg huse]

theorem finishIteration_spec (times : LoopTimes) (s : ThreadMain) :
    outcome (finishIteration clock times)
      (fun _ t => Found s t ∧ (s.stateChanged = true → Published t.app)) (fun _ _ => True) s := by
  have hstandby := preserves_startTime (fun signals =>
    preserves_standbyWhenClean clock (keptByParts_signals clock signals))
    s.app.status.failsaveLowlevelStartTime
  unfold finishIteration
  rw [outcome_bind, outcome_inApp, outcome_modifyStatus, outcome_bind]
  refine outcome_inApp_of hstandby rfl fun app happ => ?_
  simp only [outcome_bind, outcome_get, outcome_ite, outcome_modify]
  refine ⟨fun _ => ?_, fun hquiet => ?_⟩
  · exact ⟨⟨happ, rfl, rfl⟩, fun _ => ⟨app.sent ++ [.actuatorArmed (armedStatus app.status)], by
      simp⟩⟩
  · exact ⟨⟨happ, rfl, rfl⟩, fun hchanged => absurd (.inr hchanged) hquiet⟩

/-- A new battery estimate concerns nothing else. -/
theorem updateEstimate_spec (table : BatteryTable) (input : LoopInput) (s : ThreadMain) :
    outcome (updateEstimate table input)
      (fun _ t => t.app = s.app ∧ t.battery = s.battery ∧ t.sticks = s.sticks ∧
        t.spMan = s.spMan ∧ t.spOffboard = s.spOffboard) (fun _ _ => True) s := by
  unfold updateEstimate
  rw [outcome_modify]
  split <;> exact ⟨rfl, rfl, rfl, rfl, rfl⟩

/-- **The step lemma**: what an iteration does. -/
theorem iteration_spec (table : BatteryTable) (failsafeLowlevelTimeoutMs : UInt32)
    (input : LoopInput) (s : ThreadMain) :
    outcome (iteration clock table failsafeLowlevelTimeoutMs input)
      (Iterates failsafeLowlevelTimeoutMs s input) (fun _ _ => True) s := by
  unfold iteration getCurrentValues
  rw [outcome_bind, outcome_modify, outcome_bind]
  refine (updateEstimate_spec table input _).mono ?_ fun _ _ h => h
  rintro _ t₁ ⟨happ, hbattery, hsticks, hman, hoffboard⟩
  rw [outcome_bind]
  refine (checkBattery_spec clock _ t₁).mono ?_ fun _ _ h => h
  rintro ⟨reading, emergency⟩ t₂ h₂
  rw [outcome_bind]
  refine (checkRc_spec clock _ t₂).mono ?_ fun _ _ h => h
  rintro ⟨sample, gesture⟩ t₃ h₃
  rw [outcome_bind]
  refine (checkOffboard_spec clock _ _ t₃).mono (fun report t₄ h₄ => ?_) fun _ _ h => h
  rw [outcome_bind]
  refine (finishIteration_spec clock _ t₄).mono ?_ fun _ _ h => h
  rintro _ t₅ ⟨h₅, hpublished⟩
  have hsignals : t₂.app.signals = s.app.signals := by rw [h₂.signals, happ]
  have hcontrol : t₂.app.status.offboardControlSignalFoundOnce =
      s.app.status.offboardControlSignalFoundOnce :=
    congrArg Signals.offboardControlSignalFoundOnce hsignals
  have hrc : t₂.app.status.rcSignalFoundOnce = s.app.status.rcSignalFoundOnce :=
    congrArg Signals.rcSignalFoundOnce hsignals
  have hstart : t₂.app.status.failsaveLowlevelStartTime =
      s.app.status.failsaveLowlevelStartTime :=
    congrArg Signals.failsaveLowlevelStartTime hsignals
  have hspMan : t₂.spMan = s.manual input := by rw [h₂.spMan, hman]; rfl
  have hspOffboard : t₃.spOffboard = s.offboard input := by
    rw [h₃.spOffboard, h₂.spOffboard, hoffboard]
    rfl
  rw [hcontrol, hspMan] at h₃
  change RcChecked t₂ (s.sample input) (sample, gesture) t₃ at h₃
  have hused : t₃.app.status.rcSignalFoundOnce = false ↔
      s.app.status.rcSignalFoundOnce = false ∧ s.sample input = none := by
    rw [h₃.rcFound, hrc, Bool.or_eq_false_iff, Option.isSome_eq_false_iff,
      Option.isNone_iff_eq_none]
  exact {
    valid := h₂.valid
    battery := by rw [h₅.battery, h₄.battery, h₃.battery, h₂.battery, hbattery]
    sample := h₃.sample
    sticks := by
      rw [h₅.sticks, h₄.sticks, h₃.sticks, h₂.sticks, hsticks]
      exact congrArg s.sticks.next h₃.sample.symm
    offboard := by
      refine h₄.decided.trans ?_
      rw [hspOffboard, ThreadMain.offboardReport]
      exact if_congr (by rw [hused, and_assoc]) rfl rfl
    startTime := by rw [h₅.startTime, h₄.startTime, h₃.startTime, hstart]
    published := fun hkilled => hpublished (h₄.changed hkilled) }

/-! ### What an iteration calls -/

/-- What the battery check calls. -/
def emergencyCall (emergency : Bool) : Exec Unit :=
  if emergency then stateMachineEmergency clock else pure ()

/-- What a gesture calls. -/
def Gesture.call : Gesture → Exec Unit
  | none => pure ()
  | disarm => updateStateMachineDisarm clock
  | arm => updateStateMachineArm clock

/-- The battery check complains, or not, and then makes the call that it returns. -/
theorem checkBattery_call (valid : Bool) (s : ThreadMain) :
    outcome (checkBattery clock valid)
      (fun result t => ∃ app, emergencyCall clock result.2 app = .ok () t.app ∧
        app.status = s.app.status)
      (fun _ _ => True) s := by
  unfold checkBattery
  simp only [outcome_bind, outcome_get, outcome_ite, outcome_modify, outcome_pure, outcome_inApp,
    outcome_logCritical]
  refine ⟨fun _ => ⟨fun _ => ⟨_, rfl, rfl⟩, fun _ => ⟨_, rfl, rfl⟩⟩,
    fun _ => ⟨fun _ => ⟨fun _ => ?_, fun _ => ⟨_, rfl, rfl⟩⟩, fun _ => ⟨_, rfl, rfl⟩⟩⟩
  exact (outcome_ok _ _).mono (fun _ app happ => ⟨_, happ, rfl⟩) fun _ _ h => h

theorem checkStickOff_call (s : ThreadMain) :
    outcome (checkStickOff clock)
      (fun gesture t => (gesture = .none ∨ s.spMan.stick = .lowerLeft) ∧
        gesture.call clock s.app = .ok () t.app ∧ t.spMan = s.spMan)
      (fun _ _ => True) s := by
  unfold checkStickOff
  simp only [outcome_bind, outcome_get, outcome_ite, outcome_modify, outcome_pure, outcome_inApp]
  refine ⟨fun hstick => ⟨fun _ => ?_, fun _ => ⟨.inl trivial, rfl, trivial⟩⟩,
    fun _ => ⟨.inl trivial, rfl, trivial⟩⟩
  exact (outcome_ok _ _).mono (fun _ app happ => ⟨.inr hstick, happ, trivial⟩) fun _ _ h => h

theorem checkStickOn_call (s : ThreadMain) :
    outcome (checkStickOn clock)
      (fun gesture t => (gesture = .none ∨ s.spMan.stick = .lowerRight) ∧
        gesture.call clock s.app = .ok () t.app)
      (fun _ _ => True) s := by
  unfold checkStickOn
  simp only [outcome_bind, outcome_get, outcome_ite, outcome_modify, outcome_pure, outcome_inApp]
  refine ⟨fun hstick => ⟨fun _ => ?_, fun _ => ⟨.inl trivial, rfl⟩⟩, fun _ => ⟨.inl trivial, rfl⟩⟩
  exact (outcome_ok _ _).mono (fun _ app happ => ⟨.inr hstick, happ⟩) fun _ _ h => h

/-- The RC block makes the call of the gesture that it returns. After it come the mode switch and
the news of the signal, and without a sample it makes no call. -/
theorem checkRc_call (times : LoopTimes) (s : ThreadMain) :
    outcome (checkRc clock times)
      (fun result t =>
        match result.1 with
        | some _ => ∃ app, result.2.call clock s.app = .ok () app ∧
            (do switchMode clock s.spMan.modeSwitch; rcSignalFound) app = .ok () t.app
        | none => result.2 = .none)
      (fun _ _ => True) s := by
  unfold checkRc
  simp only [outcome_bind, outcome_get, outcome_ite, outcome_pure]
  refine ⟨fun _ => ⟨fun _ => ?_, fun _ => (rcGone_spec times s).mono (fun _ _ _ => trivial)
    fun _ _ h => h⟩, fun _ => trivial⟩
  refine (checkStickOff_call clock s).mono (fun off t₁ h₁ => ?_) fun _ _ h => h
  obtain ⟨hleft, hoff, hspMan⟩ := h₁
  refine (checkStickOn_call clock t₁).mono (fun on t₂ h₂ => ?_) fun _ _ h => h
  obtain ⟨hright, hon⟩ := h₂
  -- one of the two makes no call
  have hcall : (if off = .none then on else off).call clock s.app = .ok () t₂.app := by
    by_cases hnone : off = .none
    · subst hnone
      have happ : s.app = t₁.app := (pure_eq_ok.mp hoff).2
      rw [if_pos rfl, happ]
      exact hon
    · have hstick := hleft.resolve_left hnone
      have hother : on = .none := hright.resolve_right (by rw [hspMan, hstick]; decide)
      subst hother
      have happ : t₁.app = t₂.app := (pure_eq_ok.mp hon).2
      rw [if_neg hnone, ← happ]
      exact hoff
  rw [outcome_inApp]
  refine (outcome_ok _ _).mono (fun _ app happ => ?_) fun _ _ h => h
  rw [outcome_inApp]
  refine (outcome_ok _ _).mono (fun _ app' happ' => ?_) fun _ _ h => h
  exact ⟨t₂.app, hcall, seq_eq_ok.mpr ⟨app, happ, happ'⟩⟩

/-- **The report of an iteration says what it has called**: the battery check has called
`state_machine_emergency` exactly if it says so, and then the RC block has armed or disarmed
exactly if it says so. -/
theorem iteration_calls (table : BatteryTable) (failsafeLowlevelTimeoutMs : UInt32)
    (input : LoopInput) (s : ThreadMain) :
    outcome (iteration clock table failsafeLowlevelTimeoutMs input)
      (fun report t => ∃ complained checked u,
        complained.status = s.app.status ∧
        emergencyCall clock report.emergency complained = .ok () checked ∧
        (match report.sample with
          | some _ => ∃ app, report.gesture.call clock checked = .ok () app ∧
              (do switchMode clock (s.manual input).modeSwitch; rcSignalFound) app = .ok () u.app
          | none => report.gesture = .none) ∧
        (do
          let offboard ← checkOffboard clock failsafeLowlevelTimeoutMs input.times
          finishIteration clock input.times
          return offboard) u = .ok report.offboard t)
      (fun _ _ => True) s := by
  unfold iteration getCurrentValues
  rw [outcome_bind, outcome_modify, outcome_bind]
  refine (updateEstimate_spec table input _).mono ?_ fun _ _ h => h
  rintro _ t₁ ⟨happ, -, -, hman, -⟩
  rw [outcome_bind]
  refine ((checkBattery_spec clock _ t₁).and (checkBattery_call clock _ t₁)).mono ?_
    fun _ _ _ => trivial
  rintro ⟨reading, emergency⟩ t₂ ⟨h₂, app, hcall, hstatus⟩
  rw [outcome_bind]
  refine (checkRc_call clock _ t₂).mono ?_ fun _ _ _ => trivial
  rintro ⟨sample, gesture⟩ t₃ h₃
  have hspMan : t₂.spMan = s.manual input := h₂.spMan.trans hman
  rw [hspMan] at h₃
  rw [outcome_bind]
  have hrest := outcome_ok (do
    let offboard ← checkOffboard clock failsafeLowlevelTimeoutMs input.times
    finishIteration clock input.times
    return offboard) t₃
  simp only [outcome_bind, outcome_pure] at hrest ⊢
  refine hrest.mono (fun offboard t₄ h₄ => h₄.mono (fun _ t₅ h₅ => ?_) fun _ _ _ => trivial)
    fun _ _ _ => trivial
  exact ⟨app, t₂.app, t₃, hstatus.trans (congrArg App.status happ), hcall, h₃, h₅⟩

/-- What an event does. The calls of the command thread concern neither the battery nor the sticks
nor the time of the failsafe. -/
def LoopEvent.Effect (failsafeLowlevelTimeoutMs : UInt32) (s t : ThreadMain) : LoopEvent → Prop
  | iterate input report => Iterates failsafeLowlevelTimeoutMs s input report t
  | call _ => Found s t

theorem mainLoop_step {table : BatteryTable} {failsafeLowlevelTimeoutMs : UInt32}
    {s t : ThreadMain} {e : LoopEvent}
    (h : (mainLoop clock table failsafeLowlevelTimeoutMs).step s e t) :
    e.Effect failsafeLowlevelTimeoutMs s t := by
  cases e with
  | iterate input report =>
      exact (outcome_of_ok h).mp (iteration_spec clock table failsafeLowlevelTimeoutMs input s)
  | call entry =>
      have hkept : Preserves (Found s) (inApp (entry.exec clock)) :=
        found_inApp (preserves_startTime fun signals =>
          preserves_exec (keptByParts_signals clock signals) entry)
      exact hkept.of_ok ⟨rfl, rfl, rfl⟩ h

end

end Px4Firmware.Commander
