import Px4Firmware.Commander.Calibration
import Px4Firmware.Lib.Hoare

/-!
# Px4Firmware.Commander.SensorCalibration

**The calibration routines** `do_gyro_calibration`, `do_mag_calibration` and `do_accel_calibration`.
Each sets a flag, takes the calibration out of the sensor driver, collects samples, sets the
parameters, sends the new calibration to the driver and clears the flag. When no sample comes within
a second, the magnetometer routine leaves its loop and goes on with what it has; the other two
return from inside the loop.

`ends_cleanly_iff` says when a routine ends as it should: always for the magnetometer, and if none
of the 5000 polls runs into a timeout for the others.

The float arithmetic is a parameter. The parameters `SENS_*` are floats of the parameter table, so
that `param_set` sets them (`paramSetInternal_scalar`). What the drivers do with a calibration is
left out, and so is the parameter file, to which the new parameters are saved.
-/

namespace Px4Firmware.Commander

open Px4Firmware.Lib

/-! ### Samples and calibrations -/

/-- The float arithmetic of the routines. -/
structure FloatArith (F : Type) where
  zero : F
  one : F
  two : F
  gravity : F
  fltMax : F
  ofInt : Int → F
  neg : F → F
  add : F → F → F
  mul : F → F → F
  div : F → F → F
  sqrt : F → F
  lt : F → F → Bool

/-- A value for each axis. -/
structure Axes (F : Type) where
  x : F
  y : F
  z : F

namespace Axes

variable {F : Type}

def map {G : Type} (f : F → G) (a : Axes F) : Axes G := { x := f a.x, y := f a.y, z := f a.z }

def map₂ {G H : Type} (f : F → G → H) (a : Axes F) (b : Axes G) : Axes H :=
  { x := f a.x b.x, y := f a.y b.y, z := f a.z b.z }

end Axes

/-- What the routines read of `struct sensor_combined_s`. -/
structure SensorCombined (F : Type) where
  gyroRadS : Axes F
  magnetometerGa : Axes F
  accelerometerMS2 : Axes F

/-- `struct gyro_scale`, `struct mag_scale` and `struct accel_scale`: an offset and a factor for
each axis. -/
structure Scale (F : Type) where
  offset : Axes F
  scale : Axes F

/-- What a routine meets: the arithmetic, the clock, the results of its polls, and the sample that
is copied after each. -/
structure Surroundings (F : Type) where
  arith : FloatArith F
  clock : Nat → UInt64
  poll : Nat → Int
  raw : Nat → SensorCombined F

/-- The app, the calibrations last sent to the drivers, the calibration parameters, and the number
of polls. -/
structure Bench (F : Type) where
  app : App
  driver : Calibration → Scale F
  offset : Calibration → Axes F
  accelScale : Axes F
  polls : Nat

/-- Why a routine does not return: a call does not, or its loop goes on. -/
inductive Unfinished
  | reboot
  | sampling

/-- A calibration routine. -/
abbrev Routine (F : Type) := EStateM Unfinished (Bench F)

/-! ### The routines -/

section

variable {F : Type}

/-- What the app does on its own. -/
def onApp {α : Type} (x : Exec α) : Routine F α := fun b =>
  match x b.app with
  | .ok a c => .ok a { b with app := c }
  | .error _ c => .error .reboot { b with app := c }

variable (env : Surroundings F)

/-- Factors that change nothing. -/
def unitScale : Axes F := { x := env.arith.one, y := env.arith.one, z := env.arith.one }

/-- `gscale_null`, `mscale_null` and `ascale_null`. -/
def nullScale : Scale F where
  offset := { x := env.arith.zero, y := env.arith.zero, z := env.arith.zero }
  scale := unitScale env

/-- Set or clear the flag of a calibration, and publish the status. -/
def setFlag (kind : Calibration) (flag : Bool) : Routine F Unit := do
  onApp (modifyStatus fun s => kind.writeFlag flag s)
  onApp (stateMachinePublish env.clock)

/-- `ioctl` with `GYROIOCSSCALE`, `MAGIOCSSCALE` or `ACCELIOCSSCALE`. -/
def setScale (kind : Calibration) (scale : Scale F) : Routine F Unit :=
  modify fun b => { b with driver := Function.update b.driver kind scale }

/-- `param_set` of the three offsets, and of the three factors of the accelerometer. -/
def setParameters (kind : Calibration) (scale : Scale F) : Routine F Unit :=
  modify fun b =>
    { b with
      offset := Function.update b.offset kind scale.offset
      accelScale := if kind = .accel then scale.scale else b.accelScale }

/-- `poll` for a sample, with a timeout of a second, and the sample. -/
def pollSample : Routine F (Option (SensorCombined F)) :=
  modifyGet fun b =>
    (if env.poll b.polls ≠ 0 then some (env.raw b.polls) else none, { b with polls := b.polls + 1 })

/-- `calibration_count`. -/
def calibrationCount : Nat := 5000

/-- The loop of the gyro and the accelerometer routine, for the samples that are left: their sum, or
nothing after a timeout. -/
def sumSamples (read : SensorCombined F → Axes F) : Nat → Axes F → Routine F (Option (Axes F))
  | 0, sum => return some sum
  | left + 1, sum => do
      match ← pollSample env with
      | some raw => sumSamples read left (sum.map₂ env.arith.add (read raw))
      | none => return none

/-- The mean of the samples. -/
def mean (sum : Axes F) : Axes F :=
  sum.map fun total => env.arith.div total (env.arith.ofInt calibrationCount)

/-- The sum of no samples. -/
def noSum : Axes F := { x := env.arith.zero, y := env.arith.zero, z := env.arith.zero }

/-- The calibration that the gyro routine computes. -/
def gyroScale (sum : Axes F) : Scale F := { offset := mean env sum, scale := unitScale env }

/-- The calibration that the accelerometer routine computes: the length of the mean is added to its
z component. -/
def computeAccelScale (sum : Axes F) : Scale F :=
  let offset := mean env sum
  let totalLen := env.arith.sqrt (env.arith.add
    (env.arith.add (env.arith.mul offset.x offset.x) (env.arith.mul offset.y offset.y))
    (env.arith.mul offset.z offset.z))
  let scale := env.arith.div env.arith.gravity totalLen
  { offset := { offset with z := env.arith.add offset.z totalLen }
    scale := { x := scale, y := scale, z := scale } }

/-- What the gyro and the accelerometer routine have in common. They differ in the samples that they
sum up, in the calibration that they compute from the sum, and in their texts. -/
def sumCalibration (kind : Calibration) (read : SensorCombined F → Axes F)
    (compute : Axes F → Scale F) (aborted finished : String) : Routine F Unit := do
  setFlag env kind true
  setScale kind (nullScale env)
  match ← sumSamples env read calibrationCount (noSum env) with
  | none => onApp (mavlinkLogInfo aborted)
  | some sum =>
      let scale := compute sum
      setParameters kind scale
      setScale kind scale
      setFlag env kind false
      onApp (mavlinkLogInfo finished)

/-- `do_gyro_calibration`. -/
def doGyroCalibration : Routine F Unit :=
  sumCalibration env .gyro SensorCombined.gyroRadS (gyroScale env)
    "[commander] gyro calibration aborted, retry" "[commander] gyro calibration finished"

/-- `do_accel_calibration`. -/
def doAccelCalibration : Routine F Unit := do
  onApp (mavlinkLogInfo "[commander] keep it level and still")
  sumCalibration env .accel SensorCombined.accelerometerMS2 (computeAccelScale env)
    "[commander] acceleration calibration aborted" "[commander] acceleration calibration finished"

/-- `mag_min` and `mag_max`. -/
structure MagRange (F : Type) where
  min : Axes F
  max : Axes F

/-- The range before the first sample. -/
def MagRange.empty : MagRange F :=
  let fltMax := env.arith.fltMax
  { min := { x := fltMax, y := fltMax, z := fltMax }
    max := (⟨fltMax, fltMax, fltMax⟩ : Axes F).map env.arith.neg }

/-- One axis of a sample: a new minimum is not looked at as a maximum. -/
def rangeAxis (value min max : F) : F × F :=
  if env.arith.lt value min then (value, max)
  else if env.arith.lt max value then (min, value)
  else (min, max)

/-- Take a sample into the range. -/
def MagRange.update (range : MagRange F) (value : Axes F) : MagRange F :=
  let (minX, maxX) := rangeAxis env value.x range.min.x range.max.x
  let (minY, maxY) := rangeAxis env value.y range.min.y range.max.y
  let (minZ, maxZ) := rangeAxis env value.z range.min.z range.max.z
  { min := { x := minX, y := minY, z := minZ }, max := { x := maxX, y := maxY, z := maxZ } }

/-- The calibration that the magnetometer routine computes: the middle of the range. -/
def magScale (range : MagRange F) : Scale F where
  offset := (range.max.map₂ env.arith.add range.min).map fun sum => env.arith.div sum env.arith.two
  scale := unitScale env

/-- The loop of the magnetometer routine, for at most so many rounds. It ends after 30 seconds, or
with a timeout. -/
def magLoop (calibrationStart : UInt64) : Nat → MagRange F → Routine F (MagRange F)
  | 0, _ => throw .sampling
  | rounds + 1, range => do
      let now ← onApp (hrtAbsoluteTime env.clock)
      if (now - calibrationStart) / 1000 < 30000 then
        match ← pollSample env with
        | some raw => magLoop calibrationStart rounds (range.update env raw.magnetometerGa)
        | none =>
            onApp (mavlinkLogInfo "[commander] mag cal canceled")
            return range
      else
        return range

/-- `do_mag_calibration`, with at most so many rounds of its loop. -/
def doMagCalibration (rounds : Nat) : Routine F Unit := do
  setFlag env .mag true
  setScale .mag (nullScale env)
  onApp (mavlinkLogInfo "[commander] Please rotate around X")
  let calibrationStart ← onApp (hrtAbsoluteTime env.clock)
  let range ← magLoop env calibrationStart rounds (.empty env)
  onApp (mavlinkLogInfo "[commander] mag calibration done")
  setFlag env .mag false
  let scale := magScale env range
  setParameters .mag scale
  setScale .mag scale
  onApp (mavlinkLogInfo "[commander] magnetometer calibration finished")

/-- The routine of a calibration. -/
def Calibration.routine (rounds : Nat) : Calibration → Routine F Unit
  | gyro => doGyroCalibration env
  | mag => doMagCalibration env rounds
  | accel => doAccelCalibration env

/-! ### The law and its condition -/

/-- The flag of a calibration. -/
def Calibration.flag (s : VehicleStatus) : Calibration → Bool
  | gyro => s.flagPreflightGyroCalibration
  | mag => s.flagPreflightMagCalibration
  | accel => s.flagPreflightAccelCalibration

/-- The calibration that the parameters say. Only the accelerometer has parameters for factors. -/
def Bench.parameters (b : Bench F) : Calibration → Scale F
  | .accel => { offset := b.offset .accel, scale := b.accelScale }
  | kind => { offset := b.offset kind, scale := unitScale env }

/-- The sum with the samples after so many polls. -/
def sumFrom (read : SensorCombined F → Axes F) : Nat → Nat → Axes F → Axes F
  | _, 0, sum => sum
  | poll, left + 1, sum =>
      sumFrom read (poll + 1) left (sum.map₂ env.arith.add (read (env.raw poll)))

/-- The range with the samples after so many polls. -/
def rangeFrom : Nat → Nat → MagRange F → MagRange F
  | _, 0, range => range
  | poll, left + 1, range =>
      rangeFrom (poll + 1) left (range.update env (env.raw poll).magnetometerGa)

/-- The calibration from these samples. -/
def Calibration.computed (poll samples : Nat) : Calibration → Scale F
  | gyro => gyroScale env (sumFrom env SensorCombined.gyroRadS poll samples (noSum env))
  | mag => magScale env (rangeFrom env poll samples (.empty env))
  | accel =>
      computeAccelScale env (sumFrom env SensorCombined.accelerometerMS2 poll samples (noSum env))

/-- A clean end: the flag is cleared, and the calibration last sent to the driver and the one of the
parameters are both computed from the samples, or both those from before. -/
structure CleanEnd (kind : Calibration) (b b' : Bench F) : Prop where
  flag : kind.flag b'.app.status = false
  agree : (∃ samples, (kind ≠ .mag → samples = calibrationCount) ∧
        b'.driver kind = kind.computed env b.polls samples ∧
        b'.parameters env kind = kind.computed env b.polls samples) ∨
      b'.driver kind = b.driver kind ∧ b'.parameters env kind = b.parameters env kind

/-- The law: when the routine returns, it has come to a clean end. -/
def EndsCleanly (kind : Calibration) (b : Bench F) : Prop :=
  ∀ rounds b', kind.routine env rounds b = .ok () b' → CleanEnd env kind b b'

/-! ### What the steps do -/

/-- The app after it has set or cleared a flag and published its status. -/
def flagged (kind : Calibration) (flag : Bool) (c : App) : App :=
  let status := { kind.writeFlag flag c.status with
    counter := (kind.writeFlag flag c.status).counter + 1
    timestamp := env.clock c.clockReads }
  { status := status, sent := c.sent ++ [.vehicleStatus status], clockReads := c.clockReads + 1 }

section

variable {Q : Unit → Bench F → Prop} {E : Unfinished → Bench F → Prop} {b : Bench F}

@[simp] theorem flag_flagged (kind : Calibration) (flag : Bool) (c : App) :
    kind.flag (flagged env kind flag c).status = flag := by
  cases kind <;> rfl

@[simp] theorem outcome_setFlag (kind : Calibration) (flag : Bool) :
    outcome (setFlag env kind flag) Q E b ↔ Q () { b with app := flagged env kind flag b.app } := by
  rfl

@[simp] theorem outcome_setScale (kind : Calibration) (scale : Scale F) :
    outcome (setScale kind scale) Q E b ↔
      Q () { b with driver := Function.update b.driver kind scale } := Iff.rfl

@[simp] theorem outcome_setParameters (kind : Calibration) (scale : Scale F) :
    outcome (setParameters kind scale) Q E b ↔
      Q () { b with
        offset := Function.update b.offset kind scale.offset
        accelScale := if kind = .accel then scale.scale else b.accelScale } := Iff.rfl

@[simp] theorem outcome_log (text : String) :
    outcome (onApp (mavlinkLogInfo text)) Q E b ↔
      Q () { b with app := { b.app with sent := b.app.sent ++ [.logInfo text] } } := Iff.rfl

@[simp] theorem outcome_clock {Q : UInt64 → Bench F → Prop} :
    outcome (onApp (hrtAbsoluteTime env.clock)) Q E b ↔
      Q (env.clock b.app.clockReads)
        { b with app := { b.app with clockReads := b.app.clockReads + 1 } } := Iff.rfl

@[simp] theorem outcome_pollSample {Q : Option (SensorCombined F) → Bench F → Prop} :
    outcome (pollSample env) Q E b ↔
      Q (if env.poll b.polls ≠ 0 then some (env.raw b.polls) else none)
        { b with polls := b.polls + 1 } := Iff.rfl

end

/-! ### Sampling -/

/-- What the loop of the gyro and the accelerometer routine ends with: the sum of all samples, or
nothing after a timeout. It changes nothing but the number of polls. -/
structure Summed (read : SensorCombined F → Axes F) (left : Nat) (sum : Axes F) (b : Bench F)
    (result : Option (Axes F)) (b' : Bench F) : Prop where
  frame : ∃ polls, b' = { b with polls := polls }
  complete : (∀ i < left, env.poll (b.polls + i) ≠ 0) →
    result = some (sumFrom env read b.polls left sum)
  timeout : (∃ i < left, env.poll (b.polls + i) = 0) → result = none

theorem sumSamples_summed (read : SensorCombined F → Axes F) (left : Nat) (sum : Axes F)
    (b : Bench F) :
    outcome (sumSamples env read left sum) (Summed env read left sum b) (fun _ _ => False) b := by
  induction left generalizing b sum with
  | zero => exact ⟨⟨b.polls, rfl⟩, fun _ => rfl, fun ⟨i, hi, _⟩ => absurd hi (Nat.not_lt_zero i)⟩
  | succ left ih =>
      rw [sumSamples, outcome_bind, outcome_pollSample]
      by_cases hpoll : env.poll b.polls = 0
      · rw [if_neg (not_not_intro hpoll)]
        refine ⟨⟨b.polls + 1, rfl⟩, fun hall => ?_, fun _ => rfl⟩
        exact absurd hpoll (hall 0 (Nat.zero_lt_succ left))
      · rw [if_pos hpoll]
        refine (ih (sum.map₂ env.arith.add (read (env.raw b.polls))) _).mono ?_ fun _ _ h => h
        rintro result b' ⟨⟨polls, hframe⟩, hcomplete, htimeout⟩
        refine ⟨⟨polls, hframe⟩, fun hall => hcomplete fun i hi => ?_, ?_⟩
        · have hnext := hall (i + 1) (Nat.succ_lt_succ hi)
          rwa [Nat.add_comm i 1, ← Nat.add_assoc] at hnext
        · rintro ⟨i, hi, hzero⟩
          cases i with
          | zero => exact absurd hzero hpoll
          | succ i =>
              refine htimeout ⟨i, Nat.lt_of_succ_lt_succ hi, ?_⟩
              rwa [Nat.add_comm i 1, ← Nat.add_assoc] at hzero

/-- The loop of the magnetometer routine, if it ends, has taken some samples into the range. -/
theorem magLoop_ranged (calibrationStart : UInt64) (rounds : Nat) (range : MagRange F)
    (b : Bench F) :
    outcome (magLoop env calibrationStart rounds range)
      (fun result _ => ∃ samples, result = rangeFrom env b.polls samples range) (fun _ _ => True)
      b := by
  induction rounds generalizing b range with
  | zero => trivial
  | succ rounds ih =>
      rw [magLoop, outcome_bind, outcome_clock, outcome_ite]
      refine ⟨fun _ => ?_, fun _ => ⟨0, rfl⟩⟩
      rw [outcome_bind, outcome_pollSample]
      by_cases hpoll : env.poll b.polls = 0
      · simp only [hpoll, ne_eq, not_true_eq_false, if_false]
        exact ⟨0, rfl⟩
      · simp only [hpoll, ne_eq, not_false_eq_true, if_true]
        refine (ih (range.update env (env.raw b.polls).magnetometerGa) _).mono ?_ fun _ _ h => h
        rintro result b' ⟨samples, hresult⟩
        exact ⟨samples + 1, hresult⟩

/-! ### The routines -/

/-- The condition: no poll runs into a timeout. -/
def NoTimeout (b : Bench F) : Prop := ∀ i < calibrationCount, env.poll (b.polls + i) ≠ 0

/-- Parameters that have been set say the calibration they have been set to. -/
theorem parameters_eq {kind : Calibration} {scale : Scale F} {b : Bench F}
    (hunit : kind ≠ .accel → scale.scale = unitScale env) (hoffset : b.offset kind = scale.offset)
    (hfactor : kind = .accel → b.accelScale = scale.scale) : b.parameters env kind = scale := by
  obtain ⟨offset, factor⟩ := scale
  cases kind with
  | gyro => exact congrArg₂ Scale.mk hoffset (hunit (by decide)).symm
  | mag => exact congrArg₂ Scale.mk hoffset (hunit (by decide)).symm
  | accel => exact congrArg₂ Scale.mk hoffset (hfactor rfl)

/-- The gyro and the accelerometer routine return, after a timeout with the flag still set. -/
theorem sumCalibration_ends {kind : Calibration} {read : SensorCombined F → Axes F}
    {compute : Axes F → Scale F}
    (hcompute : ∀ poll samples,
      kind.computed env poll samples = compute (sumFrom env read poll samples (noSum env)))
    (hunit : ∀ sum, kind ≠ .accel → (compute sum).scale = unitScale env)
    (aborted finished : String) (b : Bench F) :
    outcome (sumCalibration env kind read compute aborted finished)
      (fun _ b' => (NoTimeout env b → CleanEnd env kind b b') ∧
        (¬ NoTimeout env b → kind.flag b'.app.status = true)) (fun _ _ => False) b := by
  unfold sumCalibration
  simp only [outcome_bind, outcome_setFlag, outcome_setScale]
  refine (sumSamples_summed env _ _ _ _).mono ?_ fun _ _ h => h
  rintro result b' ⟨⟨polls, rfl⟩, hcomplete, htimeout⟩
  by_cases hnone : NoTimeout env b
  · rw [hcomplete hnone]
    simp only [outcome_bind, outcome_setFlag, outcome_setScale, outcome_setParameters, outcome_log]
    refine ⟨fun _ => ⟨by simp, .inl ⟨calibrationCount, fun _ => rfl, ?_, ?_⟩⟩,
      fun h => absurd hnone h⟩
    · rw [hcompute]
      exact Function.update_self ..
    · rw [hcompute]
      refine parameters_eq env (hunit _) (Function.update_self ..) fun haccel => ?_
      simp only [haccel, if_true]
  · have hsome : ∃ i < calibrationCount, env.poll (b.polls + i) = 0 := by
      simpa [NoTimeout] using hnone
    rw [htimeout hsome]
    exact ⟨fun h => absurd h hnone, fun _ => flag_flagged env kind true b.app⟩

/-- The magnetometer routine comes to a clean end, if it comes to an end. -/
theorem doMagCalibration_ends (rounds : Nat) (b : Bench F) :
    outcome (doMagCalibration env rounds) (fun _ b' => CleanEnd env .mag b b') (fun _ _ => True)
      b := by
  unfold doMagCalibration
  simp only [outcome_bind, outcome_setFlag, outcome_setScale, outcome_log, outcome_clock]
  refine (magLoop_ranged env _ _ _ _).mono ?_ fun _ _ h => h
  rintro range b' ⟨samples, rfl⟩
  simp only [outcome_setParameters]
  refine ⟨flag_flagged env .mag false b'.app, .inl ⟨samples, fun h => absurd rfl h, ?_, ?_⟩⟩
  · simp only [Function.update_self]
    rfl
  · refine parameters_eq env (fun _ => rfl) ?_ fun h => absurd h (by decide)
    simp only [Function.update_self]
    rfl

/-- The routines of the two sensors that need all their samples. -/
theorem routine_ends (rounds : Nat) {kind : Calibration} (hmag : kind ≠ .mag) (b : Bench F) :
    outcome (kind.routine env rounds) (fun _ b' => (NoTimeout env b → CleanEnd env kind b b') ∧
        (¬ NoTimeout env b → kind.flag b'.app.status = true)) (fun _ _ => False) b := by
  cases kind with
  | mag => exact absurd rfl hmag
  | gyro =>
      rw [Calibration.routine, doGyroCalibration]
      refine sumCalibration_ends env ?_ ?_ _ _ b
      · exact fun _ _ => rfl
      · exact fun _ _ => rfl
  | accel =>
      rw [Calibration.routine, doAccelCalibration, outcome_bind, outcome_log]
      refine (sumCalibration_ends env ?_ ?_ _ _ _).mono ?_ fun _ _ h => h
      · exact fun _ _ => rfl
      · exact fun _ h => absurd rfl h
      · rintro _ b' ⟨hclean, hset⟩
        exact ⟨fun hnone => ⟨(hclean hnone).flag, (hclean hnone).agree⟩, hset⟩

/-- After a timeout, these routines return with the flag set. -/
theorem not_endsCleanly {kind : Calibration} (hmag : kind ≠ .mag) {b : Bench F}
    (htimeout : ¬ NoTimeout env b) : ¬ EndsCleanly env kind b := by
  intro hclean
  have hends := routine_ends env 0 hmag b
  cases hrun : kind.routine env 0 b with
  | error e b' =>
      unfold outcome at hends
      rw [hrun] at hends
      exact hends
  | ok u b' =>
      have hset := ((outcome_of_ok hrun).mp hends).2 htimeout
      rw [(hclean 0 b' hrun).flag] at hset
      exact Bool.false_ne_true hset

/-- **A calibration ends cleanly** exactly if it is that of the magnetometer, or no poll runs into a
timeout. -/
theorem ends_cleanly_iff (kind : Calibration) (b : Bench F) :
    EndsCleanly env kind b ↔ kind = .mag ∨ NoTimeout env b := by
  by_cases hmag : kind = .mag
  · subst hmag
    refine iff_of_true (fun rounds b' hrun => ?_) (.inl rfl)
    exact (outcome_of_ok hrun).mp (doMagCalibration_ends env rounds b)
  · simp only [hmag, false_or]
    constructor
    · exact fun hclean => by_contra fun htimeout => not_endsCleanly env hmag htimeout hclean
    · intro hnone rounds b' hrun
      exact ((outcome_of_ok hrun).mp (routine_ends env rounds hmag b)).1 hnone

end

/-- Arithmetic on integers in the place of floats. -/
def intArith : FloatArith Int where
  zero := 0
  one := 1
  two := 2
  gravity := 10
  fltMax := 1000
  ofInt n := n
  neg := Int.neg
  add := Int.add
  mul := Int.mul
  div := Int.tdiv
  sqrt a := a.toNat.sqrt
  lt a b := a < b

/-- No sample ever comes. -/
def noSensor : Surroundings Int where
  arith := intArith
  clock _ := 0
  poll _ := 0
  raw _ := { gyroRadS := ⟨0, 0, 0⟩, magnetometerGa := ⟨0, 0, 0⟩, accelerometerMS2 := ⟨0, 0, 0⟩ }

/-- The app right after its start, with the drivers and the parameters as they are delivered. -/
def startBench : Bench Int where
  app := initialCommander
  driver _ := { offset := ⟨0, 0, 0⟩, scale := ⟨1, 1, 1⟩ }
  offset _ := ⟨0, 0, 0⟩
  accelScale := ⟨1, 1, 1⟩
  polls := 0

/-- The gyro routine returns at the first timeout with its flag set. -/
theorem gyro_leaves_flag :
    ¬ ∀ (env : Surroundings Int) (kind : Calibration) (b : Bench Int), EndsCleanly env kind b := by
  intro hclean
  have htimeout : ¬ NoTimeout noSensor startBench := fun hnone => hnone 0 (by decide) rfl
  exact not_endsCleanly noSensor (by decide) htimeout (hclean noSensor .gyro startBench)

end Px4Firmware.Commander
