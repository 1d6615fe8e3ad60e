import Px4Firmware.Lib.CFloat
import Px4Firmware.Lib.Transition
import Mathlib.Algebra.Order.Field.Rat
import Mathlib.Tactic.Linarith
import Mathlib.Tactic.NormNum

/-!
# Px4Firmware.Control.Pid

The PID controllers of the attitude and the position control (`systemlib/pid/pid.c`), and what
their limit of the integral is good for.

Arithmetic is exact. What a call is given may be a float that is not finite; the call changes
nothing then. The one operation on finite numbers whose result is not finite is the division by a
`dt` of zero.
-/

namespace Px4Firmware.Control

open Lib

/-- `PID_MODE_DERIVATIV_CALC`. -/
def modeDerivativCalc : UInt8 := 0

/-- `PID_MODE_DERIVATIV_SET`. -/
def modeDerivativSet : UInt8 := 1

/-- A controller (`PID_t`). `count` and `limit` have no part in it. -/
structure Pid where
  kp : Rat
  ki : Rat
  kd : Rat
  intmax : Rat
  sp : Rat
  integral : Rat
  errorPrevious : Rat
  lastOutput : Rat
  mode : UInt8
  saturated : UInt8

/-- `pid_init`. -/
def pidInit (kp ki kd intmax : Rat) (mode : UInt8) : Pid where
  kp := kp
  ki := ki
  kd := kd
  intmax := intmax
  sp := 0
  integral := 0
  errorPrevious := 0
  lastOutput := 0
  mode := mode
  saturated := 0

/-! ### `pid_calculate` -/

namespace Pid

variable (pid : Pid)

/-- The output is saturated and the integral would get bigger. -/
def Saturates (error : Rat) : Prop := pid.saturated ≠ 0 ∧ pid.integral * error > 0

instance (error : Rat) : Decidable (pid.Saturates error) :=
  inferInstanceAs (Decidable (_ ∧ _))

/-- The local `i`, as it is computed first. -/
def i (error dt : Rat) : Rat :=
  if pid.Saturates error then pid.integral else pid.integral + error * dt

/-- The integral that is stored. -/
def limited (i : Rat) : Rat :=
  if pid.intmax ≠ 0 then
    if i > pid.intmax then pid.intmax
    else if i < -pid.intmax then -pid.intmax
    else i
  else
    pid.integral

/-- The local `d`: none when it is not finite. -/
def d (error valDot dt : Rat) : Option Rat :=
  let d :=
    if pid.mode = modeDerivativCalc then
      if dt = 0 then none else some ((error - pid.errorPrevious) / dt)
    else if pid.mode = modeDerivativSet then
      some (-valDot)
    else
      some 0
  if pid.kd = 0 then some 0 else d

end Pid

/-- `pid_calculate`. -/
def pidCalculate (pid : Pid) : CFloat → CFloat → CFloat → CFloat → Rat × Pid
  | .finite sp, .finite val, .finite valDot, .finite dt =>
      let error := sp - val
      let i := pid.i error dt
      let d := pid.d error valDot dt
      -- The limit is for the integral in the controller; `i` goes on as it is.
      let integral := pid.limited i
      let i := if pid.ki = 0 then 0 else i
      let output := d.map fun d => error * pid.kp + i * pid.ki + d * pid.kd
      let pid := { pid with
        sp := sp
        saturated := if pid.Saturates error then 0 else pid.saturated
        integral := integral
        errorPrevious := error
        lastOutput := output.getD pid.lastOutput }
      (pid.lastOutput, pid)
  | _, _, _, _ => (pid.lastOutput, pid)

/-! ### What a call does -/

section

variable {pid : Pid} {sp val valDot dt : Rat}

theorem Pid.limited_eq (hintmax : 0 < pid.intmax) (i : Rat) :
    pid.limited i = max (-pid.intmax) (min pid.intmax i) := by
  rw [Pid.limited, if_pos (ne_of_gt hintmax)]
  split
  · rename_i habove
    rw [min_eq_left (le_of_lt habove), max_eq_right (by linarith)]
  · rename_i habove
    rw [min_eq_right (le_of_not_gt habove)]
    split
    · rename_i hbelow
      rw [max_eq_left (le_of_lt hbelow)]
    · rename_i hbelow
      rw [max_eq_right (le_of_not_gt hbelow)]

/-- A limited integral is within its limits. -/
theorem Pid.limited_mem (hintmax : 0 < pid.intmax) (i : Rat) :
    -pid.intmax ≤ pid.limited i ∧ pid.limited i ≤ pid.intmax := by
  rw [Pid.limited_eq hintmax]
  exact ⟨le_max_left _ _, max_le (by linarith) (min_le_left _ _)⟩

/-- The limit leaves an integral alone exactly when it is within the limits. -/
theorem Pid.limited_eq_self_iff (hintmax : 0 < pid.intmax) {i : Rat} :
    pid.limited i = i ↔ -pid.intmax ≤ i ∧ i ≤ pid.intmax := by
  constructor
  · intro hsame
    rw [← hsame]
    exact Pid.limited_mem hintmax i
  · intro hwithin
    rw [Pid.limited_eq hintmax, min_eq_right hwithin.2, max_eq_right hwithin.1]

/-- The derivative is finite when time has passed. -/
theorem Pid.d_of_pos (error valDot : Rat) (hdt : 0 < dt) :
    ∃ d, pid.d error valDot dt = some d := by
  rw [Pid.d, if_neg (ne_of_gt hdt)]
  split
  · exact ⟨0, rfl⟩
  · split
    · exact ⟨_, rfl⟩
    · split <;> exact ⟨_, rfl⟩

/-- The output, with the integral that is not limited. -/
theorem pidCalculate_lastOutput (hki : pid.ki ≠ 0) {d : Rat}
    (hd : pid.d (sp - val) valDot dt = some d) :
    (pidCalculate pid (.finite sp) (.finite val) (.finite valDot) (.finite dt)).2.lastOutput
      = (sp - val) * pid.kp + pid.i (sp - val) dt * pid.ki + d * pid.kd := by
  simp [pidCalculate, hd, hki]

end

/-! ### Runs -/

/-- What happens to a controller: a call with finite numbers, and that its user sets
`saturated`. -/
inductive PidEvent
  | calculate (sp val valDot dt : Rat)
  | saturate (saturated : UInt8)

/-- An event. Time passes between two calls. -/
inductive PidEvent.Next : Pid → PidEvent → Pid → Prop
  | calculate {pid : Pid} {sp val valDot dt : Rat} (hdt : 0 < dt) :
      PidEvent.Next pid (.calculate sp val valDot dt)
        (pidCalculate pid (.finite sp) (.finite val) (.finite valDot) (.finite dt)).2
  | saturate {pid : Pid} {saturated : UInt8} :
      PidEvent.Next pid (.saturate saturated) { pid with saturated := saturated }

/-- A controller that has been initialised with an integral part and a limit. -/
def pidSystem : LTS Pid PidEvent where
  init pid := ∃ kp ki kd intmax mode, ki ≠ 0 ∧ 0 < intmax ∧ pid = pidInit kp ki kd intmax mode
  step := PidEvent.Next

/-- What a call makes of the integral: it is the same in the controller as in the output, within
the limits, and the limited sum or, where the saturation rule applies, what it was before. -/
structure Integrates (pid : Pid) (sp val valDot dt : Rat) (pid' : Pid) : Prop where
  output : ∃ d, pid.d (sp - val) valDot dt = some d ∧
    pid'.lastOutput = (sp - val) * pid.kp + pid'.integral * pid.ki + d * pid.kd
  lower : -pid.intmax ≤ pid'.integral
  upper : pid'.integral ≤ pid.intmax
  value : pid'.integral =
    if pid.Saturates (sp - val) then pid.integral
    else max (-pid.intmax) (min pid.intmax (pid.integral + (sp - val) * dt))

/-- Every call integrates with the limit. -/
def AntiWindup (pid : Pid) : PidEvent → Pid → Prop
  | .calculate sp val valDot dt, pid' => Integrates pid sp val valDot dt pid'
  | .saturate _, _ => True

/-- In a call, the saturation rule applies, or the sum is within the limits. -/
def NoWindup (pid : Pid) : PidEvent → Prop
  | .calculate sp val _ dt =>
      pid.Saturates (sp - val) ∨
        (-pid.intmax ≤ pid.integral + (sp - val) * dt ∧
          pid.integral + (sp - val) * dt ≤ pid.intmax)
  | .saturate _ => True

/-- The parameters stay, and the stored integral is within its limits. -/
structure Pid.Inv (pid : Pid) : Prop where
  ki : pid.ki ≠ 0
  intmax : 0 < pid.intmax
  integral : -pid.intmax ≤ pid.integral ∧ pid.integral ≤ pid.intmax

theorem Pid.Inv.init {pid : Pid} (hinit : pidSystem.init pid) : pid.Inv := by
  obtain ⟨kp, ki, kd, intmax, mode, hki, hintmax, rfl⟩ := hinit
  exact ⟨hki, hintmax, by simp [pidInit, le_of_lt hintmax]⟩

theorem Pid.Inv.step {pid pid' : Pid} {event : PidEvent} (h : pid.Inv)
    (hstep : pidSystem.step pid event pid') : pid'.Inv := by
  cases hstep with
  | calculate hdt => exact ⟨h.ki, h.intmax, Pid.limited_mem h.intmax _⟩
  | saturate => exact ⟨h.ki, h.intmax, h.integral⟩

section

variable {pid : Pid} (h : pid.Inv) (sp val dt : Rat)
include h

/-- The sum is within the limits exactly when `i` is. -/
theorem Pid.Inv.i_mem_iff :
    (-pid.intmax ≤ pid.i (sp - val) dt ∧ pid.i (sp - val) dt ≤ pid.intmax) ↔
      pid.Saturates (sp - val) ∨
        (-pid.intmax ≤ pid.integral + (sp - val) * dt ∧
          pid.integral + (sp - val) * dt ≤ pid.intmax) := by
  rw [Pid.i]
  split
  · rename_i hsaturates
    exact ⟨fun _ => .inl hsaturates, fun _ => h.integral⟩
  · rename_i hsaturates
    exact ⟨.inr, fun hmem => hmem.resolve_left hsaturates⟩

/-- What the stored integral is, whatever `i` is. -/
theorem Pid.Inv.limited_i :
    pid.limited (pid.i (sp - val) dt) =
      if pid.Saturates (sp - val) then pid.integral
      else max (-pid.intmax) (min pid.intmax (pid.integral + (sp - val) * dt)) := by
  rw [Pid.i]
  split
  · exact (Pid.limited_eq_self_iff h.intmax).mpr h.integral
  · exact Pid.limited_eq h.intmax _

/-- A call integrates with the limit exactly when `i` is within it. -/
theorem Pid.Inv.integrates_iff (valDot : Rat) (hdt : 0 < dt) :
    Integrates pid sp val valDot dt
        (pidCalculate pid (.finite sp) (.finite val) (.finite valDot) (.finite dt)).2 ↔
      -pid.intmax ≤ pid.i (sp - val) dt ∧ pid.i (sp - val) dt ≤ pid.intmax := by
  rw [← Pid.limited_eq_self_iff h.intmax]
  obtain ⟨d, hd⟩ := pid.d_of_pos (sp - val) valDot hdt
  have hlast := pidCalculate_lastOutput h.ki hd
  constructor
  · intro hintegrates
    obtain ⟨d', hd', houtput⟩ := hintegrates.output
    obtain rfl : d = d' := Option.some.inj (hd.symm.trans hd')
    -- Both outputs are the same, and so are the integrals that are multiplied by `ki`.
    have hproduct : pid.i (sp - val) dt * pid.ki
        = pid.limited (pid.i (sp - val) dt) * pid.ki := by
      have hsame := hlast.symm.trans houtput
      exact add_left_cancel (add_right_cancel hsame)
    exact (mul_right_cancel₀ h.ki hproduct).symm
  · intro hsame
    exact {
      output := ⟨d, hd, by rw [hlast, ← hsame]; rfl⟩
      lower := (Pid.limited_mem h.intmax _).1
      upper := (Pid.limited_mem h.intmax _).2
      value := h.limited_i sp val dt }

end

/-- **Anti-windup.** In every run of a controller with an integral part and a limit, the integral of
every call is the same in the controller and in the output, and limited, exactly when in every call
the saturation rule applies or the sum is within the limits already. -/
theorem anti_windup_iff {kp ki kd intmax : Rat} {mode : UInt8} (hki : ki ≠ 0)
    (hintmax : 0 < intmax) {events : List PidEvent} {pid' : Pid} :
    (pidSystem.obeying AntiWindup).Run (pidInit kp ki kd intmax mode) events pid' ↔
      (pidSystem.restrict NoWindup).Run (pidInit kp ki kd intmax mode) events pid' := by
  refine LTS.run_obeying_iff (fun pid event pid' hreach hstep => ?_)
    ⟨kp, ki, kd, intmax, mode, hki, hintmax, rfl⟩
  have hinv : pid.Inv := hreach.of_restrict.invariant (fun _ => Pid.Inv.init)
    fun _ _ _ hinv hstep => hinv.step hstep
  cases hstep with
  | calculate hdt =>
      exact (hinv.integrates_iff _ _ _ _ hdt).trans (hinv.i_mem_iff _ _ _)
  | saturate => exact Iff.rfl

/-- Three calls, with `ki` and `intmax` one. Before the second one the user says that the output is
saturated, so that the integral stays; the third one takes it back. -/
def fewCalls : List PidEvent :=
  [.calculate 1 0 0 (1 / 2), .saturate 1, .calculate 1 0 0 1, .calculate (-1) 0 0 1]

theorem anti_windup_iff_fewCalls :
    ∃ pid', (pidSystem.obeying AntiWindup).Run (pidInit 0 1 0 1 0) fewCalls pid' ∧
      pid'.integral = -1 / 2 := by
  have hrun : (pidSystem.restrict NoWindup).Run (pidInit 0 1 0 1 0) fewCalls _ :=
    .cons ⟨.inr (by decide +kernel), .calculate (by norm_num)⟩ <|
      .cons ⟨trivial, .saturate⟩ <|
      .cons ⟨.inl (by decide +kernel), .calculate one_pos⟩ <|
      .cons ⟨.inr (by decide +kernel), .calculate one_pos⟩ <| .nil _
  exact ⟨_, (anti_windup_iff one_ne_zero one_pos).mpr hrun, by decide +kernel⟩

/-- With `ki` and `intmax` one, an error of two during a second: the integral is limited to one, and
the output is two. -/
theorem output_winds_up :
    ∃ pid', pidSystem.Run (pidInit 0 1 0 1 0) [.calculate 2 0 0 1] pid' ∧
      ¬ (pidSystem.obeying AntiWindup).Run (pidInit 0 1 0 1 0) [.calculate 2 0 0 1] pid' := by
  have hinv : (pidInit 0 1 0 1 0).Inv :=
    .init ⟨0, 1, 0, 1, 0, one_ne_zero, one_pos, rfl⟩
  refine ⟨_, .cons (.calculate one_pos) (.nil _), fun hrun => ?_⟩
  cases hrun with
  | cons hstep _ =>
      cases hstep.1 with
      | calculate hdt =>
          have hmem := (hinv.integrates_iff 2 0 1 0 hdt).mp hstep.2
          have habove : ¬ (pidInit 0 1 0 1 0).i (2 - 0) 1 ≤ (pidInit 0 1 0 1 0).intmax := by
            norm_num [Pid.i, Pid.Saturates, pidInit]
          exact habove hmem.2

end Px4Firmware.Control
