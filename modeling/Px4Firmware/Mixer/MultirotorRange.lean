import Mathlib.Algebra.Order.Field.Basic
import Mathlib.Algebra.Order.Field.Rat
import Mathlib.Tactic.NormNum
import Mathlib.Tactic.Linarith
import Px4Firmware.Mixer.Group

/-!
# Px4Firmware.Mixer.MultirotorRange

**The range of a multirotor mixer**, in exact arithmetic. The outputs of the rotors are scaled down
when the largest of them is too large, mapped from [0, 1] to [-1, 1], and kept out of the deadband.

The limiting is first described for any list of numbers (`limit`): it stays in range, and it is
monotone when the same amount is added to all of them, although the largest of them changes with
the others. Then the mixer is an instance of it (`outputs_eq`).
-/

namespace Px4Firmware.Mixer

open Px4Firmware.Lib

/-! ### Limiting a list of numbers -/

section

theorem foldl_max_spec {α : Type*} [LinearOrder α] (xs : List α) (a : α) :
    a ≤ xs.foldl max a ∧ (∀ x ∈ xs, x ≤ xs.foldl max a) ∧
      (xs.foldl max a = a ∨ xs.foldl max a ∈ xs) := by
  induction xs generalizing a with
  | nil => exact ⟨le_rfl, by simp, .inl rfl⟩
  | cons x xs ih =>
      obtain ⟨hstart, hall, hmem⟩ := ih (max a x)
      rw [List.foldl_cons]
      refine ⟨le_trans (le_max_left a x) hstart, ?_, ?_⟩
      · intro y hy
        rcases List.mem_cons.1 hy with rfl | hy
        · exact le_trans (le_max_right a y) hstart
        · exact hall y hy
      · rcases hmem with hmem | hmem
        · rw [hmem]
          rcases max_choice a x with hmax | hmax
          · exact .inl hmax
          · exact .inr (by rw [hmax]; exact List.mem_cons_self)
        · exact .inr (List.mem_cons_of_mem x hmem)

variable {K : Type*} [Field K] [LinearOrder K]

/-- The largest of the numbers, and at least zero. -/
def largest (xs : List K) : K := xs.foldl max 0

/-- A number as it is limited when this is the largest. -/
def limit (least largest x : K) : K :=
  max (-1 + x * if 1 < largest then 2 / largest else 2) least

theorem le_largest {xs : List K} {x : K} (hx : x ∈ xs) : x ≤ largest xs :=
  (foldl_max_spec xs 0).2.1 x hx

/-- When the largest is more than zero, it is one of the numbers. -/
theorem largest_mem {xs : List K} (h : 0 < largest xs) : largest xs ∈ xs := by
  rcases (foldl_max_spec xs 0).2.2 with hzero | hmem
  · exact absurd hzero (ne_of_gt h)
  · exact hmem

variable [IsStrictOrderedRing K]

/-- **The range.** -/
theorem limit_mem {least : K} (hleast : least ≤ 1) {xs : List K} {x : K} (hx : x ∈ xs) :
    least ≤ limit least (largest xs) x ∧ limit least (largest xs) x ≤ 1 := by
  have hle := le_largest hx
  refine ⟨le_max_right _ _, max_le ?_ hleast⟩
  split
  next hlarge =>
    have hpos : 0 < largest xs := lt_trans zero_lt_one hlarge
    have hscaled : x * (2 / largest xs) ≤ 2 := by
      rw [← mul_div_assoc, div_le_iff₀ hpos]
      linarith
    linarith
  next hlarge => linarith

/-- **Monotonicity.** When the same amount is added to all the numbers, each of them is limited to
at least what it was. -/
theorem limit_mono (least : K) {xs : List K} {x : K} (hx : x ∈ xs) {amount : K}
    (hamount : 0 ≤ amount) :
    limit least (largest xs) x ≤ limit least (largest (xs.map (· + amount))) (x + amount) := by
  have hle := le_largest hx
  refine max_le_max ?_ le_rfl
  by_cases hlarge' : 1 < largest (xs.map (· + amount))
  · -- The largest sum belongs to the largest of the numbers, which may be negative.
    obtain ⟨top, htop, hsum⟩ := List.mem_map.1 (largest_mem (lt_trans zero_lt_one hlarge'))
    have htople := le_largest htop
    have hxtop : x ≤ top := by
      have hxsum := le_largest (List.mem_map_of_mem (f := (· + amount)) hx)
      rw [← hsum] at hxsum
      exact le_of_add_le_add_right hxsum
    rw [if_pos hlarge', ← hsum]
    rw [← hsum] at hlarge'
    have hpos : 0 < top + amount := lt_trans zero_lt_one hlarge'
    by_cases hlarge : 1 < largest xs
    · have heq : top = largest xs := by
        refine le_antisymm htople ?_
        have hmax := le_largest (List.mem_map_of_mem (f := (· + amount))
          (largest_mem (lt_trans zero_lt_one hlarge)))
        rw [← hsum] at hmax
        exact le_of_add_le_add_right hmax
      have htoppos : 0 < top := by
        rw [heq]
        exact lt_trans zero_lt_one hlarge
      rw [if_pos hlarge, ← heq, ← mul_div_assoc, ← mul_div_assoc]
      refine add_le_add le_rfl ((div_le_div_iff₀ htoppos hpos).2 ?_)
      have hprod : 0 ≤ amount * (top - x) := mul_nonneg hamount (sub_nonneg.2 hxtop)
      linarith
    · rw [if_neg hlarge, ← mul_div_assoc]
      refine add_le_add le_rfl ((le_div_iff₀ hpos).2 ?_)
      have htop1 : top ≤ 1 := le_trans htople (not_lt.1 hlarge)
      -- x + amount - x (top + amount), with amount larger than 1 - top
      have hprod : 0 ≤ (amount - (1 - top)) * (1 - x) :=
        mul_nonneg (by linarith) (by linarith)
      linarith
  · have hlarge : ¬ 1 < largest xs := by
      intro hlarge
      have hmem := largest_mem (lt_trans zero_lt_one hlarge)
      have hmax := le_largest (List.mem_map_of_mem (f := (· + amount)) hmem)
      exact hlarge' (lt_of_lt_of_le hlarge (le_trans (le_add_of_nonneg_right hamount) hmax))
    rw [if_neg hlarge, if_neg hlarge']
    linarith

end

/-! ### The mixer -/

/-- The controls with an amount added to the thrust. -/
def raiseThrust (amount : Rat) (control : UInt8 → UInt8 → Rat) (group index : UInt8) : Rat :=
  if group = 0 ∧ index = 3 then control group index + amount else control group index

variable (control : UInt8 → UInt8 → Rat) (m : Multirotor Rat)

theorem fixupScale_eq : m.fixupScale control =
    if 1 < largest (m.rotorOutputs control) then 2 / largest (m.rotorOutputs control) else 2 := by
  have hmax : (fun max x : Rat => if max < x then x else max) = max := by
    funext a x
    exact (max_def_lt a x).symm
  unfold Multirotor.fixupScale largest
  dsimp only
  rw [hmax]
  norm_num

/-- **The outputs are limited**, each with regard to the largest. -/
theorem outputs_eq : m.outputs control =
    (m.rotorOutputs control).map (limit m.deadband (largest (m.rotorOutputs control))) := by
  unfold Multirotor.outputs
  refine List.map_congr_left fun x _ => ?_
  rw [fixupScale_eq]
  unfold limit
  rw [max_def_lt]
  norm_num

theorem rotorOutputs_raiseThrust (amount : Rat) :
    m.rotorOutputs (raiseThrust amount control) =
      (m.rotorOutputs control).map (· + amount) := by
  unfold Multirotor.rotorOutputs
  rw [List.map_map]
  refine List.map_congr_left fun rotor _ => ?_
  have hother : ∀ index, index ≠ 3 → raiseThrust amount control 0 index = control 0 index :=
    fun index hindex => if_neg fun h => hindex h.2
  have hthrust : raiseThrust amount control 0 3 = control 0 3 + amount := if_pos ⟨rfl, rfl⟩
  rw [hother 0 (by decide), hother 1 (by decide), hother 2 (by decide), hthrust]
  exact (add_assoc _ _ _).symm

variable {m}

/-- Each output, by the rotor that it belongs to. -/
theorem getElem_outputs {k : Nat} (hk : k < (m.outputs control).length) :
    ∃ x ∈ m.rotorOutputs control,
      (m.outputs control)[k] = limit m.deadband (largest (m.rotorOutputs control)) x ∧
      ∀ amount (hk' : k < (m.outputs (raiseThrust amount control)).length),
        (m.outputs (raiseThrust amount control))[k] =
          limit m.deadband (largest ((m.rotorOutputs control).map (· + amount))) (x + amount) := by
  have hk₀ : k < (m.rotorOutputs control).length := by
    rw [outputs_eq, List.length_map] at hk
    exact hk
  refine ⟨(m.rotorOutputs control)[k], List.getElem_mem hk₀, ?_, ?_⟩
  · simp only [outputs_eq, List.getElem_map]
  · intro amount hk'
    simp only [outputs_eq, rotorOutputs_raiseThrust, List.getElem_map]

/-- **The range of a multirotor mixer.** For every geometry and all controls and scales, every
output that is written is between -1 plus the deadband and 1, and more thrust decreases none. -/
theorem multirotorMix_in_range {deadband : Rat} (hdeadband : deadband ≤ 2) (geometry : Geometry)
    (rollScale pitchScale yawScale : Rat) (index space : Nat) (memory : Nat → Rat) :
    let m := multirotorMixer geometry rollScale pitchScale yawScale deadband
    let outputs := (multirotorMix control m index space (Buffer.fresh memory)).2
    (∀ i, outputs.written i = true → -1 + deadband ≤ outputs.value i ∧ outputs.value i ≤ 1) ∧
      ∀ amount, 0 ≤ amount → ∀ i, outputs.value i ≤
        (multirotorMix (raiseThrust amount control) m index space
          (Buffer.fresh memory)).2.value i := by
  intro m outputs
  have houtputs : outputs = (Buffer.fresh memory).put index (m.outputs control) := by
    show (multirotorMix control m index space (Buffer.fresh memory)).2 = _
    rw [multirotorMix_eq]
  have hleast : m.deadband = -1 + deadband := by
    show -1.0 + deadband = -1 + deadband
    norm_num
  constructor
  · intro i hi
    rw [houtputs, Buffer.written_put] at hi
    obtain ⟨hge, hlt⟩ := hi.resolve_right Bool.false_ne_true
    obtain ⟨k, rfl⟩ := Nat.exists_eq_add_of_le hge
    have hk : k < (m.outputs control).length := by omega
    obtain ⟨x, hx, hvalue, -⟩ := getElem_outputs control hk
    rw [houtputs, Buffer.value_put hk, hvalue, ← hleast]
    exact limit_mem (by linarith) hx
  · intro amount hamount i
    have hlength : (m.outputs (raiseThrust amount control)).length =
        (m.outputs control).length := by rw [length_outputs, length_outputs]
    rw [houtputs, multirotorMix_eq]
    by_cases hi : index ≤ i ∧ i < index + (m.outputs control).length
    · obtain ⟨hge, hlt⟩ := hi
      obtain ⟨k, rfl⟩ := Nat.exists_eq_add_of_le hge
      have hk : k < (m.outputs control).length := by omega
      have hk' : k < (m.outputs (raiseThrust amount control)).length := by omega
      obtain ⟨x, hx, hvalue, hraised⟩ := getElem_outputs control hk
      rw [Buffer.value_put hk, Buffer.value_put hk', hvalue, hraised]
      exact limit_mono m.deadband hx hamount
    · -- What is not written is the same.
      rcases Nat.lt_or_ge i index with hlt | hge
      · rw [Buffer.value_put_of_lt hlt, Buffer.value_put_of_lt hlt]
      · have hend : index + (m.outputs control).length ≤ i := by omega
        rw [Buffer.value_put_of_ge hend, Buffer.value_put_of_ge (by omega)]

/-- A quadrotor with all the controls at their ends: its largest output has to be limited. -/
theorem multirotorMix_in_range_quadX :
    let m : Multirotor Rat := multirotorMixer .quadX 1 1 1 (1 / 10)
    let outputs := (multirotorMix (fun _ _ => 1) m 0 4 (Buffer.fresh fun _ => 0)).2
    outputs.written 2 = true ∧ (-1 + 1 / 10 ≤ outputs.value 2 ∧ outputs.value 2 ≤ 1) ∧
      outputs.value 0 ≤ (multirotorMix (raiseThrust (1 / 2) fun _ _ => 1) m 0 4
        (Buffer.fresh fun _ => 0)).2.value 0 := by
  intro m outputs
  have hwritten : outputs.written 2 = true := by decide +kernel
  have hdeadband : (1 / 10 : Rat) ≤ 2 := by norm_num
  obtain ⟨hrange, hraised⟩ :=
    multirotorMix_in_range (fun _ _ => 1) hdeadband .quadX 1 1 1 0 4 fun _ => 0
  exact ⟨hwritten, hrange 2 hwritten, hraised (1 / 2) (by norm_num) 0⟩

end Px4Firmware.Mixer
