import Mathlib.Algebra.Order.Field.Rat
import Mathlib.Algebra.Order.Field.Basic
import Mathlib.Tactic.Linarith

/-!
# Px4Firmware.Commander.BatteryEstimate

**The battery estimate** of the commander, `battery_remaining_estimate_voltage`: how far the voltage
is between the parameters `BAT_V_EMPTY` and `BAT_V_FULL`, over the rational numbers.

The function counts its calls, and reads the parameters in one call of 100. It reads them into
arrays that are its own, and that each call sets to the defaults, so the calls between two readings
estimate with the defaults. `followsParameters_iff` says when that makes no difference.
-/

namespace Px4Firmware.Commander

/-- `enum BAT_CHEM`. -/
inductive BatChem
  | lithiumPolymere
  deriving DecidableEq

/-- What `param_find` and `param_get` answer as long as no parameter is set. -/
structure BatteryTable where
  paramFind : String → Nat
  paramGet : Nat → Rat

namespace BatteryTable

/-- `BAT_V_EMPTY`. -/
def empty (table : BatteryTable) : Rat := table.paramGet (table.paramFind "BAT_V_EMPTY")

/-- `BAT_V_FULL`. -/
def full (table : BatteryTable) : Rat := table.paramGet (table.paramFind "BAT_V_FULL")

end BatteryTable

/-- The `static` variables of the function. -/
structure EstimateStatics where
  batVoltEmpty : Nat
  batVoltFull : Nat
  initialized : Bool
  counter : UInt32

/-- Before the first call. -/
def EstimateStatics.init : EstimateStatics where
  batVoltEmpty := 0
  batVoltFull := 0
  initialized := false
  counter := 0

/-- `3.2f`. -/
def defaultEmpty : Rat := 13421773 / 4194304

/-- `4.05f`. -/
def defaultFull : Rat := 4246733 / 1048576

/-- The handles of the parameters, looked up once. -/
def EstimateStatics.findParameters (table : BatteryTable) (s : EstimateStatics) :
    EstimateStatics :=
  if s.initialized then s
  else { s with
    batVoltEmpty := table.paramFind "BAT_V_EMPTY"
    batVoltFull := table.paramFind "BAT_V_FULL"
    initialized := true }

/-- Limit to sane values. -/
def limit (ret : Rat) : Rat :=
  let ret := if ret < 0 then 0 else ret
  if 1 < ret then 1 else ret

/-- Where the voltage is between those of empty and full cells. -/
def ratio (cells : Int) (voltage empty full : Rat) : Rat :=
  (voltage - cells * empty) / (cells * (full - empty))

/-- `battery_remaining_estimate_voltage`. -/
def batteryRemainingEstimateVoltage (table : BatteryTable) (cells : Int) (chemistry : BatChem)
    (voltage : Rat) (s : EstimateStatics) : Rat × EstimateStatics :=
  let s := s.findParameters table
  let chemistryVoltageEmpty : BatChem → Rat := fun _ => defaultEmpty
  let chemistryVoltageFull : BatChem → Rat := fun _ => defaultFull
  let chemistryVoltageEmpty :=
    if s.counter % 100 = 0 then
      Function.update chemistryVoltageEmpty .lithiumPolymere (table.paramGet s.batVoltEmpty)
    else chemistryVoltageEmpty
  let chemistryVoltageFull :=
    if s.counter % 100 = 0 then
      Function.update chemistryVoltageFull .lithiumPolymere (table.paramGet s.batVoltFull)
    else chemistryVoltageFull
  let ret := ratio cells voltage (chemistryVoltageEmpty chemistry) (chemistryVoltageFull chemistry)
  (limit ret, { s with counter := s.counter + 1 })

/-! ### Calls -/

/-- A call, for a battery with some cells. -/
structure EstimateCall where
  cells : Int
  chemistry : BatChem
  voltage : Rat
  cells_pos : 0 < cells

/-- What a sequence of calls returns. -/
def estimates (table : BatteryTable) : List EstimateCall → EstimateStatics → List Rat
  | [], _ => []
  | call :: calls, s =>
      let (ret, s) :=
        batteryRemainingEstimateVoltage table call.cells call.chemistry call.voltage s
      ret :: estimates table calls s

/-- What a call returns that is the `n`-th of its sequence, counted from 0. -/
def estimateAt (table : BatteryTable) (n : Nat) (call : EstimateCall) : Rat :=
  if UInt32.ofNat n % 100 = 0 then limit (ratio call.cells call.voltage table.empty table.full)
  else limit (ratio call.cells call.voltage defaultEmpty defaultFull)

/-- The static variables after `n` calls. -/
structure EstimateStatics.After (table : BatteryTable) (n : Nat) (s : EstimateStatics) :
    Prop where
  counter : s.counter = UInt32.ofNat n
  found : s.initialized = true →
    s.batVoltEmpty = table.paramFind "BAT_V_EMPTY" ∧ s.batVoltFull = table.paramFind "BAT_V_FULL"

theorem after_init (table : BatteryTable) : EstimateStatics.init.After table 0 where
  counter := rfl
  found h := absurd h (by decide)

variable {table : BatteryTable}

theorem findParameters_eq {n : Nat} {s : EstimateStatics} (h : s.After table n) :
    s.findParameters table =
      { batVoltEmpty := table.paramFind "BAT_V_EMPTY"
        batVoltFull := table.paramFind "BAT_V_FULL"
        initialized := true
        counter := UInt32.ofNat n } := by
  obtain ⟨hcounter, hfound⟩ := h
  unfold EstimateStatics.findParameters
  cases hinit : s.initialized with
  | false =>
      rw [← hcounter]
      rfl
  | true =>
      obtain ⟨hempty, hfull⟩ := hfound hinit
      rw [if_pos rfl, ← hcounter, ← hempty, ← hfull, ← hinit]

/-- One call. -/
theorem batteryRemainingEstimateVoltage_at {n : Nat} {s : EstimateStatics}
    (h : s.After table n) (call : EstimateCall) :
    let result := batteryRemainingEstimateVoltage table call.cells call.chemistry call.voltage s
    result.1 = estimateAt table n call ∧ result.2.After table (n + 1) := by
  simp only [batteryRemainingEstimateVoltage, findParameters_eq h]
  constructor
  · cases call.chemistry
    unfold estimateAt
    split <;> rfl
  · exact ⟨(UInt32.ofNat_add n 1).symm, fun _ => ⟨rfl, rfl⟩⟩

/-- A sequence of calls. -/
theorem getElem?_estimates (calls : List EstimateCall) {n : Nat} {s : EstimateStatics}
    (h : s.After table n) (k : Nat) :
    (estimates table calls s)[k]? = calls[k]?.map (estimateAt table (n + k)) := by
  induction calls generalizing n s k with
  | nil => rfl
  | cons call calls ih =>
      obtain ⟨hret, hafter⟩ := batteryRemainingEstimateVoltage_at h call
      cases k with
      | zero => exact congrArg some hret
      | succ k =>
          have hnext := ih hafter k
          rw [Nat.add_right_comm] at hnext
          exact hnext

/-! ### The law and its condition -/

/-- What the estimate says: the ratio, between 0 and 1. -/
def expected (table : BatteryTable) (call : EstimateCall) : Rat :=
  max 0 (min 1 (ratio call.cells call.voltage table.empty table.full))

/-- The law for a sequence of calls: each returns the ratio of the parameters, so that the same
voltage gives the same estimate and a greater voltage no smaller one. -/
structure FollowsParameters (table : BatteryTable) (calls : List EstimateCall) : Prop where
  each : estimates table calls .init = calls.map (expected table)
  equal : ∀ p ∈ calls.zip (estimates table calls .init),
    ∀ q ∈ calls.zip (estimates table calls .init),
    p.1.cells = q.1.cells → p.1.voltage = q.1.voltage → p.2 = q.2
  monotone : ∀ p ∈ calls.zip (estimates table calls .init),
    ∀ q ∈ calls.zip (estimates table calls .init),
    p.1.cells = q.1.cells → p.1.voltage ≤ q.1.voltage → p.2 ≤ q.2

/-- The voltage of a call is one for which the defaults and the parameters say the same: both say
empty, or both say full, or the two ratios are the same. -/
def SaysTheSame (table : BatteryTable) (call : EstimateCall) : Prop :=
  (call.voltage ≤ call.cells * table.empty ∧ call.voltage ≤ call.cells * defaultEmpty) ∨
    (call.cells * table.full ≤ call.voltage ∧ call.cells * defaultFull ≤ call.voltage) ∨
      (call.voltage - call.cells * table.empty) * (defaultFull - defaultEmpty) =
        (call.voltage - call.cells * defaultEmpty) * (table.full - table.empty)

instance (table : BatteryTable) (call : EstimateCall) : Decidable (SaysTheSame table call) :=
  inferInstanceAs (Decidable (_ ∨ _ ∨ _))

theorem limit_eq (ret : Rat) : limit ret = max 0 (min 1 ret) := by
  unfold limit
  rcases lt_or_ge ret 0 with hneg | hpos
  · rw [if_pos hneg, min_eq_right (by linarith), max_eq_left hneg.le]
    rfl
  · rw [if_neg (not_lt.mpr hpos)]
    rcases lt_or_ge 1 ret with hgt | hle
    · rw [if_pos hgt, min_eq_left hgt.le]
      rfl
    · rw [if_neg (not_lt.mpr hle), min_eq_right hle, max_eq_right hpos]

/-- When two limited ratios are the same. -/
theorem limit_eq_limit_iff (p q : Rat) :
    limit p = limit q ↔ p ≤ 0 ∧ q ≤ 0 ∨ 1 ≤ p ∧ 1 ≤ q ∨ p = q := by
  rw [limit_eq, limit_eq]
  grind

section

variable {cells : Int} {voltage empty full : Rat}

theorem ratio_nonpos_iff (hspan : 0 < cells * (full - empty)) :
    ratio cells voltage empty full ≤ 0 ↔ voltage ≤ cells * empty := by
  unfold ratio
  rw [div_le_iff₀ hspan, zero_mul, sub_nonpos]

theorem one_le_ratio_iff (hspan : 0 < cells * (full - empty)) :
    1 ≤ ratio cells voltage empty full ↔ cells * full ≤ voltage := by
  unfold ratio
  rw [le_div_iff₀ hspan, one_mul, mul_sub]
  constructor <;> intro h <;> linarith

theorem ratio_le_ratio (hspan : 0 < cells * (full - empty)) {w : Rat} (h : voltage ≤ w) :
    ratio cells voltage empty full ≤ ratio cells w empty full :=
  div_le_div_of_nonneg_right (sub_le_sub_right h _) hspan.le

end

theorem span_pos {cells : Int} (hcells : 0 < cells) {empty full : Rat} (hlt : empty < full) :
    0 < cells * (full - empty) :=
  mul_pos (Int.cast_pos.mpr hcells) (sub_pos.mpr hlt)

theorem defaultEmpty_lt : defaultEmpty < defaultFull := by norm_num [defaultEmpty, defaultFull]

theorem limit_ratio_eq_iff (hlt : table.empty < table.full) (call : EstimateCall) :
    limit (ratio call.cells call.voltage table.empty table.full) =
      limit (ratio call.cells call.voltage defaultEmpty defaultFull) ↔ SaysTheSame table call := by
  have hcells : (call.cells : Rat) ≠ 0 := Int.cast_ne_zero.mpr call.cells_pos.ne'
  have hspan := span_pos call.cells_pos hlt
  have hdefault := span_pos call.cells_pos defaultEmpty_lt
  have hratio : ratio call.cells call.voltage table.empty table.full =
      ratio call.cells call.voltage defaultEmpty defaultFull ↔
      (call.voltage - call.cells * table.empty) * (defaultFull - defaultEmpty) =
        (call.voltage - call.cells * defaultEmpty) * (table.full - table.empty) := by
    unfold ratio
    rw [div_eq_div_iff hspan.ne' hdefault.ne', mul_left_comm, mul_left_comm (_ - _),
      mul_right_inj' hcells]
  unfold SaysTheSame
  rw [limit_eq_limit_iff, ratio_nonpos_iff hspan, ratio_nonpos_iff hdefault,
    one_le_ratio_iff hspan, one_le_ratio_iff hdefault, hratio]

theorem estimateAt_eq_iff (hlt : table.empty < table.full) (n : Nat) (call : EstimateCall) :
    estimateAt table n call = expected table call ↔
      UInt32.ofNat n % 100 = 0 ∨ SaysTheSame table call := by
  unfold estimateAt expected
  rw [← limit_eq]
  split
  · next hread => simp [hread]
  · next hread => rw [eq_comm, limit_ratio_eq_iff hlt, or_iff_right hread]

theorem estimates_eq_iff (hlt : table.empty < table.full) (calls : List EstimateCall) :
    estimates table calls .init = calls.map (expected table) ↔
      ∀ n call, calls[n]? = some call → UInt32.ofNat n % 100 = 0 ∨ SaysTheSame table call := by
  rw [List.ext_getElem?_iff]
  refine forall_congr' fun n => ?_
  rw [getElem?_estimates calls (after_init table), Nat.zero_add, List.getElem?_map]
  cases calls[n]? with
  | none => simp
  | some call => simp [estimateAt_eq_iff hlt]

theorem expected_le (hlt : table.empty < table.full) {c d : EstimateCall}
    (hcells : c.cells = d.cells) (h : c.voltage ≤ d.voltage) :
    expected table c ≤ expected table d := by
  unfold expected
  rw [hcells]
  exact max_le_max_left 0 (min_le_min_left 1 (ratio_le_ratio (span_pos d.cells_pos hlt) h))

/-- **When the estimate follows the parameters**: in every call of the sequence the parameters are
read, or the voltage is one for which the defaults say the same. -/
theorem followsParameters_iff (hlt : table.empty < table.full) (calls : List EstimateCall) :
    FollowsParameters table calls ↔
      ∀ n call, calls[n]? = some call → UInt32.ofNat n % 100 = 0 ∨ SaysTheSame table call := by
  rw [← estimates_eq_iff hlt]
  refine ⟨FollowsParameters.each, fun heach => ?_⟩
  have hzip : ∀ p ∈ calls.zip (estimates table calls .init), p.2 = expected table p.1 := by
    intro p hp
    have hpairs : calls.zip (calls.map (expected table)) =
        calls.map fun call => (call, expected table call) := by
      simpa using List.zip_map' (l := calls) (f := id) (g := expected table)
    rw [heach, hpairs] at hp
    obtain ⟨call, -, rfl⟩ := List.mem_map.mp hp
    rfl
  have hmono : ∀ p ∈ calls.zip (estimates table calls .init),
      ∀ q ∈ calls.zip (estimates table calls .init),
      p.1.cells = q.1.cells → p.1.voltage ≤ q.1.voltage → p.2 ≤ q.2 := by
    intro p hp q hq hcells hle
    rw [hzip p hp, hzip q hq]
    exact expected_le hlt hcells hle
  exact {
    each := heach
    equal := fun p hp q hq hcells heq =>
      le_antisymm (hmono p hp q hq hcells heq.le) (hmono q hq p hp hcells.symm heq.ge)
    monotone := hmono }

/-- Parameters other than the defaults. -/
def ownTable : BatteryTable where
  paramFind name := if name = "BAT_V_EMPTY" then 0 else 1
  paramGet param := if param = 0 then 3 else 4

/-- A battery of three cells at half their range. -/
def halfFull : EstimateCall where
  cells := 3
  chemistry := .lithiumPolymere
  voltage := 21 / 2
  cells_pos := by decide

/-- The first call reads the parameters. -/
theorem first_call_followsParameters : FollowsParameters ownTable [halfFull] := by
  refine (followsParameters_iff (by decide) [halfFull]).mpr fun n call h => ?_
  cases n with
  | zero => exact .inl rfl
  | succ n => exact absurd h (by simp)

/-- The second call estimates with the defaults. -/
theorem second_call_not_followsParameters :
    ¬∀ (table : BatteryTable) (calls : List EstimateCall), table.empty < table.full →
      FollowsParameters table calls := by
  intro h
  have heach := (h ownTable [halfFull, halfFull] (by decide)).each
  have hsecond := (estimates_eq_iff (by decide) [halfFull, halfFull]).mp heach 1 halfFull rfl
  rcases hsecond with hread | hsame
  · exact absurd hread (by decide)
  · exact absurd hsame (by decide +kernel)

end Px4Firmware.Commander
