import Mathlib.Tactic.Linarith
import Mathlib.Tactic.Positivity
import Px4Firmware.Drivers.Ms5611
import Px4Firmware.Lib.CInt

/-!
# Px4Firmware.Drivers.Compensation

The numbers of the barometer driver (`MS5611::collect` in `ms5611.cpp`): the temperature and the
pressure, compensated with the constants of the PROM.

`collectTemperature` and `collectPressure` compute in the types of the source, and remember whether
a result left its type (`Lib.CInt`). `DataSheet` has the same formulas over the integers, with
floor division for the shifts. The two agree, and nothing overflows, exactly if the square of the
temperature difference fits in 32 bits wherever the second order is computed
(`measuresExactly_iff`): the square is taken before the shift, in the type of `dT`.
-/

namespace Px4Firmware.Drivers

open Px4Firmware.Lib

/-- `struct ms5611_prom_s`, the constants that `collect` reads. -/
structure Prom where
  c1PressureSens : UInt16
  c2PressureOffset : UInt16
  c3TempCoeffPresSens : UInt16
  c4TempCoeffPresOffset : UInt16
  c5ReferenceTemp : UInt16
  c6TempCoeffTemp : UInt16

/-- `_TEMP` (an `int32_t`), `_OFF` and `_SENS` (`int64_t`). -/
structure Compensation where
  temp : Int
  off : Int
  sens : Int
  deriving DecidableEq

/-- The three bytes of a conversion, most significant first. -/
structure Conversion where
  data0 : UInt8
  data1 : UInt8
  data2 : UInt8

/-- `raw`. -/
def Conversion.raw (c : Conversion) : Nat :=
  c.data0.toNat * 65536 + c.data1.toNat * 256 + c.data2.toNat

theorem Conversion.raw_lt (c : Conversion) : c.raw < 16777216 := by
  have h0 := c.data0.toNat_lt
  have h1 := c.data1.toNat_lt
  have h2 := c.data2.toNat_lt
  unfold Conversion.raw
  omega

/-! ### `MS5611::collect` -/

/-- `dT`. -/
def temperatureDifference (prom : Prom) (raw : Nat) : Computed Int := do
  let raw ← fit 32 raw
  let reference ← fit 32 (prom.c5ReferenceTemp.toNat <<< 8)
  fit 32 (raw - reference)

/-- `_TEMP`, `_SENS` and `_OFF` to the first order. -/
def firstOrder (prom : Prom) (dT : Int) : Computed Compensation := do
  let product ← fit 64 (dT * prom.c6TempCoeffTemp.toNat)
  let change ← fit 32 (product >>> (23 : Nat))
  let temp ← fit 32 (2000 + change)
  let sensBase ← fit 64 (prom.c1PressureSens.toNat <<< 15)
  let sensSlope ← fit 64 (prom.c3TempCoeffPresSens.toNat * dT)
  let sens ← fit 64 (sensBase + sensSlope >>> (8 : Nat))
  let offBase ← fit 64 (prom.c2PressureOffset.toNat <<< 16)
  let offSlope ← fit 64 (prom.c4TempCoeffPresOffset.toNat * dT)
  let off ← fit 64 (offBase + offSlope >>> (7 : Nat))
  return { temp, off, sens }

/-- `OFF2` and `SENS2` below -15 degrees. -/
def veryCold (temp off2 sens2 : Int) : Computed (Int × Int) := do
  let difference ← fit 32 (temp + 1500)
  let f2 ← fit 32 (difference * difference)
  let offProduct ← fit 64 (7 * f2)
  let off2 ← fit 64 (off2 + offProduct)
  let sensProduct ← fit 64 (11 * f2)
  let sens2 ← fit 64 (sens2 + sensProduct >>> (1 : Nat))
  return (off2, sens2)

/-- The compensation of the second order, below 20 degrees. -/
def secondOrder (dT : Int) (c : Compensation) : Computed Compensation := do
  let square ← fit 32 (dT * dT)
  let t2 := square >>> (31 : Nat)
  let difference ← fit 64 (c.temp - 2000)
  let f ← fit 64 (difference * difference)
  let product ← fit 64 (5 * f)
  let (off2, sens2) ←
    if c.temp < -1500 then veryCold c.temp (product >>> (1 : Nat)) (product >>> (2 : Nat))
    else pure (product >>> (1 : Nat), product >>> (2 : Nat))
  let temp ← fit 32 (c.temp - t2)
  let off ← fit 64 (c.off - off2)
  let sens ← fit 64 (c.sens - sens2)
  return { temp, off, sens }

/-- `collect` in the phase of the temperature. -/
def collectTemperature (prom : Prom) (raw : Nat) : Computed Compensation := do
  let dT ← temperatureDifference prom raw
  let c ← firstOrder prom dT
  if c.temp < 2000 then secondOrder dT c else pure c

/-- `P`, in the other phases. -/
def collectPressure (c : Compensation) (raw : Nat) : Computed Int := do
  let product ← fit 64 (raw * c.sens)
  let difference ← fit 64 (product >>> (21 : Nat) - c.off)
  fit 32 (difference >>> (15 : Nat))

/-- `collect`, when its transfer succeeds: the members it leaves, and the `P` it has computed. -/
def compensate (prom : Prom) (measurePhase : Nat) (conversion : Conversion) (c : Compensation) :
    Computed (Compensation × Option Int) :=
  if measurePhase = 0 then do
    let c ← collectTemperature prom conversion.raw
    return (c, none)
  else do
    let p ← collectPressure c conversion.raw
    return (c, some p)

/-- A measurement: a temperature, and a pressure in one of the phases after it. -/
def measure (prom : Prom) (measurePhase : Nat) (temperature pressure : Conversion)
    (before : Compensation) : Computed (Compensation × Option Int) := do
  let (c, _) ← compensate prom 0 temperature before
  compensate prom measurePhase pressure c

/-! ### The data sheet -/

namespace DataSheet

/-- The difference between the temperature and the reference. -/
def dT (prom : Prom) (raw : Nat) : Int := raw - prom.c5ReferenceTemp.toNat * 256

/-- The first order. -/
def firstOrder (prom : Prom) (dT : Int) : Compensation where
  temp := 2000 + dT * prom.c6TempCoeffTemp.toNat / 2 ^ 23
  off := prom.c2PressureOffset.toNat * 2 ^ 16 + prom.c4TempCoeffPresOffset.toNat * dT / 2 ^ 7
  sens := prom.c1PressureSens.toNat * 2 ^ 15 + prom.c3TempCoeffPresSens.toNat * dT / 2 ^ 8

/-- The second order, below 20 degrees and below -15 degrees. -/
def secondOrder (dT : Int) (c : Compensation) : Compensation where
  temp := c.temp - dT ^ 2 / 2 ^ 31
  off := c.off - (5 * (c.temp - 2000) ^ 2 / 2 +
    if c.temp < -1500 then 7 * (c.temp + 1500) ^ 2 else 0)
  sens := c.sens - (5 * (c.temp - 2000) ^ 2 / 2 ^ 2 +
    if c.temp < -1500 then 11 * (c.temp + 1500) ^ 2 / 2 else 0)

/-- The temperature, the offset and the sensitivity. -/
def compensation (prom : Prom) (raw : Nat) : Compensation :=
  let c := firstOrder prom (dT prom raw)
  if c.temp < 2000 then secondOrder (dT prom raw) c else c

/-- The pressure. -/
def pressure (c : Compensation) (raw : Nat) : Int :=
  (raw * c.sens / 2 ^ 21 - c.off) / 2 ^ 15

end DataSheet

/-- The compensation is exact: whatever the members held before, a measurement computes what the
data sheet says, and no result on the way leaves its type. -/
def MeasuresExactly (prom : Prom) (temperature pressure : Conversion) : Prop :=
  ∀ before measurePhase, measurePhase ≠ 0 →
    measure prom measurePhase temperature pressure before =
      pure (DataSheet.compensation prom temperature.raw,
        some (DataSheet.pressure (DataSheet.compensation prom temperature.raw) pressure.raw))

/-! ### What fits -/

/-- The product of a constant of the PROM and a temperature difference. -/
theorem coefficient_mul_bounds (c : UInt16) {dT : Int} (hlow : -16777216 ≤ dT)
    (hhigh : dT ≤ 16777216) :
    -1099511627776 ≤ (c.toNat : Int) * dT ∧ (c.toNat : Int) * dT ≤ 1099511627776 := by
  have hc : (c.toNat : Int) ≤ 65536 := by
    have := c.toNat_lt
    omega
  have hpos : 0 ≤ (c.toNat : Int) := Int.natCast_nonneg _
  constructor <;> nlinarith

theorem temperatureDifference_eq (prom : Prom) {raw : Nat} (hraw : raw < 16777216) :
    temperatureDifference prom raw = pure (DataSheet.dT prom raw) := by
  have hc := prom.c5ReferenceTemp.toNat_lt
  have hshift : prom.c5ReferenceTemp.toNat <<< 8 = prom.c5ReferenceTemp.toNat * 256 :=
    Nat.shiftLeft_eq _ _
  unfold temperatureDifference DataSheet.dT
  rw [hshift, fit_int32 (by omega) (by omega), pure_bind, fit_int32 (by omega) (by omega),
    pure_bind, fit_int32 (by omega) (by omega)]
  congr 1

theorem dT_bounds (prom : Prom) {raw : Nat} (hraw : raw < 16777216) :
    -16777216 ≤ DataSheet.dT prom raw ∧ DataSheet.dT prom raw ≤ 16777216 := by
  have hc := prom.c5ReferenceTemp.toNat_lt
  unfold DataSheet.dT
  omega

theorem firstOrder_eq (prom : Prom) {dT : Int} (hlow : -16777216 ≤ dT) (hhigh : dT ≤ 16777216) :
    firstOrder prom dT = pure (DataSheet.firstOrder prom dT) := by
  have h1 := prom.c1PressureSens.toNat_lt
  have h2 := prom.c2PressureOffset.toNat_lt
  have h3 := coefficient_mul_bounds prom.c3TempCoeffPresSens hlow hhigh
  have h4 := coefficient_mul_bounds prom.c4TempCoeffPresOffset hlow hhigh
  have h6 := coefficient_mul_bounds prom.c6TempCoeffTemp hlow hhigh
  rw [Int.mul_comm] at h6
  unfold firstOrder DataSheet.firstOrder
  simp only [Int.shiftRight_eq_div_pow, Nat.shiftLeft_eq]
  rw [fit_int64 (by omega) (by omega), pure_bind, fit_int32 (by omega) (by omega), pure_bind,
    fit_int32 (by omega) (by omega), pure_bind, fit_int64 (by omega) (by omega), pure_bind,
    fit_int64 (by omega) (by omega), pure_bind, fit_int64 (by omega) (by omega), pure_bind,
    fit_int64 (by omega) (by omega), pure_bind, fit_int64 (by omega) (by omega), pure_bind,
    fit_int64 (by omega) (by omega), pure_bind]
  congr 1

theorem firstOrder_temp_lt_iff (prom : Prom) (dT : Int) :
    (DataSheet.firstOrder prom dT).temp < 2000 ↔ dT < 0 ∧ prom.c6TempCoeffTemp ≠ 0 := by
  have hpos : 0 ≤ (prom.c6TempCoeffTemp.toNat : Int) := Int.natCast_nonneg _
  have hzero : prom.c6TempCoeffTemp = 0 ↔ (prom.c6TempCoeffTemp.toNat : Int) = 0 := by
    rw [← UInt16.toNat_inj]
    exact Int.natCast_eq_zero.symm
  have hneg : (DataSheet.firstOrder prom dT).temp < 2000 ↔
      dT * prom.c6TempCoeffTemp.toNat < 0 := by
    simp only [DataSheet.firstOrder]
    omega
  rw [hneg, Ne, hzero]
  constructor
  · intro h
    constructor
    · by_contra hdT
      exact absurd (mul_nonneg (not_lt.mp hdT) hpos) (not_le.mpr h)
    · intro hc
      simp [hc] at h
  · rintro ⟨hdT, hc⟩
    exact mul_neg_of_neg_of_pos hdT (lt_of_le_of_ne hpos (Ne.symm hc))

theorem firstOrder_bounds (prom : Prom) {dT : Int} (hlow : -16777216 ≤ dT)
    (hhigh : dT ≤ 16777216) :
    let c := DataSheet.firstOrder prom dT
    (-129072 ≤ c.temp ∧ c.temp ≤ 133072) ∧ (-8589934592 ≤ c.off ∧ c.off ≤ 12884901888) ∧
      (-4294967296 ≤ c.sens ∧ c.sens ≤ 6442450944) := by
  have h1 := prom.c1PressureSens.toNat_lt
  have h2 := prom.c2PressureOffset.toNat_lt
  have h3 := coefficient_mul_bounds prom.c3TempCoeffPresSens hlow hhigh
  have h4 := coefficient_mul_bounds prom.c4TempCoeffPresOffset hlow hhigh
  have h6 := coefficient_mul_bounds prom.c6TempCoeffTemp hlow hhigh
  rw [Int.mul_comm] at h6
  simp only [DataSheet.firstOrder]
  omega

theorem secondOrder_eq {dT : Int} {c : Compensation} (hlow : -46340 ≤ dT) (hhigh : dT ≤ 46340)
    (htemp : -1500 ≤ c.temp) (hcold : c.temp < 2000)
    (hoff : -8589934592 ≤ c.off ∧ c.off ≤ 12884901888)
    (hsens : -4294967296 ≤ c.sens ∧ c.sens ≤ 6442450944) :
    secondOrder dT c = pure (DataSheet.secondOrder dT c) := by
  have hsquare : dT * dT ≤ 2147395600 := by nlinarith
  have hpos : 0 ≤ dT * dT := mul_self_nonneg dT
  have hf : (c.temp - 2000) * (c.temp - 2000) ≤ 12250000 := by nlinarith
  have hfpos : 0 ≤ (c.temp - 2000) * (c.temp - 2000) := mul_self_nonneg _
  unfold secondOrder DataSheet.secondOrder
  simp only [Int.shiftRight_eq_div_pow, pow_two]
  rw [fit_int32 (by omega) (by omega), pure_bind, fit_int64 (by omega) (by omega), pure_bind,
    fit_int64 (by omega) (by omega), pure_bind, fit_int64 (by omega) (by omega), pure_bind,
    if_neg (by omega), pure_bind, fit_int32 (by omega) (by omega), pure_bind,
    fit_int64 (by omega) (by omega), pure_bind, fit_int64 (by omega) (by omega), pure_bind,
    if_neg (by omega), if_neg (by omega), add_zero, add_zero]
  congr 1

theorem collectPressure_eq {c : Compensation} {raw : Nat} (hraw : raw < 16777216)
    (hoff : -17179869184 ≤ c.off ∧ c.off ≤ 17179869184)
    (hsens : -17179869184 ≤ c.sens ∧ c.sens ≤ 17179869184) :
    collectPressure c raw = pure (DataSheet.pressure c raw) := by
  have hproduct : -288230376151711744 ≤ raw * c.sens ∧ raw * c.sens ≤ 288230376151711744 := by
    have : (raw : Int) ≤ 16777216 := by omega
    constructor <;> nlinarith
  unfold collectPressure DataSheet.pressure
  simp only [Int.shiftRight_eq_div_pow]
  rw [fit_int64 (by omega) (by omega), pure_bind, fit_int64 (by omega) (by omega), pure_bind,
    fit_int32 (by omega) (by omega)]
  congr 1

/-! ### When the compensation is exact -/

/-- The temperature difference that the second order can square. -/
def Squarable (prom : Prom) (temperature : Conversion) : Prop :=
  prom.c6TempCoeffTemp = 0 ∨ prom.c5ReferenceTemp.toNat * 256 ≤ temperature.raw + 46340

theorem squarable_iff (prom : Prom) (temperature : Conversion) :
    Squarable prom temperature ↔
      prom.c6TempCoeffTemp = 0 ∨ -46340 ≤ DataSheet.dT prom temperature.raw := by
  unfold Squarable DataSheet.dT
  apply or_congr_right
  omega

/-- Where the square fits, it is not very cold. -/
theorem firstOrder_temp_ge (prom : Prom) {dT : Int} (hlow : -46340 ≤ dT) :
    1600 ≤ (DataSheet.firstOrder prom dT).temp := by
  have hc := prom.c6TempCoeffTemp.toNat_lt
  have hproduct : -3036938240 ≤ dT * prom.c6TempCoeffTemp.toNat := by nlinarith
  simp only [DataSheet.firstOrder]
  omega

theorem compensation_bounds {prom : Prom} {temperature : Conversion}
    (hsquare : Squarable prom temperature) :
    let c := DataSheet.compensation prom temperature.raw
    (-17179869184 ≤ c.off ∧ c.off ≤ 17179869184) ∧
      (-17179869184 ≤ c.sens ∧ c.sens ≤ 17179869184) := by
  obtain ⟨hlow, hhigh⟩ := dT_bounds prom temperature.raw_lt
  obtain ⟨htemp, hoff, hsens⟩ := firstOrder_bounds prom hlow hhigh
  simp only [DataSheet.compensation]
  split
  · next hcold =>
    obtain ⟨-, hc⟩ := (firstOrder_temp_lt_iff prom _).mp hcold
    have hge := firstOrder_temp_ge prom
      (((squarable_iff prom temperature).mp hsquare).resolve_left hc)
    generalize DataSheet.firstOrder prom (DataSheet.dT prom temperature.raw) = c at *
    have hf : (c.temp - 2000) ^ 2 ≤ 160000 := by nlinarith
    have hfpos : 0 ≤ (c.temp - 2000) ^ 2 := sq_nonneg _
    simp only [DataSheet.secondOrder, if_neg (show ¬c.temp < -1500 by omega), add_zero]
    omega
  · exact ⟨⟨by omega, by omega⟩, by omega, by omega⟩

theorem collectTemperature_eq {prom : Prom} {temperature : Conversion}
    (hsquare : Squarable prom temperature) :
    collectTemperature prom temperature.raw =
      pure (DataSheet.compensation prom temperature.raw) := by
  obtain ⟨hlow, hhigh⟩ := dT_bounds prom temperature.raw_lt
  obtain ⟨-, hoff, hsens⟩ := firstOrder_bounds prom hlow hhigh
  unfold collectTemperature
  rw [temperatureDifference_eq prom temperature.raw_lt, pure_bind, firstOrder_eq prom hlow hhigh,
    pure_bind]
  simp only [DataSheet.compensation]
  split
  · next hcold =>
    obtain ⟨hneg, hc⟩ := (firstOrder_temp_lt_iff prom _).mp hcold
    have hdT := ((squarable_iff prom temperature).mp hsquare).resolve_left hc
    have hge := firstOrder_temp_ge prom hdT
    exact secondOrder_eq hdT (by omega) (by omega) hcold hoff hsens
  · rfl

theorem not_representable_square {dT : Int} (hlt : dT < -46340) :
    ¬Representable 32 (dT * dT) := by
  rintro ⟨-, hfits⟩
  have hsquare : 2147488281 ≤ dT * dT := by nlinarith
  norm_num at hfits
  omega

/-- Otherwise the square of the temperature difference leaves the 32 bits. -/
theorem collectTemperature_inexact {prom : Prom} {temperature : Conversion}
    (hsquare : ¬Squarable prom temperature) :
    (collectTemperature prom temperature.raw).exact = false := by
  obtain ⟨hlow, hhigh⟩ := dT_bounds prom temperature.raw_lt
  obtain ⟨hc, hdT⟩ := not_or.mp ((squarable_iff prom temperature).not.mp hsquare)
  have hcold := (firstOrder_temp_lt_iff prom (DataSheet.dT prom temperature.raw)).mpr
    ⟨by omega, hc⟩
  have hover := not_representable_square (show DataSheet.dT prom temperature.raw < -46340 by omega)
  unfold collectTemperature
  rw [temperatureDifference_eq prom temperature.raw_lt, pure_bind, firstOrder_eq prom hlow hhigh,
    pure_bind, if_pos hcold]
  unfold secondOrder
  rw [Computed.exact_bind, exact_fit, decide_eq_false hover, Bool.false_and]

/-- And the temperature that is left is not that of the data sheet. -/
theorem collectTemperature_temp_ne {prom : Prom} {temperature : Conversion}
    (hsquare : ¬Squarable prom temperature) :
    (collectTemperature prom temperature.raw).value.temp ≠
      (DataSheet.compensation prom temperature.raw).temp := by
  obtain ⟨hlow, hhigh⟩ := dT_bounds prom temperature.raw_lt
  obtain ⟨hc, hdT⟩ := not_or.mp ((squarable_iff prom temperature).not.mp hsquare)
  have hcold := (firstOrder_temp_lt_iff prom (DataSheet.dT prom temperature.raw)).mpr
    ⟨by omega, hc⟩
  obtain ⟨htemp, -, -⟩ := firstOrder_bounds prom hlow hhigh
  unfold collectTemperature
  rw [temperatureDifference_eq prom temperature.raw_lt, pure_bind, firstOrder_eq prom hlow hhigh,
    pure_bind, if_pos hcold]
  simp only [DataSheet.compensation, if_pos hcold]
  generalize DataSheet.firstOrder prom (DataSheet.dT prom temperature.raw) = c at *
  generalize DataSheet.dT prom temperature.raw = dT at *
  have hsquare : 2147488281 ≤ dT * dT := by nlinarith
  have hge : -2147483648 ≤ (dT * dT).bmod (2 ^ 32) := Int.le_bmod (by decide)
  have hlt : (dT * dT).bmod (2 ^ 32) < 2147483648 := Int.bmod_lt (by decide)
  have hshift : (dT * dT).bmod (2 ^ 32) >>> (31 : Nat) = (dT * dT).bmod (2 ^ 32) / 2147483648 :=
    Int.shiftRight_eq_div_pow _ 31
  have hfits : Representable 32 (c.temp - (dT * dT).bmod (2 ^ 32) >>> (31 : Nat)) := by
    constructor <;> omega
  have hvalue : (secondOrder dT c).value.temp =
      (c.temp - (dT * dT).bmod (2 ^ 32) >>> (31 : Nat)).bmod (2 ^ 32) := by
    simp only [secondOrder, Computed.value_bind]
    split <;> rfl
  rw [hvalue, bmod_of_representable (by decide) hfits, hshift]
  simp only [DataSheet.secondOrder, pow_two]
  omega

theorem measure_eq (prom : Prom) (temperature pressure : Conversion) (before : Compensation)
    {measurePhase : Nat} (hphase : measurePhase ≠ 0) :
    measure prom measurePhase temperature pressure before = (do
      let c ← collectTemperature prom temperature.raw
      let p ← collectPressure c pressure.raw
      return (c, some p)) := by
  unfold measure compensate
  rw [if_pos rfl, bind_assoc]
  congr 1
  funext c
  rw [pure_bind]
  exact if_neg hphase

/-- **When the compensation is exact**: where the reference temperature is at most 46340 units
above the raw temperature, or the PROM has no temperature coefficient. -/
theorem measuresExactly_iff (prom : Prom) (temperature pressure : Conversion) :
    MeasuresExactly prom temperature pressure ↔
      prom.c6TempCoeffTemp = 0 ∨ prom.c5ReferenceTemp.toNat * 256 ≤ temperature.raw + 46340 := by
  constructor
  · intro hexact
    by_contra hsquare
    have hpure := congrArg Computed.exact (hexact ⟨0, 0, 0⟩ 1 (by decide))
    rw [measure_eq prom temperature pressure _ (by decide)] at hpure
    simp [collectTemperature_inexact hsquare] at hpure
  · intro hsquare before measurePhase hphase
    have hbounds := compensation_bounds hsquare
    rw [measure_eq prom temperature pressure before hphase, collectTemperature_eq hsquare,
      pure_bind, collectPressure_eq pressure.raw_lt hbounds.1 hbounds.2, pure_bind]

/-- The PROM of the data sheet's example, two degrees below its reference temperature. -/
theorem cool_not_measuresExactly :
    ¬∀ prom temperature pressure, MeasuresExactly prom temperature pressure := by
  intro h
  have hexact := congrArg Computed.exact
    (h ⟨40127, 36924, 23317, 23282, 33464, 28312⟩ ⟨130, 2, 251⟩ ⟨138, 162, 27⟩ ⟨0, 0, 0⟩ 1
      (by decide))
  revert hexact
  decide

end Px4Firmware.Drivers
