import Mathlib.Algebra.Order.Field.Rat
import Mathlib.Data.Rat.Floor
import Mathlib.Tactic.NormNum
import Mathlib.Tactic.Ring
import Mathlib.Tactic.Linarith
import Mathlib.Tactic.SplitIfs
import Px4Firmware.Lib.CFloat

/-!
# Px4Firmware.ArDrone.MotorControl

**The motor commands of the AR.Drone** (`ardrone_motor_control.c`), in exact arithmetic. The
controls are mixed, limited to a band around the thrust, scaled to the range of the motors, and
packed into fields of nine bits.

The last limit is 512, which is 0 in nine bits. For a thrust of at most 1 nothing reaches it; the
thrust is not limited, though. `motors_in_range_iff` says for which thrusts it is reached.

A number that does not fit into 16 bits is converted to one that does in a way that C leaves open
(`ToUInt16`). What is said here is said for all ways.
-/

namespace Px4Firmware.ArDrone

open Px4Firmware.Lib

/-! ### Mixing -/

/-- The controls of an actuator control vector. -/
structure Controls where
  roll : Rat
  pitch : Rat
  yaw : Rat
  thrust : Rat

/-- `min_thrust`. -/
def minThrust : Rat := 1 / 50

/-- `max_thrust`. -/
def maxThrust : Rat := 1

/-- `scaling`: 512 leads to cutoff. -/
def scaling : Rat := 500

/-- `band_factor`. -/
def bandFactor : Rat := 3 / 4

/-- `startpoint_full_control`. -/
def startpointFullControl : Rat := 1 / 4

/-- `motor_thrust`, not less than the minimum. -/
def motorThrust (thrust : Rat) : Rat := if thrust ≤ minThrust then minThrust else thrust

/-- `output_band`. -/
def outputBand (thrust : Rat) : Rat :=
  if thrust ≤ minThrust then 0
  else if thrust < startpointFullControl ∧ minThrust < thrust then bandFactor * (thrust - minThrust)
  else if startpointFullControl ≤ thrust ∧ thrust < maxThrust - bandFactor * startpointFullControl
    then bandFactor * startpointFullControl
  else if maxThrust - bandFactor * startpointFullControl ≤ thrust
    then bandFactor * (maxThrust - thrust)
  else 0

/-- `motor_calc`: front, right, back and left. -/
def motorCalc (c : Controls) (thrust yaw : Rat) : Fin 4 → Rat
  | 0 => thrust + (c.roll / 2 + c.pitch / 2 - yaw)
  | 1 => thrust + (-c.roll / 2 + c.pitch / 2 + yaw)
  | 2 => thrust + (-c.roll / 2 - c.pitch / 2 - yaw)
  | 3 => thrust + (c.roll / 2 - c.pitch / 2 + yaw)

/-- A motor within the limits, the lower one first. -/
def limitMotor (low high x : Rat) : Rat :=
  let x := if x < low then low else x
  if high < x then high else x

/-- `(uint16_t)x`: the fraction is discarded. If what remains does not fit into 16 bits, the result
is undefined; it is any value here. -/
structure ToUInt16 where
  convert : Rat → UInt16
  truncates : ∀ x, 0 ≤ CFloat.truncate x → CFloat.truncate x < 65536 →
    (convert x).toNat = (CFloat.truncate x).toNat

section

variable (conv : ToUInt16)

/-- The scaling to the range of the motors. -/
def scaleMotor (x : Rat) : UInt16 :=
  let minGas := minThrust * scaling
  let maxGas := maxThrust * scaling
  conv.convert (x * (maxGas - minGas) + minGas)

/-- The failsafe logic: a motor keeps spinning, and does not overflow. -/
def failsafe (pwm : UInt16) : UInt16 :=
  let pwm := if 0 < pwm then pwm else 10
  -- 512 has no place in the nine bits of the packet.
  if pwm ≤ 512 then pwm else 512

/-- The motor values. Outside of the band the yaw counts half. -/
def mixing (c : Controls) (i : Fin 4) : UInt16 :=
  let thrust := motorThrust c.thrust
  let band := outputBand c.thrust
  let motor := motorCalc c thrust c.yaw
  let inBand := ∀ i, motor i < thrust + band ∧ thrust - band < motor i
  let motor := if inBand then motor else motorCalc c thrust (c.yaw * (1 / 2))
  failsafe (scaleMotor conv (limitMotor (thrust - band) (thrust + band) (motor i)))

end

/-! ### The packet -/

/-- `bytes[1]` and `bytes[0]` of a motor's value, shifted to its place. -/
def motorBytes (motor shift : UInt16) : UInt8 × UInt8 :=
  let value := (motor &&& (0x1ff : UInt16)) <<< shift
  ((value >>> (8 : UInt16)).toUInt8, value.toUInt8)

/-- `ar_get_motor_packet`. -/
def arGetMotorPacket (motor : Fin 4 → UInt16) : List UInt8 :=
  let motor1 := motorBytes (motor 0) 4
  let motor2 := motorBytes (motor 1) 3
  let motor3 := motorBytes (motor 2) 2
  let motor4 := motorBytes (motor 3) 1
  [0x20 ||| motor1.1, motor1.2 ||| motor2.1, motor2.2 ||| motor3.1, motor3.2 ||| motor4.1, motor4.2]

/-- What is written to the motors, and what is published. -/
structure Sent where
  packet : List UInt8
  outputs : Fin 4 → UInt16

/-- `ardrone_write_motor_commands`. The time of the last command is never set. -/
def ardroneWriteMotorCommands (now : UInt64) (motor : Fin 4 → UInt16) : Option Sent :=
  if 4900 < now - 0 then some ⟨arGetMotorPacket motor, motor⟩ else none

/-- `ardrone_mixing_and_output`. -/
def ardroneMixingAndOutput (conv : ToUInt16) (now : UInt64) (c : Controls) : Option Sent :=
  ardroneWriteMotorCommands now (mixing conv c)

/-! ### The law -/

/-- The bits of a packet, as a number. -/
def packetBits (packet : List UInt8) : Nat :=
  packet.foldl (fun bits byte => bits * 256 + byte.toNat) 0

/-- The first three bits. -/
def startCode (packet : List UInt8) : Nat := packetBits packet / 137438953472

/-- The nine bits of a motor. -/
def motorField (packet : List UInt8) : Fin 4 → Nat
  | 0 => packetBits packet / 268435456 % 512
  | 1 => packetBits packet / 524288 % 512
  | 2 => packetBits packet / 1024 % 512
  | 3 => packetBits packet / 2 % 512

/-- The law: what is sent is five bytes with the start code, in which each motor has the value that
is passed on, and that value is in range. -/
structure InRange (sent : Sent) : Prop where
  length : sent.packet.length = 5
  start : startCode sent.packet = 1
  decoded : ∀ i, motorField sent.packet i = (sent.outputs i).toNat
  range : ∀ i, 10 ≤ motorField sent.packet i ∧ motorField sent.packet i ≤ 511

/-! ### The packet, decoded -/

theorem toNat_motorBytes (motor : UInt16) (shift : UInt16) (h : shift.toNat ≤ 7) :
    (motorBytes motor shift).1.toNat = motor.toNat % 512 * 2 ^ shift.toNat / 256 ∧
      (motorBytes motor shift).2.toNat = motor.toNat % 512 * 2 ^ shift.toNat % 256 := by
  have hmask : motor.toNat &&& 511 = motor.toNat % 512 := Nat.and_two_pow_sub_one_eq_mod _ 9
  -- No bit of the nine is shifted out.
  have hlt : motor.toNat % 512 * 2 ^ shift.toNat < 65536 := by
    have hfield : motor.toNat % 512 ≤ 511 := by omega
    have hpow : 2 ^ shift.toNat ≤ 2 ^ 7 := Nat.pow_le_pow_right (by decide) h
    calc motor.toNat % 512 * 2 ^ shift.toNat ≤ 511 * 2 ^ 7 := Nat.mul_le_mul hfield hpow
      _ < 65536 := by decide
  have hvalue : ((motor &&& (0x1ff : UInt16)) <<< shift).toNat =
      motor.toNat % 512 * 2 ^ shift.toNat := by
    rw [UInt16.toNat_shiftLeft, UInt16.toNat_and, Nat.mod_eq_of_lt (show shift.toNat < 16 by omega),
      Nat.shiftLeft_eq]
    exact (congrArg (· * 2 ^ shift.toNat % 65536) hmask).trans (Nat.mod_eq_of_lt hlt)
  simp only [motorBytes]
  generalize (motor &&& (0x1ff : UInt16)) <<< shift = value at hvalue ⊢
  rw [← hvalue]
  have hsize := value.toNat_lt
  constructor
  · simp [Nat.shiftRight_eq_div_pow]
    omega
  · simp

/-- Bits above and bits below. -/
theorem toNat_or_of_disjoint (high low : UInt8) (k : Nat) (hhigh : high.toNat % 2 ^ k = 0)
    (hlow : low.toNat < 2 ^ k) : (high ||| low).toNat = high.toNat + low.toNat := by
  obtain ⟨rest, hrest⟩ := Nat.dvd_of_mod_eq_zero hhigh
  rw [UInt8.toNat_or, hrest, Nat.two_pow_add_eq_or_of_lt hlow]

/-- The bits of a packet are the start code and the fields. -/
theorem packetBits_arGetMotorPacket (motor : Fin 4 → UInt16) :
    packetBits (arGetMotorPacket motor) = 137438953472 + (motor 0).toNat % 512 * 268435456 +
      (motor 1).toNat % 512 * 524288 + (motor 2).toNat % 512 * 1024 +
      (motor 3).toNat % 512 * 2 := by
  obtain ⟨hhigh1, hlow1⟩ := toNat_motorBytes (motor 0) 4 (by decide)
  obtain ⟨hhigh2, hlow2⟩ := toNat_motorBytes (motor 1) 3 (by decide)
  obtain ⟨hhigh3, hlow3⟩ := toNat_motorBytes (motor 2) 2 (by decide)
  obtain ⟨hhigh4, hlow4⟩ := toNat_motorBytes (motor 3) 1 (by decide)
  have hshift4 : 2 ^ (4 : UInt16).toNat = 16 := by decide
  have hshift3 : 2 ^ (3 : UInt16).toNat = 8 := by decide
  have hshift2 : 2 ^ (2 : UInt16).toNat = 4 := by decide
  have hshift1 : 2 ^ (1 : UInt16).toNat = 2 := by decide
  rw [hshift4] at hhigh1 hlow1
  rw [hshift3] at hhigh2 hlow2
  rw [hshift2] at hhigh3 hlow3
  rw [hshift1] at hhigh4 hlow4
  -- A byte has the last bits of one field and the first ones of the next.
  have hbyte0 := toNat_or_of_disjoint 0x20 (motorBytes (motor 0) 4).1 5 (by decide) (by omega)
  have hbyte1 := toNat_or_of_disjoint (motorBytes (motor 0) 4).2 (motorBytes (motor 1) 3).1 4
    (by omega) (by omega)
  have hbyte2 := toNat_or_of_disjoint (motorBytes (motor 1) 3).2 (motorBytes (motor 2) 2).1 3
    (by omega) (by omega)
  have hbyte3 := toNat_or_of_disjoint (motorBytes (motor 2) 2).2 (motorBytes (motor 3) 1).1 2
    (by omega) (by omega)
  simp only [packetBits, arGetMotorPacket, List.foldl_cons, List.foldl_nil, hbyte0, hbyte1, hbyte2,
    hbyte3]
  have hstart : (0x20 : UInt8).toNat = 32 := by decide
  omega

theorem startCode_arGetMotorPacket (motor : Fin 4 → UInt16) :
    startCode (arGetMotorPacket motor) = 1 := by
  rw [startCode, packetBits_arGetMotorPacket]
  omega

theorem motorField_arGetMotorPacket (motor : Fin 4 → UInt16) (i : Fin 4) :
    motorField (arGetMotorPacket motor) i = (motor i).toNat % 512 := by
  match i with
  | 0 | 1 | 2 | 3 =>
      simp only [motorField, packetBits_arGetMotorPacket]
      omega

/-- What is sent is in range exactly if the values are. -/
theorem inRange_iff (motor : Fin 4 → UInt16) :
    InRange ⟨arGetMotorPacket motor, motor⟩ ↔
      ∀ i, 10 ≤ (motor i).toNat ∧ (motor i).toNat ≤ 511 := by
  constructor
  · intro hsent i
    rw [← hsent.decoded i]
    exact hsent.range i
  · intro hrange
    have hdecoded i : motorField (arGetMotorPacket motor) i = (motor i).toNat := by
      rw [motorField_arGetMotorPacket, Nat.mod_eq_of_lt (Nat.lt_succ_of_le (hrange i).2)]
    exact ⟨rfl, startCode_arGetMotorPacket motor, hdecoded,
      fun i => by rw [hdecoded i]; exact hrange i⟩

/-! ### The values -/

theorem limitMotor_mem {low high x : Rat} (h : low ≤ high) :
    low ≤ limitMotor low high x ∧ limitMotor low high x ≤ high := by
  simp only [limitMotor]
  split_ifs <;> constructor <;> linarith

/-- Limits that are the wrong way round: the upper one is applied last. -/
theorem limitMotor_of_lt {low high x : Rat} (h : high < low) : limitMotor low high x = high := by
  simp only [limitMotor]
  split_ifs <;> first | rfl | linarith

theorem truncate_of_nonneg {x : Rat} (h : 0 ≤ x) : CFloat.truncate x = ⌊x⌋ := by
  rw [CFloat.truncate, Rat.floor_def', Int.tdiv_eq_ediv_of_nonneg (Rat.num_nonneg.2 h)]

section

variable (conv : ToUInt16)

/-- A conversion of a number that fits rounds down. -/
theorem toUInt16_bounds {x : Rat} {a b : Nat} (hlow : (a : Rat) ≤ x) (hhigh : x < b)
    (hb : b ≤ 65536) : a ≤ (conv.convert x).toNat ∧ (conv.convert x).toNat < b := by
  have hnonneg : 0 ≤ x := le_trans (Nat.cast_nonneg a) hlow
  have hfloor : (a : Int) ≤ ⌊x⌋ := Int.le_floor.2 (by exact_mod_cast hlow)
  have hceil : ⌊x⌋ < (b : Int) := Int.floor_lt.2 (by exact_mod_cast hhigh)
  have htruncate := truncate_of_nonneg hnonneg
  rw [conv.truncates x (by omega) (by omega), htruncate]
  omega

/-- The value for a number in the range of the motors. -/
theorem scaleMotor_bounds {x : Rat} (hlow : 1 / 50 ≤ x) (hhigh : x < 251 / 245) :
    10 ≤ (scaleMotor conv x).toNat ∧ (scaleMotor conv x).toNat ≤ 511 := by
  have hbounds : 10 ≤ (scaleMotor conv x).toNat ∧ (scaleMotor conv x).toNat < 512 := by
    refine toUInt16_bounds conv ?_ ?_ (by decide)
    · norm_num [minThrust, maxThrust, scaling]
      linarith
    · norm_num [minThrust, maxThrust, scaling]
      linarith
  exact ⟨hbounds.1, Nat.le_of_lt_succ hbounds.2⟩

/-- The failsafe logic leaves a value in range only for zero and for one in range. -/
theorem failsafe_mem_iff (pwm : UInt16) :
    10 ≤ (failsafe pwm).toNat ∧ (failsafe pwm).toNat ≤ 511 ↔
      pwm.toNat = 0 ∨ 10 ≤ pwm.toNat ∧ pwm.toNat ≤ 511 := by
  by_cases hzero : pwm.toNat = 0
  · have hpwm : pwm = 0 := UInt16.toNat_inj.1 hzero
    rw [hpwm]
    decide
  have hpos : 0 < pwm := UInt16.lt_iff_toNat_lt.2 (by simp; omega)
  by_cases hle : pwm ≤ 512
  · have hnat : pwm.toNat ≤ 512 := UInt16.le_iff_toNat_le.1 hle
    simp only [failsafe, if_pos hpos, if_pos hle]
    omega
  · have hnat : 512 < pwm.toNat := Nat.not_le.1 fun h => hle (UInt16.le_iff_toNat_le.2 h)
    have hlimit : (512 : UInt16).toNat = 512 := by decide
    simp only [failsafe, if_pos hpos, if_neg hle, hlimit]
    omega

/-- The four parts of the range of the thrust. -/
theorem outputBand_cases (thrust : Rat) :
    (thrust ≤ 1 / 50 ∧ motorThrust thrust = 1 / 50 ∧ outputBand thrust = 0) ∨
    (1 / 50 < thrust ∧ thrust < 1 / 4 ∧ motorThrust thrust = thrust ∧
      outputBand thrust = 3 / 4 * (thrust - 1 / 50)) ∨
    (1 / 4 ≤ thrust ∧ thrust < 13 / 16 ∧ motorThrust thrust = thrust ∧
      outputBand thrust = 3 / 16) ∨
    (13 / 16 ≤ thrust ∧ motorThrust thrust = thrust ∧
      outputBand thrust = 3 / 4 * (1 - thrust)) := by
  have hfull : bandFactor * startpointFullControl = 3 / 16 := by
    norm_num [bandFactor, startpointFullControl]
  have hend : maxThrust - 3 / 16 = 13 / 16 := by norm_num [maxThrust]
  simp only [outputBand, motorThrust, hfull, hend]
  rcases le_or_gt thrust minThrust with hmin | hmin
  · rw [if_pos hmin, if_pos hmin]
    exact .inl ⟨hmin, rfl, rfl⟩
  rw [if_neg (not_le.2 hmin), if_neg (not_le.2 hmin)]
  rcases lt_or_ge thrust startpointFullControl with hstart | hstart
  · rw [if_pos ⟨hstart, hmin⟩]
    exact .inr (.inl ⟨hmin, hstart, rfl, rfl⟩)
  rw [if_neg fun h => absurd h.1 (not_lt.2 hstart)]
  rcases lt_or_ge thrust (13 / 16) with hmiddle | hmiddle
  · rw [if_pos ⟨hstart, hmiddle⟩]
    exact .inr (.inr (.inl ⟨hstart, hmiddle, rfl, rfl⟩))
  · rw [if_neg fun h => absurd h.2 (not_lt.2 hmiddle), if_pos hmiddle]
    exact .inr (.inr (.inr ⟨hmiddle, rfl, rfl⟩))

/-- Around a thrust that is not too large there is a band, with numbers in the range of the
motors. -/
theorem band_bounds {thrust : Rat} (h : thrust ≤ 1) :
    0 ≤ outputBand thrust ∧ 1 / 50 ≤ motorThrust thrust - outputBand thrust ∧
      motorThrust thrust + outputBand thrust ≤ 1 := by
  obtain ⟨hmin, hthrust, hband⟩ | ⟨hlow, hhigh, hthrust, hband⟩ | ⟨hlow, hhigh, hthrust, hband⟩ |
    ⟨hlow, hthrust, hband⟩ := outputBand_cases thrust
  all_goals
    rw [hthrust, hband]
    refine ⟨?_, ?_, ?_⟩ <;> linarith

/-- Around a thrust of more than 1 the band is the wrong way round. -/
theorem band_of_one_lt {thrust : Rat} (h : 1 < thrust) :
    outputBand thrust < 0 ∧
      motorThrust thrust + outputBand thrust = thrust / 4 + 3 / 4 := by
  obtain ⟨hmin, -⟩ | ⟨-, hhigh, -⟩ | ⟨-, hhigh, -⟩ | ⟨-, hthrust, hband⟩ := outputBand_cases thrust
  · linarith
  · linarith
  · linarith
  · rw [hthrust, hband]
    constructor <;> linarith

/-- The number that all motors are scaled from, with such a thrust. -/
def fullThrust (thrust : Rat) : Rat := thrust / 4 + 3 / 4

theorem mixing_of_one_lt (c : Controls) (h : 1 < c.thrust) (i : Fin 4) :
    mixing conv c i = failsafe (scaleMotor conv (fullThrust c.thrust)) := by
  obtain ⟨hband, hsum⟩ := band_of_one_lt h
  rw [mixing, limitMotor_of_lt (by linarith), hsum, fullThrust]

theorem mixing_of_le_one (c : Controls) (h : c.thrust ≤ 1) (i : Fin 4) :
    10 ≤ (mixing conv c i).toNat ∧ (mixing conv c i).toNat ≤ 511 := by
  obtain ⟨hband, hlow, hhigh⟩ := band_bounds h
  have hlimits : motorThrust c.thrust - outputBand c.thrust ≤
      motorThrust c.thrust + outputBand c.thrust := by linarith
  obtain ⟨x, hx⟩ : ∃ x, mixing conv c i = failsafe (scaleMotor conv (limitMotor
      (motorThrust c.thrust - outputBand c.thrust) (motorThrust c.thrust + outputBand c.thrust)
      x)) := ⟨_, rfl⟩
  obtain ⟨hge, hle⟩ := limitMotor_mem (x := x) hlimits
  rw [hx]
  exact (failsafe_mem_iff _).2 (.inr (scaleMotor_bounds conv (by linarith) (by linarith)))

/-- A thrust that is less than this much over 1 keeps the motors in range, whatever the conversion
makes of numbers that do not fit. -/
theorem mixing_of_lt (c : Controls) (h : c.thrust < 269 / 245) (i : Fin 4) :
    10 ≤ (mixing conv c i).toNat ∧ (mixing conv c i).toNat ≤ 511 := by
  rcases le_or_gt c.thrust 1 with hone | hone
  · exact mixing_of_le_one conv c hone i
  · rw [mixing_of_one_lt conv c hone]
    refine (failsafe_mem_iff _).2 (.inr (scaleMotor_bounds conv ?_ ?_))
    · rw [fullThrust]
      linarith
    · rw [fullThrust]
      linarith

end

/-- The conversion that gives 512 for what does not fit. -/
def overflowing : ToUInt16 where
  convert x :=
    if 0 ≤ CFloat.truncate x ∧ CFloat.truncate x < 65536 then UInt16.ofNat (CFloat.truncate x).toNat
    else 512
  truncates x hlow hhigh := by
    rw [if_pos ⟨hlow, hhigh⟩, UInt16.toNat_ofNat']
    omega

/-- With this conversion nothing from 512 on becomes less than 512. -/
theorem overflowing_ge {x : Rat} (h : 512 ≤ x) : 512 ≤ (overflowing.convert x).toNat := by
  have hfloor : (512 : Int) ≤ ⌊x⌋ := Int.le_floor.2 (by exact_mod_cast h)
  have htruncate := truncate_of_nonneg (show 0 ≤ x by linarith)
  simp only [overflowing]
  split_ifs with hfits
  · rw [UInt16.toNat_ofNat']
    omega
  · decide

/-- From this thrust on the motors can get 512. -/
theorem mixing_of_ge (c : Controls) (h : 269 / 245 ≤ c.thrust) (i : Fin 4) :
    ¬(10 ≤ (mixing overflowing c i).toNat ∧ (mixing overflowing c i).toNat ≤ 511) := by
  have hfull : 512 ≤ (scaleMotor overflowing (fullThrust c.thrust)).toNat := by
    refine overflowing_ge ?_
    norm_num [fullThrust, minThrust, maxThrust, scaling]
    linarith
  rw [mixing_of_one_lt overflowing c (by linarith), failsafe_mem_iff]
  omega

/-- **The motor commands.** The packet that is sent has the values of the motors, and these are in
range, for all conversions of numbers that do not fit, exactly for these thrusts. -/
theorem motors_in_range_iff (now : UInt64) (c : Controls) :
    (∀ conv sent, ardroneMixingAndOutput conv now c = some sent → InRange sent) ↔
      now ≤ 4900 ∨ c.thrust < 269 / 245 := by
  by_cases hnow : 4900 < now
  · have hsent conv : ardroneMixingAndOutput conv now c =
        some ⟨arGetMotorPacket (mixing conv c), mixing conv c⟩ :=
      if_pos (by simpa using hnow)
    rw [or_iff_right (UInt64.not_le.2 hnow)]
    constructor
    · intro hlaw
      by_contra hthrust
      have hrange := (inRange_iff _).1 (hlaw overflowing _ (hsent overflowing)) 0
      exact mixing_of_ge c (not_lt.1 hthrust) 0 hrange
    · intro hthrust conv sent heq
      rw [hsent] at heq
      cases heq
      exact (inRange_iff _).2 (mixing_of_lt conv c hthrust)
  · have hsent conv : ardroneMixingAndOutput conv now c = none := if_neg (by simpa using hnow)
    refine ⟨fun _ => .inl (UInt64.not_lt.1 hnow), fun _ conv sent heq => ?_⟩
    rw [hsent] at heq
    cases heq

/-- With twice the full thrust, all motors are told to stop, whatever the conversion does. -/
theorem full_throttle_stops :
    (∀ conv, ∃ sent, ardroneMixingAndOutput conv 10000 ⟨0, 0, 0, 2⟩ = some sent ∧
      ∀ i, motorField sent.packet i = 0) ∧
    ¬∀ conv sent, ardroneMixingAndOutput conv 10000 ⟨0, 0, 0, 2⟩ = some sent → InRange sent := by
  have hmixing conv i : mixing conv ⟨0, 0, 0, 2⟩ i = 512 := by
    have hnumber : fullThrust 2 * (maxThrust * scaling - minThrust * scaling) +
        minThrust * scaling = 1245 / 2 := by
      norm_num [fullThrust, minThrust, maxThrust, scaling]
    have hconverted := conv.truncates (1245 / 2) (by decide +kernel) (by decide +kernel)
    have hscale : scaleMotor conv (fullThrust 2) = 622 := by
      simp only [scaleMotor, hnumber]
      exact UInt16.toNat_inj.1 (hconverted.trans (by decide +kernel))
    rw [mixing_of_one_lt conv _ (by norm_num), hscale]
    decide
  have hfields conv i : motorField (arGetMotorPacket (mixing conv ⟨0, 0, 0, 2⟩)) i = 0 := by
    rw [motorField_arGetMotorPacket, hmixing]
    decide
  refine ⟨fun conv => ⟨_, rfl, hfields conv⟩, fun hlaw => ?_⟩
  have hrange := (hlaw overflowing _ rfl).range 0
  rw [hfields] at hrange
  exact absurd hrange.1 (by decide)

end Px4Firmware.ArDrone
