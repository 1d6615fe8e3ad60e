import Mathlib.Algebra.Ring.Nat
import Mathlib.Data.Nat.Bitwise

/-!
# Px4Firmware.Lib.Crc

Cyclic redundancy checks whose bits are reflected, of any width: the state is a number, the
remainder's term of the highest degree is its lowest bit, and `poly` is the divisor without its
leading term. `byte` is the division of one more byte, bit by bit.

The state of a division is linear in exclusive or (`shifts_xor`), which is why a byte at a time can
be had from a table of the 256 low bytes (`byte_eq_table`).
-/

namespace Px4Firmware.Lib.Crc

variable (poly : Nat)

/-- The division of one bit. -/
def shift (c : Nat) : Nat :=
  if c.testBit 0 then (c >>> (1 : Nat)) ^^^ poly else c >>> (1 : Nat)

/-- The division of several bits. -/
def shifts : Nat → Nat → Nat
  | 0, c => c
  | n + 1, c => shifts n (shift poly c)

/-- The division of a byte. -/
def byte (c : Nat) (b : UInt8) : Nat := shifts poly 8 (c ^^^ b.toNat)

/-- The division of a string of bytes. -/
def bytes (c : Nat) (bs : List UInt8) : Nat := bs.foldl (byte poly) c

theorem shift_xor (a b : Nat) : shift poly (a ^^^ b) = shift poly a ^^^ shift poly b := by
  have hxor : ∀ x y p : Nat, (x ^^^ p) ^^^ (y ^^^ p) = x ^^^ y := by
    intro x y p
    rw [Nat.xor_assoc, Nat.xor_comm y p, ← Nat.xor_assoc p p y, Nat.xor_self, Nat.zero_xor]
  simp only [shift, Nat.testBit_xor, Nat.shiftRight_xor_distrib]
  cases a.testBit 0 <;> cases b.testBit 0
  · simp
  · simp [Nat.xor_assoc]
  · simp [Nat.xor_assoc, Nat.xor_comm poly]
  · simp [hxor]

theorem shifts_xor (n a b : Nat) :
    shifts poly n (a ^^^ b) = shifts poly n a ^^^ shifts poly n b := by
  induction n generalizing a b with
  | zero => rfl
  | succ n ih => simp [shifts, shift_xor, ih]

/-- Bits that are zero leave the divisor out. -/
theorem shifts_shiftLeft (n c : Nat) : shifts poly n (c <<< n) = c := by
  induction n with
  | zero => rfl
  | succ n ih =>
      have hlow : (c <<< (n + 1)).testBit 0 = false := by simp
      have hshift : (c <<< (n + 1)) >>> (1 : Nat) = c <<< n := by
        rw [Nat.shiftLeft_succ, Nat.shiftRight_one]
        omega
      simp only [shifts, shift, hlow, Bool.false_eq_true, if_false, hshift, ih]

/-- The low byte, and what is above it. -/
theorem eq_low_xor_high (c : Nat) : c = (c &&& 0xff) ^^^ ((c >>> (8 : Nat)) <<< (8 : Nat)) := by
  apply Nat.eq_of_testBit_eq
  intro i
  have hmask : (0xff : Nat).testBit i = decide (i < 8) := Nat.testBit_two_pow_sub_one 8 i
  rcases Nat.lt_or_ge i 8 with hi | hi
  · simp [hmask, hi, Nat.not_le_of_lt hi]
  · have hi' : 8 + (i - 8) = i := by omega
    simp [hmask, hi, hi', Nat.not_lt_of_ge hi]

/-- **A byte at a time**: the division of a byte is the table's entry for the low byte of the sum,
added to what is above the low byte. -/
theorem byte_eq_table {table : Nat → Nat} (htable : ∀ i < 256, table i = shifts poly 8 i)
    (c : Nat) (b : UInt8) :
    byte poly c b = table ((c ^^^ b.toNat) &&& 0xff) ^^^ (c >>> (8 : Nat)) := by
  have hlow : (c ^^^ b.toNat) &&& 0xff < 256 := Nat.and_lt_two_pow _ (n := 8) (by decide)
  have hb : b.toNat >>> (8 : Nat) = 0 := by
    rw [Nat.shiftRight_eq_div_pow]
    exact Nat.div_eq_of_lt b.toNat_lt
  have hhigh : (c ^^^ b.toNat) >>> (8 : Nat) = c >>> (8 : Nat) := by
    rw [Nat.shiftRight_xor_distrib, hb, Nat.xor_zero]
  calc byte poly c b
    _ = shifts poly 8 (((c ^^^ b.toNat) &&& 0xff) ^^^
          (((c ^^^ b.toNat) >>> (8 : Nat)) <<< (8 : Nat))) := by rw [← eq_low_xor_high]; rfl
    _ = shifts poly 8 ((c ^^^ b.toNat) &&& 0xff) ^^^ (c >>> (8 : Nat)) := by
          rw [shifts_xor, shifts_shiftLeft, hhigh]
    _ = table ((c ^^^ b.toNat) &&& 0xff) ^^^ (c >>> (8 : Nat)) := by rw [htable _ hlow]

/-! ### The width -/

section

variable {poly} {w : Nat} (hpoly : poly < 2 ^ w)
include hpoly

theorem shift_lt {c : Nat} (hc : c < 2 ^ w) : shift poly c < 2 ^ w := by
  have hhalf : c >>> (1 : Nat) < 2 ^ w := by
    rw [Nat.shiftRight_one]
    exact Nat.lt_of_le_of_lt (Nat.div_le_self c 2) hc
  rw [shift]
  split
  · exact Nat.xor_lt_two_pow hhalf hpoly
  · exact hhalf

theorem shifts_lt (n : Nat) {c : Nat} (hc : c < 2 ^ w) : shifts poly n c < 2 ^ w := by
  induction n generalizing c with
  | zero => exact hc
  | succ n ih => exact ih (shift_lt hpoly hc)

/-- The state stays within its width. -/
theorem bytes_lt (hw : 8 ≤ w) (bs : List UInt8) {c : Nat} (hc : c < 2 ^ w) :
    bytes poly c bs < 2 ^ w := by
  induction bs generalizing c with
  | nil => exact hc
  | cons b bs ih =>
      have hb : b.toNat < 2 ^ w :=
        Nat.lt_of_lt_of_le b.toNat_lt (Nat.pow_le_pow_right (by decide) hw)
      exact ih (shifts_lt hpoly 8 (Nat.xor_lt_two_pow hc hb))

end

/-! ### Bursts -/

/-- A string of bytes as a number, the first byte lowest. -/
def window : List UInt8 → Nat
  | [] => 0
  | b :: bs => b.toNat ^^^ (window bs <<< (8 : Nat))

theorem shifts_add (m n c : Nat) : shifts poly (m + n) c = shifts poly n (shifts poly m c) := by
  induction m generalizing c with
  | zero => rw [Nat.zero_add]; rfl
  | succ m ih =>
      rw [Nat.succ_add]
      exact ih (shift poly c)

/-- The division of a string that is not longer than the state is that of its number. -/
theorem bytes_eq_shifts (c : Nat) (bs : List UInt8) :
    bytes poly c bs = shifts poly (8 * bs.length) (c ^^^ window bs) := by
  induction bs generalizing c with
  | nil => simp [bytes, shifts, window]
  | cons b bs ih =>
      have hlength : 8 * (b :: bs).length = 8 + 8 * bs.length := by
        rw [List.length_cons]
        omega
      have hlater : shifts poly 8 (window bs <<< (8 : Nat)) = window bs :=
        shifts_shiftLeft poly 8 (window bs)
      calc bytes poly c (b :: bs)
        _ = bytes poly (byte poly c b) bs := rfl
        _ = shifts poly (8 * bs.length) (shifts poly 8 (c ^^^ b.toNat) ^^^ window bs) := ih _
        _ = shifts poly (8 * bs.length)
              (shifts poly 8 ((c ^^^ b.toNat) ^^^ (window bs <<< (8 : Nat)))) := by
              rw [shifts_xor poly 8 (c ^^^ b.toNat), hlater]
        _ = shifts poly (8 * (b :: bs).length) (c ^^^ window (b :: bs)) := by
              rw [hlength, shifts_add, window, Nat.xor_assoc]

theorem window_lt (bs : List UInt8) : window bs < 2 ^ (8 * bs.length) := by
  induction bs with
  | nil => decide
  | cons b bs ih =>
      have hlength : 8 * (b :: bs).length = 8 * bs.length + 8 := by
        rw [List.length_cons]
        omega
      rw [hlength, window]
      refine Nat.xor_lt_two_pow ?_ ?_
      · exact Nat.lt_of_lt_of_le b.toNat_lt (Nat.pow_le_pow_right (by decide) (by omega))
      · rw [Nat.shiftLeft_eq, Nat.pow_add]
        exact Nat.mul_lt_mul_of_pos_right ih (by decide)

theorem window_injective {bs bs' : List UInt8} (hlength : bs.length = bs'.length)
    (h : window bs = window bs') : bs = bs' := by
  induction bs generalizing bs' with
  | nil => exact (List.length_eq_zero_iff.mp hlength.symm).symm
  | cons b bs ih =>
      cases bs' with
      | nil => cases hlength
      | cons b' bs' =>
          have hlow : ∀ (x : UInt8) (y : Nat), (x.toNat ^^^ (y <<< (8 : Nat))) % 256 = x.toNat := by
            intro x y
            have hx : x.toNat < 2 ^ 8 := x.toNat_lt
            have hy : (y <<< (8 : Nat)) % 2 ^ 8 = 0 := by
              rw [Nat.shiftLeft_eq, Nat.mul_mod_left]
            have hxor : (x.toNat ^^^ (y <<< (8 : Nat))) % 2 ^ 8
                = x.toNat % 2 ^ 8 ^^^ (y <<< (8 : Nat)) % 2 ^ 8 := Nat.xor_mod_two_pow
            rw [hy, Nat.xor_zero, Nat.mod_eq_of_lt hx] at hxor
            exact hxor
          have hfirst : b = b' := by
            refine UInt8.toNat_inj.mp ?_
            rw [← hlow b (window bs), ← hlow b' (window bs')]
            exact congrArg (· % 256) h
          have hrest : window bs = window bs' := by
            rw [window, window, hfirst] at h
            have hshift := Nat.xor_right_injective h
            rw [Nat.shiftLeft_eq, Nat.shiftLeft_eq] at hshift
            exact Nat.eq_of_mul_eq_mul_right (by decide) hshift
          rw [hfirst, ih (Nat.succ.inj hlength) hrest]

section

variable {poly} {w : Nat} (hpoly : poly < 2 ^ (w + 1)) (htop : poly.testBit w = true)
include htop

/-- The highest bit of the state says whether the divisor has been added. -/
theorem testBit_shift {c : Nat} (hc : c < 2 ^ (w + 1)) :
    (shift poly c).testBit w = c.testBit 0 := by
  have hover : c.testBit (1 + w) = false := by
    rw [Nat.add_comm]
    exact Nat.testBit_lt_two_pow hc
  rw [shift]
  cases hbit : c.testBit 0 <;> simp [hover, htop]

/-- The division of a bit can be undone. -/
theorem shift_injective {a b : Nat} (ha : a < 2 ^ (w + 1)) (hb : b < 2 ^ (w + 1))
    (h : shift poly a = shift poly b) : a = b := by
  have hlow : a.testBit 0 = b.testBit 0 := by
    rw [← testBit_shift htop ha, ← testBit_shift htop hb, h]
  have hhalf : a >>> (1 : Nat) = b >>> (1 : Nat) := by
    rw [shift, shift, hlow] at h
    split at h
    · exact Nat.xor_left_injective h
    · exact h
  rw [Nat.testBit_zero, Nat.testBit_zero, decide_eq_decide] at hlow
  rw [Nat.shiftRight_one, Nat.shiftRight_one] at hhalf
  omega

include hpoly

theorem shifts_injective (n : Nat) {a b : Nat} (ha : a < 2 ^ (w + 1)) (hb : b < 2 ^ (w + 1))
    (h : shifts poly n a = shifts poly n b) : a = b := by
  induction n generalizing a b with
  | zero => exact h
  | succ n ih =>
      exact shift_injective htop ha hb (ih (shift_lt hpoly ha) (shift_lt hpoly hb) h)

/-- What follows does not make different states the same. -/
theorem bytes_injective (hw : 8 ≤ w + 1) (bs : List UInt8) {a b : Nat} (ha : a < 2 ^ (w + 1))
    (hb : b < 2 ^ (w + 1)) (h : bytes poly a bs = bytes poly b bs) : a = b := by
  induction bs generalizing a b with
  | nil => exact h
  | cons c bs ih =>
      have hc : c.toNat < 2 ^ (w + 1) :=
        Nat.lt_of_lt_of_le c.toNat_lt (Nat.pow_le_pow_right (by decide) hw)
      have ha' := Nat.xor_lt_two_pow ha hc
      have hb' := Nat.xor_lt_two_pow hb hc
      have hnext : byte poly a c = byte poly b c :=
        ih (shifts_lt hpoly 8 ha') (shifts_lt hpoly 8 hb') h
      exact Nat.xor_left_injective (shifts_injective hpoly htop 8 ha' hb' hnext)

/-- **Bursts are detected**: two strings that differ in a stretch that is not longer than the state
do not have the same remainder. -/
theorem eq_of_bytes_eq {before burst burst' : List UInt8} (after : List UInt8)
    (hlength : burst.length = burst'.length) (hwidth : 8 * burst.length ≤ w + 1)
    (hw : 8 ≤ w + 1) {c : Nat} (hc : c < 2 ^ (w + 1))
    (h : bytes poly c (before ++ burst ++ after) = bytes poly c (before ++ burst' ++ after)) :
    burst = burst' := by
  have hstart := bytes_lt hpoly hw before hc
  have hwithin : ∀ bs : List UInt8, 8 * bs.length ≤ w + 1 → window bs < 2 ^ (w + 1) :=
    fun bs hbs => Nat.lt_of_lt_of_le (window_lt bs) (Nat.pow_le_pow_right (by decide) hbs)
  have hwidth' : 8 * burst'.length ≤ w + 1 := by rwa [← hlength]
  have hsplit : ∀ bs : List UInt8, bytes poly c (before ++ bs ++ after)
      = bytes poly (bytes poly (bytes poly c before) bs) after := by
    intro bs
    simp only [bytes, List.foldl_append]
  rw [hsplit, hsplit] at h
  have hburst := bytes_injective hpoly htop hw after (bytes_lt hpoly hw burst hstart)
    (bytes_lt hpoly hw burst' hstart) h
  rw [bytes_eq_shifts poly (bytes poly c before) burst,
    bytes_eq_shifts poly (bytes poly c before) burst', ← hlength] at hburst
  have hxor := shifts_injective hpoly htop _
    (Nat.xor_lt_two_pow hstart (hwithin burst hwidth))
    (Nat.xor_lt_two_pow hstart (hwithin burst' hwidth')) hburst
  exact window_injective hlength (Nat.xor_right_injective hxor)

end

end Px4Firmware.Lib.Crc
