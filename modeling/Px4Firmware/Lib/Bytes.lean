import Mathlib.Algebra.Ring.Nat

/-!
# Px4Firmware.Lib.Bytes

Fixed-width machine words as byte strings, in either byte order. `Endian.bytes32`
and `Endian.bytes64` are what `memcpy` from a word produces on a machine of that
byte order; `Endian.word32` and `Endian.word64` read the word back. Both
directions go through base-256 digits (`digits`, `ofDigits`), so the round trip is
one induction instead of a case split per width.
-/

namespace Px4Firmware.Lib

/-- The `k` low base-256 digits of `n`, least significant first. -/
def digits : Nat → Nat → List UInt8
  | 0, _ => []
  | k + 1, n => UInt8.ofNat n :: digits k (n / 256)

/-- The number with the given base-256 digits, least significant first. -/
def ofDigits : List UInt8 → Nat
  | [] => 0
  | b :: bs => b.toNat + 256 * ofDigits bs

@[simp] theorem digits_length (k n : Nat) : (digits k n).length = k := by
  induction k generalizing n with
  | zero => rfl
  | succ k ih => simp [digits, ih]

theorem ofDigits_digits (k n : Nat) : ofDigits (digits k n) = n % 256 ^ k := by
  induction k generalizing n with
  | zero => simp [digits, ofDigits, Nat.mod_one]
  | succ k ih =>
      have hbyte : (UInt8.ofNat n).toNat = n % 256 := by simp
      rw [digits, ofDigits, ih, hbyte, Nat.pow_succ, Nat.mul_comm (256 ^ k) 256, Nat.mod_mul]

/-- The length of records of one width. -/
theorem length_flatMap_of_length {α β : Type*} {f : α → List β} {k : Nat}
    (hf : ∀ a, (f a).length = k) (l : List α) : (l.flatMap f).length = k * l.length := by
  induction l with
  | nil => rfl
  | cons a l ih =>
      rw [List.flatMap_cons, List.length_append, hf, ih, List.length_cons, Nat.mul_succ,
        Nat.add_comm]

/-- Records of one width follow each other: where the record `i` is. -/
theorem take_drop_flatMap {α β : Type*} {f : α → List β} {k : Nat} (hf : ∀ a, (f a).length = k)
    {l : List α} {i : Nat} (hi : i < l.length) (rest : List β) :
    ((l.flatMap f ++ rest).drop (k * i)).take k = f l[i] := by
  induction l generalizing i with
  | nil => exact absurd hi (Nat.not_lt_zero i)
  | cons a l ih =>
      rw [List.flatMap_cons, List.append_assoc]
      cases i with
      | zero =>
          rw [Nat.mul_zero, List.drop_zero]
          exact List.take_left' (hf a)
      | succ i =>
          rw [Nat.mul_succ, Nat.add_comm, ← List.drop_drop, List.drop_left' (hf a)]
          exact ih (Nat.lt_of_succ_lt_succ hi)

/-- The byte order of a machine. -/
inductive Endian
  | little
  | big
  deriving Repr, DecidableEq

namespace Endian

/-- Put digits (least significant first) into memory order, or back. -/
def order : Endian → List UInt8 → List UInt8
  | little, bs => bs
  | big, bs => bs.reverse

@[simp] theorem order_order (e : Endian) (bs : List UInt8) : e.order (e.order bs) = bs := by
  cases e <;> simp [order]

@[simp] theorem order_length (e : Endian) (bs : List UInt8) :
    (e.order bs).length = bs.length := by
  cases e <;> simp [order]

/-- The four bytes of a 32-bit word in memory. -/
def bytes32 (e : Endian) (w : UInt32) : List UInt8 := e.order (digits 4 w.toNat)

/-- The 32-bit word stored in the given bytes. -/
def word32 (e : Endian) (bs : List UInt8) : UInt32 := UInt32.ofNat (ofDigits (e.order bs))

/-- The eight bytes of a 64-bit word in memory. -/
def bytes64 (e : Endian) (w : UInt64) : List UInt8 := e.order (digits 8 w.toNat)

/-- The 64-bit word stored in the given bytes. -/
def word64 (e : Endian) (bs : List UInt8) : UInt64 := UInt64.ofNat (ofDigits (e.order bs))

@[simp] theorem bytes32_length (e : Endian) (w : UInt32) : (e.bytes32 w).length = 4 := by
  simp [bytes32]

@[simp] theorem bytes64_length (e : Endian) (w : UInt64) : (e.bytes64 w).length = 8 := by
  simp [bytes64]

@[simp] theorem word32_bytes32 (e : Endian) (w : UInt32) : e.word32 (e.bytes32 w) = w := by
  have h : w.toNat % 256 ^ 4 = w.toNat := Nat.mod_eq_of_lt w.toNat_lt
  rw [word32, bytes32, order_order, ofDigits_digits, h, UInt32.ofNat_toNat]

@[simp] theorem word64_bytes64 (e : Endian) (w : UInt64) : e.word64 (e.bytes64 w) = w := by
  have h : w.toNat % 256 ^ 8 = w.toNat := Nat.mod_eq_of_lt w.toNat_lt
  rw [word64, bytes64, order_order, ofDigits_digits, h, UInt64.ofNat_toNat]

end Endian

end Px4Firmware.Lib
