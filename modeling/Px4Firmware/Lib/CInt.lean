import Mathlib.Algebra.Ring.Int.Defs
import Mathlib.Algebra.Ring.Nat

/-!
# Px4Firmware.Lib.CInt

**Arithmetic in signed machine integers.** A result that does not fit in its type is undefined in
C; the machine keeps its low bits. A computation is modelled as its value, as the two's complement
machine has it, together with whether every result on the way was the mathematical one.

`fit w v` takes a mathematical result into a type of `w` bits. A program that `fit`s after each of
its operations is `pure v` exactly if its value is `v` and nothing on the way overflowed
(`fit_of_representable`, `exact_bind`).
-/

namespace Px4Firmware.Lib

/-- The value of a computation, and whether no result on the way was out of its range. -/
structure Computed (α : Type) where
  value : α
  exact : Bool
  deriving DecidableEq

namespace Computed

variable {α β : Type}

instance : Monad Computed where
  pure a := ⟨a, true⟩
  bind c f := ⟨(f c.value).value, c.exact && (f c.value).exact⟩

instance : LawfulMonad Computed :=
  LawfulMonad.mk' Computed
    (fun c => by cases c; simp [Functor.map])
    (fun a f => by simp [Bind.bind, Pure.pure])
    (fun c f g => by simp [Bind.bind, Bool.and_assoc])

@[simp] theorem value_pure (a : α) : (pure a : Computed α).value = a := rfl

@[simp] theorem exact_pure (a : α) : (pure a : Computed α).exact = true := rfl

@[simp] theorem value_bind (c : Computed α) (f : α → Computed β) :
    (c >>= f).value = (f c.value).value := rfl

@[simp] theorem exact_bind (c : Computed α) (f : α → Computed β) :
    (c >>= f).exact = (c.exact && (f c.value).exact) := rfl

end Computed

/-- The signed integers of `w` bits. -/
def Representable (w : Nat) (v : Int) : Prop := -2 ^ (w - 1) ≤ v ∧ v < 2 ^ (w - 1)

instance (w : Nat) (v : Int) : Decidable (Representable w v) :=
  inferInstanceAs (Decidable (_ ∧ _))

/-- A mathematical result, taken into a signed type of `w` bits. -/
def fit (w : Nat) (v : Int) : Computed Int where
  value := v.bmod (2 ^ w)
  exact := decide (Representable w v)

@[simp] theorem exact_fit (w : Nat) (v : Int) : (fit w v).exact = decide (Representable w v) := rfl

theorem bmod_of_representable {w : Nat} {v : Int} (hw : 0 < w) (h : Representable w v) :
    v.bmod (2 ^ w) = v := by
  obtain ⟨hlow, hhigh⟩ := h
  obtain ⟨k, rfl⟩ : ∃ k, w = k + 1 := ⟨w - 1, by omega⟩
  rw [Nat.add_sub_cancel] at hlow hhigh
  have hpow : ((2 ^ (k + 1) : Nat) : Int) = 2 * 2 ^ k := by
    rw [Nat.pow_succ]
    simp [Int.mul_comm]
  apply Int.bmod_eq_of_le <;> rw [hpow] <;> omega

/-- A result in range is the mathematical one. -/
theorem fit_of_representable {w : Nat} {v : Int} (hw : 0 < w) (h : Representable w v) :
    fit w v = pure v := by
  unfold fit
  rw [bmod_of_representable hw h, decide_eq_true h]
  rfl

/-- A result in 32 bits. -/
theorem fit_int32 {v : Int} (hlow : -2147483648 ≤ v) (hhigh : v < 2147483648) :
    fit 32 v = pure v :=
  fit_of_representable (by decide) ⟨hlow, hhigh⟩

/-- A result in 64 bits. -/
theorem fit_int64 {v : Int} (hlow : -9223372036854775808 ≤ v) (hhigh : v < 9223372036854775808) :
    fit 64 v = pure v :=
  fit_of_representable (by decide) ⟨hlow, hhigh⟩

end Px4Firmware.Lib
