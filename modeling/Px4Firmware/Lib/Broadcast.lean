import Mathlib.Algebra.Ring.Nat
import Mathlib.Logic.Function.Basic

/-!
# Px4Firmware.Lib.Broadcast

**A broadcast log**, what a publish/subscribe service is for: every topic has the list
of what was published on it, and every reader has a place in the list of its topic.
A reader that reads gets the last entry and moves its place to the end; what lies
behind its place is unread.

A service that numbers its publications with a counter of a fixed width keeps only the
lengths modulo a power of two; `ofNat_eq_ofNat_iff` says what it can still tell.
-/

namespace Px4Firmware.Lib

universe u v w

/-- The place of a reader: its topic and how much of it was there when it last looked. -/
structure Cursor (τ : Type u) where
  topic : τ
  seen : Nat

/-- The topics `τ` with what was published on them, and the readers `ρ`. -/
structure Broadcast (τ : Type u) (ρ : Type v) (α : Type w) where
  log : τ → List α
  reader : ρ → Option (Cursor τ)

namespace Broadcast

variable {τ : Type u} {ρ : Type v} {α : Type w}

/-- Nothing is published, and there are no readers. -/
def empty : Broadcast τ ρ α where
  log _ := []
  reader _ := none

/-- The last publication on the topic of a reader. -/
def latest (b : Broadcast τ ρ α) (r : ρ) : Option α :=
  (b.reader r).bind fun c => (b.log c.topic).getLast?

/-- The number of publications since the reader last looked. -/
def unread (b : Broadcast τ ρ α) (r : ρ) : Nat :=
  match b.reader r with
  | some c => (b.log c.topic).length - c.seen
  | none => 0

theorem latest_eq {r : ρ} {c : Cursor τ} {b : Broadcast τ ρ α} (h : b.reader r = some c) :
    b.latest r = (b.log c.topic).getLast? := by
  unfold latest
  rw [h]
  rfl

theorem unread_eq {r : ρ} {c : Cursor τ} {b : Broadcast τ ρ α} (h : b.reader r = some c) :
    b.unread r = (b.log c.topic).length - c.seen := by
  unfold unread
  rw [h]

/-! ### Publishing -/

section

variable [DecidableEq τ]

/-- Publish on a topic. -/
def publish (t : τ) (a : α) (b : Broadcast τ ρ α) : Broadcast τ ρ α :=
  { b with log := Function.update b.log t (b.log t ++ [a]) }

@[simp] theorem log_publish_self (t : τ) (a : α) (b : Broadcast τ ρ α) :
    (b.publish t a).log t = b.log t ++ [a] := by
  simp [publish]

theorem log_publish_of_ne {t t' : τ} (h : t' ≠ t) (a : α) (b : Broadcast τ ρ α) :
    (b.publish t a).log t' = b.log t' := by
  simp [publish, h]

@[simp] theorem reader_publish (t : τ) (a : α) (b : Broadcast τ ρ α) :
    (b.publish t a).reader = b.reader := rfl

/-- A log only grows. -/
theorem length_log_le_publish (t t' : τ) (a : α) (b : Broadcast τ ρ α) :
    (b.log t').length ≤ ((b.publish t a).log t').length := by
  by_cases h : t' = t
  · subst h
    simp
  · have hlog := log_publish_of_ne h a b
    exact Nat.le_of_eq (congrArg List.length hlog.symm)

end

/-! ### Reading -/

section

variable [DecidableEq ρ]

/-- A reader places itself at the end of a topic. -/
def subscribe (r : ρ) (t : τ) (b : Broadcast τ ρ α) : Broadcast τ ρ α :=
  { b with reader := Function.update b.reader r (some ⟨t, (b.log t).length⟩) }

/-- A reader reads: its place moves to the end of its topic. -/
def read (r : ρ) (b : Broadcast τ ρ α) : Broadcast τ ρ α :=
  match b.reader r with
  | some c => b.subscribe r c.topic
  | none => b

@[simp] theorem log_subscribe (r : ρ) (t : τ) (b : Broadcast τ ρ α) :
    (b.subscribe r t).log = b.log := rfl

@[simp] theorem reader_subscribe_self (r : ρ) (t : τ) (b : Broadcast τ ρ α) :
    (b.subscribe r t).reader r = some ⟨t, (b.log t).length⟩ := by
  simp [subscribe]

theorem reader_subscribe_of_ne {r r' : ρ} (h : r' ≠ r) (t : τ) (b : Broadcast τ ρ α) :
    (b.subscribe r t).reader r' = b.reader r' := by
  simp [subscribe, h]

theorem read_eq_subscribe {r : ρ} {c : Cursor τ} {b : Broadcast τ ρ α}
    (h : b.reader r = some c) : b.read r = b.subscribe r c.topic := by
  unfold read
  rw [h]

end

end Broadcast

/-! ### Counting modulo a power of two -/

/-- A 32-bit counter agrees with an earlier value of it exactly when the number of steps in
between is a multiple of 2^32. -/
theorem ofNat_eq_ofNat_iff {m n : Nat} (h : m ≤ n) :
    UInt32.ofNat m = UInt32.ofNat n ↔ (n - m) % 2 ^ 32 = 0 := by
  rw [← UInt32.toNat_inj, UInt32.toNat_ofNat', UInt32.toNat_ofNat']
  omega

/-- **No false quiet**: below 2^32 steps, the counter agrees only if there was no step. -/
theorem ofNat_eq_ofNat_iff_of_lt {m n : Nat} (h : m ≤ n) (hlt : n - m < 2 ^ 32) :
    UInt32.ofNat m = UInt32.ofNat n ↔ n - m = 0 := by
  rw [ofNat_eq_ofNat_iff h, Nat.mod_eq_of_lt hlt]

theorem ofNat_succ_counter (n : Nat) : UInt32.ofNat (n + 1) = UInt32.ofNat n + 1 := by
  rw [← UInt32.toNat_inj, UInt32.toNat_add, UInt32.toNat_ofNat', UInt32.toNat_ofNat']
  show (n + 1) % 2 ^ 32 = (n % 2 ^ 32 + 1) % 2 ^ 32
  omega

end Px4Firmware.Lib
