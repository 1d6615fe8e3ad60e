import Px4Firmware.Lib.Bytes

/-!
# Px4Firmware.Lib.Memory

**A byte-addressed memory** with 32-bit little-endian words, and what C programs do to it: read and
write a word, `memcpy`, `memset`. A word is read back as it was written (`word_setWord`); what a
write does not cover is kept (`setWord_of_not_covers`, `copy_of_not_covers`). A copy that goes up
the memory may overlap with its source when the target is below it (`copy_of_covers`).

`Kept S m m'` says that two memories agree on the bytes of `S`; the frame conditions of a program
that manipulates memory are facts of this kind, and they compose (`Kept.trans`).
-/

namespace Px4Firmware.Lib

/-- The bytes of a memory by their addresses. -/
abbrev Memory := Nat → UInt8

namespace Memory

/-- The word at an address. -/
def word (m : Memory) (a : Nat) : Nat := ofDigits [m a, m (a + 1), m (a + 2), m (a + 3)]

/-- Write a word. -/
def setWord (m : Memory) (a v : Nat) : Memory := fun x =>
  if a ≤ x ∧ x < a + 4 then (digits 4 v).getD (x - a) 0 else m x

/-- Copy bytes one by one, from the lowest address to the highest. -/
def copy (m : Memory) (dst src : Nat) : Nat → Memory
  | 0 => m
  | n + 1 =>
      let m' := copy m dst src n
      fun x => if x = dst + n then m' (src + n) else m' x

/-- Set bytes to one value. -/
def fill (m : Memory) (a : Nat) (c : UInt8) (n : Nat) : Memory := fun x =>
  if a ≤ x ∧ x < a + n then c else m x

variable {m m' m'' : Memory} {a b v x n dst src : Nat} {c : UInt8}

/-! ### Words -/

theorem setWord_of_not_covers (h : x < a ∨ a + 4 ≤ x) : m.setWord a v x = m x :=
  if_neg (by omega)

theorem word_congr (h : ∀ x, a ≤ x → x < a + 4 → m' x = m x) : m'.word a = m.word a := by
  simp only [word, h a (by omega) (by omega), h (a + 1) (by omega) (by omega),
    h (a + 2) (by omega) (by omega), h (a + 3) (by omega) (by omega)]

theorem word_setWord (hv : v < 2 ^ 32) : (m.setWord a v).word a = v := by
  have hbyte (i : Nat) (hi : i < 4) : m.setWord a v (a + i) = (digits 4 v).getD i 0 := by
    rw [setWord, if_pos (by omega), Nat.add_sub_cancel_left]
  have hword : (m.setWord a v).word a = ofDigits (digits 4 v) := by
    rw [word, hbyte 1 (by decide), hbyte 2 (by decide), hbyte 3 (by decide)]
    exact congrArg (fun byte => ofDigits [byte, _, _, _]) (hbyte 0 (by decide))
  rw [hword, ofDigits_digits]
  exact Nat.mod_eq_of_lt hv

theorem word_setWord_of_ne (h : b + 4 ≤ a ∨ a + 4 ≤ b) : (m.setWord a v).word b = m.word b :=
  word_congr fun x hlow hhigh => setWord_of_not_covers (by omega)

/-! ### Blocks of bytes -/

theorem copy_of_not_covers (h : x < dst ∨ dst + n ≤ x) : m.copy dst src n x = m x := by
  induction n with
  | zero => rfl
  | succ n ih =>
      have hne : x ≠ dst + n := by omega
      simp only [copy, if_neg hne]
      exact ih (by omega)

/-- A copy to a lower address, or to one after the source, arrives as the source was. -/
theorem copy_of_covers (h : dst ≤ src ∨ src + n ≤ dst) (hx : x < n) :
    m.copy dst src n (dst + x) = m (src + x) := by
  induction n with
  | zero => omega
  | succ n ih =>
      rcases Nat.lt_succ_iff_lt_or_eq.mp hx with hlt | heq
      · have hne : dst + x ≠ dst + n := by omega
        simp only [copy, if_neg hne]
        exact ih (by omega) hlt
      · rw [heq]
        simp only [copy, if_true]
        exact copy_of_not_covers (by omega)

theorem fill_of_not_covers (h : x < a ∨ a + n ≤ x) : m.fill a c n x = m x :=
  if_neg (by omega)

theorem fill_of_covers (hlow : a ≤ x) (hhigh : x < a + n) : m.fill a c n x = c :=
  if_pos ⟨hlow, hhigh⟩

/-! ### Frames -/

/-- The bytes of `S` are the same in both memories. -/
def Kept (S : Nat → Prop) (m m' : Memory) : Prop := ∀ x, S x → m' x = m x

variable {S T : Nat → Prop}

theorem Kept.refl (S : Nat → Prop) (m : Memory) : Kept S m m := fun _ _ => rfl

theorem Kept.trans (h : Kept S m m') (h' : Kept S m' m'') : Kept S m m'' :=
  fun x hx => (h' x hx).trans (h x hx)

theorem Kept.mono (h : Kept S m m') (hsub : ∀ x, T x → S x) : Kept T m m' :=
  fun x hx => h x (hsub x hx)

theorem Kept.setWord (h : Kept S m m') (hS : ∀ x, S x → x < a ∨ a + 4 ≤ x) :
    Kept S m (m'.setWord a v) :=
  fun x hx => (setWord_of_not_covers (hS x hx)).trans (h x hx)

theorem Kept.word (h : Kept S m m') (hS : ∀ x, a ≤ x → x < a + 4 → S x) :
    m'.word a = m.word a :=
  word_congr fun x hlow hhigh => h x (hS x hlow hhigh)

end Memory

end Px4Firmware.Lib
