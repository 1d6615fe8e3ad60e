import Mathlib.Data.Nat.ModEq

/-!
# Px4Firmware.Lib.Counter

**Free-running counters.** A counter of `m` steps shows the time modulo `m`. Two readings tell how
much time passed between them, when it was less than a period (`elapsed_mod`); and a comparator
that waits for a value finds it once in every period (`IsNextMatch`).
-/

namespace Px4Firmware.Lib

variable {m c t u v : Nat}

/-- **Two readings of a counter**, less than a period apart: it has wrapped exactly if it shows
less than before. -/
theorem elapsed_mod (hle : t ≤ u) (hlt : u < t + m) :
    u % m + (if u % m < t % m then m else 0) = t % m + (u - t) := by
  obtain ⟨k, rfl⟩ := Nat.exists_eq_add_of_le hle
  have hk : k < m := by omega
  have hr : t % m < m := Nat.mod_lt t (by omega)
  have hsum : (t + k) % m = (t % m + k) % m := (Nat.mod_add_mod t m k).symm
  rw [hsum, Nat.add_sub_cancel_left]
  by_cases hwrap : t % m + k < m
  · rw [Nat.mod_eq_of_lt hwrap, if_neg (by omega)]
    rfl
  · have hmod : (t % m + k) % m = t % m + k - m := by
      rw [Nat.mod_eq_sub_mod (by omega), Nat.mod_eq_of_lt (by omega)]
    rw [hmod, if_pos (by omega)]
    omega

/-- `u` is the first time after `t` at which a counter of `m` steps shows `c`. -/
structure IsNextMatch (m c t u : Nat) : Prop where
  after : t < u
  shows : u % m = c
  first : ∀ v, t < v → v % m = c → u ≤ v

theorem IsNextMatch.unique (h : IsNextMatch m c t u) (h' : IsNextMatch m c t v) : u = v :=
  Nat.le_antisymm (h.first v h'.after h'.shows) (h'.first u h.after h.shows)

/-- A time within the next period is the next at which the counter shows what it shows then. -/
theorem isNextMatch_of_le (hlt : t < u) (hle : u ≤ t + m) : IsNextMatch m (u % m) t u where
  after := hlt
  shows := rfl
  first v hv hmod := by
    by_contra hbefore
    have hzero : (u - v) % m = 0 := Nat.sub_mod_eq_zero_of_mod_eq hmod.symm
    rw [Nat.mod_eq_of_lt (by omega)] at hzero
    omega

end Px4Firmware.Lib
