import Mathlib.Algebra.Order.Field.Basic
import Mathlib.Tactic.Linarith
import Mathlib.Tactic.SplitIfs

/-!
# Px4Firmware.Lib.DeadZone

**Scaling around a mid point, with a dead zone.** Positions of a stick between two end points are
scaled to [-1, 1], above and below the mid point each by its own slope; near the mid point the
result is zero. There it jumps, and it is monotone all the same.

`limited` cuts a number off at the ends of [-1, 1]. `limited_mul_eq_iff` says when a gain before the
cut makes no difference.
-/

namespace Px4Firmware.Lib

variable {K : Type*} [Field K] [LinearOrder K] [IsStrictOrderedRing K]

/-- The end points, the mid point between them, and the width of the dead zone to each side. -/
structure Span (K : Type*) [Field K] [LinearOrder K] where
  low : K
  mid : K
  high : K
  width : K
  low_lt : low < mid
  lt_high : mid < high
  width_nonneg : 0 ≤ width
  width_lt_low : width < mid - low
  width_lt_high : width < high - mid

namespace Span

variable (s : Span K)

/-- Where a number is in the span. -/
def position (x : K) : K :=
  if s.mid + s.width < x then (x - s.mid) / (s.high - s.mid)
  else if x < s.mid - s.width then -((s.mid - x) / (s.mid - s.low))
  else 0

variable {s} {x y : K}

omit [IsStrictOrderedRing K] in
theorem position_of_above (h : s.mid + s.width < x) :
    s.position x = (x - s.mid) / (s.high - s.mid) :=
  if_pos h

theorem position_of_below (h : x < s.mid - s.width) :
    s.position x = -((s.mid - x) / (s.mid - s.low)) := by
  have hwidth := s.width_nonneg
  rw [position, if_neg (by linarith), if_pos h]

omit [IsStrictOrderedRing K] in
theorem position_of_inside (hlow : s.mid - s.width ≤ x) (hhigh : x ≤ s.mid + s.width) :
    s.position x = 0 := by
  rw [position, if_neg (not_lt.2 hhigh), if_neg (not_lt.2 hlow)]

theorem position_pos (h : s.mid + s.width < x) : 0 < s.position x := by
  have hwidth := s.width_nonneg
  have hhigh := s.lt_high
  rw [position_of_above h]
  exact div_pos (by linarith) (by linarith)

theorem position_neg (h : x < s.mid - s.width) : s.position x < 0 := by
  have hwidth := s.width_nonneg
  have hlow := s.low_lt
  rw [position_of_below h]
  exact neg_neg_of_pos (div_pos (by linarith) (by linarith))

/-- It is zero in the dead zone and nowhere else. -/
theorem position_eq_zero_iff :
    s.position x = 0 ↔ s.mid - s.width ≤ x ∧ x ≤ s.mid + s.width := by
  constructor
  · intro hzero
    refine ⟨not_lt.1 fun hlt => ?_, not_lt.1 fun hlt => ?_⟩
    · exact absurd hzero (position_neg hlt).ne
    · exact absurd hzero (position_pos hlt).ne'
  · exact fun h => position_of_inside h.1 h.2

@[simp] theorem position_high : s.position s.high = 1 := by
  have hhigh := s.width_lt_high
  rw [position_of_above (by linarith), div_self (sub_pos.2 s.lt_high).ne']

@[simp] theorem position_low : s.position s.low = -1 := by
  have hlow := s.width_lt_low
  rw [position_of_below (by linarith), div_self (sub_pos.2 s.low_lt).ne']

theorem position_mono (h : x ≤ y) : s.position x ≤ s.position y := by
  have hhigh := sub_pos.2 s.lt_high
  have hlow := sub_pos.2 s.low_lt
  have hwidth := s.width_nonneg
  rcases lt_or_ge (s.mid + s.width) x with hx | hx
  · -- Both are above.
    rw [position_of_above hx, position_of_above (by linarith)]
    exact div_le_div_of_nonneg_right (by linarith) hhigh.le
  rcases lt_or_ge y (s.mid - s.width) with hy | hy
  · -- Both are below.
    rw [position_of_below hy, position_of_below (by linarith), neg_le_neg_iff]
    exact div_le_div_of_nonneg_right (by linarith) hlow.le
  · -- Zero is between them.
    have hx : s.position x ≤ 0 := by
      rcases lt_or_ge x (s.mid - s.width) with h' | h'
      · exact (position_neg h').le
      · exact (position_of_inside h' hx).le
    have hy : 0 ≤ s.position y := by
      rcases lt_or_ge (s.mid + s.width) y with h' | h'
      · exact (position_pos h').le
      · exact (position_of_inside hy h').ge
    exact hx.trans hy

theorem position_mem (hlow : s.low ≤ x) (hhigh : x ≤ s.high) :
    -1 ≤ s.position x ∧ s.position x ≤ 1 :=
  ⟨position_low.symm.le.trans (position_mono hlow), (position_mono hhigh).trans position_high.le⟩

end Span

/-! ### Limits -/

/-- A number, cut off at the ends of [-1, 1]. -/
def limited (x : K) : K := max (-1) (min 1 x)

theorem limited_of_abs_le {x : K} (h : |x| ≤ 1) : limited x = x := by
  obtain ⟨hlow, hhigh⟩ := abs_le.1 h
  rw [limited, min_eq_right hhigh, max_eq_right hlow]

theorem limited_of_one_le {x : K} (h : 1 ≤ x) : limited x = 1 := by
  rw [limited, min_eq_left h, max_eq_right (by linarith)]

theorem limited_of_le_neg_one {x : K} (h : x ≤ -1) : limited x = -1 := by
  rw [limited, min_eq_right (by linarith), max_eq_left h]

theorem limited_eq_one_iff {x : K} : limited x = 1 ↔ 1 ≤ x := by
  refine ⟨fun h => ?_, limited_of_one_le⟩
  rw [limited] at h
  rcases max_choice (-1 : K) (min 1 x) with hmax | hmax
  · rw [hmax] at h
    linarith
  · rw [hmax] at h
    exact min_eq_left_iff.1 h

theorem limited_eq_neg_one_iff {x : K} : limited x = -1 ↔ x ≤ -1 := by
  refine ⟨fun h => ?_, limited_of_le_neg_one⟩
  rw [limited, max_eq_left_iff] at h
  rcases min_le_iff.1 h with h' | h'
  · linarith
  · exact h'

/-- Cutting off gives a number that is inside only from this number. -/
theorem limited_eq_iff_of_abs_lt {x y : K} (h : |x| < 1) : limited y = x ↔ y = x := by
  obtain ⟨hlow, hhigh⟩ := abs_lt.1 h
  constructor
  · intro heq
    rcases le_or_gt 1 y with hy | hy
    · rw [limited_of_one_le hy] at heq
      linarith
    rcases le_or_gt y (-1) with hy' | hy'
    · rw [limited_of_le_neg_one hy'] at heq
      linarith
    · rwa [limited_of_abs_le (abs_le.2 ⟨hy'.le, hy.le⟩)] at heq
  · rintro rfl
    exact limited_of_abs_le h.le

/-- A gain before the cut makes no difference: the number is zero, or the gain is one, or the number
is outside and stays outside. -/
theorem limited_mul_eq_iff {x gain : K} :
    limited (x * gain) = limited x ↔ x = 0 ∨ gain = 1 ∨ 1 ≤ |x| ∧ 1 ≤ gain * |x| := by
  rcases lt_or_ge |x| 1 with hinside | houtside
  · rw [limited_of_abs_le hinside.le, limited_eq_iff_of_abs_lt hinside]
    constructor
    · intro h
      rcases eq_or_ne x 0 with hx | hx
      · exact .inl hx
      · exact .inr (.inl (mul_left_cancel₀ hx (by rw [h, mul_one])))
    · rintro (rfl | rfl | ⟨h, -⟩)
      · exact zero_mul gain
      · exact mul_one x
      · exact absurd hinside (not_lt.2 h)
  · have hx : x ≠ 0 := abs_pos.1 (by linarith)
    rcases le_abs.1 houtside with hpos | hneg
    · rw [limited_of_one_le hpos, limited_eq_one_iff, abs_of_pos (by linarith), mul_comm x]
      refine ⟨fun h => .inr (.inr ⟨hpos, h⟩), ?_⟩
      rintro (h | rfl | ⟨-, h⟩)
      · exact absurd h hx
      · rwa [one_mul]
      · exact h
    · rw [limited_of_le_neg_one (x := x) (by linarith), limited_eq_neg_one_iff,
        abs_of_neg (by linarith), mul_comm x, mul_neg]
      refine ⟨fun h => .inr (.inr ⟨hneg, by linarith⟩), ?_⟩
      rintro (h | rfl | ⟨-, h⟩)
      · exact absurd h hx
      · linarith
      · linarith

end Px4Firmware.Lib
