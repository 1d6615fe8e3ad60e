import Mathlib.Order.Bounds.Basic
import Mathlib.Order.MinMax

/-!
# Px4Firmware.Lib.Extremes

**Extremes in one pass.** A range is widened by each value that comes: below it, the value becomes
the minimum; otherwise, above it, the maximum. A value that is a new minimum is not looked at as a
maximum, so what the pass finds depends on where it starts and on the order of the values.

The minimum is always found (`isLeast_widen`). `foldl_widen_snd_iff` says when the maximum is found
too, for a pass that starts at an empty range.
-/

namespace Px4Firmware.Lib

variable {α : Type*} [LinearOrder α]

/-- Take a value into a range. -/
def widen (range : α × α) (value : α) : α × α :=
  if value < range.1 then (value, range.2)
  else if range.2 < value then (range.1, value)
  else range

theorem widen_fst (range : α × α) (value : α) : (widen range value).1 = min range.1 value := by
  unfold widen
  split
  · next h => exact (min_eq_right h.le).symm
  · next h => split <;> exact (min_eq_left (not_lt.mp h)).symm

theorem le_widen_snd (range : α × α) (value : α) : range.2 ≤ (widen range value).2 := by
  unfold widen
  split
  · exact le_rfl
  · split
    · next h => exact h.le
    · exact le_rfl

theorem widen_snd_of_le {range : α × α} {value : α} (h : range.1 ≤ value) :
    (widen range value).2 = max range.2 value := by
  unfold widen
  rw [if_neg (not_lt.mpr h)]
  split
  · next h => exact (max_eq_right h.le).symm
  · next h => exact (max_eq_left (not_lt.mp h)).symm

theorem widen_snd_of_lt {range : α × α} {value : α} (h : value < range.1) :
    (widen range value).2 = range.2 := by
  unfold widen
  rw [if_pos h]

/-! ### A whole pass -/

/-- **The minimum** is found, whatever the order. -/
theorem isLeast_widen (values : List α) (range : α × α) :
    IsLeast {v | v = range.1 ∨ v ∈ values} (values.foldl widen range).1 := by
  induction values generalizing range with
  | nil => exact ⟨.inl rfl, by rintro v (rfl | hv); exacts [le_rfl, absurd hv List.not_mem_nil]⟩
  | cons value values ih =>
      obtain ⟨hmem, hle⟩ := ih (widen range value)
      rw [List.foldl_cons]
      constructor
      · rcases hmem with hmem | hmem
        · rw [widen_fst] at hmem
          rcases min_choice range.1 value with h | h
          · exact .inl (hmem.trans h)
          · exact .inr (List.mem_cons.mpr (.inl (hmem.trans h)))
        · exact .inr (List.mem_cons_of_mem _ hmem)
      · have hstart := hle (.inl rfl)
        rw [widen_fst] at hstart
        rintro v (rfl | hv)
        · exact hstart.trans (min_le_left _ _)
        · rcases List.mem_cons.mp hv with rfl | hv
          · exact hstart.trans (min_le_right _ _)
          · exact hle (.inr hv)

theorem le_foldl_widen_snd (values : List α) (range : α × α) :
    range.2 ≤ (values.foldl widen range).2 := by
  induction values generalizing range with
  | nil => exact le_rfl
  | cons value values ih => exact (le_widen_snd range value).trans (ih _)

/-- A value that is not below the range from the start is looked at as a maximum. -/
theorem mem_le_foldl_widen_snd {values : List α} {range : α × α} {v : α} (hv : v ∈ values)
    (h : range.1 ≤ v) : v ≤ (values.foldl widen range).2 := by
  induction values generalizing range with
  | nil => exact absurd hv List.not_mem_nil
  | cons value values ih =>
      rw [List.foldl_cons]
      rcases List.mem_cons.mp hv with rfl | hv
      · refine le_trans ?_ (le_foldl_widen_snd values _)
        rw [widen_snd_of_le h]
        exact le_max_right _ _
      · refine ih hv ?_
        rw [widen_fst]
        exact (min_le_left _ _).trans h

/-- The maximum that a pass ends with is the one it starts with, or one of the values. -/
theorem foldl_widen_snd_mem (values : List α) (range : α × α) :
    (values.foldl widen range).2 = range.2 ∨ (values.foldl widen range).2 ∈ values := by
  induction values generalizing range with
  | nil => exact .inl rfl
  | cons value values ih =>
      rw [List.foldl_cons]
      rcases ih (widen range value) with h | h
      · rw [h]
        rcases lt_or_ge value range.1 with hlt | hge
        · exact .inl (widen_snd_of_lt hlt)
        · rw [widen_snd_of_le hge]
          rcases max_choice range.2 value with h | h
          · exact .inl h
          · exact .inr (List.mem_cons.mpr (.inl h))
      · exact .inr (List.mem_cons_of_mem _ h)

section

variable {bot top first lo hi : α} {rest : List α}

/-- The minimum of a pass that starts at an empty range. -/
theorem foldl_widen_fst (hlo : IsLeast {v | v ∈ first :: rest} lo) :
    ((first :: rest).foldl widen (top, bot)).1 = min top lo := by
  obtain ⟨hmem, hle⟩ := isLeast_widen (first :: rest) (top, bot)
  refine le_antisymm (le_min (hle (.inl rfl)) (hle (.inr hlo.1))) ?_
  rcases hmem with h | h
  · exact (min_le_left _ _).trans h.ge
  · exact (min_le_right _ _).trans (hlo.2 h)

/-- **When the maximum is found**: when it is not below the start of the range, and the first value
is not the only one to reach it. -/
theorem foldl_widen_snd_iff (hhi : IsGreatest {v | v ∈ first :: rest} hi) :
    ((first :: rest).foldl widen (top, bot)).2 = hi ↔
      bot ≤ hi ∧ (top ≤ first ∨ first = bot ∨ ∃ v ∈ rest, first ≤ v) := by
  have hfirst : first ≤ hi := hhi.2 List.mem_cons_self
  have hbot := le_foldl_widen_snd (first :: rest) (top, bot)
  have hupper : bot ≤ hi → ((first :: rest).foldl widen (top, bot)).2 ≤ hi := by
    intro hle
    rcases foldl_widen_snd_mem (first :: rest) (top, bot) with h | h
    · exact h.trans_le hle
    · exact hhi.2 h
  constructor
  · intro heq
    refine ⟨heq ▸ hbot, ?_⟩
    by_contra hnot
    obtain ⟨hlt, hne, hrest⟩ : first < top ∧ first ≠ bot ∧ ∀ v ∈ rest, v < first := by
      simpa only [not_or, not_le, not_exists, not_and] using hnot
    rw [List.foldl_cons] at heq
    -- The first value is the maximum, and it has been taken as a minimum.
    have hfind := foldl_widen_snd_mem rest (widen (top, bot) first)
    rw [heq, widen_snd_of_lt hlt] at hfind
    have hmax : hi = first :=
      (List.mem_cons.mp hhi.1).elim id fun hmem => absurd (hrest hi hmem) (not_lt.mpr hfirst)
    rcases hfind with h | h
    · exact hne (hmax.symm.trans h)
    · exact absurd (hrest hi h) (not_lt.mpr hfirst)
  · rintro ⟨hle, hcases⟩
    refine le_antisymm (hupper hle) ?_
    have hrest : hi ∈ rest → hi ≤ ((first :: rest).foldl widen (top, bot)).2 := by
      intro hmem
      rw [List.foldl_cons]
      refine mem_le_foldl_widen_snd hmem ?_
      rw [widen_fst]
      exact (min_le_right _ _).trans hfirst
    rcases List.mem_cons.mp hhi.1 with rfl | hmem
    · rcases hcases with htop | rfl | ⟨v, hv, hge⟩
      · exact mem_le_foldl_widen_snd List.mem_cons_self htop
      · exact hbot
      · exact hrest (le_antisymm hge (hhi.2 (List.mem_cons_of_mem _ hv)) ▸ hv)
    · exact hrest hmem

end

end Px4Firmware.Lib
