import Px4Firmware.Lib.Transition

/-!
# Px4Firmware.Lib.Hysteresis

**A switch with hysteresis.** It goes on after `m` good samples in a row, and off after `n` bad ones
in a row. What it says changes with a sample when that one and those right before it all differ from
what it says, as many of them as the limit has it (`Switch.changes`).
-/

namespace Px4Firmware.Lib

theorem concat_suffix_concat_iff {α : Type _} {l l' : List α} {a b : α} :
    l ++ [a] <:+ l' ++ [b] ↔ a = b ∧ l <:+ l' := by
  rw [List.suffix_concat_iff]
  constructor
  · rintro (hnil | ⟨t, ht, hsuffix⟩)
    · simp at hnil
    · obtain ⟨rfl, hab⟩ := List.append_inj' ht rfl
      cases hab
      exact ⟨rfl, hsuffix⟩
  · rintro ⟨rfl, h⟩
    exact .inr ⟨l, rfl, h⟩

/-- A switch, with the samples since its last change: `true` is a good one. -/
structure Switch where
  on : Bool
  everOn : Bool
  since : List Bool
  deriving DecidableEq

namespace Switch

/-- A switch that has seen nothing. -/
def start : Switch := ⟨false, false, []⟩

variable (m n : Nat) (s : Switch) (x : Bool)

/-- How many samples in a row it takes. -/
def limit : Nat := if s.on then n else m

/-- With this sample it changes. -/
def changes : Bool := decide (List.replicate (s.limit m n) (!s.on) <:+ s.since ++ [x])

/-- The switch after a sample. -/
def next : Switch :=
  if s.changes m n x then ⟨!s.on, s.everOn || !s.on, []⟩
  else { s with since := s.since ++ [x] }

/-- What it says anew. -/
def change : Option Bool := if s.changes m n x then some !s.on else none

/-- Among the samples since the last change, one that differs from what the switch says comes right
after the others that do. -/
def Steady : Prop := x ≠ s.on → x ∈ s.since → [x] <:+ s.since

instance : Decidable (s.Steady x) := inferInstanceAs (Decidable (_ → _ → _))

variable {s x}

/-- Where two samples in a row are needed, the one before has to differ as well. -/
theorem changes_two_iff : s.changes 2 2 x = true ↔ x = !s.on ∧ [!s.on] <:+ s.since := by
  have hlimit : s.limit 2 2 = 2 := by simp [limit]
  rw [changes, decide_eq_true_iff, hlimit]
  exact (concat_suffix_concat_iff (l := [!s.on])).trans (and_congr_left fun _ => eq_comm)

theorem changes_two_of_eq (h : x = s.on) : s.changes 2 2 x = false := by
  rw [← Bool.not_eq_true, changes_two_iff]
  simp [h]

theorem change_two_of_eq (h : x = s.on) : s.change 2 2 x = none := by
  simp [change, changes_two_of_eq h]

/-- The first sample that differs does not change it. -/
theorem changes_two_of_not_mem (h : x ∉ s.since) : s.changes 2 2 x = false := by
  rw [← Bool.not_eq_true, changes_two_iff]
  rintro ⟨rfl, hsuffix⟩
  exact h (hsuffix.subset (List.mem_singleton_self _))

/-- The second one does exactly when it comes right after the first. -/
theorem steady_iff_changes (hx : x = !s.on) (h : x ∈ s.since) :
    s.Steady x ↔ s.changes 2 2 x = true := by
  rw [changes_two_iff, ← hx]
  exact ⟨fun hsteady => ⟨rfl, hsteady (by simp [hx]) h⟩, fun hsuffix _ _ => hsuffix.2⟩

theorem steady_of_not_mem (h : x ∉ s.since) : s.Steady x := fun _ hmem => absurd hmem h

theorem steady_of_eq (h : x = s.on) : s.Steady x := fun hne _ => absurd h hne

theorem next_of_changes {m n : Nat} (h : s.changes m n x = true) :
    s.next m n x = ⟨!s.on, s.everOn || !s.on, []⟩ := if_pos h

theorem next_of_not_changes {m n : Nat} (h : s.changes m n x = false) :
    s.next m n x = { s with since := s.since ++ [x] } := by
  simp [next, h]

end Switch

end Px4Firmware.Lib
