/-!
# Px4Firmware.Lib.Copies

A list of **copies from one array to another**, done one after the other. Positions are integers, so
that a position in front of an array can be named as well.

* `apply_of_outside` — what no copy covers is left alone;
* `apply_of_shifted` — copies that all move by the same distance are one copy;
* `apply_of_unread` — a value that no copy reads does not arrive.
-/

namespace Px4Firmware.Lib

universe u

/-- `length` elements from `src` on go to `dst` on. -/
structure Copy where
  src : Int
  dst : Int
  length : Nat

namespace Copy

variable {α : Type u} {source target : Int → α} {copies : List Copy} {x : Int}

/-- The positions that a copy writes. -/
def Covers (copy : Copy) (x : Int) : Prop := copy.dst ≤ x ∧ x < copy.dst + copy.length

instance (copy : Copy) (x : Int) : Decidable (copy.Covers x) := instDecidableAnd

/-- A copy. -/
def run (source : Int → α) (target : Int → α) (copy : Copy) : Int → α := fun x =>
  if copy.Covers x then source (copy.src + (x - copy.dst)) else target x

/-- One copy after the other. -/
def apply (source : Int → α) (copies : List Copy) (target : Int → α) : Int → α :=
  copies.foldl (run source) target

@[simp] theorem apply_nil : apply source [] target = target := rfl

@[simp] theorem apply_cons {copy : Copy} :
    apply source (copy :: copies) target = apply source copies (run source target copy) := rfl

theorem run_of_not_covers {copy : Copy} (h : ¬ copy.Covers x) :
    run source target copy x = target x :=
  if_neg h

theorem run_of_covers {copy : Copy} (h : copy.Covers x) :
    run source target copy x = source (copy.src + (x - copy.dst)) :=
  if_pos h

/-- What holds before, and of every element that is read for the position, holds after. -/
theorem apply_induction {P : α → Prop} (hbefore : P (target x))
    (hread : ∀ copy ∈ copies, copy.Covers x → P (source (copy.src + (x - copy.dst)))) :
    P (apply source copies target x) := by
  induction copies generalizing target with
  | nil => exact hbefore
  | cons copy copies ih =>
      refine ih ?_ fun copy' hmem => hread copy' (List.mem_cons_of_mem _ hmem)
      by_cases hcovers : copy.Covers x
      · rw [run_of_covers hcovers]
        exact hread copy List.mem_cons_self hcovers
      · rwa [run_of_not_covers hcovers]

/-- **The frame.** -/
theorem apply_of_outside (h : ∀ copy ∈ copies, ¬ copy.Covers x) :
    apply source copies target x = target x :=
  apply_induction (P := (· = target x)) rfl fun copy hmem hcovers => absurd hcovers (h copy hmem)

/-- **Copies by the same distance** are one copy, of all the positions that they cover. -/
theorem apply_of_shifted {distance : Int} (hshift : ∀ copy ∈ copies, copy.src = copy.dst + distance)
    (hcovered : ∃ copy ∈ copies, copy.Covers x) :
    apply source copies target x = source (x + distance) := by
  induction copies generalizing target with
  | nil =>
      obtain ⟨copy, hmem, -⟩ := hcovered
      cases hmem
  | cons copy copies ih =>
      rw [List.forall_mem_cons] at hshift
      by_cases hrest : ∃ copy' ∈ copies, copy'.Covers x
      · exact ih hshift.2 hrest
      · -- The first copy is the last one that covers the position.
        have hfirst : copy.Covers x := by
          obtain ⟨copy', hmem, hcovers⟩ := hcovered
          rcases List.mem_cons.mp hmem with rfl | hmem
          · exact hcovers
          · exact absurd ⟨copy', hmem, hcovers⟩ hrest
        rw [apply_cons, apply_of_outside fun copy' hmem hcovers => hrest ⟨copy', hmem, hcovers⟩,
          run_of_covers hfirst, hshift.1]
        congr 1
        omega

/-- **What is not read does not arrive**: an element that is the only one to differ makes no
difference. -/
theorem apply_of_unread {p : Int} {a : α} (hsource : ∀ x, x ≠ p → source x = a)
    (hunread : ∀ copy ∈ copies, ¬ (copy.src ≤ p ∧ p < copy.src + copy.length))
    (hbefore : target x = a) : apply source copies target x = a := by
  refine apply_induction (P := (· = a)) hbefore fun copy hmem hcovers => hsource _ fun heq => ?_
  obtain ⟨hle, hlt⟩ := hcovers
  exact hunread copy hmem (by omega)

end Copy

end Px4Firmware.Lib
