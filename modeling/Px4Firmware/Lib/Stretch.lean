import Mathlib.Data.List.Induction
import Mathlib.Tactic.ByContra

/-!
# Px4Firmware.Lib.Stretch

**Consecutive elements.** A debounce counts how many elements in a row meet a condition, and starts
again with each that does not: `trailing p l` is what it counts at the end of `l`.

`HasStretch p n l` says that somewhere in `l` there are `n` in a row (`hasStretch_concat_iff`: as
soon as the count reaches `n`), `TwoStretches` that a stretch of one kind is followed by one of
another. The first can be taken to be the one that ends first (`twoStretches_append_iff`).
-/

namespace Px4Firmware.Lib

variable {α : Type*} {p q : α → Bool} {l : List α} {m n : Nat}

/-- How many elements at the end of a list meet a condition. -/
def trailing (p : α → Bool) (l : List α) : Nat := (l.reverse.takeWhile p).length

@[simp] theorem trailing_nil : trailing p [] = 0 := rfl

@[simp] theorem trailing_concat (x : α) :
    trailing p (l ++ [x]) = if p x then trailing p l + 1 else 0 := by
  unfold trailing
  rw [List.reverse_append, List.reverse_singleton, List.singleton_append, List.takeWhile_cons]
  split <;> rfl

/-- If something is counted, the last element is. -/
theorem exists_concat_of_trailing (h : trailing p l ≠ 0) : ∃ l' x, l = l' ++ [x] ∧ p x = true := by
  induction l using List.reverseRecOn with
  | nil => exact absurd rfl h
  | append_singleton l x =>
      refine ⟨l, x, rfl, ?_⟩
      by_contra hx
      exact h (by rw [trailing_concat, if_neg hx])

theorem trailing_le_length : trailing p l ≤ l.length := by
  unfold trailing
  calc (l.reverse.takeWhile p).length
      ≤ l.reverse.length := (List.takeWhile_sublist p).length_le
    _ = l.length := List.length_reverse

/-- From the place `a` on, `n` elements in a row meet the condition. -/
def Stretch (p : α → Bool) (l : List α) (a n : Nat) : Prop :=
  ∀ i, a ≤ i → i < a + n → ∃ x, l[i]? = some x ∧ p x = true

/-- Somewhere, `n` elements in a row meet the condition. -/
def HasStretch (p : α → Bool) (n : Nat) (l : List α) : Prop := ∃ a, Stretch p l a n

/-- A stretch lies within the list. -/
theorem Stretch.le_length {a : Nat} (hn : 0 < n) (h : Stretch p l a n) : a + n ≤ l.length := by
  obtain ⟨x, hx, -⟩ := h (a + n - 1) (by omega) (by omega)
  have := (List.getElem?_eq_some_iff.mp hx).1
  omega

theorem Stretch.append {a : Nat} (h : Stretch p l a n) (l' : List α) :
    Stretch p (l ++ l') a n := by
  intro i hlow hhigh
  obtain ⟨x, hx, hp⟩ := h i hlow hhigh
  exact ⟨x, by rw [List.getElem?_append_left (List.getElem?_eq_some_iff.mp hx).1, hx], hp⟩

/-- A stretch that ends within the first part of a list. -/
theorem Stretch.of_append {a : Nat} {l' : List α} (h : Stretch p (l ++ l') a n)
    (hle : a + n ≤ l.length) : Stretch p l a n := by
  intro i hlow hhigh
  obtain ⟨x, hx, hp⟩ := h i hlow hhigh
  rw [List.getElem?_append_left (by omega)] at hx
  exact ⟨x, hx, hp⟩

/-- A stretch that begins within the second part. -/
theorem stretch_append_right_iff {l' : List α} {a : Nat} :
    Stretch p (l ++ l') (l.length + a) n ↔ Stretch p l' a n := by
  constructor
  · intro h i hlow hhigh
    obtain ⟨x, hx, hp⟩ := h (l.length + i) (by omega) (by omega)
    rw [List.getElem?_append_right (by omega), Nat.add_sub_cancel_left] at hx
    exact ⟨x, hx, hp⟩
  · intro h i hlow hhigh
    obtain ⟨x, hx, hp⟩ := h (i - l.length) (by omega) (by omega)
    refine ⟨x, ?_, hp⟩
    rw [List.getElem?_append_right (by omega), hx]

/-- The elements that are counted at the end are a stretch. -/
theorem stretch_trailing (l : List α) :
    Stretch p l (l.length - trailing p l) (trailing p l) := by
  induction l using List.reverseRecOn with
  | nil => exact fun i _ hi => absurd hi (Nat.not_lt_zero i)
  | append_singleton l x ih =>
      rw [trailing_concat]
      split
      · next hx =>
        intro i hlow hhigh
        rw [List.length_append, List.length_singleton] at hlow hhigh
        have hle := trailing_le_length (p := p) (l := l)
        by_cases hlast : i = l.length
        · subst hlast
          exact ⟨x, List.getElem?_concat_length, hx⟩
        · exact ih.append [x] i (by omega) (by omega)
      · exact fun i _ hi => absurd hi (by omega)

/-- A stretch at the end is counted. -/
theorem Stretch.le_trailing {a : Nat} (h : Stretch p l a n) (hend : a + n = l.length) :
    n ≤ trailing p l := by
  induction l using List.reverseRecOn generalizing n with
  | nil =>
      rw [List.length_nil] at hend
      omega
  | append_singleton l x ih =>
      rw [List.length_append, List.length_singleton] at hend
      cases n with
      | zero => exact Nat.zero_le _
      | succ n =>
          obtain ⟨y, hy, hp⟩ := h l.length (by omega) (by omega)
          rw [List.getElem?_concat_length] at hy
          cases hy
          have hrest : Stretch p l a n :=
            Stretch.of_append (fun i hlow hhigh => h i hlow (by omega)) (by omega)
          rw [trailing_concat, if_pos hp]
          exact Nat.succ_le_succ (ih hrest (by omega))

theorem HasStretch.append (h : HasStretch p n l) (l' : List α) : HasStretch p n (l ++ l') := by
  obtain ⟨a, ha⟩ := h
  exact ⟨a, ha.append l'⟩

theorem hasStretch_of_le_trailing (h : n ≤ trailing p l) : HasStretch p n l := by
  refine ⟨l.length - n, fun i hlow hhigh => ?_⟩
  have hle := trailing_le_length (p := p) (l := l)
  exact stretch_trailing l i (by omega) (by omega)

theorem trailing_lt_of_not_hasStretch (h : ¬HasStretch p n l) : trailing p l < n :=
  Nat.lt_of_not_le fun hle => h (hasStretch_of_le_trailing hle)

theorem not_hasStretch_nil (hn : 0 < n) : ¬HasStretch p n ([] : List α) := by
  rintro ⟨a, ha⟩
  have := ha.le_length hn
  rw [List.length_nil] at this
  omega

/-- **A stretch is there as soon as it has been counted.** -/
theorem hasStretch_concat_iff (hn : 0 < n) (x : α) :
    HasStretch p n (l ++ [x]) ↔ HasStretch p n l ∨ n ≤ trailing p (l ++ [x]) := by
  constructor
  · rintro ⟨a, ha⟩
    have hle := ha.le_length hn
    rw [List.length_append, List.length_singleton] at hle
    by_cases hend : a + n ≤ l.length
    · exact .inl ⟨a, ha.of_append hend⟩
    · refine .inr (ha.le_trailing ?_)
      rw [List.length_append, List.length_singleton]
      omega
  · rintro (h | h)
    · exact h.append [x]
    · exact hasStretch_of_le_trailing h

/-! ### One stretch after another -/

/-- A stretch of one kind is followed by a stretch of another. -/
def TwoStretches (p : α → Bool) (m : Nat) (q : α → Bool) (n : Nat) (l : List α) : Prop :=
  ∃ a c, a + m ≤ c ∧ Stretch p l a m ∧ Stretch q l c n

/-- The list ends where its first stretch is complete. -/
structure Completes (p : α → Bool) (n : Nat) (l : List α) : Prop where
  has : HasStretch p n l
  first : ∀ a, Stretch p l a n → l.length ≤ a + n

theorem completes_concat {x : α} (hnot : ¬HasStretch p n l)
    (h : n ≤ trailing p (l ++ [x])) : Completes p n (l ++ [x]) where
  has := hasStretch_of_le_trailing h
  first a ha := by
    rw [List.length_append, List.length_singleton]
    by_contra hlt
    exact hnot ⟨a, ha.of_append (by omega)⟩

/-- **The first stretch can be taken to be the one that ends first.** -/
theorem twoStretches_append_iff {l' : List α} (hm : 0 < m) (h : Completes p m l) :
    TwoStretches p m q n (l ++ l') ↔ HasStretch q n l' := by
  constructor
  · rintro ⟨a, c, hle, hp, hq⟩
    have hfirst : l.length ≤ a + m := by
      by_contra hlt
      exact hlt (h.first a (hp.of_append (by omega)))
    obtain ⟨k, rfl⟩ := Nat.exists_eq_add_of_le (Nat.le_trans hfirst hle)
    exact ⟨k, stretch_append_right_iff.mp hq⟩
  · rintro ⟨c, hq⟩
    obtain ⟨a, hp⟩ := h.has
    refine ⟨a, l.length + c, ?_, hp.append l', stretch_append_right_iff.mpr hq⟩
    exact Nat.le_trans (hp.le_length hm) (Nat.le_add_right _ _)

theorem TwoStretches.hasStretch (h : TwoStretches p m q n l) : HasStretch p m l := by
  obtain ⟨a, -, -, hp, -⟩ := h
  exact ⟨a, hp⟩

end Px4Firmware.Lib
