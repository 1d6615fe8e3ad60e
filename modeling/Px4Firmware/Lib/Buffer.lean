/-!
# Px4Firmware.Lib.Buffer

Memory that is filled through a pointer. A `Buffer` has a value at each index from the pointer on,
with no end, and remembers at which of them something has been written, so that a write out of
bounds can be seen.

`put` writes a list. `forRange_put` is the rule for a loop that goes over a list that has been
written and changes one element in each round.
-/

namespace Px4Firmware.Lib

/-- The values from a pointer on, and where something has been written. -/
@[ext] structure Buffer (α : Type) where
  value : Nat → α
  written : Nat → Bool

namespace Buffer

variable {α : Type}

/-- Memory in which nothing has been written yet. -/
def fresh (value : Nat → α) : Buffer α where
  value := value
  written := fun _ => false

def write (i : Nat) (x : α) (b : Buffer α) : Buffer α where
  value := fun j => if j = i then x else b.value j
  written := fun j => j = i || b.written j

/-- Write a list, from an index on. -/
def put : Nat → List α → Buffer α → Buffer α
  | _, [], b => b
  | i, x :: xs, b => put (i + 1) xs (b.write i x)

/-- A loop over `count` indices. -/
def forRange (body : Nat → Buffer α → Buffer α) : Nat → Nat → Buffer α → Buffer α
  | 0, _, b => b
  | count + 1, i, b => forRange body count (i + 1) (body i b)

/-- The values at the first indices. -/
def firsts (count : Nat) (b : Buffer α) : List α := (List.range count).map b.value

section

variable {b : Buffer α} {i j : Nat} {x y : α} {xs : List α}

@[simp] theorem value_write_self : (b.write i x).value i = x := if_pos rfl

@[simp] theorem value_write_of_ne (h : j ≠ i) : (b.write i x).value j = b.value j := if_neg h

@[simp] theorem written_write :
    (b.write i x).written j = (decide (j = i) || b.written j) := rfl

/-- The last of two writes to the same place counts. -/
theorem write_write : (b.write i x).write i y = b.write i y := by
  ext j
  · by_cases h : j = i
    · subst h
      simp
    · simp [h]
  · simp

/-- Writes to different places commute. -/
theorem write_comm (h : i ≠ j) : (b.write i x).write j y = (b.write j y).write i x := by
  ext k
  · by_cases hi : k = i
    · subst hi
      simp [h]
    · by_cases hj : k = j
      · subst hj
        simp [hi]
      · simp [hi, hj]
  · simp [Bool.or_left_comm]

/-- A write before a list. -/
theorem write_put (h : i < j) : (put j xs b).write i x = put j xs (b.write i x) := by
  induction xs generalizing j b with
  | nil => rfl
  | cons y xs ih =>
      unfold put
      rw [ih (Nat.lt_succ_of_lt h), write_comm (Nat.ne_of_gt h)]

/-- A write over the first element of a list. -/
theorem write_put_cons : (put i (x :: xs) b).write i y = put i (y :: xs) b := by
  unfold put
  rw [write_put (Nat.lt_succ_self i), write_write]

theorem value_put_of_lt (h : i < j) : (put j xs b).value i = b.value i := by
  induction xs generalizing j b with
  | nil => rfl
  | cons y xs ih =>
      unfold put
      rw [ih (Nat.lt_succ_of_lt h), value_write_of_ne (Nat.ne_of_lt h)]

/-- A list that is written leaves the values behind it. -/
theorem value_put_of_ge (h : i + xs.length ≤ j) : (put i xs b).value j = b.value j := by
  induction xs generalizing i b with
  | nil => rfl
  | cons y xs ih =>
      rw [List.length_cons] at h
      unfold put
      rw [ih (by omega), value_write_of_ne (by omega)]

@[simp] theorem value_put_cons_self : (put i (x :: xs) b).value i = x := by
  unfold put
  rw [value_put_of_lt (Nat.lt_succ_self i), value_write_self]

/-- The values of a list that is written. -/
theorem value_put {k : Nat} (hk : k < xs.length) : (put i xs b).value (i + k) = xs[k] := by
  induction xs generalizing i k b with
  | nil => exact absurd hk (Nat.not_lt_zero k)
  | cons y xs ih =>
      cases k with
      | zero => exact value_put_cons_self
      | succ k =>
          unfold put
          rw [show i + (k + 1) = i + 1 + k by omega]
          exact ih (Nat.lt_of_succ_lt_succ hk)

theorem written_put :
    (put i xs b).written j = true ↔ i ≤ j ∧ j < i + xs.length ∨ b.written j = true := by
  induction xs generalizing i b with
  | nil =>
      rw [List.length_nil]
      exact ⟨.inr, fun h => h.resolve_left (by omega)⟩
  | cons y xs ih =>
      unfold put
      rw [ih, written_write, Bool.or_eq_true, decide_eq_true_eq, List.length_cons, ← or_assoc]
      exact or_congr_left (by omega)

/-- What is not written keeps its value. -/
theorem value_put_of_not_written (h : (put i xs b).written j ≠ true) :
    b.written j ≠ true ∧ (put i xs b).value j = b.value j := by
  rw [ne_eq, written_put, not_or] at h
  refine ⟨h.2, ?_⟩
  rcases Nat.lt_or_ge j i with hlt | hge
  · exact value_put_of_lt hlt
  · exact value_put_of_ge (by omega)

@[simp] theorem length_firsts : (b.firsts i).length = i := by
  unfold firsts
  rw [List.length_map, List.length_range]

theorem firsts_succ : b.firsts (i + 1) = b.firsts i ++ [b.value i] := by
  unfold firsts
  rw [List.range_succ, List.map_append, List.map_singleton]

/-- A list that is written from an index on leaves the values before it. -/
theorem firsts_put_of_le (h : i ≤ j) : (put j xs b).firsts i = b.firsts i := by
  unfold firsts
  refine List.map_congr_left fun k hk => value_put_of_lt ?_
  exact Nat.lt_of_lt_of_le (List.mem_range.mp hk) h

/-- A list that is written comes after the values before it. -/
theorem firsts_put : (put i xs b).firsts (i + xs.length) = b.firsts i ++ xs := by
  induction xs generalizing i b with
  | nil => exact (List.append_nil _).symm
  | cons x xs ih =>
      unfold put
      have hfirst : (b.write i x).firsts i = b.firsts i :=
        show (put i [x] b).firsts i = b.firsts i from firsts_put_of_le (Nat.le_refl i)
      rw [List.length_cons, Nat.add_comm xs.length, ← Nat.add_assoc, ih, firsts_succ,
        value_write_self, hfirst, List.append_assoc]
      rfl

/-- A write leaves the values before it. -/
theorem firsts_write_of_le (h : i ≤ j) : (b.write j x).firsts i = b.firsts i :=
  show (put j [x] b).firsts i = b.firsts i from firsts_put_of_le h

/-- A write comes after the values before it. -/
theorem firsts_write : (b.write i x).firsts (i + 1) = b.firsts i ++ [x] :=
  show (put i [x] b).firsts (i + [x].length) = b.firsts i ++ [x] from firsts_put

/-- A loop that changes one element of a list in each round. -/
theorem forRange_put {body : Nat → Buffer α → Buffer α} {f : α → α}
    (hbody : ∀ i x xs b, body i (put i (x :: xs) b) = put i (f x :: xs) b) :
    forRange body xs.length i (put i xs b) = put i (xs.map f) b := by
  induction xs generalizing i b with
  | nil => rfl
  | cons x xs ih =>
      rw [List.length_cons]
      unfold forRange
      rw [hbody, List.map_cons]
      exact ih

end

end Buffer

end Px4Firmware.Lib
