/-!
# Px4Firmware.Lib.OpenRing

**A ring with an open slot.** Its elements are queued between two indices: `oldest` is the place of
the oldest one, `next` that of the open slot, which is edited in place before it is posted. When the
ring is full, posting tosses the oldest element.

`OpenRing.Holds r l` says that the elements of `l` are queued in `r`, the oldest first. Each
operation has a lemma about it: the ring is a queue that never holds more than its slots less one.
-/

namespace Px4Firmware.Lib

/-- A ring. -/
structure OpenRing (α : Type) where
  slots : List α
  next : Nat
  oldest : Nat
  deriving DecidableEq

namespace OpenRing

variable {α : Type}

/-- The index after another. -/
def after (r : OpenRing α) (i : Nat) : Nat := if r.slots.length ≤ i + 1 then 0 else i + 1

/-- Change the open slot. -/
def edit (f : α → α) (r : OpenRing α) : OpenRing α := { r with slots := r.slots.modify r.next f }

/-- Queue what the open slot has, and toss the oldest element if there is no other slot to open. -/
def post (r : OpenRing α) : OpenRing α :=
  let r := { r with next := r.after r.next }
  if r.next = r.oldest then { r with oldest := r.after r.oldest } else r

/-- Take the oldest element out. -/
def pop (r : OpenRing α) : OpenRing α := { r with oldest := r.after r.oldest }

/-- How many elements are queued. -/
def queued (r : OpenRing α) : Nat :=
  if r.oldest ≤ r.next then r.next - r.oldest else r.next + r.slots.length - r.oldest

/-- The place of an element, by the number of those before it. -/
def place (r : OpenRing α) (i : Nat) : Nat :=
  if r.oldest + i < r.slots.length then r.oldest + i else r.oldest + i - r.slots.length

/-- The elements of `l` are queued, the oldest first. -/
structure Holds (r : OpenRing α) (l : List α) : Prop where
  oldest_lt : r.oldest < r.slots.length
  length_lt : l.length < r.slots.length
  next_eq : r.next = r.place l.length
  slot : ∀ i, i < l.length → r.slots[r.place i]? = l[i]?

variable {r : OpenRing α} {l : List α}

@[simp] theorem length_edit (f : α → α) : (r.edit f).slots.length = r.slots.length := by
  simp [edit]

theorem edit_edit (f g : α → α) : (r.edit f).edit g = r.edit (g ∘ f) := by
  simp [edit, List.modify_modify_eq]

@[simp] theorem length_post : r.post.slots.length = r.slots.length := by
  dsimp only [post]
  split <;> rfl

/-- The places after the oldest element is out. -/
theorem place_pop (h : r.oldest < r.slots.length) {i : Nat} (hi : i < r.slots.length) :
    r.pop.place i = r.place (i + 1) := by
  dsimp only [pop, place, after]
  split <;> split <;> split <;> omega

/-- A ring whose indices are equal is empty. -/
theorem holds_nil (h : r.oldest < r.slots.length) (heq : r.next = r.oldest) : r.Holds [] where
  oldest_lt := h
  length_lt := Nat.zero_lt_of_lt h
  next_eq := by simp [place, h, heq]
  slot i hi := absurd hi (Nat.not_lt_zero i)

namespace Holds

theorem next_lt (h : r.Holds l) : r.next < r.slots.length := by
  have := h.oldest_lt
  have := h.length_lt
  rw [h.next_eq, place]
  split <;> omega

theorem queued_eq (h : r.Holds l) : r.queued = l.length := by
  have := h.oldest_lt
  have := h.length_lt
  rw [queued, h.next_eq, place]
  split <;> split <;> omega

/-- No element is in the open slot. -/
theorem place_ne_next (h : r.Holds l) {i : Nat} (hi : i < l.length) : r.place i ≠ r.next := by
  have := h.oldest_lt
  have := h.length_lt
  rw [h.next_eq, place, place]
  split <;> split <;> omega

/-- Editing the open slot changes no element. -/
theorem edit (h : r.Holds l) (f : α → α) : (r.edit f).Holds l where
  oldest_lt := by simpa [OpenRing.edit] using h.oldest_lt
  length_lt := by simpa [OpenRing.edit] using h.length_lt
  next_eq := by simpa [OpenRing.edit, place] using h.next_eq
  slot i hi := by
    have hplace : (r.edit f).place i = r.place i := by simp [OpenRing.edit, place]
    have hne := (h.place_ne_next hi).symm
    rw [hplace, ← h.slot i hi, OpenRing.edit, List.getElem?_modify]
    simp [hne]

/-- What is queued at the end comes after the others, as long as there is another slot to open. -/
theorem post_of_room (h : r.Holds l) {x : α} (hx : r.slots[r.next]? = some x)
    (hroom : l.length + 1 < r.slots.length) :
    r.post.Holds (l ++ [x]) ∧ r.post.oldest = r.oldest := by
  have hlt := h.oldest_lt
  have hnext : r.after r.next = r.place (l.length + 1) := by
    rw [h.next_eq, after, place, place]
    split <;> split <;> split <;> omega
  have hne : r.place (l.length + 1) ≠ r.oldest := by
    rw [place]
    split <;> omega
  have hpost : r.post = { r with next := r.place (l.length + 1) } := by
    simp [OpenRing.post, hnext, hne]
  rw [hpost]
  refine ⟨⟨hlt, by simpa using hroom, by simp [place], fun i hi => ?_⟩, rfl⟩
  rw [List.length_append, List.length_singleton] at hi
  show r.slots[r.place i]? = (l ++ [x])[i]?
  by_cases hlast : i = l.length
  · rw [hlast, ← h.next_eq, hx, List.getElem?_concat_length]
  · rw [List.getElem?_append_left (by omega)]
    exact h.slot i (by omega)

/-- The oldest element is tossed when there is none. -/
theorem post_of_full (h : r.Holds l) {x : α} (hx : r.slots[r.next]? = some x)
    (hfull : l.length + 1 = r.slots.length) (hpos : 0 < l.length) :
    r.post.Holds (l.tail ++ [x]) ∧ r.post.oldest ≠ r.oldest := by
  have hlt := h.oldest_lt
  have hnext : r.after r.next = r.oldest := by
    rw [h.next_eq, after, place]
    split <;> split <;> omega
  have hpost : r.post = { r.pop with next := r.oldest } := by
    simp [OpenRing.post, OpenRing.pop, hnext]
    rfl
  rw [hpost]
  refine ⟨⟨?_, ?_, ?_, fun i hi => ?_⟩, ?_⟩
  · dsimp only [OpenRing.pop, after]
    split <;> omega
  · rw [List.length_append, List.length_tail, List.length_singleton]
    dsimp only [OpenRing.pop]
    omega
  · rw [List.length_append, List.length_tail, List.length_singleton]
    show r.oldest = r.pop.place (l.length - 1 + 1)
    rw [Nat.sub_add_cancel hpos, place_pop hlt (by omega), place]
    split <;> omega
  · rw [List.length_append, List.length_tail, List.length_singleton] at hi
    show r.slots[r.pop.place i]? = (l.tail ++ [x])[i]?
    rw [place_pop hlt (by omega)]
    by_cases hlast : i + 1 = l.length
    · rw [hlast, ← h.next_eq, hx, List.getElem?_append_right (by simp; omega), List.length_tail,
        show i - (l.length - 1) = 0 by omega]
      rfl
    · rw [List.getElem?_append_left (by simp; omega), List.getElem?_tail]
      exact h.slot (i + 1) (by omega)
  · dsimp only [OpenRing.pop, after]
    split <;> omega

/-- The oldest element is at its index. -/
theorem pop {x : α} (h : r.Holds (x :: l)) :
    r.oldest ≠ r.next ∧ r.slots[r.oldest]? = some x ∧ r.pop.Holds l := by
  have hlt := h.oldest_lt
  have hlength := h.length_lt
  rw [List.length_cons] at hlength
  refine ⟨?_, ?_, ?_, ?_, ?_, fun i hi => ?_⟩
  · rw [h.next_eq, List.length_cons, place]
    split <;> omega
  · have hfirst := h.slot 0 (Nat.succ_pos _)
    rwa [place, Nat.add_zero, if_pos hlt] at hfirst
  · dsimp only [OpenRing.pop, after]
    split <;> omega
  · dsimp only [OpenRing.pop]
    omega
  · rw [place_pop hlt (by omega)]
    exact h.next_eq
  · rw [place_pop hlt (by omega)]
    exact h.slot (i + 1) (Nat.succ_lt_succ hi)

theorem eq_next (h : r.Holds []) : r.oldest = r.next := by
  rw [h.next_eq, place]
  simp [h.oldest_lt]

end Holds

end OpenRing

end Px4Firmware.Lib
