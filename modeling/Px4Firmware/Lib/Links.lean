import Mathlib.Data.List.Nodup

/-!
# Px4Firmware.Lib.Links

**Doubly linked lists.** The links of the nodes are two functions `next` and `prev`;
`Linked next prev nil p l` says that from the head `p`, which stays in front, the nodes `l` follow
and are linked both ways, and that the list ends with `nil`. A node can be taken out of the list
(`Linked.unlink`) and put in between two others (`Linked.insert`) with the assignments that one
expects; the links of nodes outside of the list do not matter (`Linked.congr`).
-/

namespace Px4Firmware.Lib

universe u

variable {α : Type u}

/-- After `p` the nodes `l` follow, linked both ways, whatever comes then. -/
def Joined (next prev : α → α) : α → List α → Prop
  | _, [] => True
  | p, a :: l => next p = a ∧ prev a = p ∧ Joined next prev a l

/-- After `p` the nodes `l` follow, linked both ways, and no other. -/
def Linked (next prev : α → α) (nil : α) : α → List α → Prop
  | p, [] => next p = nil
  | p, a :: l => next p = a ∧ prev a = p ∧ Linked next prev nil a l

variable {next prev next' prev' : α → α} {nil p a : α} {l l' : List α}

namespace Joined

theorem congr (h : Joined next prev p l)
    (hnext : ∀ x ∈ (p :: l).dropLast, next' x = next x) (hprev : ∀ x ∈ l, prev' x = prev x) :
    Joined next' prev' p l := by
  induction l generalizing p with
  | nil => trivial
  | cons b l ih =>
      refine ⟨(hnext p (List.mem_cons_self ..)).trans h.1,
        (hprev b (List.mem_cons_self ..)).trans h.2.1, ih h.2.2 ?_ ?_⟩
      · exact fun x hx => hnext x (List.mem_cons_of_mem _ hx)
      · exact fun x hx => hprev x (List.mem_cons_of_mem _ hx)

end Joined

namespace Linked

/-- Nodes of an array that are linked in their order. -/
theorem of_range' (f : Nat → α) {s n : Nat}
    (hnext : ∀ i, s ≤ i → i < s + n → next (f i) = f (i + 1))
    (hprev : ∀ i, s ≤ i → i < s + n → prev (f (i + 1)) = f i) (hlast : next (f (s + n)) = nil) :
    Linked next prev nil (f s) ((List.range' (s + 1) n).map f) := by
  induction n generalizing s with
  | zero => exact hlast
  | succ n ih =>
      rw [List.range'_succ, List.map_cons]
      refine ⟨hnext s (Nat.le_refl s) (by omega), hprev s (Nat.le_refl s) (by omega), ih ?_ ?_ ?_⟩
      · exact fun i hlow hhigh => hnext i (by omega) (by omega)
      · exact fun i hlow hhigh => hprev i (by omega) (by omega)
      · rw [Nat.add_right_comm, Nat.add_assoc]
        exact hlast

theorem congr (h : Linked next prev nil p l) (hnext : ∀ x ∈ p :: l, next' x = next x)
    (hprev : ∀ x ∈ l, prev' x = prev x) : Linked next' prev' nil p l := by
  induction l generalizing p with
  | nil => exact (hnext p (List.mem_cons_self ..)).trans h
  | cons b l ih =>
      refine ⟨(hnext p (List.mem_cons_self ..)).trans h.1,
        (hprev b (List.mem_cons_self ..)).trans h.2.1, ih h.2.2 ?_ ?_⟩
      · exact fun x hx => hnext x (List.mem_cons_of_mem _ hx)
      · exact fun x hx => hprev x (List.mem_cons_of_mem _ hx)

/-- A list is what is before one of its places and what is after. -/
theorem append_iff :
    Linked next prev nil p (l ++ l') ↔
      Joined next prev p l ∧ Linked next prev nil (l.getLastD p) l' := by
  induction l generalizing p with
  | nil => exact (iff_of_eq (true_and _)).symm
  | cons b l ih =>
      rw [List.cons_append, Linked, Joined, List.getLastD_cons, ih, and_assoc, and_assoc]

/-- The successor of the last node before a place. -/
theorem next_eq (h : Linked next prev nil p (l ++ l')) : next (l.getLastD p) = l'.headD nil := by
  have htail := (append_iff.mp h).2
  cases l' with
  | nil => exact htail
  | cons b l' => exact htail.1

theorem prev_eq (h : Linked next prev nil p (l ++ a :: l')) : prev a = l.getLastD p :=
  (append_iff.mp h).2.2.1

theorem next_self (h : Linked next prev nil p (l ++ a :: l')) : next a = l'.headD nil := by
  have htail := (append_iff.mp h).2.2.2
  cases l' with
  | nil => exact htail
  | cons b l' => exact htail.1

/-- The last node of a list, or what is in front of it. -/
theorem getLastD_mem (l : List α) (p : α) : l.getLastD p ∈ p :: l := by
  induction l generalizing p with
  | nil => exact List.mem_cons_self ..
  | cons b l ih =>
      rw [List.getLastD_cons]
      exact List.mem_cons_of_mem _ (ih b)

theorem getLastD_append (l l' : List α) (p : α) :
    (l ++ l').getLastD p = l'.getLastD (l.getLastD p) := by
  induction l generalizing p with
  | nil => rfl
  | cons b l ih => rw [List.cons_append, List.getLastD_cons, List.getLastD_cons, ih]

theorem ne_getLastD (hnodup : (p :: l).Nodup) {x : α} (hx : x ∈ (p :: l).dropLast) :
    x ≠ l.getLastD p := by
  induction l generalizing p with
  | nil => simp at hx
  | cons b l ih =>
      rw [List.getLastD_cons]
      rw [List.dropLast_cons_cons, List.mem_cons] at hx
      rcases hx with rfl | hx
      · intro heq
        exact (List.nodup_cons.mp hnodup).1 (heq ▸ getLastD_mem l b)
      · exact ih (List.nodup_cons.mp hnodup).2 hx

/-- What is in front of a place keeps its links when only the last of them is changed. -/
theorem joined_of_last (h : Joined next prev p l) (hnodup : (p :: l).Nodup)
    (hnext : ∀ x ∈ p :: l, x ≠ l.getLastD p → next' x = next x)
    (hprev : ∀ x ∈ l, prev' x = prev x) : Joined next' prev' p l :=
  h.congr (fun x hx => hnext x (List.dropLast_subset _ hx) (ne_getLastD hnodup hx)) hprev

/-- What is behind a place keeps its links when it gets another predecessor. -/
theorem linked_of_first (h : Linked next prev nil p l') (hnodup : l'.Nodup)
    (hfront : next' a = l'.headD nil) (hback : ∀ c ∈ l'.head?, prev' c = a)
    (hnext : ∀ x ∈ l', next' x = next x)
    (hprev : ∀ x ∈ l', x ∉ l'.head? → prev' x = prev x) : Linked next' prev' nil a l' := by
  cases l' with
  | nil => exact hfront
  | cons c l' =>
      refine ⟨hfront, hback c rfl, h.2.2.congr hnext fun x hx => ?_⟩
      refine hprev x (List.mem_cons_of_mem _ hx) fun hhead => ?_
      have hc : c = x := Option.some.inj hhead
      exact (List.nodup_cons.mp hnodup).1 (hc ▸ hx)

/-- Take a node out: its predecessor and its successor, if there is one, are linked. -/
theorem unlink (h : Linked next prev nil p (l ++ a :: l')) (hnodup : (p :: (l ++ l')).Nodup)
    (hfront : next' (l.getLastD p) = l'.headD nil)
    (hback : ∀ c ∈ l'.head?, prev' c = l.getLastD p)
    (hnext : ∀ x ∈ p :: (l ++ l'), x ≠ l.getLastD p → next' x = next x)
    (hprev : ∀ x ∈ l ++ l', x ∉ l'.head? → prev' x = prev x) :
    Linked next' prev' nil p (l ++ l') := by
  obtain ⟨hbefore, -, -, hafter⟩ := append_iff.mp h
  rw [← List.cons_append, List.nodup_append] at hnodup
  obtain ⟨hfirst, hlast, hapart⟩ := hnodup
  refine append_iff.mpr ⟨joined_of_last hbefore hfirst ?_ ?_, ?_⟩
  · exact fun x hx => hnext x (List.mem_append_left l' hx)
  · refine fun x hx => hprev x (List.mem_append_left _ hx) fun hhead => ?_
    exact hapart x (List.mem_cons_of_mem _ hx) x (List.mem_of_mem_head? hhead) rfl
  · refine linked_of_first hafter hlast hfront hback ?_ fun x hx => hprev x (by simp [hx])
    intro x hx
    have hne := hapart _ (getLastD_mem l p) x hx
    exact hnext x (by simp [hx]) (Ne.symm hne)

/-- Put a node in between two others, or at the end. -/
theorem insert (h : Linked next prev nil p (l ++ l')) (hnodup : (p :: (l ++ l')).Nodup)
    (hfront : next' (l.getLastD p) = a) (haprev : prev' a = l.getLastD p)
    (hanext : next' a = l'.headD nil) (hback : ∀ c ∈ l'.head?, prev' c = a)
    (hnext : ∀ x ∈ p :: (l ++ l'), x ≠ l.getLastD p → next' x = next x)
    (hprev : ∀ x ∈ l ++ l', x ∉ l'.head? → prev' x = prev x) :
    Linked next' prev' nil p (l ++ a :: l') := by
  obtain ⟨hbefore, hafter⟩ := append_iff.mp h
  rw [← List.cons_append, List.nodup_append] at hnodup
  obtain ⟨hfirst, hlast, hapart⟩ := hnodup
  refine append_iff.mpr ⟨joined_of_last hbefore hfirst ?_ ?_, hfront, haprev, ?_⟩
  · exact fun x hx => hnext x (List.mem_append_left l' hx)
  · refine fun x hx => hprev x (List.mem_append_left _ hx) fun hhead => ?_
    exact hapart x (List.mem_cons_of_mem _ hx) x (List.mem_of_mem_head? hhead) rfl
  · refine linked_of_first hafter hlast hanext hback ?_ fun x hx => hprev x (by simp [hx])
    intro x hx
    have hne := hapart _ (getLastD_mem l p) x hx
    exact hnext x (by simp [hx]) (Ne.symm hne)

end Linked

end Px4Firmware.Lib
