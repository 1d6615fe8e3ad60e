import Mathlib.Data.List.Nodup
import Px4Firmware.Lib.Chain

/-!
# Px4Firmware.Hrt.SqQueue

The singly linked queue of NuttX (`lib/queue/sq_*.c`), with its links as a map from
entries to entries, and what it represents: `SqQueue.Repr q l` says that the queue
holds the entries `l`, in this order.

The search of `sq_rem` does not end on a cyclic queue, so the functions that walk the
queue take fuel and return `none` when it runs out. Each has one lemma that says what it
does on a queue that represents a list, with any fuel, and how much fuel it needs.
-/

namespace Px4Firmware.Hrt

open Px4Firmware.Lib

universe u

/-- `sq_queue_t`, together with the links of all entries. -/
structure SqQueue (ι : Type u) where
  head : Option ι
  tail : Option ι
  flink : ι → Option ι

namespace SqQueue

section

variable {ι : Type u} [DecidableEq ι]

/-- Set the link of an entry. -/
def setFlink (q : SqQueue ι) (node : ι) (p : Option ι) : SqQueue ι :=
  { q with flink := Function.update q.flink node p }

/-- `sq_init`. -/
def sqInit (q : SqQueue ι) : SqQueue ι := { q with head := none, tail := none }

/-- `sq_addfirst`. -/
def sqAddfirst (node : ι) (q : SqQueue ι) : SqQueue ι :=
  let q := q.setFlink node q.head
  { q with
    tail := if q.head = none then some node else q.tail
    head := some node }

/-- `sq_addlast`. -/
def sqAddlast (node : ι) (q : SqQueue ι) : SqQueue ι :=
  let q := q.setFlink node none
  match q.head with
  | none => { q with head := some node, tail := some node }
  | some _ =>
      match q.tail with
      | some tail => { q.setFlink tail (some node) with tail := some node }
      -- its only caller has compared the tail with an entry
      | none => { q with tail := some node }

/-- `sq_addafter`. -/
def sqAddafter (prev node : ι) (q : SqQueue ι) : SqQueue ι :=
  if q.head = none ∨ some prev = q.tail then
    sqAddlast node q
  else
    (q.setFlink node (q.flink prev)).setFlink prev (some node)

/-- `sq_remafter`. -/
def sqRemafter (node : ι) (q : SqQueue ι) : SqQueue ι :=
  match q.head, q.flink node with
  | some _, some ret =>
      let q' := if q.tail = some ret then { q.setFlink node none with tail := some node }
        else q.setFlink node (q.flink ret)
      q'.setFlink ret none
  | _, _ => q

/-- The loop of `sq_rem`: the entry before `node`, from `prev` on. -/
def findPrev (flink : ι → Option ι) (node : ι) : Nat → Option ι → Option (Option ι)
  | 0, _ => none
  | _ + 1, none => some none
  | fuel + 1, some prev =>
      if flink prev = some node then some (some prev) else findPrev flink node fuel (flink prev)

/-- `sq_rem`. -/
def sqRem (fuel : Nat) (node : ι) (q : SqQueue ι) : Option (SqQueue ι) :=
  match q.head with
  | none => some q
  | some head =>
      if node = head then
        some { q with
          head := q.flink node
          tail := if q.tail = some node then none else q.tail }
      else do
        match ← findPrev q.flink node fuel (some head) with
        | none => return q
        | some prev => return sqRemafter prev q

end

/-! ### What a queue represents -/

section

variable {ι : Type u}

/-- The queue holds the entries `l`. -/
structure Repr (q : SqQueue ι) (l : List ι) : Prop where
  chain : Chain q.flink q.head l
  tail : q.tail = l.getLast?

variable {q : SqQueue ι} {l l' : List ι} {node prev : ι}

theorem Repr.nodup (h : q.Repr l) : l.Nodup := h.chain.nodup

theorem Repr.unique (h : q.Repr l) (h' : q.Repr l') : l = l' := h.chain.unique h'.chain

theorem Repr.head (h : q.Repr l) : q.head = l.head? := by
  cases l with
  | nil => exact h.chain
  | cons a l => exact h.chain.1

theorem sqInit_repr : (sqInit q).Repr [] := ⟨rfl, rfl⟩

/-- The link of an entry is the next entry. -/
theorem Repr.flink_eq (h : q.Repr (l ++ node :: l')) : q.flink node = l'.head? := by
  have htail := h.chain.tail_of_append
  cases l' with
  | nil => exact htail
  | cons a l' => exact htail.1

/-- An entry is the tail exactly when no entry follows it. -/
theorem Repr.tail_eq_iff (h : q.Repr (l ++ node :: l')) : q.tail = some node ↔ l' = [] := by
  rw [h.tail]
  constructor
  · intro hlast
    cases l' with
    | nil => rfl
    | cons a l' =>
        have hnodup := h.nodup
        have hmem : node ∈ a :: l' := by
          refine List.mem_of_getLast? ?_
          rw [← hlast, List.getLast?_append_of_ne_nil l (by simp), List.getLast?_cons_cons]
        have hnot := (List.nodup_cons.mp (List.nodup_append.mp hnodup).2.1).1
        exact absurd hmem hnot
  · rintro rfl
    simp

end

/-! ### What the operations do to it -/

section

variable {ι : Type u} [DecidableEq ι] {q : SqQueue ι} {l l' : List ι} {node prev : ι}

theorem sqAddfirst_repr (h : q.Repr l) (hnode : node ∉ l) :
    (sqAddfirst node q).Repr (node :: l) := by
  constructor
  · refine ⟨rfl, ?_⟩
    show Chain (Function.update q.flink node q.head) (Function.update q.flink node q.head node) l
    rw [Function.update_self]
    refine h.chain.congr fun a ha => Function.update_of_ne ?_ ..
    exact fun heq => hnode (heq ▸ ha)
  · show (if q.head = none then some node else q.tail) = _
    rw [h.head, h.tail]
    cases l with
    | nil => rfl
    | cons a l => simp [List.getLast?_cons_cons]

theorem sqAddafter_repr (h : q.Repr (l ++ prev :: l')) (hnode : node ∉ l ++ prev :: l') :
    (sqAddafter prev node q).Repr (l ++ prev :: node :: l') := by
  have hinsert := h.chain.insert hnode
  have hhead : q.head ≠ none := by
    rw [h.head]
    simp
  unfold sqAddafter
  by_cases hlast : q.tail = some prev
  · obtain rfl := h.tail_eq_iff.mp hlast
    rw [if_pos (.inr hlast.symm)]
    have hflink : q.flink prev = none := h.flink_eq
    obtain ⟨head, hhead⟩ := Option.ne_none_iff_exists'.mp hhead
    rw [hflink] at hinsert
    simp only [sqAddlast, setFlink, hhead, hlast] at hinsert ⊢
    exact ⟨hinsert, by simp⟩
  · rw [if_neg (by simp [hhead, Ne.symm hlast])]
    refine ⟨hinsert, ?_⟩
    show q.tail = _
    have hmore : l' ≠ [] := fun hnil => hlast (h.tail_eq_iff.mpr hnil)
    obtain ⟨a, l', rfl⟩ := List.exists_cons_of_ne_nil hmore
    rw [h.tail]
    simp [List.getLast?_append, List.getLast?_cons_cons]

theorem sqRemafter_repr (h : q.Repr (l ++ prev :: node :: l')) :
    (sqRemafter prev q).Repr (l ++ prev :: l') := by
  have hsplit : q.Repr ((l ++ [prev]) ++ node :: l') := by simpa using h
  have hhead : q.head ≠ none := by
    rw [h.head]
    simp
  obtain ⟨head, hhead⟩ := Option.ne_none_iff_exists'.mp hhead
  have hnext : q.flink prev = some node := h.flink_eq
  have hnode : node ∉ l ++ prev :: l' := by
    have hnodup := hsplit.nodup
    rw [List.nodup_middle, List.nodup_cons] at hnodup
    simpa using hnodup.1
  have hunlink (f : ι → Option ι) (hf : Chain f q.head (l ++ prev :: l')) :
      Chain (Function.update f node none) q.head (l ++ prev :: l') := by
    refine hf.congr fun a ha => Function.update_of_ne ?_ ..
    rintro rfl
    exact hnode ha
  unfold sqRemafter
  simp only [hhead, hnext]
  by_cases hlast : q.tail = some node
  · obtain rfl : l' = [] := hsplit.tail_eq_iff.mp hlast
    have herase := h.chain.erase
    rw [hsplit.flink_eq] at herase
    rw [if_pos hlast]
    exact ⟨hunlink _ herase, by simp [setFlink]⟩
  · have hmore : l' ≠ [] := fun hnil => hlast (hsplit.tail_eq_iff.mpr hnil)
    obtain ⟨a, l', rfl⟩ := List.exists_cons_of_ne_nil hmore
    rw [if_neg hlast]
    refine ⟨hunlink _ h.chain.erase, ?_⟩
    show q.tail = _
    rw [h.tail]
    simp [List.getLast?_cons_cons]

/-- The search of `sq_rem`: with enough fuel it finds the entry before `node`, or the
end when no entry after the first is `node`. -/
theorem findPrev_spec (node : ι) {flink : ι → Option ι} {p : Option ι} (h : Chain flink p l)
    (fuel : Nat) :
    match findPrev flink node fuel p with
    | none => fuel ≤ l.length
    | some none => node ∉ l.tail
    | some (some prev) => ∃ l₁ l₂, l = l₁ ++ prev :: node :: l₂ := by
  induction l generalizing p fuel with
  | nil =>
      rw [Chain.nil_iff] at h
      subst h
      cases fuel with
      | zero => exact Nat.le_refl 0
      | succ fuel => exact List.not_mem_nil
  | cons a l ih =>
      obtain ⟨rfl, hl⟩ := h
      cases fuel with
      | zero => exact Nat.zero_le _
      | succ fuel =>
          unfold findPrev
          by_cases hfound : flink a = some node
          · rw [if_pos hfound]
            cases l with
            | nil =>
                rw [Chain.nil_iff, hfound] at hl
                cases hl
            | cons b l =>
                obtain ⟨hb, -⟩ := hl
                rw [hfound] at hb
                cases hb
                exact ⟨[], l, rfl⟩
          · rw [if_neg hfound]
            -- The search goes on behind `a`, in the rest of the chain.
            have hrest := ih hl fuel
            cases hres : findPrev flink node fuel (flink a) with
            | none =>
                rw [hres] at hrest
                exact Nat.succ_le_succ hrest
            | some r =>
                rw [hres] at hrest
                cases r with
                | none =>
                    cases l with
                    | nil => exact List.not_mem_nil
                    | cons b l =>
                        have hb : b ≠ node := fun heq => hfound (heq ▸ hl.1)
                        simpa [Ne.symm hb] using hrest
                | some prev =>
                    obtain ⟨l₁, l₂, rfl⟩ := hrest
                    exact ⟨a :: l₁, l₂, rfl⟩

/-- The head of the queue is taken out. -/
theorem sqRem_head_repr (h : q.Repr (node :: l)) :
    Repr { q with
      head := q.flink node
      tail := if q.tail = some node then none else q.tail } l := by
  have hiff := Repr.tail_eq_iff (l := []) h
  refine ⟨h.chain.2, ?_⟩
  show (if q.tail = some node then none else q.tail) = _
  by_cases hlast : q.tail = some node
  · rw [if_pos hlast, hiff.mp hlast]
    rfl
  · have hmore : l ≠ [] := fun hnil => hlast (hiff.mpr hnil)
    obtain ⟨a, l, rfl⟩ := List.exists_cons_of_ne_nil hmore
    rw [if_neg hlast, h.tail, List.getLast?_cons_cons]

/-- **Taking an entry out of the queue**, if it is there. -/
theorem sqRem_spec (h : q.Repr l) (node : ι) (fuel : Nat) :
    match sqRem fuel node q with
    | none => fuel ≤ l.length
    | some q' => q'.Repr (l.erase node) := by
  unfold sqRem
  rw [h.head]
  cases l with
  | nil => exact h
  | cons a l =>
      by_cases hnode : node = a
      · subst hnode
        simp only [List.head?_cons, if_true, List.erase_cons_head]
        exact sqRem_head_repr h
      · have hsearch := findPrev_spec node h.chain fuel
        rw [h.head] at hsearch
        simp only [List.head?_cons, if_neg hnode] at hsearch ⊢
        cases hres : findPrev q.flink node fuel (some a) with
        | none =>
            rw [hres] at hsearch
            exact hsearch
        | some r =>
            rw [hres] at hsearch
            cases r with
            | none =>
                rw [List.erase_of_not_mem (by simpa [hnode] using hsearch)]
                exact h
            | some prev =>
                obtain ⟨l₁, l₂, hl⟩ := hsearch
                rw [hl] at h ⊢
                -- An entry is in the queue once, so what is found is what `erase` takes out.
                have hbefore : node ∉ l₁ ++ [prev] := by
                  have hnodup : (l₁ ++ [prev] ++ node :: l₂).Nodup := by simpa using h.nodup
                  rw [List.nodup_middle, List.nodup_cons] at hnodup
                  exact fun hmem => hnodup.1 (List.mem_append_left l₂ hmem)
                have herase : (l₁ ++ prev :: node :: l₂).erase node = l₁ ++ prev :: l₂ := by
                  have hright := List.erase_append_right (node :: l₂) hbefore
                  simpa using hright
                rw [herase]
                exact sqRemafter_repr h

end

end SqQueue

end Px4Firmware.Hrt
