import Mathlib.Data.List.Basic
import Mathlib.Logic.Function.Basic

/-!
# Px4Firmware.Lib.Chain

**Singly linked chains.** A chain is a heap of links `next : ι → Option ι` and a place
to start; `Chain next p l` says that following the links from `p` visits exactly the
nodes `l` and then ends. The nodes are of an arbitrary type, and the rules are those
that a list manipulated in place needs: a link that is not on the chain may change
(`Chain.congr`), a node may be put in after another one (`Chain.insert`), and the node
after another one may be taken out (`Chain.erase`).
-/

namespace Px4Firmware.Lib

universe u

variable {ι : Type u}

/-- From `p`, the links visit the nodes `l` and end. -/
def Chain (next : ι → Option ι) : Option ι → List ι → Prop
  | p, [] => p = none
  | p, a :: l => p = some a ∧ Chain next (next a) l

namespace Chain

variable {next next' : ι → Option ι} {p : Option ι} {l l' : List ι} {a b e : ι}

@[simp] theorem nil_iff : Chain next p [] ↔ p = none := Iff.rfl

@[simp] theorem cons_iff : Chain next p (a :: l) ↔ p = some a ∧ Chain next (next a) l := Iff.rfl

/-- From one place the links visit one list. -/
theorem unique (h : Chain next p l) (h' : Chain next p l') : l = l' := by
  induction l generalizing p l' with
  | nil =>
      cases l' with
      | nil => rfl
      | cons b l' =>
          rw [nil_iff] at h
          rw [h] at h'
          cases h'.1
  | cons a l ih =>
      cases l' with
      | nil =>
          rw [nil_iff] at h'
          rw [h'] at h
          cases h.1
      | cons b l' =>
          obtain ⟨rfl, hl⟩ := h
          obtain ⟨hab, hl'⟩ := h'
          cases hab
          rw [ih hl hl']

/-- The chain after a node. -/
theorem tail_of_append (h : Chain next p (l ++ a :: l')) : Chain next (next a) l' := by
  induction l generalizing p with
  | nil => exact h.2
  | cons b l ih => exact ih h.2

/-- No node is visited twice. -/
theorem nodup (h : Chain next p l) : l.Nodup := by
  induction l generalizing p with
  | nil => exact List.nodup_nil
  | cons a l ih =>
      refine List.nodup_cons.mpr ⟨fun ha => ?_, ih h.2⟩
      obtain ⟨l₁, l₂, rfl⟩ := List.append_of_mem ha
      have hlen := congrArg List.length (unique h.2 (tail_of_append h.2))
      simp only [List.length_append, List.length_cons] at hlen
      omega

/-- A node that links to itself is on no chain. -/
theorem ne_self (h : Chain next (some a) l) : next a ≠ some a := by
  intro hself
  cases l with
  | nil => cases h
  | cons b l =>
      obtain ⟨hab, hl⟩ := h
      cases hab
      have hnodup := nodup (l := a :: l) ⟨rfl, hl⟩
      rw [hself] at hl
      cases l with
      | nil => cases hl
      | cons c l =>
          cases hl.1
          exact (List.nodup_cons.mp hnodup).1 (List.mem_cons_self ..)

/-- Links that are not on the chain may change. -/
theorem congr (h : Chain next p l) (hnext : ∀ a ∈ l, next' a = next a) : Chain next' p l := by
  induction l generalizing p with
  | nil => exact h
  | cons a l ih =>
      refine ⟨h.1, ?_⟩
      rw [hnext a (List.mem_cons_self ..)]
      exact ih h.2 fun b hb => hnext b (List.mem_cons_of_mem _ hb)

variable [DecidableEq ι]

/-- Put a node in after another one. -/
theorem insert (h : Chain next p (l ++ a :: l')) (he : e ∉ l ++ a :: l') :
    Chain (Function.update (Function.update next e (next a)) a (some e)) p (l ++ a :: e :: l') := by
  have hnodup := nodup h
  induction l generalizing p with
  | nil =>
      simp only [List.nil_append, List.mem_cons, not_or, List.nodup_cons] at he hnodup ⊢
      refine ⟨h.1, Function.update_self .., ?_⟩
      rw [Function.update_of_ne he.1, Function.update_self]
      refine congr h.2 fun b hb => ?_
      have hba : b ≠ a := fun heq => hnodup.1 (heq ▸ hb)
      have hbe : b ≠ e := fun heq => he.2 (heq ▸ hb)
      rw [Function.update_of_ne hba, Function.update_of_ne hbe]
  | cons b l ih =>
      simp only [List.cons_append, List.mem_cons, not_or, List.nodup_cons] at he hnodup ⊢
      refine ⟨h.1, ?_⟩
      have hba : b ≠ a := fun heq =>
        hnodup.1 (heq ▸ List.mem_append_right l (List.mem_cons_self ..))
      rw [Function.update_of_ne hba, Function.update_of_ne (Ne.symm he.1)]
      exact ih h.2 he.2 hnodup.2

/-- Take out the node after another one. -/
theorem erase (h : Chain next p (l ++ a :: b :: l')) :
    Chain (Function.update next a (next b)) p (l ++ a :: l') := by
  have hnodup := nodup h
  induction l generalizing p with
  | nil =>
      simp only [List.nil_append, List.nodup_cons, List.mem_cons, not_or] at hnodup ⊢
      refine ⟨h.1, ?_⟩
      rw [Function.update_self]
      refine congr h.2.2 fun c hc => Function.update_of_ne ?_ ..
      exact fun heq => hnodup.1.2 (heq ▸ hc)
  | cons c l ih =>
      simp only [List.cons_append, List.nodup_cons] at hnodup ⊢
      refine ⟨h.1, ?_⟩
      have hca : c ≠ a := fun heq =>
        hnodup.1 (heq ▸ List.mem_append_right l (List.mem_cons_self ..))
      rw [Function.update_of_ne hca]
      exact ih h.2 hnodup.2

end Chain

end Px4Firmware.Lib
