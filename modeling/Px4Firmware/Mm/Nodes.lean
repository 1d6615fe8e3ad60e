import Mathlib.Data.List.Pairwise
import Px4Firmware.Lib.Links
import Px4Firmware.Mm.Heap

/-!
# Px4Firmware.Mm.Nodes

The list of nodes in memory: what `unlink` and `linkIn` do to it, and what the loops of `malloc` and
`mm_addfreechunk` find in it. The nodes lie apart, so that an assignment to the links of one does
not reach another.
-/

namespace Px4Firmware.Mm

open Lib Lib.Memory

/-- The nodes do not overlap. -/
def Apart (l : List Nat) : Prop :=
  l.Pairwise fun a b => a + sizeofMmFreenode ≤ b ∨ b + sizeofMmFreenode ≤ a

/-- The nodes lie in the address space, and none of them is `NULL`. -/
def Addresses (l : List Nat) : Prop := ∀ a ∈ l, 0 < a ∧ a + sizeofMmFreenode ≤ 2 ^ 32

/-- The links of the nodes. -/
def InLinks (l : List Nat) (x : Nat) : Prop := ∃ a ∈ l, a + 8 ≤ x ∧ x < a + sizeofMmFreenode

variable {m m' : Memory} {l l' : List Nat} {p a b x v fuel : Nat}

theorem Apart.apart (h : Apart l) (ha : a ∈ l) (hb : b ∈ l) :
    a = b ∨ a + 16 ≤ b ∨ b + 16 ≤ a := by
  have hsymm : Std.Symm fun a b : Nat =>
      a + sizeofMmFreenode ≤ b ∨ b + sizeofMmFreenode ≤ a := ⟨fun _ _ => Or.symm⟩
  rcases Nat.decEq a b with hne | heq
  · exact .inr (h.forall ha hb hne)
  · exact .inl heq

theorem Apart.nodup (h : Apart l) : l.Nodup :=
  h.imp fun hab => by
    simp only [sizeofMmFreenode] at hab
    omega

theorem InLinks.mono (h : InLinks l x) (hsub : l ⊆ l') : InLinks l' x := by
  obtain ⟨a, ha, hx⟩ := h
  exact ⟨a, hsub ha, hx⟩

/-! ### Read after write -/

theorem flink_setFlink (hv : v < 2 ^ 32) : flink (setFlink m a v) a = v := word_setWord hv

theorem blink_setBlink (hv : v < 2 ^ 32) : blink (setBlink m a v) a = v := word_setWord hv

theorem flink_setFlink_of_apart (h : a + 16 ≤ b ∨ b + 16 ≤ a) :
    flink (setFlink m a v) b = flink m b := word_setWord_of_ne (by omega)

theorem flink_setBlink (h : a = b ∨ a + 16 ≤ b ∨ b + 16 ≤ a) :
    flink (setBlink m a v) b = flink m b := word_setWord_of_ne (by omega)

theorem blink_setFlink (h : a = b ∨ a + 16 ≤ b ∨ b + 16 ≤ a) :
    blink (setFlink m a v) b = blink m b := word_setWord_of_ne (by omega)

theorem blink_setBlink_of_apart (h : a + 16 ≤ b ∨ b + 16 ≤ a) :
    blink (setBlink m a v) b = blink m b := word_setWord_of_ne (by omega)

theorem Kept.setFlink {S : Nat → Prop} (h : Kept S m m') (hS : ∀ x, S x → ¬ InLinks l x)
    (ha : a ∈ l) : Kept S m (setFlink m' a v) :=
  h.setWord fun x hx => by
    have hnot := hS x hx
    have hcases : ¬ (a + 8 ≤ x ∧ x < a + sizeofMmFreenode) := fun hin => hnot ⟨a, ha, hin⟩
    simp only [sizeofMmFreenode] at hcases
    omega

theorem Kept.setBlink {S : Nat → Prop} (h : Kept S m m') (hS : ∀ x, S x → ¬ InLinks l x)
    (ha : a ∈ l) : Kept S m (setBlink m' a v) :=
  h.setWord fun x hx => by
    have hnot := hS x hx
    have hcases : ¬ (a + 8 ≤ x ∧ x < a + sizeofMmFreenode) := fun hin => hnot ⟨a, ha, hin⟩
    simp only [sizeofMmFreenode] at hcases
    omega

/-! ### Out of the list and into it -/

/-- Taking a node out of the list. -/
theorem unlink_linked (h : Linked (flink m) (blink m) 0 p (l ++ a :: l'))
    (hapart : Apart (p :: (l ++ a :: l'))) (haddr : Addresses (p :: (l ++ a :: l'))) :
    ∃ m', unlink m a = some m' ∧ Linked (flink m') (blink m') 0 p (l ++ l') ∧
      Kept (fun x => ¬ InLinks (p :: (l ++ l')) x) m m' := by
  have hsub : p :: (l ++ l') ⊆ p :: (l ++ a :: l') := by
    intro x hx
    simp only [List.mem_cons, List.mem_append] at hx ⊢
    tauto
  have hnodup : (p :: (l ++ l')).Nodup := hapart.nodup.sublist (by simp)
  have hmem := Linked.getLastD_mem l p
  have hprev := Linked.prev_eq h
  have hnext := Linked.next_self h
  have ha : a ∈ p :: (l ++ a :: l') := by simp
  have hne : l.getLastD p ≠ a := by
    intro heq
    have hsplit := hapart.nodup
    rw [← List.cons_append, List.nodup_append] at hsplit
    exact hsplit.2.2 _ hmem a (List.mem_cons_self ..) heq
  generalize hb : l.getLastD p = b at hmem hprev hne
  have hlast : b ∈ p :: (l ++ l') := List.mem_append_left l' hmem
  have hpos := haddr b (hsub hlast)
  simp only [sizeofMmFreenode] at hpos
  have hba := (hapart.apart (hsub hlast) ha).resolve_left hne
  have hapart' {x : Nat} (hx : x ∈ p :: (l ++ l')) {y : Nat} (hy : y ∈ p :: (l ++ l')) :=
    hapart.apart (hsub hx) (hsub hy)
  have hflink : flink (setFlink m b (flink m a)) a = flink m a := flink_setFlink_of_apart hba
  have hblink : blink (setFlink m b (flink m a)) a = b :=
    (blink_setFlink (.inr hba)).trans hprev
  have hkept : Kept (fun x => ¬ InLinks (p :: (l ++ l')) x) m (setFlink m b (flink m a)) :=
    Kept.setFlink (.refl _ m) (fun _ hx => hx) hlast
  have hunlink : unlink m a =
      some (if flink m a ≠ 0 then setBlink (setFlink m b (flink m a)) (flink m a) b
        else setFlink m b (flink m a)) := by
    simp only [unlink, hprev, hflink, hblink]
    exact if_neg (by omega)
  cases l' with
  | nil =>
      rw [List.headD_nil] at hnext
      rw [hnext, if_neg (by decide)] at hunlink
      rw [hnext] at hkept
      refine ⟨setFlink m b 0, hunlink, ?_, hkept⟩
      refine Linked.unlink h hnodup ?_ (by simp) (fun x hx hxb => ?_) fun x hx _ => ?_
      · rw [hb]
        exact flink_setFlink (by decide)
      · rw [hb] at hxb
        exact flink_setFlink_of_apart ((hapart' hlast hx).resolve_left (Ne.symm hxb))
      · exact blink_setFlink (hapart' hlast (List.mem_cons_of_mem _ hx))
  | cons c l' =>
      rw [List.headD_cons] at hnext
      have hc : c ∈ p :: (l ++ c :: l') := by simp
      have hcpos := haddr c (hsub hc)
      simp only [sizeofMmFreenode] at hcpos
      rw [hnext, if_pos (by omega)] at hunlink
      rw [hnext] at hkept
      refine ⟨_, hunlink, ?_, Kept.setBlink hkept (fun _ hx => hx) hc⟩
      refine Linked.unlink h hnodup ?_ (fun d hd => ?_) (fun x hx hxb => ?_) fun x hx hxc => ?_
      · rw [hb, flink_setBlink (hapart' hc hlast)]
        exact flink_setFlink (by omega)
      · rw [hb, ← Option.some.inj hd]
        exact blink_setBlink (by omega)
      · rw [hb] at hxb
        rw [flink_setBlink (hapart' hc hx)]
        exact flink_setFlink_of_apart ((hapart' hlast hx).resolve_left (Ne.symm hxb))
      · have hx' : x ∈ p :: (l ++ c :: l') := List.mem_cons_of_mem _ hx
        have hcx : c ≠ x := fun heq => hxc (by rw [heq]; rfl)
        rw [blink_setBlink_of_apart ((hapart' hc hx').resolve_left hcx)]
        exact blink_setFlink (hapart' hlast hx')

/-- Putting a node in the list. -/
theorem linkIn_linked (h : Linked (flink m) (blink m) 0 p (l ++ l'))
    (hapart : Apart (p :: (l ++ a :: l'))) (haddr : Addresses (p :: (l ++ a :: l'))) :
    Linked (flink (linkIn m (l.getLastD p) a (l'.headD 0)))
        (blink (linkIn m (l.getLastD p) a (l'.headD 0))) 0 p (l ++ a :: l') ∧
      Kept (fun x => ¬ InLinks (p :: (l ++ a :: l')) x) m
        (linkIn m (l.getLastD p) a (l'.headD 0)) := by
  have hsub : p :: (l ++ l') ⊆ p :: (l ++ a :: l') := by
    intro x hx
    simp only [List.mem_cons, List.mem_append] at hx ⊢
    tauto
  have hnodup : (p :: (l ++ l')).Nodup := hapart.nodup.sublist (by simp)
  have hmem := Linked.getLastD_mem l p
  have ha : a ∈ p :: (l ++ a :: l') := by simp
  have hnea {x : Nat} (hx : x ∈ p :: (l ++ l')) : x + 16 ≤ a ∨ a + 16 ≤ x := by
    refine (hapart.apart (hsub hx) ha).resolve_left fun heq => ?_
    have hperm : ((p :: l) ++ a :: l').Perm (a :: ((p :: l) ++ l')) := List.perm_middle
    exact (List.nodup_cons.mp (hperm.nodup_iff.mp hapart.nodup)).1 (heq ▸ hx)
  generalize hb : l.getLastD p = b at hmem
  have hlast : b ∈ p :: (l ++ l') := List.mem_append_left l' hmem
  have hpos := haddr b (hsub hlast)
  have hapos := haddr a ha
  simp only [sizeofMmFreenode] at hpos hapos
  have hapart' {x : Nat} (hx : x ∈ p :: (l ++ l')) {y : Nat} (hy : y ∈ p :: (l ++ l')) :=
    hapart.apart (hsub hx) (hsub hy)
  have hba := hnea hlast
  have hkept : Kept (fun x => ¬ InLinks (p :: (l ++ a :: l')) x) m
      (setFlink (setBlink (setFlink m b a) a b) a (l'.headD 0)) :=
    Kept.setFlink (Kept.setBlink (Kept.setFlink (.refl _ m) (fun _ hx => hx) (hsub hlast))
      (fun _ hx => hx) ha) (fun _ hx => hx) ha
  -- the links of the other nodes so far
  have hflink {x : Nat} (hx : x ∈ p :: (l ++ l')) (hxb : x ≠ b) (v : Nat) :
      flink (setFlink (setBlink (setFlink m b a) a b) a v) x = flink m x := by
    have hax := (hnea hx).symm
    rw [flink_setFlink_of_apart hax, flink_setBlink (.inr hax)]
    exact flink_setFlink_of_apart ((hapart' hlast hx).resolve_left (Ne.symm hxb))
  have hblink {x : Nat} (hx : x ∈ p :: (l ++ l')) (v : Nat) :
      blink (setFlink (setBlink (setFlink m b a) a b) a v) x = blink m x := by
    have hax := (hnea hx).symm
    rw [blink_setFlink (.inr hax), blink_setBlink_of_apart hax]
    exact blink_setFlink (hapart' hlast hx)
  have hfront (v : Nat) : flink (setFlink (setBlink (setFlink m b a) a b) a v) b = a := by
    rw [flink_setFlink_of_apart hba.symm, flink_setBlink (.inr hba.symm)]
    exact flink_setFlink (by omega)
  have hback (v : Nat) : blink (setFlink (setBlink (setFlink m b a) a b) a v) a = b := by
    rw [blink_setFlink (.inl rfl)]
    exact blink_setBlink (by omega)
  cases l' with
  | nil =>
      have hlink : linkIn m b a (([] : List Nat).headD 0) =
          setFlink (setBlink (setFlink m b a) a b) a 0 := by
        rw [List.headD_nil, linkIn, if_neg (by simp)]
      rw [hlink]
      refine ⟨Linked.insert h hnodup ?_ ?_ ?_ (by simp) (fun x hx hxb => ?_) fun x hx _ => ?_,
        hkept⟩
      · rw [hb]
        exact hfront 0
      · rw [hb]
        exact hback 0
      · exact flink_setFlink (by decide)
      · rw [hb] at hxb
        exact hflink hx hxb 0
      · exact hblink (List.mem_cons_of_mem _ hx) 0
  | cons c l' =>
      have hc : c ∈ p :: (l ++ c :: l') := by simp
      have hcpos := haddr c (hsub hc)
      simp only [sizeofMmFreenode] at hcpos
      have hac := hnea hc
      have hlink : linkIn m b a ((c :: l').headD 0) =
          setBlink (setFlink (setBlink (setFlink m b a) a b) a c) c a := by
        rw [List.headD_cons, linkIn, if_pos (by omega)]
      rw [hlink]
      refine ⟨Linked.insert h hnodup ?_ ?_ ?_ (fun d hd => ?_) (fun x hx hxb => ?_)
        fun x hx hxc => ?_, Kept.setBlink hkept (fun _ hx => hx) (hsub hc)⟩
      · rw [hb, flink_setBlink (hapart' hc hlast)]
        exact hfront c
      · rw [hb, blink_setBlink_of_apart hac]
        exact hback c
      · rw [flink_setBlink (.inr hac)]
        exact flink_setFlink (by omega)
      · rw [← Option.some.inj hd]
        exact blink_setBlink (by omega)
      · rw [hb] at hxb
        rw [flink_setBlink (hapart' hc hx)]
        exact hflink hx hxb c
      · have hx' : x ∈ p :: (l ++ c :: l') := List.mem_cons_of_mem _ hx
        have hcx : c ≠ x := fun heq => hxc (by rw [heq]; rfl)
        rw [blink_setBlink_of_apart ((hapart' hc hx').resolve_left hcx)]
        exact hblink hx' c

/-! ### The searches -/

/-- The nodes that `mm_addfreechunk` walks past. -/
def smaller (m : Memory) (newSize a : Nat) : Bool := size m a ≠ 0 ∧ size m a < newSize

theorem findPlace_eq (needed : Nat) (h : Linked (flink m) (blink m) 0 p l) (haddr : Addresses l)
    (hfuel : l.length < fuel) :
    findPlace m needed fuel p (flink m p) =
      some ((l.takeWhile (smaller m needed)).getLastD p,
        (l.dropWhile (smaller m needed)).headD 0) := by
  induction l generalizing p fuel with
  | nil =>
      cases fuel with
      | zero => omega
      | succ fuel =>
          rw [findPlace, if_neg fun hnext => hnext.1 h]
          simp [show flink m p = 0 from h]
  | cons a l ih =>
      cases fuel with
      | zero => simp at hfuel
      | succ fuel =>
          have ha := (haddr a (List.mem_cons_self ..)).1
          rw [findPlace, h.1]
          by_cases hsmall : smaller m needed a = true
          · have hcases : size m a ≠ 0 ∧ size m a < needed := by simpa [smaller] using hsmall
            rw [if_pos ⟨by omega, hcases⟩, List.takeWhile_cons_of_pos hsmall,
              List.dropWhile_cons_of_pos hsmall, List.getLastD_cons]
            exact ih h.2.2 (fun b hb => haddr b (List.mem_cons_of_mem _ hb))
              (Nat.lt_of_succ_lt_succ hfuel)
          · have hcases : ¬ (size m a ≠ 0 ∧ size m a < needed) := by simpa [smaller] using hsmall
            rw [if_neg fun hall => hcases hall.2, List.takeWhile_cons_of_neg hsmall,
              List.dropWhile_cons_of_neg hsmall]
            rfl

theorem findChunk_eq (needed : Nat) (h : Linked (flink m) (blink m) 0 p l) (haddr : Addresses l)
    (hfuel : l.length < fuel) :
    findChunk m needed fuel (flink m p) =
      some ((l.find? fun a => needed ≤ size m a).getD 0) := by
  induction l generalizing p fuel with
  | nil =>
      cases fuel with
      | zero => omega
      | succ fuel =>
          rw [findChunk, if_neg fun hnext => hnext.1 h]
          simp [show flink m p = 0 from h]
  | cons a l ih =>
      cases fuel with
      | zero => simp at hfuel
      | succ fuel =>
          have ha := (haddr a (List.mem_cons_self ..)).1
          rw [findChunk, h.1]
          by_cases hlarge : needed ≤ size m a
          · rw [if_neg (by omega), List.find?_cons_of_pos (by simpa using hlarge)]
            rfl
          · rw [if_pos (by omega), List.find?_cons_of_neg (by simpa using hlarge)]
            exact ih h.2.2 (fun b hb => haddr b (List.mem_cons_of_mem _ hb))
              (Nat.lt_of_succ_lt_succ hfuel)

end Px4Firmware.Mm
