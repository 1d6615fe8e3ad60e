import Mathlib.Data.List.Perm.Basic
import Mathlib.Data.List.TakeWhile
import Px4Firmware.Mm.Nodes

/-!
# Px4Firmware.Mm.FreeList

**The list of free chunks.** Its entries are the hooks of `g_nodelist` and the free chunks, sorted:
a hook comes before the chunks of its size class and after the smaller ones. So the search of
`malloc`, which begins at a hook, misses no chunk that is large enough, and the first one it finds
is the smallest (`FreeList.findChunk_spec`).
-/

namespace Px4Firmware.Mm

open Lib Lib.Memory

/-- A node of the list. -/
inductive Entry where
  | hook (ndx : Nat)
  | chunk (addr size : Nat)
deriving DecidableEq

namespace Entry

variable (g : Globals)

def addr : Entry → Nat
  | hook ndx => g.hook ndx
  | chunk addr _ => addr

def size : Entry → Nat
  | hook _ => 0
  | chunk _ size => size

/-- The order of the list. -/
def key : Entry → Nat
  | hook ndx => 2 ^ (ndx + 5) - 1
  | chunk _ size => 2 * size

/-- There is such a hook, or such a chunk could be free. -/
def Valid : Entry → Prop
  | hook ndx => ndx < mmNnodes
  | chunk _ size => sizeofMmFreenode ≤ size

@[simp] theorem addr_hook (i : Nat) : (hook i).addr g = g.hook i := rfl

@[simp] theorem addr_chunk (a s : Nat) : (chunk a s).addr g = a := rfl

@[simp] theorem size_hook (i : Nat) : (hook i).size = 0 := rfl

@[simp] theorem size_chunk (a s : Nat) : (chunk a s).size = s := rfl

@[simp] theorem key_hook (i : Nat) : (hook i).key = 2 ^ (i + 5) - 1 := rfl

@[simp] theorem key_chunk (a s : Nat) : (chunk a s).key = 2 * s := rfl

end Entry

/-- Where the entries are. -/
def addrs (g : Globals) (es : List Entry) : List Nat := es.map (Entry.addr g)

/-- The entries are nodes that do not overlap. -/
structure NodesAt (g : Globals) (es : List Entry) : Prop where
  apart : Apart (addrs g es)
  addresses : Addresses (addrs g es)
  valid : ∀ e ∈ es, e.Valid

/-- The entries of a list, of which the first is the hook for the smallest chunks, are linked in
memory. -/
structure FreeList (g : Globals) (m : Memory) (es : List Entry) : Prop where
  linked : Linked (flink m) (blink m) 0 (g.hook 0) (addrs g es)
  sizes : ∀ e ∈ .hook 0 :: es, size m (e.addr g) = e.size
  sorted : (.hook 0 :: es).Pairwise fun e e' => e.key ≤ e'.key
  hooks : ∀ i < mmNnodes, .hook i ∈ Entry.hook 0 :: es

variable {g : Globals} {m m' : Memory} {e : Entry} {es es' xs ys : List Entry} {a s x needed : Nat}

@[simp] theorem addrs_nil : addrs g [] = [] := rfl

@[simp] theorem addrs_cons : addrs g (e :: es) = e.addr g :: addrs g es := rfl

@[simp] theorem addrs_append : addrs g (es ++ es') = addrs g es ++ addrs g es' := List.map_append

theorem mem_addrs (h : e ∈ es) : e.addr g ∈ addrs g es := List.mem_map_of_mem h

/-! ### Nodes -/

theorem NodesAt.sublist (h : NodesAt g es) (hsub : es'.Sublist es) : NodesAt g es' where
  apart := h.apart.sublist (hsub.map _)
  addresses := fun a ha => h.addresses a ((hsub.map _).subset ha)
  valid := fun e he => h.valid e (hsub.subset he)

theorem NodesAt.perm (h : NodesAt g es) (hperm : es.Perm es') : NodesAt g es' where
  apart := by
    refine ((hperm.map (Entry.addr g)).pairwise_iff fun hab => ?_).mp h.apart
    exact hab.symm
  addresses := fun a ha => h.addresses a ((hperm.map _).symm.subset ha)
  valid := fun e he => h.valid e (hperm.symm.subset he)

theorem NodesAt.nodup (h : NodesAt g es) : es.Nodup :=
  List.Nodup.of_map _ (Apart.nodup h.apart)

/-- The headers of nodes are not among the links. -/
theorem NodesAt.header (h : NodesAt g es) (he : e ∈ es) (hlow : e.addr g ≤ x)
    (hhigh : x < e.addr g + 8) : ¬ InLinks (addrs g es) x := by
  intro hin
  obtain ⟨b, hb, hblow, hbhigh⟩ := hin
  have := h.apart.apart (mem_addrs he) hb
  simp only [sizeofMmFreenode] at hbhigh
  omega

/-! ### Size classes -/

theorem mmSize2ndxLoop_spec (ndx : Nat) {s : Nat} (hs : 0 < s) :
    ∃ k, mmSize2ndxLoop ndx s = ndx + k ∧ 2 ^ k ≤ s ∧ s < 2 ^ (k + 1) := by
  induction s using Nat.strongRecOn generalizing ndx with
  | ind s ih =>
      rw [mmSize2ndxLoop]
      by_cases hmore : s > 1
      · obtain ⟨k, hk, hlow, hhigh⟩ := ih (s / 2) (by omega) (ndx + 1) (by omega)
        rw [if_pos hmore]
        refine ⟨k + 1, by rw [hk]; omega, ?_, ?_⟩
        · rw [Nat.pow_succ]
          omega
        · rw [Nat.pow_succ]
          omega
      · rw [if_neg hmore]
        exact ⟨0, rfl, by omega, by omega⟩

/-- The class of a size. -/
theorem mmSize2ndx_spec (hs : sizeofMmFreenode ≤ s) :
    mmSize2ndx s < mmNnodes ∧ 2 ^ (mmSize2ndx s + 4) ≤ s ∧
      (mmSize2ndx s + 1 < mmNnodes → s < 2 ^ (mmSize2ndx s + 5)) := by
  simp only [sizeofMmFreenode] at hs
  rw [mmSize2ndx]
  by_cases hmax : s ≥ mmMaxChunk
  · rw [if_pos hmax]
    refine ⟨by decide, hmax, fun hlt => ?_⟩
    exact absurd hlt (by decide)
  · rw [if_neg hmax]
    obtain ⟨k, hk, hlow, hhigh⟩ := mmSize2ndxLoop_spec 0 (s := s / 2 ^ mmMinShift)
      (by simp only [mmMinShift]; omega)
    rw [hk, Nat.zero_add]
    simp only [mmMinShift, mmMaxChunk, mmMaxShift] at hlow hhigh hmax
    have hlt : k < 18 := by
      by_contra hge
      have := Nat.pow_le_pow_right (show 0 < 2 by decide) (Nat.le_of_not_lt hge)
      omega
    refine ⟨?_, ?_, fun _ => ?_⟩
    · simp only [mmNnodes, mmMaxShift, mmMinShift]
      omega
    · rw [Nat.pow_add]
      omega
    · rw [Nat.pow_add, Nat.pow_succ] at *
      omega

/-! ### Parts of a sorted list -/

theorem key_le_getLastD {p : Entry} (h : (p :: es).Pairwise fun e e' => e.key ≤ e'.key)
    (he : e ∈ p :: es) : e.key ≤ (es.getLastD p).key := by
  induction es generalizing p e with
  | nil =>
      rw [List.mem_singleton.mp he]
      exact Nat.le_refl _
  | cons q es ih =>
      rw [List.getLastD_cons]
      obtain ⟨hp, hq⟩ := List.pairwise_cons.mp h
      rcases List.mem_cons.mp he with rfl | he
      · exact Nat.le_trans (hp q (List.mem_cons_self ..)) (ih hq (List.mem_cons_self ..))
      · exact ih hq he

/-- A place in a list after one of its entries. -/
theorem exists_after {p : Entry} (h : e ∈ p :: es) :
    ∃ xs ys, es = xs ++ ys ∧ xs.getLastD p = e := by
  rcases List.mem_cons.mp h with rfl | h
  · exact ⟨[], es, rfl, rfl⟩
  · obtain ⟨xs, ys, rfl⟩ := List.append_of_mem h
    exact ⟨xs ++ [e], ys, by simp, by simp⟩

theorem addrs_getLastD (es : List Entry) (e : Entry) :
    (addrs g es).getLastD (e.addr g) = (es.getLastD e).addr g := by
  induction es generalizing e with
  | nil => rfl
  | cons e' es ih => rw [addrs_cons, List.getLastD_cons, List.getLastD_cons, ih]

/-- Insertion into a sorted list. -/
theorem sorted_insert (h : (xs ++ ys).Pairwise fun e e' => e.key ≤ e'.key)
    (hxs : ∀ e' ∈ xs, e'.key ≤ e.key) (hys : ∀ e' ∈ ys, e.key ≤ e'.key) :
    (xs ++ e :: ys).Pairwise fun e e' => e.key ≤ e'.key := by
  obtain ⟨hx, hy, hxy⟩ := List.pairwise_append.mp h
  refine List.pairwise_append.mpr ⟨hx, List.pairwise_cons.mpr ⟨hys, hy⟩, fun e₁ h₁ e₂ h₂ => ?_⟩
  rcases List.mem_cons.mp h₂ with rfl | h₂
  · exact hxs e₁ h₁
  · exact hxy e₁ h₁ e₂ h₂

namespace FreeList

/-- Only the sizes and the links of the entries matter. -/
theorem congr (h : FreeList g m es)
    (hsize : ∀ e ∈ .hook 0 :: es, ∀ x, e.addr g ≤ x → x < e.addr g + 4 → m' x = m x)
    (hlink : ∀ x, InLinks (addrs g (.hook 0 :: es)) x → m' x = m x) : FreeList g m' es where
  linked := by
    have hin (a : Nat) (ha : a ∈ addrs g (.hook 0 :: es)) (x : Nat) (hlow : a + 8 ≤ x)
        (hhigh : x < a + 16) : m' x = m x := hlink x ⟨a, ha, hlow, hhigh⟩
    refine h.linked.congr (fun a ha => ?_) fun a ha => ?_
    · exact word_congr fun x hlow hhigh => hin a ha x hlow (by omega)
    · refine word_congr fun x hlow hhigh => hin a (List.mem_cons_of_mem _ ha) x (by omega) ?_
      omega
  sizes := fun e he => (word_congr fun x hlow hhigh => hsize e he x hlow hhigh).trans (h.sizes e he)
  sorted := h.sorted
  hooks := h.hooks

/-- The list after one of its entries. -/
theorem linked_after (h : FreeList g m (xs ++ ys)) :
    Linked (flink m) (blink m) 0 ((xs.getLastD (.hook 0)).addr g) (addrs g ys) := by
  have hlinked := h.linked
  rw [addrs_append] at hlinked
  have hafter := (Linked.append_iff.mp hlinked).2
  rw [← addrs_getLastD]
  exact hafter

theorem unlink_spec (h : FreeList g m (xs ++ .chunk a s :: ys))
    (hnodes : NodesAt g (.hook 0 :: (xs ++ .chunk a s :: ys))) :
    ∃ m', unlink m a = some m' ∧ FreeList g m' (xs ++ ys) ∧
      Kept (fun x => ¬ InLinks (addrs g (.hook 0 :: (xs ++ ys))) x) m m' := by
  have hlinked := h.linked
  have hapart := hnodes.apart
  have haddr := hnodes.addresses
  simp only [addrs_cons, addrs_append, Entry.addr_chunk, Entry.addr_hook] at hlinked hapart haddr
  obtain ⟨m', hunlink, hlinked', hkept⟩ := unlink_linked hlinked hapart haddr
  have hsub : (.hook 0 :: (xs ++ ys)).Sublist (.hook 0 :: (xs ++ .chunk a s :: ys)) := by simp
  have hnodes' := hnodes.sublist hsub
  refine ⟨m', hunlink, ?_, by simpa using hkept⟩
  refine ⟨by simpa using hlinked', fun e he => ?_, h.sorted.sublist hsub, fun i hi => ?_⟩
  · refine (hkept.word fun x hlow hhigh => ?_).trans (h.sizes e (hsub.subset he))
    have := hnodes'.header he hlow (by omega)
    simpa using this
  · have := h.hooks i hi
    simp only [List.mem_cons, List.mem_append] at this ⊢
    simpa using this

/-- The search finds the smallest chunk that is large enough, if there is one. -/
theorem findChunk_spec (h : FreeList g m es) (hnodes : NodesAt g (.hook 0 :: es))
    {i fuel : Nat} (hi : i < mmNnodes) (hclass : 2 ^ (i + 4) ≤ needed)
    (hfuel : es.length < fuel) :
    (findChunk m needed fuel (flink m (g.hook i)) = some 0 ∧
        ∀ a s, .chunk a s ∈ es → s < needed) ∨
      ∃ a s, .chunk a s ∈ es ∧ findChunk m needed fuel (flink m (g.hook i)) = some a ∧
        needed ≤ s ∧ ∀ a' s', .chunk a' s' ∈ es → needed ≤ s' → s ≤ s' := by
  obtain ⟨xs, ys, rfl, hlast⟩ := exists_after (h.hooks i hi)
  have hpos : 0 < needed := Nat.lt_of_lt_of_le (Nat.two_pow_pos _) hclass
  have hlinked := h.linked_after
  rw [hlast] at hlinked
  have hsub : ys.Sublist (.hook 0 :: (xs ++ ys)) :=
    (List.sublist_append_right xs ys).trans (List.sublist_cons_self ..)
  have hlength : (addrs g ys).length < fuel := by
    rw [List.length_append] at hfuel
    rw [addrs, List.length_map]
    omega
  have hfind := findChunk_eq needed hlinked (hnodes.sublist hsub).addresses hlength
  -- the chunks in front of the hook are too small
  have hbefore (a s : Nat) (ha : .chunk a s ∈ xs) : s < needed := by
    have hsorted := h.sorted
    rw [← List.cons_append, List.pairwise_append] at hsorted
    have hkey := key_le_getLastD hsorted.1 (List.mem_cons_of_mem _ ha)
    rw [hlast] at hkey
    have hdouble : 2 ^ (i + 5) = 2 * 2 ^ (i + 4) := by rw [Nat.pow_succ, Nat.mul_comm]
    simp only [Entry.key_hook, Entry.key_chunk] at hkey
    omega
  have hsizes (e : Entry) (he : e ∈ ys) : size m (e.addr g) = e.size :=
    h.sizes e (hsub.subset he)
  simp only [addrs, List.find?_map, Function.comp_def] at hfind
  cases hys : ys.find? (fun e => decide (needed ≤ size m (e.addr g))) with
  | none =>
      left
      refine ⟨by rw [hys] at hfind; exact hfind, fun a s ha => ?_⟩
      rcases List.mem_append.mp ha with ha | ha
      · exact hbefore a s ha
      · have hnot : ¬ needed ≤ size m ((Entry.chunk a s).addr g) :=
          fun hle => List.find?_eq_none.mp hys _ ha (decide_eq_true hle)
        rw [hsizes _ ha] at hnot
        exact Nat.lt_of_not_le hnot
  | some e =>
      right
      rw [hys] at hfind
      obtain ⟨hlarge, as, bs, rfl, hsmall⟩ := List.find?_eq_some_iff_append.mp hys
      have he : e ∈ as ++ e :: bs := by simp
      replace hlarge : needed ≤ e.size := hsizes e he ▸ of_decide_eq_true hlarge
      cases e with
      | hook j =>
          exact absurd hlarge (Nat.not_le_of_lt hpos)
      | chunk a s =>
          refine ⟨a, s, by simp, hfind, hlarge, fun a' s' ha' hs' => ?_⟩
          -- what the search has passed is too small, and what comes later is not smaller
          rcases List.mem_append.mp ha' with ha' | ha'
          · exact absurd hs' (Nat.not_le_of_lt (hbefore a' s' ha'))
          · rcases List.mem_append.mp ha' with has | hbs
            · have hnot : ¬ needed ≤ size m ((Entry.chunk a' s').addr g) :=
                of_decide_eq_false ((Bool.not_eq_true' _).mp (hsmall _ has))
              rw [hsizes _ (List.mem_append_left _ has)] at hnot
              exact absurd hs' hnot
            · rcases List.mem_cons.mp hbs with heq | hbs
              · cases heq
                exact Nat.le_refl _
              · have hsorted := (h.sorted.sublist hsub)
                have hkey := (List.pairwise_cons.mp (List.pairwise_append.mp hsorted).2.1).1 _ hbs
                simp only [Entry.key_chunk] at hkey
                omega

/-- The entries that `mm_addfreechunk` walks past are smaller than the new one, and those after them
are not. -/
theorem addfreechunk_place (h : FreeList g m (xs ++ ys))
    (hnodes : NodesAt g (.hook 0 :: (xs ++ ys)))
    (hs : sizeofMmFreenode ≤ s) (hlast : xs.getLastD (.hook 0) = .hook (mmSize2ndx s)) :
    (∀ e ∈ .hook 0 :: (xs ++ ys.takeWhile fun e => smaller m s (e.addr g)), e.key ≤ 2 * s) ∧
      ∀ e ∈ ys.dropWhile fun e => smaller m s (e.addr g), 2 * s ≤ e.key := by
  have hsub : ys.Sublist (.hook 0 :: (xs ++ ys)) :=
    (List.sublist_append_right xs ys).trans (List.sublist_cons_self ..)
  have hsizes (e : Entry) (he : e ∈ ys) : size m (e.addr g) = e.size :=
    h.sizes e (hsub.subset he)
  have hsorted := h.sorted
  rw [← List.cons_append, List.pairwise_append] at hsorted
  obtain ⟨hbefore, hbehind, hcross⟩ := hsorted
  obtain ⟨hndx, hlow, hhigh⟩ := mmSize2ndx_spec hs
  generalize mmSize2ndx s = i at *
  have hdouble : 2 ^ (i + 5) = 2 * 2 ^ (i + 4) := by rw [Nat.pow_succ, Nat.mul_comm]
  refine ⟨fun e he => ?_, fun e he => ?_⟩
  · rw [← List.cons_append, List.mem_append] at he
    rcases he with he | he
    · have hkey := key_le_getLastD hbefore he
      rw [hlast, Entry.key_hook] at hkey
      omega
    · have hsmall := List.mem_takeWhile_imp he
      have hmem : e ∈ ys := (List.takeWhile_sublist _).subset he
      simp only [smaller, hsizes e hmem, decide_eq_true_eq] at hsmall
      cases e with
      | hook j => exact absurd rfl hsmall.1
      | chunk a s' =>
          simp only [Entry.size_chunk] at hsmall
          simp only [Entry.key_chunk]
          omega
  · -- the first entry behind the place is not smaller, and the list is sorted
    cases hdrop : ys.dropWhile fun e => smaller m s (e.addr g) with
    | nil =>
        rw [hdrop] at he
        cases he
    | cons e' rest =>
        have hdropsub : (e' :: rest).Sublist ys := hdrop ▸ List.dropWhile_sublist _
        have hmem : e' ∈ ys := hdropsub.subset (List.mem_cons_self ..)
        have hfirst : 2 * s ≤ e'.key := by
          have hnot : ¬ smaller m s (e'.addr g) = true := by
            have := List.head_dropWhile_not (fun e => smaller m s (e.addr g)) (l := ys)
              (by rw [hdrop]; exact List.cons_ne_nil _ _)
            simpa [hdrop] using this
          simp only [smaller, hsizes e' hmem, decide_eq_true_eq, not_and] at hnot
          cases e' with
          | hook j =>
              have hj : j < mmNnodes := hnodes.valid _ (hsub.subset hmem)
              have hkey := hcross _ (Linked.getLastD_mem xs _) _ hmem
              rw [hlast, Entry.key_hook, Entry.key_hook] at hkey
              have hne : i ≠ j := by
                rintro rfl
                have hnodup := hnodes.nodup
                rw [← List.cons_append, List.nodup_append] at hnodup
                exact hnodup.2.2 _ (Linked.getLastD_mem xs _) _ hmem hlast
              have hij : i < j := by
                by_contra hge
                have hlt : j + 5 < i + 5 := by omega
                have := Nat.pow_lt_pow_right (show 1 < 2 by decide) hlt
                have hpos := Nat.two_pow_pos (j + 5)
                omega
              have hpow := Nat.pow_le_pow_right (show 0 < 2 by decide) (show i + 6 ≤ j + 5 by omega)
              have hnext : 2 ^ (i + 6) = 2 * 2 ^ (i + 5) := by rw [Nat.pow_succ, Nat.mul_comm]
              have := hhigh (by omega)
              rw [Entry.key_hook]
              omega
          | chunk a s' =>
              have hvalid : sizeofMmFreenode ≤ s' := hnodes.valid _ (hsub.subset hmem)
              simp only [sizeofMmFreenode] at hvalid
              simp only [Entry.size_chunk] at hnot
              simp only [Entry.key_chunk]
              omega
        rw [hdrop] at he
        rcases List.mem_cons.mp he with rfl | he
        · exact hfirst
        · exact Nat.le_trans hfirst
            ((List.pairwise_cons.mp (hbehind.sublist hdropsub)).1 e he)

/-- A free chunk is put in its place in the list. -/
theorem addfreechunk_spec (h : FreeList g m es) (hnodes : NodesAt g (.hook 0 :: .chunk a s :: es))
    (hs : size m a = s) (hfuel : es.length < g.bound) :
    ∃ m' es', mmAddfreechunk g m a = some m' ∧ es'.Perm (.chunk a s :: es) ∧ FreeList g m' es' ∧
      Kept (fun x => ¬ InLinks (addrs g (.hook 0 :: .chunk a s :: es)) x) m m' := by
  have hvalid : sizeofMmFreenode ≤ s := hnodes.valid (.chunk a s) (by simp)
  have hndx := (mmSize2ndx_spec hvalid).1
  obtain ⟨xs, ys, rfl, hlast⟩ := exists_after (h.hooks _ hndx)
  have hnodes' : NodesAt g (.hook 0 :: (xs ++ ys)) := hnodes.sublist (by simp)
  obtain ⟨hkeys, hkeys'⟩ := addfreechunk_place h hnodes' hvalid hlast
  -- the place is found
  have hlinked := h.linked_after
  rw [hlast] at hlinked
  have hsub : ys.Sublist (.hook 0 :: (xs ++ ys)) :=
    (List.sublist_append_right xs ys).trans (List.sublist_cons_self ..)
  have hlength : (addrs g ys).length < g.bound := by
    rw [List.length_append] at hfuel
    rw [addrs, List.length_map]
    omega
  have hplace := findPlace_eq s hlinked (hnodes'.sublist hsub).addresses hlength
  have htake : (addrs g ys).takeWhile (smaller m s) =
      addrs g (ys.takeWhile fun e => smaller m s (e.addr g)) := List.takeWhile_map ..
  have hdrop : (addrs g ys).dropWhile (smaller m s) =
      addrs g (ys.dropWhile fun e => smaller m s (e.addr g)) := List.dropWhile_map ..
  rw [htake, hdrop] at hplace
  have hys : ys = (ys.takeWhile fun e => smaller m s (e.addr g)) ++
      ys.dropWhile fun e => smaller m s (e.addr g) := List.takeWhile_append_dropWhile.symm
  generalize (ys.takeWhile fun e => smaller m s (e.addr g)) = small at *
  generalize (ys.dropWhile fun e => smaller m s (e.addr g)) = rest at *
  subst hys
  have hprev : (addrs g (xs ++ small)).getLastD (g.hook 0) =
      (addrs g small).getLastD ((Entry.hook (mmSize2ndx s)).addr g) := by
    rw [← hlast, ← Entry.addr_hook g 0, addrs_getLastD, addrs_getLastD,
      Linked.getLastD_append]
  have hassoc : xs ++ (small ++ rest) = (xs ++ small) ++ rest := (List.append_assoc ..).symm
  rw [hassoc] at hnodes hnodes' h ⊢
  generalize xs ++ small = zs at *
  have hperm : (.hook 0 :: (zs ++ .chunk a s :: rest)).Perm
      (.hook 0 :: .chunk a s :: (zs ++ rest)) := List.Perm.cons _ List.perm_middle
  have hnodes'' := hnodes.perm hperm.symm
  have hlinked := h.linked
  have hapart := hnodes''.apart
  have haddr := hnodes''.addresses
  simp only [addrs_cons, addrs_append, Entry.addr_chunk, Entry.addr_hook] at hlinked hapart haddr
  obtain ⟨hlinked', hkept⟩ := linkIn_linked hlinked hapart haddr
  rw [hprev] at hlinked' hkept
  have hkept' : Kept (fun x => ¬ InLinks (addrs g (.hook 0 :: .chunk a s :: (zs ++ rest))) x) m
      (linkIn m ((addrs g small).getLastD ((Entry.hook (mmSize2ndx s)).addr g)) a
        ((addrs g rest).headD 0)) := by
    refine hkept.mono fun x hx hin => hx ?_
    have hsub' : addrs g (.hook 0 :: (zs ++ .chunk a s :: rest)) ⊆
        addrs g (.hook 0 :: .chunk a s :: (zs ++ rest)) := (hperm.map (Entry.addr g)).subset
    exact InLinks.mono (by simpa using hin) hsub'
  refine ⟨_, zs ++ .chunk a s :: rest, ?_, List.perm_middle,
    ⟨by simpa using hlinked', ?_, ?_, ?_⟩, hkept'⟩
  · rw [mmAddfreechunk, hs]
    exact congrArg (fun place : Option (Nat × Nat) => place >>= fun place =>
      some (linkIn m place.1 a place.2)) hplace
  · intro e he
    refine (hkept'.word fun x hlow hhigh => ?_).trans ?_
    · exact hnodes.header (hperm.subset he) hlow (by omega)
    · rcases List.mem_cons.mp ((List.Perm.swap ..).subset (hperm.subset he)) with rfl | he
      · exact hs
      · exact h.sizes e he
  · rw [← List.cons_append]
    exact sorted_insert h.sorted hkeys hkeys'
  · intro i hi
    have := h.hooks i hi
    simp only [List.mem_cons, List.mem_append] at this ⊢
    tauto

end FreeList

end Px4Firmware.Mm
