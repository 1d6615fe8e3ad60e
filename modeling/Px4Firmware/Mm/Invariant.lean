import Px4Firmware.Mm.FreeList
import Px4Firmware.Mm.Layout

/-!
# Px4Firmware.Mm.Invariant

**The invariant of the heap** (`Inv`): every region is tiled by its blocks, and the list of free
chunks has every free block but those that an operation is about to put in (`pending`). The
operations do three things to a heap, and each of them keeps the invariant: take a chunk out of the
list (`Inv.unlink`), put one in (`Inv.addfreechunk`), and divide or join blocks that are not in the
list (`Inv.rewrite`).
-/

namespace Px4Firmware.Mm

open Lib Lib.Memory

def Region.placed (r : Region) : List (Nat × Block) :=
  Mm.placed (r.start + sizeofMmAllocnode) r.blocks

/-- All blocks. -/
def layout (rs : List Region) : List (Nat × Block) := rs.flatMap Region.placed

/-- The free ones of blocks as entries of the list. -/
def chunksOf (ps : List (Nat × Block)) : List Entry :=
  (ps.filter (·.2.free)).map fun p => .chunk p.1 p.2.size

def hooks : List Entry := (List.range mmNnodes).map .hook

/-- Where the guards of a region are. -/
def Region.extent (r : Region) : Nat × Nat := (r.start, r.guard)

/-- The bytes between the addresses of two guards, and those of the second one. -/
def extentSize (e : Nat × Nat) : Nat := e.2 + sizeofMmAllocnode - e.1

def totalSize : List (Nat × Nat) → Nat
  | [] => 0
  | e :: extents => extentSize e + totalSize extents

/-- The regions and `g_nodelist` lie in the address space and do not overlap. -/
structure Globals.Ok (g : Globals) : Prop where
  apart : g.regions.Pairwise fun e e' =>
    e.2 + sizeofMmAllocnode ≤ e'.1 ∨ e'.2 + sizeofMmAllocnode ≤ e.1
  bounds : ∀ e ∈ g.regions, 0 < e.1 ∧ e.1 % 8 = 0 ∧ e.1 + sizeofMmAllocnode ≤ e.2 ∧
    e.2 + sizeofMmAllocnode ≤ 2 ^ 32 ∧ e.2 - e.1 < 2 ^ 31
  nodelist : 0 < g.nodelist ∧ g.hook mmNnodes ≤ 2 ^ 32
  hooks : ∀ e ∈ g.regions, e.2 + sizeofMmAllocnode ≤ g.nodelist ∨ g.hook mmNnodes ≤ e.1
  heapsize : g.heapsize = totalSize g.regions

/-- The invariant. -/
structure Inv (g : Globals) (m : Memory) (rs : List Region) (es pending : List Entry) : Prop where
  globals : g.Ok
  extents : rs.map Region.extent = g.regions
  tiled : ∀ r ∈ rs, r.Tiled m
  list : FreeList g m es
  perm : (.hook 0 :: (es ++ pending)).Perm (hooks ++ chunksOf (layout rs))

variable {g : Globals} {m m' : Memory} {rs rs' : List Region} {es pending : List Entry}

/-! ### The blocks of a heap -/

@[simp] theorem layout_nil : layout [] = [] := rfl

@[simp] theorem layout_cons (r : Region) : layout (r :: rs) = r.placed ++ layout rs := rfl

@[simp] theorem layout_append : layout (rs ++ rs') = layout rs ++ layout rs' := by simp [layout]

@[simp] theorem chunksOf_nil : chunksOf [] = [] := rfl

@[simp] theorem chunksOf_append (ps ps' : List (Nat × Block)) :
    chunksOf (ps ++ ps') = chunksOf ps ++ chunksOf ps' := by simp [chunksOf]

theorem chunksOf_cons_free {a : Nat} {b : Block} (ps : List (Nat × Block)) (h : b.free = true) :
    chunksOf ((a, b) :: ps) = .chunk a b.size :: chunksOf ps := by simp [chunksOf, h]

theorem chunksOf_cons_allocated {a : Nat} {b : Block} (ps : List (Nat × Block))
    (h : b.free = false) : chunksOf ((a, b) :: ps) = chunksOf ps := by simp [chunksOf, h]

theorem mem_chunksOf {ps : List (Nat × Block)} {e : Entry} (h : e ∈ chunksOf ps) :
    ∃ p ∈ ps, p.2.free = true ∧ e = .chunk p.1 p.2.size := by
  obtain ⟨p, hp, rfl⟩ := List.mem_map.mp h
  obtain ⟨hp, hfree⟩ := List.mem_filter.mp hp
  exact ⟨p, hp, hfree, rfl⟩

theorem chunk_mem_chunksOf {ps : List (Nat × Block)} {p : Nat × Block} (hp : p ∈ ps)
    (hfree : p.2.free = true) : .chunk p.1 p.2.size ∈ chunksOf ps :=
  List.mem_map.mpr ⟨p, List.mem_filter.mpr ⟨hp, hfree⟩, rfl⟩

theorem mem_layout {p : Nat × Block} (h : p ∈ layout rs) :
    ∃ r ∈ rs, p ∈ r.placed := List.mem_flatMap.mp h

theorem Region.placed_bounds {r : Region} {p : Nat × Block} (h : p ∈ r.placed) :
    r.start + 8 ≤ p.1 ∧ p.1 + p.2.size ≤ r.guard := Mm.placed_bounds h

/-- Blocks that follow each other do not overlap. -/
theorem placed_apart (a : Nat) (bs : List Block) :
    (placed a bs).Pairwise fun p q => p.1 + p.2.size ≤ q.1 := by
  induction bs generalizing a with
  | nil => exact List.Pairwise.nil
  | cons b bs ih => exact List.pairwise_cons.mpr ⟨fun q hq => (placed_bounds hq).1, ih _⟩

/-- The blocks of a heap do not overlap. -/
theorem layout_pairwise
    (h : (rs.map Region.extent).Pairwise fun e e' => e.2 + sizeofMmAllocnode ≤ e'.1 ∨
      e'.2 + sizeofMmAllocnode ≤ e.1) :
    (layout rs).Pairwise fun p q => p.1 + p.2.size ≤ q.1 ∨ q.1 + q.2.size ≤ p.1 := by
  induction rs with
  | nil => exact List.Pairwise.nil
  | cons r rs ih =>
      rw [List.map_cons, List.pairwise_cons] at h
      refine List.pairwise_append.mpr ⟨(placed_apart _ _).imp .inl, ih h.2, fun p hp q hq => ?_⟩
      obtain ⟨r', hr', hq⟩ := mem_layout hq
      have hapart := h.1 _ (List.mem_map_of_mem hr')
      have hbounds := r.placed_bounds hp
      have hbounds' := r'.placed_bounds hq
      simp only [Region.extent, sizeofMmAllocnode] at hapart
      omega

theorem length_layout_le (rs : List Region) :
    (layout rs).length ≤ totalSize (rs.map Region.extent) := by
  induction rs with
  | nil => exact Nat.le_refl _
  | cons r rs ih =>
      have hlength := length_placed_le (r.start + sizeofMmAllocnode) r.blocks
      simp only [layout_cons, List.length_append, Region.placed, List.map_cons, totalSize,
        extentSize, Region.extent, Region.guard, sizeofMmAllocnode] at *
      omega

namespace Inv

theorem extent_mem (h : Inv g m rs es pending) {r : Region} (hr : r ∈ rs) :
    (r.start, r.guard) ∈ g.regions := h.extents ▸ List.mem_map_of_mem hr

theorem region_bounds (h : Inv g m rs es pending) {r : Region} (hr : r ∈ rs) :
    0 < r.start ∧ r.start % 8 = 0 ∧ r.start + sizeofMmAllocnode ≤ r.guard ∧
      r.guard + sizeofMmAllocnode ≤ 2 ^ 32 ∧ r.guard - r.start < 2 ^ 31 :=
  h.globals.bounds _ (h.extent_mem hr)

theorem layout_pairwise (h : Inv g m rs es pending) :
    (layout rs).Pairwise fun p q => p.1 + p.2.size ≤ q.1 ∨ q.1 + q.2.size ≤ p.1 :=
  Mm.layout_pairwise (h.extents ▸ h.globals.apart)

theorem layout_apart (h : Inv g m rs es pending) {p q : Nat × Block} (hp : p ∈ layout rs)
    (hq : q ∈ layout rs) : p = q ∨ p.1 + p.2.size ≤ q.1 ∨ q.1 + q.2.size ≤ p.1 := by
  have hsymm : Std.Symm fun p q : Nat × Block => p.1 + p.2.size ≤ q.1 ∨ q.1 + q.2.size ≤ p.1 :=
    ⟨fun _ _ => Or.symm⟩
  by_cases heq : p = q
  · exact .inl heq
  · exact .inr (h.layout_pairwise.forall hp hq heq)

theorem layout_bounds (h : Inv g m rs es pending) {p : Nat × Block} (hp : p ∈ layout rs) :
    0 < p.1 ∧ p.1 + p.2.size ≤ 2 ^ 32 ∧
      (p.1 + p.2.size ≤ g.nodelist ∨ g.hook mmNnodes ≤ p.1) := by
  obtain ⟨r, hr, hp⟩ := mem_layout hp
  have hbounds := r.placed_bounds hp
  have hregion := h.region_bounds hr
  have hhooks := h.globals.hooks _ (h.extent_mem hr)
  simp only [sizeofMmAllocnode] at hregion hhooks
  omega

/-- The hooks and the free chunks are nodes that do not overlap. -/
theorem nodesAt (h : Inv g m rs es pending) : NodesAt g (.hook 0 :: (es ++ pending)) := by
  suffices hall : NodesAt g (hooks ++ chunksOf (layout rs)) from hall.perm h.perm.symm
  have hnodelist := h.globals.nodelist
  have hchunk (e : Entry) (he : e ∈ chunksOf (layout rs)) :
      ∃ p ∈ layout rs, e = .chunk p.1 p.2.size := by
    obtain ⟨p, hp, -, heq⟩ := mem_chunksOf he
    exact ⟨p, hp, heq⟩
  have hhook (e : Entry) (he : e ∈ hooks) : ∃ i < mmNnodes, e = .hook i := by
    obtain ⟨i, hi, rfl⟩ := List.mem_map.mp he
    exact ⟨i, List.mem_range.mp hi, rfl⟩
  simp only [Globals.hook, sizeofMmFreenode] at hnodelist
  refine ⟨?_, fun a ha => ?_, fun e he => ?_⟩
  · rw [Apart, addrs, List.pairwise_map]
    refine List.pairwise_append.mpr ⟨?_, ?_, fun e he e' he' => ?_⟩
    · rw [hooks, List.pairwise_map]
      refine List.pairwise_lt_range.imp fun hlt => ?_
      simp only [Entry.addr_hook, Globals.hook, sizeofMmFreenode]
      omega
    · rw [chunksOf, List.pairwise_map]
      refine (h.layout_pairwise.sublist List.filter_sublist).imp fun {p q} hpq => ?_
      have hp := p.2.min
      have hq := q.2.min
      simp only [sizeofMmFreenode] at hp hq
      simp only [Entry.addr_chunk, sizeofMmFreenode]
      omega
    · obtain ⟨i, hi, rfl⟩ := hhook e he
      obtain ⟨p, hp, rfl⟩ := hchunk e' he'
      have hbounds := (h.layout_bounds hp).2.2
      have hmin := p.2.min
      simp only [Entry.addr_hook, Entry.addr_chunk, Globals.hook, sizeofMmFreenode] at *
      omega
  · obtain ⟨e, he, rfl⟩ := List.mem_map.mp ha
    rcases List.mem_append.mp he with he | he
    · obtain ⟨i, hi, rfl⟩ := hhook e he
      simp only [Entry.addr_hook, Globals.hook, sizeofMmFreenode]
      omega
    · obtain ⟨p, hp, rfl⟩ := hchunk e he
      have hbounds := h.layout_bounds hp
      have hmin := p.2.min
      simp only [Entry.addr_chunk, sizeofMmFreenode] at *
      omega
  · rcases List.mem_append.mp he with he | he
    · obtain ⟨i, hi, rfl⟩ := hhook e he
      exact hi
    · obtain ⟨p, hp, rfl⟩ := hchunk e he
      exact p.2.min

theorem nodesAt_list (h : Inv g m rs es pending) : NodesAt g (.hook 0 :: es) :=
  h.nodesAt.sublist ((List.sublist_append_left es pending).cons_cons _)

end Inv

/-! ### What the list does not touch -/

/-- The byte is not one of the links of an entry. -/
def Safe (g : Globals) (rs : List Region) (x : Nat) : Prop :=
  ¬ InLinks (addrs g (hooks ++ chunksOf (layout rs))) x

namespace Inv

theorem safe_of_outside {x : Nat} (hhook : x < g.nodelist ∨ g.hook mmNnodes ≤ x)
    (hchunk : ∀ p ∈ layout rs, p.2.free = true → x < p.1 + 8 ∨ p.1 + 16 ≤ x) : Safe g rs x := by
  intro hin
  obtain ⟨a, ha, hlow, hhigh⟩ := hin
  obtain ⟨e, he, rfl⟩ := List.mem_map.mp ha
  rcases List.mem_append.mp he with he | he
  · obtain ⟨i, hi, rfl⟩ := List.mem_map.mp he
    have := List.mem_range.mp hi
    simp only [Entry.addr_hook, Globals.hook, sizeofMmFreenode] at *
    omega
  · obtain ⟨p, hp, hfree, rfl⟩ := mem_chunksOf he
    have := hchunk p hp hfree
    simp only [Entry.addr_chunk, sizeofMmFreenode] at *
    omega

/-- The headers of blocks and the contents of allocated ones are safe. -/
theorem safe_of_block (h : Inv g m rs es pending) {p : Nat × Block} {x : Nat} (hp : p ∈ layout rs)
    (hlow : p.1 ≤ x) (hhigh : x < p.1 + p.2.size) (hx : p.2.free = false ∨ x < p.1 + 8) :
    Safe g rs x := by
  have hbounds := h.layout_bounds hp
  refine safe_of_outside (by omega) fun q hq hfree => ?_
  have hmin := q.2.min
  simp only [sizeofMmFreenode] at hmin
  rcases h.layout_apart hp hq with rfl | hapart
  · rcases hx with hx | hx
    · rw [hfree] at hx
      cases hx
    · exact .inl hx
  · omega

theorem safe_of_guard (h : Inv g m rs es pending) {r : Region} {x : Nat} (hr : r ∈ rs)
    (hx : r.start ≤ x ∧ x < r.start + 8 ∨ r.guard ≤ x ∧ x < r.guard + 8) : Safe g rs x := by
  have hregion := h.region_bounds hr
  have hhooks := h.globals.hooks _ (h.extent_mem hr)
  simp only [sizeofMmAllocnode] at hregion hhooks
  refine safe_of_outside (by omega) fun q hq _ => ?_
  obtain ⟨r', hr', hq⟩ := mem_layout hq
  have hbounds := r'.placed_bounds hq
  have hmin := q.2.min
  simp only [sizeofMmFreenode] at hmin
  have hregion' := h.region_bounds hr'
  rcases Classical.em (r.extent = r'.extent) with heq | hne
  · simp only [Region.extent, Prod.mk.injEq] at heq
    omega
  · have hsymm : Std.Symm fun e e' : Nat × Nat =>
        e.2 + sizeofMmAllocnode ≤ e'.1 ∨ e'.2 + sizeofMmAllocnode ≤ e.1 := ⟨fun _ _ => Or.symm⟩
    have := h.globals.apart.forall (h.extent_mem hr) (h.extent_mem hr') hne
    simp only [sizeofMmAllocnode] at this
    omega

theorem tiled_of_kept (h : Inv g m rs es pending) (hkept : Kept (Safe g rs) m m') :
    ∀ r ∈ rs, r.Tiled m' := by
  intro r hr
  have htiled := h.tiled r hr
  refine ⟨htiled.guard.congr fun x hlow hhigh => ?_, htiled.headers.congr (fun x hx => ?_) ?_⟩
  · exact hkept x (h.safe_of_guard hr (.inl ⟨hlow, hhigh⟩))
  · obtain ⟨p, hp, hlow, hhigh⟩ := hx
    have hmin := p.2.min
    simp only [sizeofMmFreenode] at hmin
    refine hkept x (h.safe_of_block (List.mem_flatMap.mpr ⟨r, hr, hp⟩) hlow (by omega) ?_)
    exact .inr hhigh
  · intro x hlow hhigh
    exact hkept x (h.safe_of_guard hr (.inr ⟨hlow, hhigh⟩))

/-! ### Out of the list and into it -/

theorem of_perm (h : Inv g m rs es pending) {pending' : List Entry} (hp : pending'.Perm pending) :
    Inv g m rs es pending' :=
  ⟨h.globals, h.extents, h.tiled, h.list,
    (List.Perm.cons _ (List.Perm.append_left _ hp)).trans h.perm⟩

theorem kept_of_links (h : Inv g m rs es pending) {l : List Entry}
    (hl : l ⊆ .hook 0 :: (es ++ pending)) (hkept : Kept (fun x => ¬ InLinks (addrs g l) x) m m') :
    Kept (Safe g rs) m m' := by
  refine hkept.mono fun x hx hin => hx (hin.mono ?_)
  exact List.map_subset _ (List.Subset.trans hl h.perm.subset)

/-- Take a chunk out of the list. -/
theorem unlink (h : Inv g m rs es pending) {a s : Nat} (hmem : .chunk a s ∈ es) :
    ∃ m' es', Mm.unlink m a = some m' ∧ Inv g m' rs es' (.chunk a s :: pending) ∧
      Kept (Safe g rs) m m' := by
  obtain ⟨xs, ys, rfl⟩ := List.append_of_mem hmem
  obtain ⟨m', hunlink, hlist, hkept⟩ := h.list.unlink_spec h.nodesAt_list
  have hkept' : Kept (Safe g rs) m m' := by
    refine h.kept_of_links (fun e he => ?_) hkept
    simp only [List.mem_cons, List.mem_append] at he ⊢
    tauto
  refine ⟨m', xs ++ ys, hunlink, ⟨h.globals, h.extents, h.tiled_of_kept hkept', hlist, ?_⟩, hkept'⟩
  refine List.Perm.trans (List.Perm.cons _ ?_) h.perm
  rw [List.append_assoc, List.append_assoc, List.cons_append]
  exact List.Perm.append_left _ List.perm_middle

theorem header (h : Inv g m rs es pending) {p : Nat × Block} (hp : p ∈ layout rs) :
    ∃ prev, HasHeader m p.1 prev p.2.size p.2.free := by
  obtain ⟨r, hr, hp⟩ := mem_layout hp
  exact (headers_iff.mp (h.tiled r hr).headers).1.header hp

theorem length_lt (h : Inv g m rs es pending) : es.length < g.bound := by
  have hlength := h.perm.length_eq
  have hchunks : (chunksOf (layout rs)).length ≤ (layout rs).length := by
    rw [chunksOf, List.length_map]
    exact List.length_filter_le ..
  have hlayout := length_layout_le rs
  rw [h.extents, ← h.globals.heapsize] at hlayout
  simp only [List.length_cons, List.length_append, hooks, List.length_map,
    List.length_range] at hlength
  rw [Globals.bound]
  omega

/-- Put a chunk in the list. -/
theorem addfreechunk {a s : Nat} (h : Inv g m rs es (.chunk a s :: pending)) :
    ∃ m' es', mmAddfreechunk g m a = some m' ∧ Inv g m' rs es' pending ∧
      Kept (Safe g rs) m m' := by
  have hswap : (.hook 0 :: .chunk a s :: es ++ pending).Perm
      (.hook 0 :: (es ++ .chunk a s :: pending)) := List.Perm.cons _ List.perm_middle.symm
  have hnodes : NodesAt g (.hook 0 :: .chunk a s :: es) :=
    (h.nodesAt.perm hswap.symm).sublist (List.sublist_append_left ..)
  have hsize : size m a = s := by
    have hchunk : .chunk a s ∈ hooks ++ chunksOf (layout rs) := h.perm.subset (by simp)
    rcases List.mem_append.mp hchunk with hhook | hchunk
    · obtain ⟨i, -, hi⟩ := List.mem_map.mp hhook
      cases hi
    · obtain ⟨p, hp, -, heq⟩ := mem_chunksOf hchunk
      cases heq
      obtain ⟨prev, hheader⟩ := h.header hp
      exact hheader.1
  obtain ⟨m', es', hadd, hperm, hlist, hkept⟩ := h.list.addfreechunk_spec hnodes hsize h.length_lt
  have hkept' : Kept (Safe g rs) m m' := by
    refine h.kept_of_links (fun e he => ?_) hkept
    simp only [List.mem_cons, List.mem_append] at he ⊢
    tauto
  refine ⟨m', es', hadd, ⟨h.globals, h.extents, h.tiled_of_kept hkept', hlist, ?_⟩, hkept'⟩
  exact (List.Perm.cons _ (List.Perm.append_right _ hperm)).trans (hswap.trans h.perm)

end Inv

end Px4Firmware.Mm
