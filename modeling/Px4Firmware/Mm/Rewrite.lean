import Px4Firmware.Mm.Invariant

/-!
# Px4Firmware.Mm.Rewrite

**Dividing and joining blocks.** An operation works at one place of the heap (`Spot`): the blocks
there are replaced by others of the same span, and all that it has to write is their headers and the
size before the next block (`Inv.rewrite`).
-/

namespace Px4Firmware.Mm

open Lib Lib.Memory

/-- A place in a heap: what is before it and after it. -/
structure Spot where
  before : List Region
  start : Nat
  pre : List Block
  post : List Block
  after : List Region

namespace Spot

/-- The heap with blocks at the place. -/
def fill (c : Spot) (bs : List Block) : List Region :=
  c.before ++ ⟨c.start, c.pre ++ (bs ++ c.post)⟩ :: c.after

/-- The address of the place. -/
def addr (c : Spot) : Nat := c.start + sizeofMmAllocnode + span c.pre

/-- The size of the chunk before the place. -/
def prev (c : Spot) : Nat := lastSize sizeofMmAllocnode c.pre

/-- Where nothing is written when blocks with a span are replaced. -/
def Outside (c : Spot) (n x : Nat) : Prop :=
  ¬ (c.addr ≤ x ∧ x < c.addr + n) ∧ ¬ (c.addr + n + 4 ≤ x ∧ x < c.addr + n + 8)

/-- The blocks before the place. -/
def front (c : Spot) : List (Nat × Block) :=
  layout c.before ++ placed (c.start + sizeofMmAllocnode) c.pre

/-- The blocks after the place. -/
def back (c : Spot) (n : Nat) : List (Nat × Block) :=
  placed (c.addr + n) c.post ++ layout c.after

@[simp] theorem addr_with_post (c : Spot) (post : List Block) :
    ({ c with post } : Spot).addr = c.addr := rfl

@[simp] theorem prev_with_post (c : Spot) (post : List Block) :
    ({ c with post } : Spot).prev = c.prev := rfl

variable {c : Spot} {bs old new : List Block}

theorem layout_fill : layout (c.fill bs) = c.front ++ (placed c.addr bs ++ c.back (span bs)) := by
  simp [fill, front, back, addr, Region.placed, Nat.add_assoc]

theorem extents_fill (h : span new = span old) :
    (c.fill new).map Region.extent = (c.fill old).map Region.extent := by
  simp [fill, Region.extent, Region.guard, h]

theorem mem_fill : (⟨c.start, c.pre ++ (bs ++ c.post)⟩ : Region) ∈ c.fill bs := by simp [fill]

/-- Where a block is found again. -/
theorem exists_of_mem {rs : List Region} {p : Nat × Block} (hp : p ∈ layout rs) :
    ∃ c : Spot, rs = c.fill [p.2] ∧ c.addr = p.1 := by
  obtain ⟨r, hr, hpr⟩ := mem_layout hp
  obtain ⟨before, after, rfl⟩ := List.append_of_mem hr
  obtain ⟨pre, post, hblocks, haddr⟩ := placed_split hpr
  refine ⟨⟨before, r.start, pre, post, after⟩, ?_, haddr.symm⟩
  rw [fill, List.singleton_append, ← hblocks]

end Spot

variable {g : Globals} {m m' : Memory} {es pending pending' : List Entry} {c : Spot}
  {old new : List Block}

namespace Inv

theorem spot_bounds (h : Inv g m (c.fill old) es pending) :
    0 < c.start ∧ c.start + 8 ≤ c.addr ∧ c.addr % 8 = 0 ∧
      c.addr + span old + span c.post + 8 ≤ 2 ^ 32 ∧
      8 + span c.pre + span old + span c.post < 2 ^ 31 ∧ c.prev ≤ 8 + span c.pre ∧
      c.addr = c.start + 8 + span c.pre := by
  have hregion := h.region_bounds Spot.mem_fill
  have hprev := lastSize_le_span sizeofMmAllocnode c.pre
  have hgranule := span_mod c.pre
  simp only [Region.guard, span_append, sizeofMmAllocnode] at hregion hprev
  simp only [Spot.addr, Spot.prev, sizeofMmAllocnode]
  refine ⟨by omega, by omega, by omega, by omega, by omega, by omega, trivial⟩

theorem spot_headers (h : Inv g m (c.fill old) es pending) :
    Walk m c.addr c.prev old ∧ Headers m (c.addr + span old) (lastSize c.prev old) c.post := by
  have hheaders := (h.tiled _ Spot.mem_fill).headers
  rw [headers_append, headers_append] at hheaders
  exact hheaders.2

/-- The other regions are elsewhere. -/
theorem region_apart (h : Inv g m (c.fill old) es pending) {r : Region}
    (hr : r ∈ c.before ∨ r ∈ c.after) :
    r.guard + 8 ≤ c.start ∨ c.addr + span old + span c.post + 8 ≤ r.start := by
  have hapart := h.globals.apart
  rw [← h.extents, Spot.fill, List.map_append, List.map_cons, List.pairwise_append,
    List.pairwise_cons] at hapart
  obtain ⟨-, ⟨hafter, -⟩, hbefore⟩ := hapart
  simp only [Spot.addr, sizeofMmAllocnode]
  rcases hr with hr | hr
  · have := hbefore _ (List.mem_map_of_mem hr) _ (List.mem_cons_self ..)
    simp only [Region.extent, Region.guard, span_append, sizeofMmAllocnode] at this ⊢
    omega
  · have := hafter _ (List.mem_map_of_mem hr)
    simp only [Region.extent, Region.guard, span_append, sizeofMmAllocnode] at this ⊢
    omega

/-- The other blocks are elsewhere. -/
theorem block_apart (h : Inv g m (c.fill old) es pending) {p : Nat × Block}
    (hp : p ∈ layout (c.fill old)) :
    p ∈ placed c.addr old ∨ p.1 + p.2.size ≤ c.addr ∨ p.1 = c.addr + span old ∨
      c.addr + span old + 8 ≤ p.1 := by
  have hbounds := h.spot_bounds
  have hother {r : Region} (hr : r ∈ c.before ∨ r ∈ c.after) (hpr : p ∈ r.placed) :
      p.1 + p.2.size ≤ c.addr ∨ c.addr + span old + 8 ≤ p.1 := by
    have hapart := h.region_apart hr
    have hplaced := r.placed_bounds hpr
    omega
  rw [Spot.layout_fill, Spot.front, Spot.back] at hp
  simp only [List.mem_append] at hp
  rcases hp with (hp | hp) | hp | hp | hp
  · obtain ⟨r, hr, hpr⟩ := mem_layout hp
    have := hother (.inl hr) hpr
    omega
  · have := (placed_bounds hp).2
    simp only [sizeofMmAllocnode] at this
    omega
  · exact .inl hp
  · cases hpost : c.post with
    | nil => simp [hpost] at hp
    | cons b bs =>
        rw [hpost, placed_cons] at hp
        rcases List.mem_cons.mp hp with rfl | hp
        · exact .inr (.inr (.inl rfl))
        · have := (placed_bounds hp).1
          have hmin := b.min
          simp only [sizeofMmFreenode] at hmin
          omega
  · obtain ⟨r, hr, hpr⟩ := mem_layout hp
    have := hother (.inr hr) hpr
    omega

/-- Replace blocks of which none is in the list. -/
theorem rewrite (others : List Entry) (h : Inv g m (c.fill old) es pending)
    (hold : pending.Perm (chunksOf (placed c.addr old) ++ others))
    (hnew : pending'.Perm (chunksOf (placed c.addr new) ++ others))
    (hspan : span new = span old) (hkept : Kept (c.Outside (span old)) m m')
    (hwalk : Walk m' c.addr c.prev new)
    (hnext : preceding m' (c.addr + span old) =
      encode (lastSize c.prev new) (headFree c.post)) :
    Inv g m' (c.fill new) es pending' := by
  replace h := h.of_perm hold.symm
  suffices hrest : Inv g m' (c.fill new) es (chunksOf (placed c.addr new) ++ others) from
    hrest.of_perm hnew
  have hbounds := h.spot_bounds
  have hkept' {x : Nat} (hx : x < c.addr ∨ c.addr + span old ≤ x ∧
      (x < c.addr + span old + 4 ∨ c.addr + span old + 8 ≤ x)) : m' x = m x :=
    hkept x ⟨by omega, by omega⟩
  refine ⟨h.globals, ?_, fun r hr => ?_, ?_, ?_⟩
  · rw [Spot.extents_fill hspan]
    exact h.extents
  · -- the region of the place
    have hfocus : Region.Tiled m' ⟨c.start, c.pre ++ (new ++ c.post)⟩ := by
      have htiled := h.tiled _ Spot.mem_fill
      obtain ⟨hguard, hheaders⟩ := htiled
      rw [headers_append, headers_append] at hheaders
      obtain ⟨hpre, -, hpost⟩ := hheaders
      refine ⟨hguard.congr fun x _ hhigh => hkept' (.inl ?_),
        headers_append.mpr ⟨hpre.congr fun x hx => hkept' (.inl ?_),
          headers_append.mpr ⟨hwalk, ?_⟩⟩⟩
      · simp only at hhigh
        omega
      · obtain ⟨p, hp, -, hhigh⟩ := hx
        have hplaced := (placed_bounds hp).2
        have hmin := p.2.min
        simp only [sizeofMmFreenode, sizeofMmAllocnode] at hmin hplaced
        omega
      · rw [hspan]
        exact Headers.update hpost hnext fun x hlow hx _ => hkept' (.inr ⟨hlow, hx⟩)
    -- the other regions
    have hother (hmem : r ∈ c.before ∨ r ∈ c.after) : r.Tiled m' := by
      have hr' : r ∈ c.fill old := by
        simp only [Spot.fill, List.mem_append, List.mem_cons]
        tauto
      have hapart := h.region_apart hmem
      refine (h.tiled r hr').congr fun x hlow hhigh => hkept' ?_
      omega
    rcases List.mem_append.mp hr with hr | hr
    · exact hother (.inl hr)
    · rcases List.mem_cons.mp hr with rfl | hr
      · exact hfocus
      · exact hother (.inr hr)
  · -- the entries of the list are not among the replaced blocks
    have hentry (e : Entry) (he : e ∈ .hook 0 :: es) :
        e.addr g + 16 ≤ c.addr ∨ e.addr g = c.addr + span old ∨
          c.addr + span old + 8 ≤ e.addr g := by
      have hmem : e ∈ hooks ++ chunksOf (layout (c.fill old)) := by
        refine h.perm.subset ?_
        simp only [List.mem_cons, List.mem_append] at he ⊢
        tauto
      rcases List.mem_append.mp hmem with hhook | hchunk
      · obtain ⟨i, hi, rfl⟩ := List.mem_map.mp hhook
        have hi := List.mem_range.mp hi
        have hhooks := h.globals.hooks _ (h.extent_mem Spot.mem_fill)
        simp only [Region.guard, span_append, Globals.hook, sizeofMmFreenode,
          sizeofMmAllocnode] at hhooks
        simp only [Entry.addr_hook, Globals.hook, sizeofMmFreenode]
        omega
      · obtain ⟨p, hp, hfree, rfl⟩ := mem_chunksOf hchunk
        have hmin := p.2.min
        simp only [sizeofMmFreenode] at hmin
        rw [Entry.addr_chunk]
        rcases h.block_apart hp with hold | hrest
        · have hnodup := h.nodesAt.nodup
          rw [← List.cons_append, List.nodup_append] at hnodup
          exact absurd rfl (hnodup.2.2 _ he _
            (List.mem_append_left _ (chunk_mem_chunksOf hold hfree)))
        · omega
    refine h.list.congr (fun e he x hlow hhigh => hkept' ?_) fun x hx => hkept' ?_
    · have := hentry e he
      omega
    · obtain ⟨a, ha, hlow, hhigh⟩ := hx
      obtain ⟨e, he, rfl⟩ := List.mem_map.mp ha
      have := hentry e he
      simp only [sizeofMmFreenode] at hhigh
      omega
  · have hperm := h.perm
    rw [Spot.layout_fill, List.perm_iff_count] at hperm
    rw [Spot.layout_fill, List.perm_iff_count, hspan]
    intro e
    have hcount := hperm e
    simp only [chunksOf_append, List.count_cons, List.count_append] at hcount ⊢
    omega

end Inv

end Px4Firmware.Mm
