import Px4Firmware.Mm.Malloc

/-!
# Px4Firmware.Mm.Init

**`mm_initialize` and `mm_addregion`.** The hooks of `g_nodelist` are a list without chunks
(`mmInitialize_spec`), and a region that is added is one free block between its guards
(`mmAddregion_spec`).
-/

namespace Px4Firmware.Mm

open Lib Lib.Memory

variable {g : Globals} {m m' : Memory} {rs : List Region} {es : List Entry} {d : Nat}
  {heapstart heapsize : Nat}

/-! ### The hooks -/

/-- The links of the first hooks. -/
def linkFirst (g : Globals) (m : Memory) (n : Nat) : Memory :=
  (List.range n).foldl (fun m i =>
    setBlink (setFlink m (g.hook i) (g.hook (i + 1))) (g.hook (i + 1)) (g.hook i)) m

theorem linkFirst_succ (n : Nat) :
    linkFirst g m (n + 1) = setBlink (setFlink (linkFirst g m n) (g.hook n) (g.hook (n + 1)))
      (g.hook (n + 1)) (g.hook n) := by
  simp [linkFirst, List.range_succ, List.foldl_append]

theorem hook_lt {i j : Nat} (hij : i < j) (hg : g.hook j ≤ 2 ^ 32) : g.hook i < 2 ^ 32 := by
  simp only [Globals.hook, sizeofMmFreenode] at hg ⊢
  omega

theorem size_linkFirst (n i : Nat) : size (linkFirst g m n) (g.hook i) = size m (g.hook i) := by
  induction n with
  | zero => rfl
  | succ n ih =>
      rw [linkFirst_succ]
      simp only [Globals.hook, sizeofMmFreenode] at ih ⊢
      simp (disch := omega) only [size, setBlink, setFlink, word_setWord_of_ne]
      exact ih

theorem flink_linkFirst {n i : Nat} (hi : i < n) (hg : g.hook (n + 1) ≤ 2 ^ 32) :
    flink (linkFirst g m n) (g.hook i) = g.hook (i + 1) := by
  induction n with
  | zero => omega
  | succ n ih =>
      have hlt := hook_lt (Nat.lt_succ_self (n + 1)) hg
      rw [linkFirst_succ]
      simp only [Globals.hook, sizeofMmFreenode] at ih hg hlt ⊢
      rcases Nat.lt_succ_iff_lt_or_eq.mp hi with hlt' | rfl
      · simp (disch := omega) only [flink, setBlink, setFlink, word_setWord_of_ne]
        exact ih hlt' (by omega)
      · simp (disch := omega) only [flink, setBlink, setFlink, word_setWord_of_ne, word_setWord]

theorem flink_linkFirst_last (n : Nat) :
    flink (linkFirst g m n) (g.hook n) = flink m (g.hook n) := by
  suffices hle : ∀ i, n ≤ i → flink (linkFirst g m n) (g.hook i) = flink m (g.hook i) from
    hle n (Nat.le_refl n)
  induction n with
  | zero => exact fun _ _ => rfl
  | succ n ih =>
      intro i hi
      have hprev := ih i (by omega)
      rw [linkFirst_succ]
      simp only [Globals.hook, sizeofMmFreenode] at hprev ⊢
      simp (disch := omega) only [flink, setBlink, setFlink, word_setWord_of_ne]
      exact hprev

theorem blink_linkFirst {n i : Nat} (hi : i < n) (hg : g.hook (n + 1) ≤ 2 ^ 32) :
    blink (linkFirst g m n) (g.hook (i + 1)) = g.hook i := by
  induction n with
  | zero => omega
  | succ n ih =>
      rw [linkFirst_succ]
      simp only [Globals.hook, sizeofMmFreenode] at ih hg ⊢
      rcases Nat.lt_succ_iff_lt_or_eq.mp hi with hlt | rfl
      · simp (disch := omega) only [blink, setBlink, setFlink, word_setWord_of_ne]
        exact ih hlt (by omega)
      · simp (disch := omega) only [blink, setBlink, setFlink, word_setWord]

/-- Before a region is added the list has only the hooks. -/
theorem linkHooks_spec (hpos : 0 < g.nodelist) (hg : g.hook mmNnodes ≤ 2 ^ 32)
    (hregions : g.regions = []) (hheapsize : g.heapsize = 0) :
    IsHeap d g (linkHooks g (m.fill g.nodelist 0 (sizeofMmFreenode * mmNnodes))) [] := by
  obtain ⟨m₀, hm₀⟩ : ∃ m₀, m₀ = m.fill g.nodelist 0 (sizeofMmFreenode * mmNnodes) := ⟨_, rfl⟩
  have hzero (a : Nat) (hlow : g.nodelist ≤ a) (hhigh : a + 4 ≤ g.hook mmNnodes) :
      m₀.word a = 0 := by
    simp only [Globals.hook] at hhigh
    have hbyte (x : Nat) (hxlow : a ≤ x) (hxhigh : x < a + 4) : m₀ x = 0 := by
      rw [hm₀]
      exact fill_of_covers (by omega) (by omega)
    rw [word, hbyte a (by omega) (by omega), hbyte (a + 1) (by omega) (by omega),
      hbyte (a + 2) (by omega) (by omega), hbyte (a + 3) (by omega) (by omega)]
    rfl
  have hall : Entry.hook 0 :: (List.range' 1 (mmNnodes - 1)).map .hook = hooks := rfl
  have hmem (e : Entry) (he : e ∈ hooks) : ∃ i < mmNnodes, e = .hook i := by
    obtain ⟨i, hi, rfl⟩ := List.mem_map.mp he
    exact ⟨i, List.mem_range.mp hi, rfl⟩
  have hinv : Inv g (linkFirst g m₀ (mmNnodes - 1)) []
      ((List.range' 1 (mmNnodes - 1)).map .hook) [] := by
    refine ⟨⟨?_, ?_, ⟨hpos, hg⟩, ?_, ?_⟩, hregions.symm, by simp, ⟨?_, ?_, ?_, ?_⟩, ?_⟩
    · simp [hregions]
    · simp [hregions]
    · simp [hregions]
    · rw [hregions, hheapsize]
      rfl
    · have haddrs : addrs g ((List.range' 1 (mmNnodes - 1)).map .hook) =
          (List.range' (0 + 1) (mmNnodes - 1)).map g.hook := by
        rw [addrs, List.map_map]
        rfl
      rw [haddrs]
      refine Linked.of_range' g.hook (fun i _ hi => flink_linkFirst (by omega) hg)
        (fun i _ hi => blink_linkFirst (by omega) hg) ?_
      rw [Nat.zero_add, flink_linkFirst_last]
      refine hzero _ ?_ ?_
      · simp only [Globals.hook]
        omega
      · simp only [Globals.hook, sizeofMmFreenode, mmNnodes, mmMaxShift, mmMinShift]
        omega
    · rw [hall]
      intro e he
      obtain ⟨i, hi, rfl⟩ := hmem e he
      rw [Entry.addr_hook, size_linkFirst]
      refine hzero _ ?_ ?_
      · simp only [Globals.hook]
        omega
      · simp only [Globals.hook, sizeofMmFreenode]
        omega
    · rw [hall]
      decide
    · rw [hall]
      exact fun i hi => List.mem_map.mpr ⟨i, List.mem_range.mpr hi, rfl⟩
    · rw [List.append_nil, hall]
      simp
  rw [← hm₀]
  exact ⟨⟨_, hinv⟩, by simp, by simp⟩

/-! ### Regions -/

/-- Where a region may be added: not too small, not at the end of the address space, and apart from
what there is. -/
structure Globals.Room (g : Globals) (heapstart heapsize : Nat) : Prop where
  start : 0 < heapstart
  limit : heapstart + heapsize < 2 ^ 32
  large : 62 ≤ heapsize
  small : heapsize < 2 ^ 31
  regions : ∀ e ∈ g.regions, e.2 + sizeofMmAllocnode ≤ heapstart ∨ heapstart + heapsize ≤ e.1
  nodelist : heapstart + heapsize ≤ g.nodelist ∨ g.hook mmNnodes ≤ heapstart
  total : g.heapsize + heapsize < 2 ^ 32

/-- The globals after a region was added. -/
def Globals.add (g : Globals) (r : Region) : Globals :=
  { g with regions := g.regions ++ [r.extent], heapsize := g.heapsize + extentSize r.extent }

theorem totalSize_append (l : List (Nat × Nat)) (e : Nat × Nat) :
    totalSize (l ++ [e]) = totalSize l + extentSize e := by
  induction l with
  | nil => simp [totalSize]
  | cons e' l ih => simp [totalSize, ih, Nat.add_assoc]

/-- Only the place of `g_nodelist` matters for the list. -/
theorem FreeList.add (h : FreeList g m es) (r : Region) : FreeList (g.add r) m es :=
  ⟨h.linked, h.sizes, h.sorted, h.hooks⟩

/-- A region apart from the others is added. -/
theorem Globals.Ok.add (h : g.Ok) {r : Region}
    (hr : 0 < r.start ∧ r.start % 8 = 0 ∧ r.guard + sizeofMmAllocnode ≤ 2 ^ 32 ∧
      r.guard - r.start < 2 ^ 31)
    (hapart : ∀ e ∈ g.regions, e.2 + sizeofMmAllocnode ≤ r.start ∨
      r.guard + sizeofMmAllocnode ≤ e.1)
    (hhooks : r.guard + sizeofMmAllocnode ≤ g.nodelist ∨ g.hook mmNnodes ≤ r.start) :
    (g.add r).Ok where
  apart := by
    refine List.pairwise_append.mpr ⟨h.apart, List.pairwise_singleton .., fun e he e' he' => ?_⟩
    rw [List.mem_singleton.mp he']
    exact hapart e he
  bounds := by
    intro e he
    rcases List.mem_append.mp he with he | he
    · exact h.bounds e he
    · rw [List.mem_singleton.mp he]
      refine ⟨hr.1, hr.2.1, ?_, hr.2.2.1, hr.2.2.2⟩
      simp only [Region.extent, Region.guard]
      omega
  nodelist := h.nodelist
  hooks := by
    intro e he
    rcases List.mem_append.mp he with he | he
    · exact h.hooks e he
    · rw [List.mem_singleton.mp he]
      exact hhooks
  heapsize := by
    change g.heapsize + _ = totalSize (g.regions ++ _)
    rw [totalSize_append, h.heapsize]

/-- The headers of a new region are written elsewhere. -/
theorem Inv.add (h : Inv g m rs es []) {r : Region} (hok : (g.add r).Ok) (hr : r.Tiled m')
    (hkept : Kept (fun x => x < r.start ∨ r.guard + sizeofMmAllocnode ≤ x) m m') :
    Inv (g.add r) m' (rs ++ [r]) es (chunksOf r.placed) where
  globals := hok
  extents := by
    rw [List.map_append, h.extents]
    rfl
  tiled := by
    intro r' hr'
    rcases List.mem_append.mp hr' with hr' | hr'
    · have hapart := (List.pairwise_append.mp hok.apart).2.2 _ (h.extent_mem hr') _
        (List.mem_singleton_self _)
      simp only [Region.extent, sizeofMmAllocnode] at hapart
      refine (h.tiled r' hr').congr fun x hlow hhigh => hkept x ?_
      simp only [sizeofMmAllocnode]
      omega
    · rw [List.mem_singleton.mp hr']
      exact hr
  list := by
    have hhooks := hok.hooks _ (List.mem_append_right _ (List.mem_singleton_self _))
    change r.guard + sizeofMmAllocnode ≤ g.nodelist ∨ g.hook mmNnodes ≤ r.start at hhooks
    have hentry (e : Entry) (he : e ∈ .hook 0 :: es) :
        e.addr g + 16 ≤ r.start ∨ r.guard + 8 ≤ e.addr g := by
      have hmem := h.perm.subset (by rwa [List.append_nil])
      rcases List.mem_append.mp hmem with hhook | hchunk
      · obtain ⟨i, hi, rfl⟩ := List.mem_map.mp hhook
        have hi := List.mem_range.mp hi
        simp only [Globals.hook, sizeofMmFreenode, sizeofMmAllocnode] at hhooks
        simp only [Entry.addr_hook, Globals.hook, sizeofMmFreenode]
        omega
      · obtain ⟨p, hp, -, rfl⟩ := mem_chunksOf hchunk
        obtain ⟨r', hr', hp⟩ := mem_layout hp
        have hapart := (List.pairwise_append.mp hok.apart).2.2 _ (h.extent_mem hr') _
          (List.mem_singleton_self _)
        have hbounds := r'.placed_bounds hp
        have hmin := p.2.min
        simp only [Region.extent, sizeofMmAllocnode, sizeofMmFreenode] at hapart hmin
        rw [Entry.addr_chunk]
        omega
    refine (h.list.congr (fun e he x hlow hhigh => hkept x ?_) fun x hx => hkept x ?_).add r
    · have := hentry e he
      simp only [sizeofMmAllocnode]
      omega
    · obtain ⟨a, ha, hlow, hhigh⟩ := hx
      obtain ⟨e, he, rfl⟩ := List.mem_map.mp ha
      have := hentry e he
      simp only [sizeofMmAllocnode, sizeofMmFreenode] at hhigh ⊢
      omega
  perm := by
    have hperm := h.perm
    rw [List.append_nil] at hperm
    rw [layout_append, chunksOf_append, ← List.append_assoc]
    simp only [layout_cons, layout_nil, List.append_nil]
    exact List.Perm.append_right _ hperm

/-- The block of a region that is added: what lies between the aligned addresses, without the
guards. -/
theorem Globals.Room.exists_block (h : g.Room heapstart heapsize) :
    ∃ b : Block, b.free = true ∧
      mmAlignDown (sizeT (heapstart + heapsize)) = mmAlignUp heapstart + 16 + b.size ∧
      b.size % 16 = 0 ∧ mmAlignUp heapstart % 16 = 0 ∧ heapstart ≤ mmAlignUp heapstart ∧
      mmAlignUp heapstart + 16 + b.size ≤ heapstart + heapsize ∧ heapsize ≤ b.size + 46 := by
  obtain ⟨-, hlimit, hlarge, -, -, -, -⟩ := h
  obtain ⟨base, hbase, hbaselow, hbasehigh, hbasemod⟩ : ∃ base, mmAlignUp heapstart = base ∧
      heapstart ≤ base ∧ base < heapstart + 16 ∧ base % 16 = 0 := by
    refine ⟨_, rfl, ?_⟩
    simp only [mmAlignUp, mmAlignDown, sizeT, mmGranMask, mmMinChunk, mmMinShift]
    omega
  obtain ⟨top, htop, htoplow, htophigh, htopmod⟩ : ∃ top,
      mmAlignDown (sizeT (heapstart + heapsize)) = top ∧ heapstart + heapsize < top + 16 ∧
      top ≤ heapstart + heapsize ∧ top % 16 = 0 := by
    refine ⟨_, rfl, ?_⟩
    simp only [mmAlignDown, sizeT, mmMinChunk, mmMinShift]
    omega
  rw [hbase, htop]
  refine ⟨⟨top - base - 16, true, by omega, by simp only [sizeofMmFreenode]; omega⟩, rfl, ?_⟩
  simp only
  omega

/-- A region in the room for it. -/
theorem Globals.Ok.add_room (h : g.Ok) (hroom : g.Room heapstart heapsize) {r : Region}
    (hlow : heapstart ≤ r.start) (hhigh : r.guard + sizeofMmAllocnode ≤ heapstart + heapsize)
    (hmod : r.start % 8 = 0) : (g.add r).Ok := by
  obtain ⟨hstart, hlimit, -, hsmall, hregions, hnodelist, -⟩ := hroom
  refine h.add ⟨?_, hmod, ?_, ?_⟩ (fun e he => ?_) ?_
  · omega
  · omega
  · simp only [sizeofMmAllocnode] at hhigh
    omega
  · have := hregions e he
    omega
  · omega

/-- The headers that `mm_addregion` writes: those of the guards and of the block between them. -/
def regionHeaders (m : Memory) (base size : Nat) : Memory :=
  let m := setPreceding (setSize m base sizeofMmAllocnode) base mmAllocBit
  let node := base + sizeofMmAllocnode
  let m := setPreceding (setSize m node size) node sizeofMmAllocnode
  let last := node + size
  setPreceding (setSize m last sizeofMmAllocnode) last (size ||| mmAllocBit)

theorem regionHeaders_tiled {base : Nat} {b : Block} (hb : b.free = true)
    (hsmall : b.size < 2 ^ 31) :
    (⟨base, [b]⟩ : Region).Tiled (regionHeaders m base b.size) := by
  have hmin := b.min
  have hbit : b.size ||| mmAllocBit < 2 ^ 32 := encode_lt (f := false) (by omega)
  simp only [sizeofMmFreenode] at hmin
  simp only [regionHeaders, sizeofMmAllocnode]
  refine ⟨⟨?_, ?_⟩, ⟨?_, ?_⟩, ?_, ?_⟩
  · simp (disch := omega) only [size, setPreceding, setSize, word_setWord_of_ne, word_setWord,
      sizeofMmAllocnode]
  · simp (disch := first | omega | decide) only [preceding, setPreceding, setSize,
      word_setWord_of_ne, word_setWord]
    rfl
  · simp (disch := omega) only [size, setPreceding, setSize, word_setWord_of_ne, word_setWord,
      sizeofMmAllocnode]
  · rw [hb]
    simp (disch := omega) only [preceding, setPreceding, setSize, word_setWord_of_ne,
      word_setWord, sizeofMmAllocnode]
    rfl
  · simp (disch := omega) only [size, setPreceding, setSize, word_setWord_of_ne, word_setWord,
      sizeofMmAllocnode]
  · exact word_setWord hbit

theorem regionHeaders_kept (base size : Nat) :
    Kept (fun x => x < base ∨ base + 16 + size ≤ x) m (regionHeaders m base size) := by
  simp only [regionHeaders, sizeofMmAllocnode]
  refine Kept.setWord (Kept.setWord (Kept.setWord (Kept.setWord (Kept.setWord (Kept.setWord
    (.refl _ m) ?_) ?_) ?_) ?_) ?_) ?_ <;>
  · intro x hx
    omega

/-- What `mm_addregion` computes, when the region is this block between its guards. -/
theorem mmAddregion_eq {base : Nat} {b : Block} (hbase : mmAlignUp heapstart = base)
    (htop : mmAlignDown (sizeT (heapstart + heapsize)) = base + 16 + b.size)
    (hlt : base + 16 + b.size < 2 ^ 32) (htotal : g.heapsize + (16 + b.size) < 2 ^ 32) :
    mmAddregion g m heapstart heapsize =
      (mmAddfreechunk (g.add ⟨base, [b]⟩) (regionHeaders m base b.size) (base + 8)).map
        fun m' => (g.add ⟨base, [b]⟩, m') := by
  have hmin := b.min
  simp only [sizeofMmFreenode] at hmin
  have hsum : base + 16 + b.size - base = 16 + b.size := by omega
  have hnode : 16 + b.size - 2 * sizeofMmAllocnode = b.size := by
    simp only [sizeofMmAllocnode]
    omega
  have hlast : base + 16 + b.size - sizeofMmAllocnode = base + 8 + b.size := by
    simp only [sizeofMmAllocnode]
    omega
  have htotal' : sizeT (g.heapsize + (16 + b.size)) = g.heapsize + (16 + b.size) := by
    simp only [sizeT]
    omega
  have hextent : (⟨base, [b]⟩ : Region).extent = (base, base + 8 + b.size) := by
    simp [Region.extent, Region.guard, sizeofMmAllocnode]
  have hsize : extentSize (base, base + 8 + b.size) = 16 + b.size := by
    simp only [extentSize, sizeofMmAllocnode]
    omega
  have hread : size (setSize (setPreceding (setSize (setPreceding (setSize m base 8) base
      mmAllocBit) (base + 8) b.size) (base + 8) 8) (base + 8 + b.size) 8) (base + 8) = b.size := by
    simp (disch := omega) only [size, setPreceding, setSize, word_setWord_of_ne, word_setWord]
  rw [mmAddregion, hbase, htop, Globals.add, hextent, hsize]
  simp only [hsum, hnode, hlast, htotal', regionHeaders]
  simp only [sizeofMmAllocnode, hread, Option.map_eq_bind]
  rfl

/-- `mm_addregion` adds a region that is one free block. -/
theorem mmAddregion_spec (hd : d ∣ 16) (h : IsHeap d g m rs) (hroom : g.Room heapstart heapsize) :
    ∃ m' b, mmAddregion g m heapstart heapsize =
        some (g.add ⟨mmAlignUp heapstart, [b]⟩, m') ∧ b.free = true ∧
      heapsize ≤ b.size + 46 ∧ b.size + 16 ≤ heapsize ∧ mmAlignUp heapstart % 16 = 0 ∧
      IsHeap d (g.add ⟨mmAlignUp heapstart, [b]⟩) m' (rs ++ [⟨mmAlignUp heapstart, [b]⟩]) ∧
      Kept (InPayload (busy (layout rs))) m m' := by
  obtain ⟨es, hinv⟩ := h.inv
  obtain ⟨b, hbfree, htop, hbmod, hbasemod, hlow, hhigh, hlarge⟩ := hroom.exists_block
  have hlimit := hroom.limit
  have hsmall := hroom.small
  have htotal := hroom.total
  generalize hbase : mmAlignUp heapstart = base at *
  have hguard : (⟨base, [b]⟩ : Region).guard + sizeofMmAllocnode = base + 16 + b.size := by
    simp only [Region.guard, sizeofMmAllocnode, span_cons, span_nil]
    omega
  -- the headers
  have hkept : Kept (fun x => x < base ∨ base + 16 + b.size ≤ x) m (regionHeaders m base b.size) :=
    regionHeaders_kept base b.size
  have hinv₁ : Inv (g.add ⟨base, [b]⟩) (regionHeaders m base b.size) _ es _ :=
    hinv.add (hinv.globals.add_room hroom hlow (by rw [hguard]; exact hhigh) (by simp only; omega))
      (regionHeaders_tiled hbfree (by omega)) (by rw [hguard]; exact hkept)
  have hpend : chunksOf (⟨base, [b]⟩ : Region).placed = [.chunk (base + 8) b.size] := by
    simp [Region.placed, chunksOf, hbfree, sizeofMmAllocnode]
  rw [hpend] at hinv₁
  -- the free chunk
  obtain ⟨m₂, es₂, hadd, hinv₂, hsafe⟩ := hinv₁.addfreechunk
  refine ⟨m₂, b, ?_, hbfree, hlarge, by omega, hbasemod, ⟨⟨es₂, hinv₂⟩, ?_, ?_⟩, ?_⟩
  · rw [mmAddregion_eq hbase htop (by omega) (by omega), hadd]
    rfl
  · intro r hr
    rcases List.mem_append.mp hr with hr | hr
    · exact h.coalesced r hr
    · rw [List.mem_singleton.mp hr]
      simp
  · intro p hp
    rw [layout_append] at hp
    rcases List.mem_append.mp hp with hp | hp
    · exact h.grain p hp
    · have hp' : p = (base + 8, b) := by simpa [Region.placed, sizeofMmAllocnode] using hp
      rw [hp']
      exact Nat.mod_eq_zero_of_dvd (Nat.dvd_trans hd (Nat.dvd_of_mod_eq_zero hbmod))
  · refine (hkept.mono fun x hx => ?_).trans (hsafe.mono fun x hx => ?_)
    · obtain ⟨p, hp, hplow, hphigh⟩ := hx
      obtain ⟨r, hr, hp⟩ := mem_layout (mem_busy.mp hp).1
      have hbounds := r.placed_bounds hp
      have := hroom.regions _ (hinv.extent_mem hr)
      simp only [sizeofMmAllocnode] at this hplow
      omega
    · obtain ⟨p, hp, hplow, hphigh⟩ := hx
      obtain ⟨hp, hfree⟩ := mem_busy.mp hp
      refine hinv₁.safe_of_block (p := p) ?_ (Nat.le_trans (Nat.le_add_right ..) hplow) hphigh
        (.inl hfree)
      rw [layout_append]
      exact List.mem_append_left _ hp

/-- `mm_initialize` makes a heap of one region, which is one free block. -/
theorem mmInitialize_spec (hd : d ∣ 16) {nodelist : Nat} (hpos : 0 < nodelist)
    (hlimit : nodelist + sizeofMmFreenode * mmNnodes ≤ 2 ^ 32)
    (hroom : Globals.Room ⟨nodelist, [], 0⟩ heapstart heapsize) :
    ∃ m' b, mmInitialize nodelist m heapstart heapsize =
        some (Globals.add ⟨nodelist, [], 0⟩ ⟨mmAlignUp heapstart, [b]⟩, m') ∧ b.free = true ∧
      heapsize ≤ b.size + 46 ∧ b.size + 16 ≤ heapsize ∧ mmAlignUp heapstart % 16 = 0 ∧
      IsHeap d (Globals.add ⟨nodelist, [], 0⟩ ⟨mmAlignUp heapstart, [b]⟩) m'
        [⟨mmAlignUp heapstart, [b]⟩] := by
  have hheap : IsHeap d ⟨nodelist, [], 0⟩ (linkHooks ⟨nodelist, [], 0⟩
      (m.fill nodelist 0 (sizeofMmFreenode * mmNnodes))) [] := linkHooks_spec hpos hlimit rfl rfl
  obtain ⟨m', b, hadd, hb, hlow, hhigh, hmod, hheap', -⟩ := mmAddregion_spec hd hheap hroom
  exact ⟨m', b, hadd, hb, hlow, hhigh, hmod, hheap'⟩

end Px4Firmware.Mm
