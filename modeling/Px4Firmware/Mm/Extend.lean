import Px4Firmware.Mm.Shrink

/-!
# Px4Firmware.Mm.Extend

How `realloc` extends a chunk where it is: into the free chunk after it (`extendNext_spec`), and
into the free chunk before it, to which the contents are then moved (`extendPrev_spec`). What is
left of the free chunk has to be a chunk again, so the sizes are multiples of 16 here.
-/

namespace Px4Firmware.Mm

open Lib Lib.Memory

variable {g : Globals} {m : Memory} {c : Spot} {es pending : List Entry} {a b x y : Block}
  {n taken : Nat}

/-- What is left of a free chunk of which something is taken. -/
def Leftover (b : Block) (taken : Nat) (l : List Block) : Prop :=
  span l + taken = b.size ∧ ∀ x ∈ l, x.free = true

/-- The headers that `extendNext` leaves when it takes a part of the chunk after. -/
theorem extendNext_part (h : IsHeap 16 g m (c.fill [b, y])) (hb : b.free = false)
    (hy : y.free = true) (hpos : 0 < taken) (hlt : taken < y.size) (hmod : taken % 16 = 0)
    {m₁ : Memory} {es₁ : List Entry}
    (hinv₁ : Inv g m₁ (c.fill [b, y]) es₁ [.chunk (c.addr + b.size) y.size]) :
    ∃ m' x y', mmAddfreechunk g (updatePreceding (setPreceding (setSize (setSize m₁ c.addr
          (b.size + taken)) (c.addr + (b.size + taken)) (y.size - taken))
          (c.addr + (b.size + taken)) (b.size + taken)) (c.addr + b.size + y.size)
          (y.size - taken)) (c.addr + (b.size + taken)) = some m' ∧
      IsHeap 16 g m' (c.fill [x, y']) ∧ x.free = false ∧ x.size = b.size + taken ∧
      y'.free = true ∧ y'.size = y.size - taken ∧
      Kept (c.Held (b.size + y.size) b.size) m₁ m' := by
  have hbounds := hinv₁.spot_bounds
  obtain ⟨-, -, hafter⟩ := h.spot_coalesced
  obtain ⟨-, hprec₁, -, -, hnext₁⟩ := hinv₁.blocks
  have hspan : span [b, y] = b.size + y.size := by simp
  have hbmin := b.min
  have hbmod := h.spot_grain b (by simp)
  have hymod := h.spot_grain y (by simp)
  rw [hspan] at hbounds
  rw [lastFree_cons, lastFree_cons, lastFree_nil, hy] at hafter
  simp only [sizeofMmFreenode] at hbmin
  obtain ⟨x, hx⟩ : ∃ x : Block, x = ⟨b.size + taken, false, by omega,
    by simp only [sizeofMmFreenode]; omega⟩ := ⟨_, rfl⟩
  obtain ⟨y', hy'⟩ : ∃ y' : Block, y' = ⟨y.size - taken, true, by omega,
    by simp only [sizeofMmFreenode]; omega⟩ := ⟨_, rfl⟩
  have hxsize : x.size = b.size + taken := by rw [hx]
  have hysize : y'.size = y.size - taken := by rw [hy']
  have hxfree : x.free = false := by rw [hx]
  have hyfree : y'.free = true := by rw [hy']
  have hspan' : span [x, y'] = b.size + y.size := by
    simp only [span_cons, span_nil]
    omega
  rw [← hxsize, ← hysize]
  have hinv₂ : Inv g (updatePreceding (setPreceding (setSize (setSize m₁ c.addr x.size)
      (c.addr + x.size) y'.size) (c.addr + x.size) x.size) (c.addr + b.size + y.size) y'.size)
      (c.fill [x, y']) es₁ [.chunk (c.addr + x.size) y'.size] := by
    refine hinv₁.two [] (by simp [chunksOf, hb, hy]) (by simp [chunksOf, hxfree, hyfree])
      (by rw [hspan]; omega) ?_ ?_ ?_ ?_ ?_ ?_
    · refine Kept.setWord (Kept.setWord (Kept.setWord (Kept.setWord
          (.refl _ m₁) ?_) ?_) ?_) ?_ <;>
      · intro z hz
        simp only [Spot.Outside, hspan] at hz
        omega
    · simp (disch := omega) only [size, updatePreceding, setPreceding, setSize,
        word_setWord_of_ne, word_setWord]
    · rw [hxfree, ← hb, ← hprec₁]
      simp (disch := omega) only [preceding, updatePreceding, setPreceding, setSize,
        word_setWord_of_ne]
    · simp (disch := omega) only [size, updatePreceding, setPreceding, setSize,
        word_setWord_of_ne, word_setWord]
    · simp (disch := omega) only [preceding, updatePreceding, setPreceding, setSize,
        word_setWord_of_ne, word_setWord, hyfree, encode, if_true]
    · rw [hspan, ← Nat.add_assoc]
      refine preceding_updatePreceding (p := y.size) (by omega) (by omega) ?_
      rw [← hnext₁]
      simp (disch := omega) only [preceding, setPreceding, setSize, word_setWord_of_ne]
  obtain ⟨m', es', hadd, hinv', hsafe⟩ := hinv₂.addfreechunk
  refine ⟨m', x, y', hadd, h.fill hinv' ?_ ?_ ?_ ?_, hxfree, rfl, hyfree, rfl,
    Kept.trans ?_ (hsafe.mono fun z hz => ?_)⟩
  · rw [hspan, hspan']
  · simp [hxfree]
  · simpa [hyfree] using hafter
  · simp only [List.mem_cons, List.not_mem_nil, or_false]
    rintro z (rfl | rfl)
    · omega
    · omega
  · have hheld (z : Nat) (hz : c.Held (b.size + y.size) b.size z) :=
      hinv₁.outside_of_held hspan hz
    simp only [Spot.Outside] at hheld
    refine Kept.setWord (Kept.setWord (Kept.setWord (Kept.setWord
          (.refl _ m₁) ?_) ?_) ?_) ?_ <;>
    · intro z hz
      have := hheld z hz
      omega
  · exact hinv₂.safe_of_held hxfree hspan' (by omega) hz

/-- The headers that `extendNext` leaves when it takes all of the chunk after. -/
theorem extendNext_whole (h : IsHeap 16 g m (c.fill [b, y])) (hb : b.free = false)
    (hy : y.free = true) {m₁ : Memory} {es₁ : List Entry}
    (hinv₁ : Inv g m₁ (c.fill [b, y]) es₁ [.chunk (c.addr + b.size) y.size]) :
    ∃ m' x, updatePreceding (setSize m₁ c.addr (b.size + y.size)) (c.addr + b.size + y.size)
        (b.size + y.size) = m' ∧
      IsHeap 16 g m' (c.fill [x]) ∧ x.free = false ∧ x.size = b.size + y.size ∧
      Kept (c.Held (b.size + y.size) b.size) m₁ m' := by
  obtain ⟨-, -, hafter⟩ := h.spot_coalesced
  have hspan : span [b, y] = b.size + y.size := by simp
  have hbmin := b.min
  have hbmod := h.spot_grain b (by simp)
  have hymod := h.spot_grain y (by simp)
  rw [lastFree_cons, lastFree_cons, lastFree_nil, hy] at hafter
  simp only [sizeofMmFreenode] at hbmin
  have hinv₂ := hinv₁.join (b := b.join y) [] (by simp [chunksOf, hb, hy])
    (show List.Perm [] _ by simp [chunksOf, hb]) rfl rfl
  refine ⟨_, b.join y, rfl, h.fill hinv₂ ?_ ?_ ?_ ?_, hb, rfl, ?_⟩
  · simp
  · simp [hb]
  · rw [lastFree_cons, lastFree_nil, Block.free_join, hb]
    exact (coalesced_iff.mp hafter).2
  · intro z hz
    rw [List.mem_singleton.mp hz, Block.size_join]
    omega
  · refine Kept.setWord (Kept.setWord (.refl _ m₁) ?_) ?_ <;>
    · intro z hz
      have hheld := hinv₁.outside_of_held hspan hz
      simp only [Spot.Outside] at hheld
      omega

theorem extendNext_spec (h : IsHeap 16 g m (c.fill [b, y])) (hb : b.free = false)
    (hy : y.free = true) (hpos : 0 < taken) (hle : taken ≤ y.size) (hmod : taken % 16 = 0) :
    ∃ m' l x, extendNext g m c.addr (c.addr + b.size) y.size taken = some m' ∧
      IsHeap 16 g m' (c.fill (x :: l)) ∧ Leftover y taken l ∧ x.free = false ∧
      x.size = b.size + taken ∧ Kept (c.Held (b.size + y.size) b.size) m m' := by
  obtain ⟨es, hinv⟩ := h.inv
  have hbounds := hinv.spot_bounds
  have hsize := hinv.blocks.1
  have hspan : span [b, y] = b.size + y.size := by simp
  have hbmin := b.min
  simp only [sizeofMmFreenode] at hbmin
  rw [hspan] at hbounds
  have hmem : .chunk (c.addr + b.size) y.size ∈ es := by
    refine hinv.chunk_mem_of_ne (p := (c.addr + b.size, y)) ?_ hy (by simp)
    rw [Spot.layout_fill]
    simp
  obtain ⟨m₁, es₁, hunlink, hinv₁, hsafe₁⟩ := hinv.unlink hmem
  have hkept₁ : Kept (c.Held (b.size + y.size) b.size) m m₁ :=
    hsafe₁.mono fun z hz => hinv.safe_of_held hb hspan (Nat.le_refl _) hz
  by_cases hpart : taken < y.size
  · obtain ⟨m₂, x, y', hadd, hheap, hx, hxsize, hy', hysize, hkept₂⟩ :=
      extendNext_part h hb hy hpos hpart hmod hinv₁
    refine ⟨m₂, [y'], x, ?_, hheap, ⟨?_, by simp [hy']⟩, hx, hxsize, hkept₁.trans hkept₂⟩
    · have hs₁ : size (setSize m₁ c.addr (b.size + taken)) c.addr = b.size + taken :=
        size_setSize (by omega)
      have hs₂ : size (setSize (setSize m₁ c.addr (b.size + taken)) (c.addr + (b.size + taken))
          (y.size - taken)) c.addr = b.size + taken := by
        simp (disch := omega) only [size, setSize, word_setWord_of_ne, word_setWord]
      have hs₃ : size (setPreceding (setSize (setSize m₁ c.addr (b.size + taken))
          (c.addr + (b.size + taken)) (y.size - taken)) (c.addr + (b.size + taken))
          (b.size + taken)) (c.addr + (b.size + taken)) = y.size - taken := by
        simp (disch := omega) only [size, setPreceding, setSize, word_setWord_of_ne, word_setWord]
      rw [extendNext, hsize, hunlink]
      simp only [Option.bind_eq_bind, Option.bind_some, if_pos hpart, hs₁, hs₂, hs₃, hadd]
    · simp only [span_cons, span_nil]
      omega
  · -- all of it is taken
    have hall : taken = y.size := by omega
    obtain ⟨m₂, x, hwrite, hheap, hx, hxsize, hkept₂⟩ := extendNext_whole h hb hy hinv₁
    refine ⟨m₂, [], x, ?_, hheap, ⟨by simp [hall], by simp⟩, hx, by omega, hkept₁.trans hkept₂⟩
    have hs₁ : size (setSize m₁ c.addr (b.size + y.size)) c.addr = b.size + y.size :=
      size_setSize (by omega)
    rw [hall] at hpart ⊢
    rw [extendNext, hsize, hunlink]
    simp only [Option.bind_eq_bind, Option.bind_some, if_neg hpart, hs₁, hwrite]

/-- The contents of a block may change. -/
theorem IsHeap.contents {d : Nat} {m' : Memory} (h : IsHeap d g m (c.fill [b]))
    (hb : b.free = false)
    (hkept : Kept (fun z => z < c.addr + 8 ∨ c.addr + b.size ≤ z) m m') :
    IsHeap d g m' (c.fill [b]) := by
  obtain ⟨es, hinv⟩ := h.inv
  exact ⟨⟨es, hinv.contents hb hkept⟩, h.coalesced, h.grain⟩

theorem IsHeap.contents_of_mem {d : Nat} {m' : Memory} {rs : List Region} {p : Nat × Block}
    (h : IsHeap d g m rs) (hp : p ∈ layout rs) (hfree : p.2.free = false)
    (hkept : Kept (fun z => z < p.1 + 8 ∨ p.1 + p.2.size ≤ z) m m') : IsHeap d g m' rs := by
  obtain ⟨c, rfl, haddr⟩ := Spot.exists_of_mem hp
  rw [← haddr] at hkept
  exact h.contents hfree hkept

/-- What has to be kept when a block is extended to lower addresses, before it is moved. -/
def Spot.HeldAfter (c : Spot) (k n z : Nat) : Prop :=
  InPayload (c.rest (k + n)) z ∨ c.addr + k + 8 ≤ z ∧ z < c.addr + k + n

theorem Inv.safe_of_heldAfter (h : Inv g m (c.fill [a, b]) es pending) (hb : b.free = false)
    {z : Nat} (hz : c.HeldAfter a.size b.size z) : Safe g (c.fill [a, b]) z := by
  have hspan : span [a, b] = a.size + b.size := by simp
  rcases hz with hz | ⟨hlow, hhigh⟩
  · obtain ⟨p, hp, hlow, hhigh⟩ := hz
    obtain ⟨hlayout, hfree⟩ := Spot.rest_sub (hspan ▸ hp)
    exact h.safe_of_block hlayout (Nat.le_trans (Nat.le_add_right ..) hlow) hhigh (.inl hfree)
  · refine h.safe_of_block (p := (c.addr + a.size, b)) ?_ (Nat.le_trans (Nat.le_add_right ..) hlow)
      hhigh (.inl hb)
    rw [Spot.layout_fill]
    simp

/-- The headers that `extendPrev` leaves when it takes a part of the chunk before. -/
theorem extendPrev_part (h : IsHeap 16 g m (c.fill [a, b])) (ha : a.free = true)
    (hb : b.free = false) (hpos : 0 < taken) (hlt : taken < a.size) (hmod : taken % 16 = 0)
    {m₁ : Memory} {es₁ : List Entry}
    (hinv₁ : Inv g m₁ (c.fill [a, b]) es₁ [.chunk c.addr a.size]) :
    ∃ m' x y, mmAddfreechunk g (updatePreceding (setPreceding (setSize (setSize m₁ c.addr
          (a.size - taken)) (c.addr + (a.size - taken)) (b.size + taken))
          (c.addr + (a.size - taken)) ((a.size - taken) ||| mmAllocBit))
          (c.addr + a.size + b.size) (b.size + taken)) c.addr = some m' ∧
      IsHeap 16 g m' (c.fill [x, y]) ∧ x.free = true ∧ x.size = a.size - taken ∧
      y.free = false ∧ y.size = b.size + taken ∧ Kept (c.HeldAfter a.size b.size) m₁ m' := by
  have hbounds := hinv₁.spot_bounds
  obtain ⟨-, hbefore, hafter⟩ := h.spot_coalesced
  obtain ⟨hsize₁, hprec₁, hsize₁', -, hnext₁⟩ := hinv₁.blocks
  have hspan : span [a, b] = a.size + b.size := by simp
  have hbmin := b.min
  have hamod := h.spot_grain a (by simp)
  have hbmod := h.spot_grain b (by simp)
  rw [hspan] at hbounds
  rw [lastFree_cons, lastFree_cons, lastFree_nil, hb] at hafter
  simp only [sizeofMmFreenode] at hbmin
  obtain ⟨x, hx⟩ : ∃ x : Block, x = ⟨a.size - taken, true, by omega,
    by simp only [sizeofMmFreenode]; omega⟩ := ⟨_, rfl⟩
  obtain ⟨y, hy⟩ : ∃ y : Block, y = ⟨b.size + taken, false, by omega,
    by simp only [sizeofMmFreenode]; omega⟩ := ⟨_, rfl⟩
  have hxsize : x.size = a.size - taken := by rw [hx]
  have hysize : y.size = b.size + taken := by rw [hy]
  have hxfree : x.free = true := by rw [hx]
  have hyfree : y.free = false := by rw [hy]
  have hspan' : span [x, y] = a.size + b.size := by
    simp only [span_cons, span_nil]
    omega
  rw [← hxsize, ← hysize]
  have hinv₂ : Inv g (updatePreceding (setPreceding (setSize (setSize m₁ c.addr x.size)
      (c.addr + x.size) y.size) (c.addr + x.size) (x.size ||| mmAllocBit))
      (c.addr + a.size + b.size) y.size) (c.fill [x, y]) es₁ [.chunk c.addr x.size] := by
    have hbit : x.size ||| mmAllocBit < 2 ^ 32 := encode_lt (f := false) (by omega)
    refine hinv₁.two [] (by simp [chunksOf, ha, hb]) (by simp [chunksOf, hxfree, hyfree])
      (by rw [hspan]; omega) ?_ ?_ ?_ ?_ ?_ ?_
    · refine Kept.setWord (Kept.setWord (Kept.setWord (Kept.setWord
          (.refl _ m₁) ?_) ?_) ?_) ?_ <;>
      · intro z hz
        simp only [Spot.Outside, hspan] at hz
        omega
    · simp (disch := omega) only [size, updatePreceding, setPreceding, setSize,
        word_setWord_of_ne, word_setWord]
    · rw [hxfree, ← ha, ← hprec₁]
      simp (disch := omega) only [preceding, updatePreceding, setPreceding, setSize,
        word_setWord_of_ne]
    · simp (disch := omega) only [size, updatePreceding, setPreceding, setSize,
        word_setWord_of_ne, word_setWord]
    · rw [hyfree]
      simp (disch := omega) only [preceding, updatePreceding, setPreceding, setSize,
        word_setWord_of_ne]
      exact word_setWord hbit
    · rw [hspan, ← Nat.add_assoc]
      refine preceding_updatePreceding (p := b.size) (by omega) (by omega) ?_
      rw [← hnext₁]
      simp (disch := omega) only [preceding, setPreceding, setSize, word_setWord_of_ne]
  obtain ⟨m', es', hadd, hinv', hsafe⟩ := hinv₂.addfreechunk
  refine ⟨m', x, y, hadd, h.fill hinv' ?_ ?_ ?_ ?_, hxfree, rfl, hyfree, rfl,
    Kept.trans ?_ (hsafe.mono fun z hz => ?_)⟩
  · rw [hspan, hspan']
  · simpa [hxfree, hyfree, ha, hb] using hbefore
  · simpa [hyfree] using hafter
  · simp only [List.mem_cons, List.not_mem_nil, or_false]
    rintro z (rfl | rfl)
    · omega
    · omega
  · have hheld (z : Nat) (hz : c.HeldAfter a.size b.size z) :
        c.Outside (a.size + b.size) z ∨ c.addr + a.size + 8 ≤ z ∧ z < c.addr + a.size + b.size :=
      hz.imp (fun hz => hspan ▸ hinv₁.outside_of_rest (hspan ▸ hz)) id
    simp only [Spot.Outside] at hheld
    refine Kept.setWord (Kept.setWord (Kept.setWord (Kept.setWord
          (.refl _ m₁) ?_) ?_) ?_) ?_ <;>
    · intro z hz
      have := hheld z hz
      omega
  · rcases hz with hz | ⟨hlow, hhigh⟩
    · obtain ⟨p, hp, hlow, hhigh⟩ := hz
      rw [← hspan'] at hp
      obtain ⟨hlayout, hfree⟩ := Spot.rest_sub hp
      exact hinv₂.safe_of_block hlayout (Nat.le_trans (Nat.le_add_right ..) hlow) hhigh (.inl hfree)
    · refine hinv₂.safe_of_block (p := (c.addr + x.size, y)) ?_ ?_ ?_ (.inl hyfree)
      · rw [Spot.layout_fill]
        simp
      · simp only
        omega
      · simp only
        omega

/-- The headers that `extendPrev` leaves when it takes all of the chunk before. -/
theorem extendPrev_whole (h : IsHeap 16 g m (c.fill [a, b])) (ha : a.free = true)
    (hb : b.free = false) {m₁ : Memory} {es₁ : List Entry}
    (hinv₁ : Inv g m₁ (c.fill [a, b]) es₁ [.chunk c.addr a.size]) :
    ∃ m' y, updatePreceding (allocate (setSize m₁ c.addr (a.size + b.size)) c.addr)
        (c.addr + a.size + b.size) (a.size + b.size) = m' ∧
      IsHeap 16 g m' (c.fill [y]) ∧ y.free = false ∧ y.size = a.size + b.size ∧
      Kept (c.HeldAfter a.size b.size) m₁ m' := by
  have hbounds := hinv₁.spot_bounds
  obtain ⟨-, hbefore, hafter⟩ := h.spot_coalesced
  obtain ⟨hsize₁, hprec₁, hsize₁', -, hnext₁⟩ := hinv₁.blocks
  have hspan : span [a, b] = a.size + b.size := by simp
  have hamin := a.min
  have hbmin := b.min
  have hamod := h.spot_grain a (by simp)
  have hbmod := h.spot_grain b (by simp)
  rw [hspan] at hbounds
  rw [lastFree_cons, lastFree_cons, lastFree_nil, hb] at hafter
  simp only [sizeofMmFreenode] at hamin hbmin
  have hallocate : preceding (allocate (setSize m₁ c.addr (a.size + b.size)) c.addr) c.addr =
      encode c.prev false := by
    refine preceding_allocate (p := c.prev) (f := a.free) (by omega) ?_
    rw [← hprec₁]
    simp (disch := omega) only [preceding, setSize, word_setWord_of_ne]
  have hinv₂ : Inv g (updatePreceding (allocate (setSize m₁ c.addr (a.size + b.size)) c.addr)
      (c.addr + a.size + b.size) (a.size + b.size)) (c.fill [(a.join b).mark false]) es₁ [] := by
    refine hinv₁.rewrite [] (by simp [chunksOf, ha, hb]) (by simp [chunksOf]) (by simp) ?_
      ⟨⟨?_, ?_⟩, trivial⟩ ?_
    · refine Kept.setWord (Kept.setWord (Kept.setWord (.refl _ m₁) ?_) ?_) ?_ <;>
      · intro z hz
        simp only [Spot.Outside, hspan] at hz
        omega
    · simp (disch := omega) only [size, updatePreceding, allocate, setPreceding, setSize,
        word_setWord_of_ne, word_setWord, Block.size_mark, Block.size_join]
    · rw [Block.free_mark, ← hallocate]
      exact word_setWord_of_ne (by omega)
    · rw [hspan, ← Nat.add_assoc]
      refine preceding_updatePreceding (p := b.size) (by omega) (by omega) ?_
      rw [← hnext₁]
      simp (disch := omega) only [preceding, allocate, setPreceding, setSize, word_setWord_of_ne]
  refine ⟨_, (a.join b).mark false, rfl, h.fill hinv₂ (by simp) (by simp) ?_ ?_, rfl, rfl, ?_⟩
  · simpa using hafter
  · intro z hz
    rw [List.mem_singleton.mp hz, Block.size_mark, Block.size_join]
    omega
  · have hheld (z : Nat) (hz : c.HeldAfter a.size b.size z) :
        c.Outside (a.size + b.size) z ∨ c.addr + a.size + 8 ≤ z ∧ z < c.addr + a.size + b.size :=
      hz.imp (fun hz => hspan ▸ hinv₁.outside_of_rest (hspan ▸ hz)) id
    simp only [Spot.Outside] at hheld
    refine Kept.setWord (Kept.setWord (Kept.setWord (.refl _ m₁) ?_) ?_) ?_ <;>
    · intro z hz
      have := hheld z hz
      omega

/-- The contents are moved to where the extended block begins. -/
theorem copy_spec {l : List Block} (h : IsHeap 16 g m (c.fill (l ++ [y]))) (hy : y.free = false)
    (hmin : b.size ≤ y.size) (haddr : span l + y.size = n + b.size) :
    IsHeap 16 g (m.copy (c.addr + span l + sizeofMmAllocnode) (c.addr + n + sizeofMmAllocnode)
        (size m (c.addr + span l) - sizeofMmAllocnode)) (c.fill (l ++ [y])) ∧
      Kept (InPayload (c.rest (n + b.size))) m (m.copy (c.addr + span l + sizeofMmAllocnode)
        (c.addr + n + sizeofMmAllocnode) (size m (c.addr + span l) - sizeofMmAllocnode)) ∧
      ∀ k, 8 ≤ k → k < b.size → m.copy (c.addr + span l + sizeofMmAllocnode)
        (c.addr + n + sizeofMmAllocnode) (size m (c.addr + span l) - sizeofMmAllocnode)
        (c.addr + span l + k) = m (c.addr + n + k) := by
  -- the place of the block itself
  have hfill : c.fill (l ++ [y]) = ({ c with pre := c.pre ++ l } : Spot).fill [y] := by
    simp [Spot.fill]
  have hplace : ({ c with pre := c.pre ++ l } : Spot).addr = c.addr + span l := by
    simp [Spot.addr, Nat.add_assoc]
  have hspan : span (l ++ [y]) = n + b.size := by
    rw [span_append, span_cons, span_nil]
    omega
  obtain ⟨es, hinv⟩ := h.inv
  have hymin := y.min
  have hsize : size m (c.addr + span l) = y.size := by
    have hinv' := hinv
    rw [hfill] at hinv'
    rw [← hplace]
    exact hinv'.block.1
  simp only [sizeofMmFreenode] at hymin
  rw [hsize]
  refine ⟨?_, fun z hz => ?_, fun k hlow hhigh => ?_⟩
  · rw [hfill] at h ⊢
    refine h.contents hy fun z hz => copy_of_not_covers ?_
    rw [hplace] at hz
    simp only [sizeofMmAllocnode]
    omega
  · have hout := hinv.outside_of_rest (x := z) (hspan ▸ hz)
    simp only [Spot.Outside, hspan] at hout
    exact copy_of_not_covers (by simp only [sizeofMmAllocnode]; omega)
  · obtain ⟨j, rfl⟩ := Nat.exists_eq_add_of_le hlow
    have hcopy : m.copy (c.addr + span l + sizeofMmAllocnode) (c.addr + n + sizeofMmAllocnode)
        (y.size - sizeofMmAllocnode) (c.addr + span l + sizeofMmAllocnode + j) =
        m (c.addr + n + sizeofMmAllocnode + j) :=
      copy_of_covers (.inl (by omega)) (by simp only [sizeofMmAllocnode]; omega)
    simpa [sizeofMmAllocnode, Nat.add_assoc] using hcopy

theorem extendPrev_spec (h : IsHeap 16 g m (c.fill [a, b])) (ha : a.free = true)
    (hb : b.free = false) (hpos : 0 < taken) (hle : taken ≤ a.size) (hmod : taken % 16 = 0) :
    ∃ m' l x, extendPrev g m (c.addr + a.size) c.addr (c.addr + a.size + b.size) a.size taken =
        some (m', c.addr + span l) ∧
      IsHeap 16 g m' (c.fill (l ++ [x])) ∧ Leftover a taken l ∧ x.free = false ∧
      x.size = b.size + taken ∧ Kept (InPayload (c.rest (a.size + b.size))) m m' ∧
      ∀ k, 8 ≤ k → k < b.size → m' (c.addr + span l + k) = m (c.addr + a.size + k) := by
  obtain ⟨es, hinv⟩ := h.inv
  have hbounds := hinv.spot_bounds
  obtain ⟨-, -, hsize, -⟩ := hinv.blocks
  have hmem : .chunk c.addr a.size ∈ es := by
    refine hinv.chunk_mem_of_ne (p := (c.addr, a)) ?_ ha (by simp)
    rw [Spot.layout_fill]
    simp
  obtain ⟨m₁, es₁, hunlink, hinv₁, hsafe₁⟩ := hinv.unlink hmem
  obtain ⟨hsize₁, -, -, -, -⟩ := hinv₁.blocks
  simp only [span_cons, span_nil] at hbounds
  have hkept₁ : Kept (c.HeldAfter a.size b.size) m m₁ :=
    hsafe₁.mono fun z hz => hinv.safe_of_heldAfter hb hz
  have hamin := a.min
  have hbmin := b.min
  simp only [sizeofMmFreenode] at hamin hbmin
  by_cases hpart : taken < a.size
  · obtain ⟨m₂, x, y, hadd, hheap, hx, hxsize, hy, hysize, hkept₂⟩ :=
      extendPrev_part h ha hb hpos hpart hmod hinv₁
    have hsub : c.addr + a.size - taken = c.addr + (a.size - taken) := by omega
    have hxmin := x.min
    simp only [sizeofMmFreenode, hxsize] at hxmin
    obtain ⟨hheap', hkept₃, hmoved⟩ := copy_spec (l := [x]) (n := a.size) (b := b) hheap hy
      (by omega) (by simp only [span_cons, span_nil]; omega)
    simp only [span_cons, span_nil, Nat.add_zero, hxsize] at hheap' hkept₃ hmoved
    refine ⟨_, [x], y, ?_, hheap', ⟨by simp only [span_cons, span_nil]; omega, by simp [hx]⟩, hy,
      hysize, ?_, fun k hlow hhigh => ?_⟩
    · have hs₁ : size (setSize m₁ c.addr (a.size - taken)) c.addr = a.size - taken :=
        size_setSize (by omega)
      have hs₂ : size (setSize (setSize m₁ c.addr (a.size - taken)) (c.addr + (a.size - taken))
          (b.size + taken)) c.addr = a.size - taken := by
        simp (disch := omega) only [size, setSize, word_setWord_of_ne, word_setWord]
      have hs₃ : size (setPreceding (setSize (setSize m₁ c.addr (a.size - taken))
          (c.addr + (a.size - taken)) (b.size + taken)) (c.addr + (a.size - taken))
          ((a.size - taken) ||| mmAllocBit)) (c.addr + (a.size - taken)) = b.size + taken := by
        simp (disch := omega) only [size, setPreceding, setSize, word_setWord_of_ne, word_setWord]
      rw [extendPrev, hsize, hunlink]
      simp only [Option.bind_eq_bind, Option.bind_some, if_pos hpart, hsub, hsize₁, hs₂, hs₃, hadd,
        span_cons, span_nil, Nat.add_zero, hxsize]
    · exact ((hkept₁.mono fun z hz => .inl hz).trans (hkept₂.mono fun z hz => .inl hz)).trans hkept₃
    · simp only [span_cons, span_nil, Nat.add_zero, hxsize]
      rw [hmoved k hlow hhigh]
      have hheld : c.HeldAfter a.size b.size (c.addr + a.size + k) := .inr ⟨by omega, by omega⟩
      exact (hkept₁.trans hkept₂) _ hheld
  · -- all of it is taken
    have hall : taken = a.size := by omega
    obtain ⟨m₂, y, hwrite, hheap, hy, hysize, hkept₂⟩ := extendPrev_whole h ha hb hinv₁
    obtain ⟨hheap', hkept₃, hmoved⟩ := copy_spec (l := []) (n := a.size) (b := b) hheap hy
      (by omega) (by simp only [span_nil]; omega)
    simp only [span_nil, Nat.add_zero] at hheap' hkept₃ hmoved
    refine ⟨_, [], y, ?_, hheap', ⟨by simp [hall], by simp⟩, hy, by omega, ?_,
      fun k hlow hhigh => ?_⟩
    · have hs₁ : size (allocate (setSize m₁ c.addr (a.size + b.size)) c.addr) c.addr =
          a.size + b.size := by
        simp (disch := omega) only [size, allocate, setPreceding, setSize, word_setWord_of_ne,
          word_setWord]
      have hsub : c.addr + a.size - a.size = c.addr := Nat.add_sub_cancel ..
      rw [hall] at hpart ⊢
      rw [extendPrev, hsize, hunlink]
      simp only [Option.bind_eq_bind, Option.bind_some, if_neg hpart, hsub, hsize₁, hs₁, hwrite,
        span_nil, Nat.add_zero]
    · exact ((hkept₁.mono fun z hz => .inl hz).trans (hkept₂.mono fun z hz => .inl hz)).trans hkept₃
    · simp only [span_nil, Nat.add_zero]
      rw [hmoved k hlow hhigh]
      have hheld : c.HeldAfter a.size b.size (c.addr + a.size + k) := .inr ⟨by omega, by omega⟩
      exact (hkept₁.trans hkept₂) _ hheld

end Px4Firmware.Mm
