import Px4Firmware.Mm.Rewrite

/-!
# Px4Firmware.Mm.Steps

What the operations write to divide, join, allocate and release blocks, and what they keep: the
contents of the allocated blocks elsewhere (`Spot.rest`).
-/

namespace Px4Firmware.Mm

open Lib Lib.Memory

/-- The allocated ones of blocks. -/
def busy (ps : List (Nat × Block)) : List (Nat × Block) := ps.filter fun p => !p.2.free

/-- What clients have in blocks. -/
def InPayload (ps : List (Nat × Block)) (x : Nat) : Prop :=
  ∃ p ∈ ps, p.1 + sizeofMmAllocnode ≤ x ∧ x < p.1 + p.2.size

/-- The allocated blocks that are not at the place. -/
def Spot.rest (c : Spot) (n : Nat) : List (Nat × Block) := busy (c.front ++ c.back n)

/-- The block as a free or an allocated one. -/
def Block.mark (b : Block) (free : Bool) : Block := { b with free }

@[simp] theorem Block.size_mark (b : Block) (f : Bool) : (b.mark f).size = b.size := rfl

@[simp] theorem Block.free_mark (b : Block) (f : Bool) : (b.mark f).free = f := rfl

variable {g : Globals} {m m' : Memory} {es pending pending' : List Entry} {c : Spot}
  {b x y d : Block} {old bs : List Block} {v : Nat} {ps ps' : List (Nat × Block)}

@[simp] theorem busy_nil : busy [] = [] := rfl

@[simp] theorem busy_append : busy (ps ++ ps') = busy ps ++ busy ps' := by simp [busy]

theorem busy_cons_free {a : Nat} (h : b.free = true) : busy ((a, b) :: ps) = busy ps := by
  simp [busy, h]

theorem busy_cons_allocated {a : Nat} (h : b.free = false) :
    busy ((a, b) :: ps) = (a, b) :: busy ps := by
  simp [busy, h]

theorem mem_busy {p : Nat × Block} : p ∈ busy ps ↔ p ∈ ps ∧ p.2.free = false := by simp [busy]

/-- The allocated blocks of a heap. -/
theorem busy_fill :
    (busy (layout (c.fill bs))).Perm (busy (placed c.addr bs) ++ c.rest (span bs)) := by
  rw [Spot.layout_fill, Spot.rest, busy_append, busy_append, busy_append, ← List.append_assoc,
    ← List.append_assoc]
  exact List.Perm.append_right _ List.perm_append_comm

/-- The allocated blocks around an allocated one. -/
theorem busy_fill_allocated (h : b.free = false) :
    (busy (layout (c.fill [b]))).Perm ((c.addr, b) :: c.rest b.size) := by
  refine busy_fill.trans ?_
  rw [placed_cons, placed_nil, busy_cons_allocated h, span_cons, span_nil, Nat.add_zero]
  rfl

theorem busy_placed_free {a : Nat} (h : ∀ b ∈ bs, b.free = true) : busy (placed a bs) = [] := by
  induction bs generalizing a with
  | nil => rfl
  | cons b bs ih =>
      rw [placed_cons, busy_cons_free (h b (List.mem_cons_self ..))]
      exact ih fun b hb => h b (List.mem_cons_of_mem _ hb)

/-- Free blocks after the place may be counted to it. -/
theorem Spot.rest_post {r post : List Block} {n : Nat} (hpost : c.post = r ++ post)
    (hfree : ∀ b ∈ r, b.free = true) :
    ({ c with post } : Spot).rest (n + span r) = c.rest n := by
  simp [Spot.rest, Spot.front, Spot.back, Spot.addr, hpost, busy_placed_free hfree, Nat.add_assoc]

/-- Free blocks before the place may be counted to it. -/
theorem Spot.rest_pre {l pre : List Block} {n : Nat} (hpre : c.pre = pre ++ l)
    (hfree : ∀ b ∈ l, b.free = true) :
    ({ c with pre } : Spot).rest (span l + n) = c.rest n := by
  simp [Spot.rest, Spot.front, Spot.back, Spot.addr, hpre, busy_placed_free hfree, Nat.add_assoc]

theorem Spot.rest_sub {p : Nat × Block} (hp : p ∈ c.rest (span bs)) :
    p ∈ layout (c.fill bs) ∧ p.2.free = false := by
  obtain ⟨hp, hfree⟩ := mem_busy.mp hp
  rw [layout_fill]
  simp only [List.mem_append] at hp ⊢
  exact ⟨by tauto, hfree⟩

namespace Inv

theorem kept_rest_of_safe (h : Inv g m (c.fill old) es pending)
    (hkept : Kept (Safe g (c.fill old)) m m') : Kept (InPayload (c.rest (span old))) m m' := by
  refine hkept.mono fun x hx => ?_
  obtain ⟨p, hp, hlow, hhigh⟩ := hx
  obtain ⟨hlayout, hfree⟩ := Spot.rest_sub hp
  exact h.safe_of_block hlayout (Nat.le_trans (Nat.le_add_right ..) hlow) hhigh (.inl hfree)

/-- What is elsewhere is outside of the place. -/
theorem outside_of_rest (h : Inv g m (c.fill old) es pending) {x : Nat}
    (hx : InPayload (c.rest (span old)) x) : c.Outside (span old) x := by
  obtain ⟨p, hp, hlow, hhigh⟩ := hx
  obtain ⟨hp, hfree⟩ := mem_busy.mp hp
  have hbounds := h.spot_bounds
  simp only [sizeofMmAllocnode] at hlow
  have hapart : p.1 + p.2.size ≤ c.addr ∨ p.1 = c.addr + span old ∨
      c.addr + span old + 8 ≤ p.1 := by
    have hnodup : (layout (c.fill old)).Nodup := h.layout_pairwise.imp fun {p q} hpq heq => by
      have hmin := p.2.min
      simp only [sizeofMmFreenode] at hmin
      rw [heq] at hpq hmin
      omega
    have hlayout : p ∈ layout (c.fill old) := by
      rw [Spot.layout_fill]
      simp only [List.mem_append] at hp ⊢
      tauto
    refine (h.block_apart hlayout).resolve_left fun hold => ?_
    rw [Spot.layout_fill, List.nodup_append, List.nodup_append] at hnodup
    rcases List.mem_append.mp hp with hfront | hback
    · exact hnodup.2.2 p hfront p (List.mem_append_left _ hold) rfl
    · exact hnodup.2.1.2.2 p hold p hback rfl
  refine ⟨by omega, by omega⟩

end Inv

/-- A header at the place, or after it, is written. -/
theorem Spot.kept_setWord {S : Nat → Prop} {n a : Nat} (hkept : Kept S m m')
    (hout : ∀ z, S z → c.Outside n z)
    (ha : c.addr ≤ a ∧ a + 4 ≤ c.addr + n ∨ a = c.addr + n + 4) :
    Kept S m (m'.setWord a v) :=
  hkept.setWord fun z hz => by
    have := hout z hz
    simp only [Outside] at this
    omega

/-! ### One block -/

/-- The header of the block at a place, and what is next. -/
theorem Inv.block (h : Inv g m (c.fill [b]) es pending) :
    size m c.addr = b.size ∧ preceding m c.addr = encode c.prev b.free ∧
      preceding m (c.addr + b.size) = encode b.size (headFree c.post) := by
  obtain ⟨⟨hheader, -⟩, hpost⟩ := h.spot_headers
  simp only [span_cons, span_nil, lastSize_cons, lastSize_nil, Nat.add_zero] at hpost
  exact ⟨hheader.1, hheader.2, hpost.preceding_eq⟩

/-- The headers of two blocks at a place, and what is next. -/
theorem Inv.blocks (h : Inv g m (c.fill [x, y]) es pending) :
    size m c.addr = x.size ∧ preceding m c.addr = encode c.prev x.free ∧
      size m (c.addr + x.size) = y.size ∧ preceding m (c.addr + x.size) = encode x.size y.free ∧
      preceding m (c.addr + x.size + y.size) = encode y.size (headFree c.post) := by
  obtain ⟨⟨hheader, hheader', -⟩, hpost⟩ := h.spot_headers
  simp only [span_cons, span_nil, lastSize_cons, lastSize_nil, Nat.add_zero,
    ← Nat.add_assoc] at hpost
  exact ⟨hheader.1, hheader.2, hheader'.1, hheader'.2, hpost.preceding_eq⟩

/-- The flag of a block is changed. -/
theorem Inv.mark {f : Bool} (others : List Entry) (h : Inv g m (c.fill [b]) es pending)
    (hold : pending.Perm (chunksOf [(c.addr, b)] ++ others))
    (hnew : pending'.Perm (chunksOf [(c.addr, b.mark f)] ++ others))
    (hprec : preceding (setPreceding m c.addr v) c.addr = encode c.prev f) :
    Inv g (setPreceding m c.addr v) (c.fill [b.mark f]) es pending' := by
  have hbounds := h.spot_bounds
  obtain ⟨hsize, -, hnext⟩ := h.block
  have hmin := b.min
  simp only [sizeofMmFreenode] at hmin
  simp only [span_cons, span_nil, Nat.add_zero] at hbounds
  refine h.rewrite others hold hnew rfl (Kept.setWord (.refl _ m) fun x hx => ?_)
    ⟨⟨?_, hprec⟩, trivial⟩ ?_
  · simp only [Spot.Outside, span_cons, span_nil] at hx
    omega
  · exact (word_setWord_of_ne (by omega)).trans hsize
  · exact (word_setWord_of_ne (by simp; omega)).trans hnext

/-- `node->preceding |= MM_ALLOC_BIT` -/
theorem Inv.allocate (h : Inv g m (c.fill [b]) es (.chunk c.addr b.size :: pending))
    (hfree : b.free = true) :
    Inv g (allocate m c.addr) (c.fill [b.mark false]) es pending := by
  have hbounds := h.spot_bounds
  refine h.mark pending ?_ ?_ (preceding_allocate (by omega) h.block.2.1)
  · rw [chunksOf_cons_free [] hfree]
    rfl
  · rw [chunksOf_cons_allocated [] (b.free_mark false)]
    rfl

/-- `node->preceding &= ~MM_ALLOC_BIT` -/
theorem Inv.release (h : Inv g m (c.fill [b]) es pending) (hfree : b.free = false) :
    Inv g (release m c.addr) (c.fill [b.mark true]) es (.chunk c.addr b.size :: pending) := by
  have hbounds := h.spot_bounds
  refine h.mark pending ?_ ?_ (preceding_release (by omega) h.block.2.1)
  · rw [chunksOf_cons_allocated [] hfree]
    rfl
  · rw [chunksOf_cons_free [] (b.free_mark true)]
    rfl

/-! ### Two blocks -/

theorem size_setSize {a : Nat} (hv : v < 2 ^ 32) : size (setSize m a v) a = v := word_setWord hv

/-- Two blocks replace others of the same span. -/
theorem Inv.two (others : List Entry) (h : Inv g m (c.fill old) es pending)
    (hold : pending.Perm (chunksOf (placed c.addr old) ++ others))
    (hnew : pending'.Perm (chunksOf [(c.addr, x), (c.addr + x.size, y)] ++ others))
    (hspan : x.size + y.size = span old) (hkept : Kept (c.Outside (span old)) m m')
    (hsize : size m' c.addr = x.size) (hprec : preceding m' c.addr = encode c.prev x.free)
    (hsize' : size m' (c.addr + x.size) = y.size)
    (hprec' : preceding m' (c.addr + x.size) = encode x.size y.free)
    (hnext : preceding m' (c.addr + span old) = encode y.size (headFree c.post)) :
    Inv g m' (c.fill [x, y]) es pending' :=
  h.rewrite others hold hnew (by simp [hspan]) hkept ⟨⟨hsize, hprec⟩, ⟨hsize', hprec'⟩, trivial⟩
    hnext

/-- What clients have in a block may change. -/
theorem Inv.contents (h : Inv g m (c.fill [b]) es pending) (hfree : b.free = false)
    (hkept : Kept (fun z => z < c.addr + 8 ∨ c.addr + b.size ≤ z) m m') :
    Inv g m' (c.fill [b]) es pending := by
  obtain ⟨hsize, hprec, hnext⟩ := h.block
  have hmin := b.min
  simp only [sizeofMmFreenode] at hmin
  have hpend : pending.Perm (chunksOf (placed c.addr [b]) ++ pending) := by
    rw [placed_cons, placed_nil, chunksOf_cons_allocated [] hfree]
    rfl
  refine h.rewrite pending hpend hpend rfl (hkept.mono fun z hz => ?_)
    ⟨⟨?_, ?_⟩, trivial⟩ ?_
  · simp only [Spot.Outside, span_cons, span_nil] at hz
    omega
  · exact (hkept.word fun z hlow hhigh => by omega).trans hsize
  · exact (hkept.word fun z hlow hhigh => by omega).trans hprec
  · simp only [span_cons, span_nil, Nat.add_zero, lastSize_cons, lastSize_nil]
    exact (hkept.word fun z hlow hhigh => by omega).trans hnext

/-- What is written to divide a chunk. -/
def carve (m : Memory) (node newSize next remaining : Nat) : Memory :=
  updatePreceding (setSize (setPreceding (setSize m (node + newSize) remaining) (node + newSize)
    newSize) node newSize) next remaining

/-- The size of the second part, as it is read again. -/
theorem size_carved {a n r : Nat} (hn : 8 ≤ n) (hr : r < 2 ^ 32) :
    size (setSize (setPreceding (setSize m (a + n) r) (a + n) n) a n) (a + n) = r := by
  simp (disch := omega) only [size, setPreceding, setSize, word_setWord_of_ne, word_setWord]

theorem Inv.kept_carve {S : Nat → Prop} {n k r : Nat} (hn : 8 ≤ n) (hr : 8 ≤ r) (hk : n + r = k)
    (hkept : Kept S m m')
    (hS : ∀ z, S z → c.Outside k z ∨ c.addr + 8 ≤ z ∧ z < c.addr + n) :
    Kept S m (carve m' c.addr n (c.addr + k) r) := by
  have hz (z : Nat) (hz : S z) := hS z hz
  simp only [Spot.Outside] at hz
  refine Kept.setWord (Kept.setWord (Kept.setWord (Kept.setWord hkept ?_) ?_) ?_) ?_ <;>
  · intro z hSz
    have := hz z hSz
    omega

/-- Blocks are divided into a block and a free one after it. -/
theorem Inv.carve (others : List Entry) {p : Nat} (h : Inv g m (c.fill old) es pending)
    (hold : pending.Perm (chunksOf (placed c.addr old) ++ others))
    (hnew : pending'.Perm (chunksOf [(c.addr, x), (c.addr + x.size, y)] ++ others))
    (hspan : x.size + y.size = span old) (hy : y.free = true)
    (hprec : preceding m c.addr = encode c.prev x.free) (hp : p < 2 ^ 31)
    (hnext : preceding m (c.addr + span old) = encode p (headFree c.post)) :
    Inv g (carve m c.addr x.size (c.addr + span old) y.size) (c.fill [x, y]) es pending' := by
  have hbounds := h.spot_bounds
  have hxmin := x.min
  have hymin := y.min
  simp only [sizeofMmFreenode] at hxmin hymin
  refine h.two others hold hnew hspan (kept_carve (by omega) (by omega) hspan (.refl _ m)
    fun z hz => .inl hz) ?_ ?_ ?_ ?_ ?_
  · simp (disch := omega) only [size, Mm.carve, updatePreceding, setPreceding, setSize,
      word_setWord_of_ne, word_setWord]
  · rw [← hprec]
    simp (disch := omega) only [preceding, Mm.carve, updatePreceding, setPreceding, setSize,
      word_setWord_of_ne]
  · simp (disch := omega) only [size, Mm.carve, updatePreceding, setPreceding, setSize,
      word_setWord_of_ne, word_setWord]
  · simp (disch := omega) only [preceding, Mm.carve, updatePreceding, setPreceding, setSize,
      word_setWord_of_ne, word_setWord, hy, encode, if_true]
  · refine preceding_updatePreceding hp (by omega) ?_
    rw [← hnext]
    simp (disch := omega) only [preceding, setPreceding, setSize, word_setWord_of_ne]

/-- Two blocks are joined. -/
theorem Inv.join (others : List Entry) (h : Inv g m (c.fill [x, y]) es pending)
    (hold : pending.Perm (chunksOf [(c.addr, x), (c.addr + x.size, y)] ++ others))
    (hnew : pending'.Perm (chunksOf [(c.addr, b)] ++ others))
    (hfree : b.free = x.free) (hsize : b.size = x.size + y.size) :
    Inv g (updatePreceding (setSize m c.addr (x.size + y.size)) (c.addr + x.size + y.size)
      (x.size + y.size)) (c.fill [b]) es pending' := by
  have hbounds := h.spot_bounds
  obtain ⟨-, hprec, -, -, hnext⟩ := h.blocks
  have hxmin := x.min
  have hymin := y.min
  simp only [sizeofMmFreenode] at hxmin hymin
  simp only [span_cons, span_nil, Nat.add_zero] at hbounds
  refine h.rewrite others hold hnew (by simp [hsize]) ?_ ⟨⟨?_, ?_⟩, trivial⟩ ?_
  · refine Kept.setWord (Kept.setWord (.refl _ m) ?_) ?_ <;>
    · intro z hz
      simp only [Spot.Outside, span_cons, span_nil] at hz
      omega
  · simp (disch := omega) only [size, updatePreceding, setPreceding, setSize, word_setWord_of_ne,
      word_setWord, hsize]
  · rw [hfree, ← hprec]
    simp (disch := omega) only [preceding, updatePreceding, setPreceding, setSize,
      word_setWord_of_ne]
  · simp only [span_cons, span_nil, Nat.add_zero, lastSize_cons, lastSize_nil, hsize,
      ← Nat.add_assoc]
    refine preceding_updatePreceding (p := y.size) (by omega) (by omega) ?_
    rw [← hnext]
    simp (disch := omega) only [preceding, setSize, word_setWord_of_ne]

end Px4Firmware.Mm
