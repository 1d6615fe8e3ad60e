import Px4Firmware.Mm.Free

/-!
# Px4Firmware.Mm.Shrink

**`mm_shrinkchunk`.** What is too much of an allocated block is given back: it is joined with the
free block after it, or becomes a free block if it is large enough for one
(`mmShrinkchunk_spec`).
-/

namespace Px4Firmware.Mm

open Lib Lib.Memory

variable {g : Globals} {m m₁ : Memory} {c : Spot} {es es₁ pending : List Entry}
  {b x y : Block} {old r post : List Block} {d k n z : Nat}

/-- What has to be kept when an allocated block gets another size: the contents of the allocated
blocks elsewhere, and of the part of it that remains. -/
def Spot.Held (c : Spot) (k n z : Nat) : Prop :=
  InPayload (c.rest k) z ∨ c.addr + 8 ≤ z ∧ z < c.addr + n

theorem Spot.held_post (hpost : c.post = r ++ post) (hfree : ∀ b ∈ r, b.free = true) :
    ({ c with post } : Spot).Held (k + span r) n z ↔ c.Held k n z := by
  rw [Held, Held, Spot.rest_post hpost hfree, addr_with_post]

theorem Inv.safe_of_held (h : Inv g m (c.fill (x :: old)) es pending) (hx : x.free = false)
    (hk : span (x :: old) = k) (hn : n ≤ x.size) (hz : c.Held k n z) :
    Safe g (c.fill (x :: old)) z := by
  rcases hz with hz | ⟨hlow, hhigh⟩
  · obtain ⟨p, hp, hlow, hhigh⟩ := hz
    obtain ⟨hlayout, hfree⟩ := Spot.rest_sub (hk ▸ hp)
    exact h.safe_of_block hlayout (Nat.le_trans (Nat.le_add_right ..) hlow) hhigh (.inl hfree)
  · refine h.safe_of_block (p := (c.addr, x)) ?_ (Nat.le_trans (Nat.le_add_right ..) hlow)
      (Nat.lt_of_lt_of_le hhigh (Nat.add_le_add_left hn _)) (.inl hx)
    rw [Spot.layout_fill]
    simp

theorem Inv.outside_of_held (h : Inv g m (c.fill old) es pending) (hk : span old = k)
    (hz : c.Held k n z) : c.Outside k z ∨ c.addr + 8 ≤ z ∧ z < c.addr + n := by
  rcases hz with hz | hz
  · rw [← hk] at hz ⊢
    exact .inl (h.outside_of_rest hz)
  · exact .inr hz

/-- What is too much of an allocated block, and the free block after it if there is one, become a
free block. -/
theorem carve_spec (h : IsHeap d g m (c.fill (b :: old)))
    (hinv : Inv g m₁ (c.fill (b :: old)) es₁ (chunksOf (placed (c.addr + b.size) old)))
    (hb : b.free = false) (hn : n % 8 = 0) (hnd : n % d = 0) (hmin : sizeofMmFreenode ≤ n)
    (hk : span (b :: old) = k) (hmuch : n + sizeofMmFreenode ≤ k) (hpost : Coalesced true c.post) :
    ∃ m' x y, mmAddfreechunk g (carve m₁ c.addr n (c.addr + k) (k - n)) (c.addr + n) = some m' ∧
      IsHeap d g m' (c.fill [x, y]) ∧
      (busy (layout (c.fill [x, y]))).Perm ((c.addr, x) :: c.rest k) ∧ x.free = false ∧
      x.size = n ∧ Kept (c.Held k n) m₁ m' := by
  have hbounds := hinv.spot_bounds
  obtain ⟨⟨hheader, -⟩, hheaders⟩ := hinv.spot_headers
  have hgranule := span_mod (b :: old)
  have hlast := lastSize_le_span b.size old
  rw [hk] at hbounds hgranule
  rw [span_cons] at hk
  simp only [sizeofMmFreenode] at hmin hmuch
  obtain ⟨x, hx⟩ : ∃ x : Block, x = ⟨n, false, hn, hmin⟩ := ⟨_, rfl⟩
  obtain ⟨y, hy⟩ : ∃ y : Block, y = ⟨k - n, true, by omega,
    by simp only [sizeofMmFreenode]; omega⟩ := ⟨_, rfl⟩
  have hxsize : x.size = n := by rw [hx]
  have hysize : y.size = k - n := by rw [hy]
  have hxfree : x.free = false := by rw [hx]
  have hyfree : y.free = true := by rw [hy]
  have hspan : x.size + y.size = span (b :: old) := by
    rw [span_cons]
    omega
  have hinv₂ := hinv.carve (x := x) (y := y) []
    (by rw [placed_cons, chunksOf_cons_allocated _ hb, List.append_nil])
    (show List.Perm [.chunk (c.addr + n) y.size] _ by simp [chunksOf, hxfree, hyfree, hxsize])
    hspan hyfree (by rw [hheader.2, hb, hxfree])
    (by rw [lastSize_cons]; omega) hheaders.preceding_eq
  obtain ⟨m', es', hadd, hinv', hsafe⟩ := hinv₂.addfreechunk
  refine ⟨m', x, y, ?_, h.fill hinv' ?_ ?_ ?_ ?_, ?_, hxfree, hxsize, ?_⟩
  · rw [← hadd, hxsize, hysize, span_cons, hk]
  · rw [← hspan]
    simp
  · simp [hxfree]
  · simpa [hyfree] using hpost
  · have hkd := span_dvd h.spot_grain
    rw [← hspan] at hkd
    simp only [List.mem_cons, List.not_mem_nil, or_false]
    rintro z (rfl | rfl)
    · rw [hxsize, hnd]
    · have hxd : d ∣ x.size := Nat.dvd_of_mod_eq_zero (hxsize ▸ hnd)
      exact Nat.mod_eq_zero_of_dvd ((Nat.dvd_add_right hxd).mp hkd)
  · refine busy_fill.trans ?_
    rw [placed_cons, placed_cons, placed_nil, busy_cons_allocated hxfree, busy_cons_free hyfree,
      span_cons, span_cons, span_nil, Nat.add_zero, hspan, span_cons, hk]
    rfl
  · rw [hxsize, hysize, span_cons, hk] at hsafe
    refine Kept.trans ?_ (hsafe.mono fun z hz => ?_)
    · refine Inv.kept_carve (by omega) (by omega) (by omega) (.refl _ m₁) fun z hz => ?_
      exact hinv.outside_of_held (by rw [span_cons, hk]) hz
    · refine hinv₂.safe_of_held hxfree ?_ (Nat.le_of_eq hxsize.symm) hz
      simp only [span_cons, span_nil]
      omega

theorem mmShrinkchunk_spec (h : IsHeap d g m (c.fill [b])) (hb : b.free = false) (hn : n % 8 = 0)
    (hnd : n % d = 0) (hmin : sizeofMmFreenode ≤ n) (hle : n ≤ b.size) :
    ∃ m' rs' x, mmShrinkchunk g m c.addr n = some m' ∧ IsHeap d g m' rs' ∧
      (busy (layout rs')).Perm ((c.addr, x) :: c.rest b.size) ∧ x.free = false ∧ n ≤ x.size ∧
      Kept (c.Held b.size n) m m' := by
  obtain ⟨es, hinv⟩ := h.inv
  have hbounds := hinv.spot_bounds
  obtain ⟨hsize, hprec, hnext⟩ := hinv.block
  obtain ⟨-, -, hafter⟩ := h.spot_coalesced
  simp only [span_cons, span_nil, Nat.add_zero] at hbounds
  rw [lastFree_cons, lastFree_nil, hb] at hafter
  have hfree_iff := isFree_iff (p := b.size) (by omega) hnext
  simp only [sizeofMmFreenode] at hmin
  by_cases hhead : headFree c.post = true
  · -- the next chunk is free
    cases hc : c.post with
    | nil => simp [hc] at hhead
    | cons y post =>
        have hfree := hfree_iff.mpr hhead
        rw [hc, headFree_cons] at hhead
        rw [hc, coalesced_cons, hhead] at hafter
        rw [hc, span_cons] at hbounds
        have hfill : c.fill [b] = ({ c with post } : Spot).fill [b, y] := by simp [Spot.fill, hc]
        have hspan : span [b, y] = b.size + y.size := by simp
        have hymin := y.min
        simp only [sizeofMmFreenode] at hymin
        have hmem : .chunk (c.addr + b.size) y.size ∈ es := by
          refine hinv.chunk_mem_of_ne (p := (c.addr + b.size, y)) ?_ hhead (by simp)
          rw [hfill, Spot.layout_fill]
          simp
        obtain ⟨m₁, es₁, hunlink, hinv₁, hsafe₁⟩ := hinv.unlink hmem
        have hheld (z : Nat) : ({ c with post } : Spot).Held (b.size + y.size) n z ↔
            c.Held b.size n z := by
          have := Spot.held_post (k := b.size) (n := n) (z := z) (r := [y]) hc (by simp [hhead])
          simpa using this
        have hrest : ({ c with post } : Spot).rest (b.size + y.size) = c.rest b.size := by
          have := Spot.rest_post (n := b.size) (r := [y]) hc (by simp [hhead])
          simpa using this
        rw [hfill] at hinv₁ hinv h hsafe₁
        obtain ⟨hsize₁, -, hsize₁', -, -⟩ := hinv₁.blocks
        obtain ⟨m', x, y', hadd, hheap, hperm, hx, hxsize, hkept⟩ :=
          carve_spec h (by simpa [chunksOf, hhead] using hinv₁) hb hn hnd hmin hspan
            (by simp only [sizeofMmFreenode]; omega) hafter.2
        rw [hrest] at hperm
        refine ⟨m', _, x, ?_, hheap, hperm, hx, Nat.le_of_eq hxsize.symm, ?_⟩
        · have hsize' := hinv.blocks.2.2.1
          simp only [Spot.addr_with_post] at hsize' hsize₁ hsize₁' hadd
          have hsum : y.size + b.size - n = b.size + y.size - n := by omega
          rw [mmShrinkchunk, hsize, if_pos hfree, hsize', hunlink]
          simp only [Option.bind_eq_bind, Option.bind_some, hsize₁, hsize₁', hsum,
            size_carved (show 8 ≤ n by omega) (show b.size + y.size - n < 2 ^ 32 by omega)]
          rw [← hadd, ← Nat.add_assoc]
          rfl
        · exact Kept.trans (hsafe₁.mono fun z hz => hinv.safe_of_held hb hspan hle
            ((hheld z).mpr hz)) (hkept.mono fun z hz => (hheld z).mpr hz)
  · have hnot : ¬ isFree m (c.addr + b.size) := fun hfree => hhead (hfree_iff.mp hfree)
    rw [Bool.not_eq_true] at hhead
    have hspan : span [b] = b.size := by simp
    by_cases hmuch : b.size ≥ n + sizeofMmFreenode
    · obtain ⟨m', x, y, hadd, hheap, hperm, hx, hxsize, hkept⟩ :=
        carve_spec h (by simpa using hinv) hb hn hnd hmin hspan hmuch
          (coalesced_iff.mpr ⟨fun _ => hhead, hafter⟩)
      refine ⟨m', _, x, ?_, hheap, hperm, hx, Nat.le_of_eq hxsize.symm, hkept⟩
      -- the next chunk is allocated, so that its bit is set anyway
      have hbit (m' : Memory) (v : Nat)
          (hm' : preceding m' (c.addr + b.size) = preceding m (c.addr + b.size)) :
          setPreceding m' (c.addr + b.size) (v ||| mmAllocBit) =
            updatePreceding m' (c.addr + b.size) v := by
        rw [updatePreceding, hm', hnext, hhead, encode_and_mmAllocBit (by omega)]
        simp [encode]
      simp only [sizeofMmFreenode] at hmuch
      rw [mmShrinkchunk, hsize, if_neg hnot, if_pos (by simp only [sizeofMmFreenode]; omega)]
      simp only [size_carved (show 8 ≤ n by omega) (show b.size - n < 2 ^ 32 by omega)]
      rw [hbit, ← hadd]
      · rfl
      · simp (disch := omega) only [preceding, setPreceding, setSize, word_setWord_of_ne]
    · refine ⟨m, _, b, ?_, h, ?_, hb, hle, .refl _ m⟩
      · rw [mmShrinkchunk, hsize, if_neg hnot, if_neg hmuch]
      · exact busy_fill_allocated hb

end Px4Firmware.Mm
