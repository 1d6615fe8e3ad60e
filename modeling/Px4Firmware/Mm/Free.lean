import Px4Firmware.Mm.Malloc

/-!
# Px4Firmware.Mm.Free

**`free`.** A released block is joined with the free blocks next to it, so that no two free blocks
come to be next to each other (`free_spec`).
-/

namespace Px4Firmware.Mm

open Lib Lib.Memory

/-- Two blocks as one. -/
def Block.join (x y : Block) : Block where
  size := x.size + y.size
  free := x.free
  granule := by
    have hx := x.granule
    have hy := y.granule
    omega
  min := Nat.le_trans x.min (Nat.le_add_right ..)

@[simp] theorem Block.size_join (x y : Block) : (x.join y).size = x.size + y.size := rfl

@[simp] theorem Block.free_join (x y : Block) : (x.join y).free = x.free := rfl

variable {g : Globals} {m : Memory} {rs : List Region} {c : Spot} {es pending : List Entry}
  {b x y : Block} {d : Nat}

/-- A free block that is not waiting is in the list. -/
theorem Inv.chunk_mem_of_ne (h : Inv g m rs es pending) {p : Nat × Block} (hp : p ∈ layout rs)
    (hfree : p.2.free = true) (hne : .chunk p.1 p.2.size ∉ pending) :
    .chunk p.1 p.2.size ∈ es := by
  have hmem := h.perm.symm.subset (List.mem_append_right _ (chunk_mem_chunksOf hp hfree))
  simp only [List.mem_cons, List.mem_append] at hmem
  rcases hmem with hhook | hes | hpending
  · cases hhook
  · exact hes
  · exact absurd hpending hne

theorem mergeNext_spec (h : Inv g m (c.fill [x]) es [.chunk c.addr x.size]) (hx : x.free = true)
    (hpost : Coalesced false c.post) :
    ∃ m' es' r post x', c.post = r ++ post ∧ (∀ y ∈ r, y.free = true) ∧ headFree post = false ∧
      Coalesced false post ∧ x'.free = true ∧ x'.size = x.size + span r ∧
      mergeNext m c.addr = some (m', c.addr + x'.size) ∧
      Inv g m' (({ c with post } : Spot).fill [x']) es' [.chunk c.addr x'.size] ∧
      Kept (InPayload (c.rest x.size)) m m' := by
  have hbounds := h.spot_bounds
  obtain ⟨hsize, -, hnext⟩ := h.block
  simp only [span_cons, span_nil, Nat.add_zero] at hbounds
  have hfree_iff := isFree_iff (p := x.size) (by omega) hnext
  by_cases hhead : headFree c.post = true
  · cases hc : c.post with
    | nil => simp [hc] at hhead
    | cons y post =>
        rw [hc, headFree_cons] at hhead
        rw [hc, coalesced_cons, hhead] at hpost
        have hfree := hfree_iff.mpr (by rw [hc, headFree_cons, hhead])
        have hfill : c.fill [x] = ({ c with post } : Spot).fill [x, y] := by simp [Spot.fill, hc]
        have hymin := y.min
        have hxmin := x.min
        simp only [sizeofMmFreenode] at hymin hxmin
        have hmem : .chunk (c.addr + x.size) y.size ∈ es := by
          refine h.chunk_mem_of_ne (p := (c.addr + x.size, y)) ?_ hhead ?_
          · rw [hfill, Spot.layout_fill]
            simp [Spot.addr]
          · simp only [List.mem_singleton, Entry.chunk.injEq]
            omega
        obtain ⟨m₁, es₁, hunlink, hinv₁, hsafe₁⟩ := h.unlink hmem
        have hkept₁ := h.kept_rest_of_safe hsafe₁
        rw [hfill] at hinv₁ h
        have hrest : ({ c with post } : Spot).rest (span [x, y]) = c.rest x.size := by
          have := Spot.rest_post (n := x.size) (r := [y]) hc (by simp [hhead])
          simpa using this
        have hout (z : Nat) (hz : InPayload (c.rest x.size) z) :=
          hinv₁.outside_of_rest (hrest ▸ hz)
        simp only [span_cons, span_nil, Nat.add_zero] at hout hkept₁
        obtain ⟨-, -, hsize', -⟩ := h.blocks
        obtain ⟨hsize₁, -, hsize₁', -, -⟩ := hinv₁.blocks
        have hinv₂ := hinv₁.join (b := x.join y) [] ((List.Perm.swap ..).trans
          (by simp [chunksOf, hx, hhead])) (show List.Perm [.chunk c.addr (x.size + y.size)] _ by
            simp [chunksOf, hx]) rfl rfl
        refine ⟨_, es₁, [y], post, x.join y, rfl, by simp [hhead], ?_, ?_, hx, by simp, ?_,
          hinv₂, ?_⟩
        · exact (coalesced_iff.mp hpost.2).1 rfl
        · exact (coalesced_iff.mp hpost.2).2
        · simp only [Spot.addr_with_post] at hsize' hsize₁ hsize₁' ⊢
          rw [mergeNext, hsize, if_pos hfree, hsize', hunlink]
          simp only [Option.bind_eq_bind, Option.bind_some, hsize₁, hsize₁',
            size_setSize (show x.size + y.size < 2 ^ 32 by
              rw [hc, span_cons] at hbounds
              omega), Block.size_join, Nat.add_assoc]
        · refine Spot.kept_setWord (Spot.kept_setWord hkept₁ hout (.inl ?_)) hout (.inr ?_)
          · simp only [Spot.addr_with_post]
            omega
          · simp only [Nat.add_assoc]
  · refine ⟨m, es, [], c.post, x, rfl, by simp, by simpa using hhead, hpost, hx, by simp, ?_, h,
      Kept.refl _ m⟩
    rw [mergeNext, hsize, if_neg (fun hfree => hhead (hfree_iff.mp hfree))]

theorem mergePrev_spec (h : Inv g m (c.fill [x]) es [.chunk c.addr x.size]) (hx : x.free = true)
    (hpre : Coalesced false c.pre) :
    ∃ m' es' l pre x', c.pre = pre ++ l ∧ (∀ y ∈ l, y.free = true) ∧ lastFree false pre = false ∧
      Coalesced false pre ∧ x'.free = true ∧ x'.size = span l + x.size ∧
      mergePrev m c.addr (c.addr + x.size) = some (m', ({ c with pre } : Spot).addr) ∧
      Inv g m' (({ c with pre } : Spot).fill [x']) es'
        [.chunk ({ c with pre } : Spot).addr x'.size] ∧
      Kept (InPayload (c.rest x.size)) m m' := by
  have hbounds := h.spot_bounds
  obtain ⟨hsize, hprec, -⟩ := h.block
  simp only [span_cons, span_nil, Nat.add_zero] at hbounds
  rw [hx] at hprec
  change preceding m c.addr = c.prev at hprec
  rcases List.eq_nil_or_concat c.pre with hc | ⟨pre, y, hc⟩
  · -- before the first block there is the guard
    have hguard := (h.tiled _ Spot.mem_fill).guard.2
    have hstart : c.addr - c.prev = c.start := by simp [Spot.addr, Spot.prev, hc]
    refine ⟨m, es, [], [], x, hc, by simp, rfl, trivial, hx, by simp, ?_, ?_, Kept.refl _ m⟩
    · rw [mergePrev, hprec, hstart, if_neg fun hfree => ?_]
      · simp [Spot.addr, hc]
      · have := (isFree_iff (by decide) hguard).mp hfree
        cases this
    · have hsame : ({ c with pre := [] } : Spot) = c := by rw [← hc]
      rw [hsame]
      exact h
  · rw [List.concat_eq_append] at hc
    have haddr : c.addr = ({ c with pre } : Spot).addr + y.size := by
      simp [Spot.addr, hc, Nat.add_assoc]
    have hprev : c.prev = y.size := by simp [Spot.prev, hc]
    have hfill : c.fill [x] = ({ c with pre } : Spot).fill [y, x] := by simp [Spot.fill, hc]
    have hh := h
    rw [hfill] at hh
    have hbounds' := hh.spot_bounds
    obtain ⟨-, hyprec, -⟩ := hh.blocks
    have hfree_iff := isFree_iff (by omega) hyprec
    have hsub : c.addr - c.prev = ({ c with pre } : Spot).addr := by omega
    by_cases hy : y.free = true
    · have hfree := hfree_iff.mpr hy
      have hymin := y.min
      simp only [sizeofMmFreenode] at hymin
      rw [hc, coalesced_append, coalesced_cons, hy] at hpre
      have hmem : .chunk ({ c with pre } : Spot).addr y.size ∈ es := by
        refine h.chunk_mem_of_ne (p := (({ c with pre } : Spot).addr, y)) ?_ hy ?_
        · rw [hfill, Spot.layout_fill]
          simp
        · simp only [List.mem_singleton, Entry.chunk.injEq]
          omega
      obtain ⟨m₁, es₁, hunlink, hinv₁, hsafe₁⟩ := h.unlink hmem
      have hkept₁ := h.kept_rest_of_safe hsafe₁
      rw [hfill] at hinv₁
      have hrest : ({ c with pre } : Spot).rest (span [y, x]) = c.rest x.size := by
        have := Spot.rest_pre (n := x.size) (l := [y]) hc (by simp [hy])
        simpa using this
      have hout (z : Nat) (hz : InPayload (c.rest x.size) z) :=
        hinv₁.outside_of_rest (hrest ▸ hz)
      simp only [span_cons, span_nil, Nat.add_zero] at hout hkept₁ hbounds'
      obtain ⟨hsize₁, -, hsize₁', -, -⟩ := hinv₁.blocks
      rw [haddr] at hinv₁
      have hinv₂ := hinv₁.join (b := y.join x) [] (by simp [chunksOf, hx, hy])
        (show List.Perm [.chunk ({ c with pre } : Spot).addr (y.size + x.size)] _ by
          simp [chunksOf, hy]) rfl rfl
      refine ⟨_, es₁, [y], pre, y.join x, hc, by simp [hy], ?_, hpre.1, hy, by simp, ?_,
        hinv₂, ?_⟩
      · cases hl : lastFree false pre with
        | false => rfl
        | true => cases hpre.2.1 hl
      · rw [mergePrev, hprec, hsub, if_pos hfree, hunlink, haddr]
        simp only [Option.bind_eq_bind, Option.bind_some, hsize₁, hsize₁',
          size_setSize (show y.size + x.size < 2 ^ 32 by omega)]
      · refine Spot.kept_setWord (Spot.kept_setWord hkept₁ hout (.inl ?_)) hout (.inr ?_)
        · omega
        · simp only [Nat.add_assoc]
    · refine ⟨m, es, [], c.pre, x, (List.append_nil _).symm, by simp, ?_, hpre, hx, by simp, ?_, h,
        Kept.refl _ m⟩
      · rw [hc]
        simpa using hy
      · rw [mergePrev, hprec, hsub, if_neg fun hfree => hy (hfree_iff.mp hfree)]

/-- `free` gives a block back, and leaves no free block next to another one. -/
theorem free_spec {a : Nat} (h : IsHeap d g m rs) (hp : (a, b) ∈ layout rs) (hb : b.free = false) :
    ∃ m' rs', free g m (a + sizeofMmAllocnode) = some m' ∧ IsHeap d g m' rs' ∧
      (busy (layout rs)).Perm ((a, b) :: busy (layout rs')) ∧
      Kept (InPayload (busy (layout rs'))) m m' := by
  obtain ⟨c, rfl, rfl⟩ := Spot.exists_of_mem hp
  obtain ⟨es, hinv⟩ := h.inv
  obtain ⟨hpre, -, hpost⟩ := h.spot_coalesced
  rw [lastFree_cons, lastFree_nil, hb] at hpost
  have hout (z : Nat) (hz : InPayload (c.rest b.size) z) : c.Outside b.size z := by
    have := hinv.outside_of_rest (x := z)
    simp only [span_cons, span_nil, Nat.add_zero] at this
    exact this hz
  -- the block is released, and joined with what is next to it
  have hinv₁ := hinv.release hb
  have hkept₁ : Kept (InPayload (c.rest b.size)) m (release m c.addr) := by
    have hmin := b.min
    simp only [sizeofMmFreenode] at hmin
    exact c.kept_setWord (.refl _ m) hout (.inl (by omega))
  obtain ⟨m₂, es₂, r, post, x, hc, hr, hhead, hpost', hx, hxsize, hnext, hinv₂, hkept₂⟩ :=
    mergeNext_spec (x := b.mark true) hinv₁ rfl hpost
  obtain ⟨m₃, es₃, l, pre, x', hc', hl, hlast, hpre', hx', hxsize', hprev, hinv₃, hkept₃⟩ :=
    mergePrev_spec hinv₂ hx hpre
  obtain ⟨m₄, es₄, hadd, hinv₄, hsafe₄⟩ := hinv₃.addfreechunk
  have hkept₄ := hinv₃.kept_rest_of_safe hsafe₄
  simp only [Block.size_mark] at hxsize hkept₂
  simp only at hc'
  generalize hC : ({ c with pre, post } : Spot) = C at *
  have hfill : c.fill [b] = C.fill (l ++ ([b] ++ r)) := by
    rw [← hC]
    simp [Spot.fill, hc, hc']
  have hspan : span [x'] = span (l ++ ([b] ++ r)) := by
    simp only [span_append, span_cons, span_nil]
    omega
  -- the allocated blocks elsewhere are the same all the way
  have hrest₂ : ({ c with post } : Spot).rest x.size = c.rest b.size := by
    rw [hxsize]
    exact Spot.rest_post hc hr
  have hrest₃ : C.rest (span [x']) = c.rest b.size := by
    have := Spot.rest_pre (c := { c with post }) (n := x.size) hc' hl
    rw [span_cons, span_nil, Nat.add_zero, hxsize', ← hrest₂, ← this, ← hC]
  rw [hrest₂] at hkept₃
  rw [hrest₃] at hkept₄
  have hrest : busy (layout (C.fill [x'])) = c.rest b.size := by
    rw [← hrest₃, busy_fill_free hx']
    simp
  refine ⟨m₄, C.fill [x'], ?_, ?_, ?_, ?_⟩
  · have hsub : c.addr + sizeofMmAllocnode - sizeofMmAllocnode = c.addr := Nat.add_sub_cancel ..
    rw [free, if_neg (by simp [sizeofMmAllocnode]), hsub]
    simp only [Spot.addr_with_post] at hprev
    simp only [hnext, Option.bind_eq_bind, Option.bind_some, hprev, hadd]
  · refine IsHeap.fill (hfill ▸ h) hinv₄ hspan ?_ ?_ fun y hy => ?_
    · rw [← hC]
      simp [hlast]
    · rw [← hC, coalesced_iff]
      exact ⟨fun _ => hhead, hpost'⟩
    · -- the size of the joined block is the sum of sizes
      have hdvd := span_dvd (hfill ▸ h).spot_grain
      rw [← hspan, span_cons, span_nil, Nat.add_zero] at hdvd
      rw [List.mem_singleton.mp hy]
      exact Nat.mod_eq_zero_of_dvd hdvd
  · rw [hrest]
    exact busy_fill_allocated hb
  · rw [hrest]
    exact ((hkept₁.trans hkept₂).trans hkept₃).trans hkept₄

end Px4Firmware.Mm
