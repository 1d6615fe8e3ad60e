import Px4Firmware.Mm.Realloc

/-!
# Px4Firmware.Mm.Memalign

**`memalign`.** A chunk with room for two aligned addresses is allocated; what is in front of the
aligned part is freed, and what is too much behind it is given back (`memalign_spec`).
-/

namespace Px4Firmware.Mm

open Lib Lib.Memory

variable {g : Globals} {m : Memory} {rs : List Region} {c : Spot} {es : List Entry}
  {b x y : Block} {a k n d lead raw request : Nat}

/-! ### The aligned address -/

theorem and_high_mask (hn : n < 2 ^ 32) (hk : k ≤ 32) :
    n &&& (2 ^ 32 - 1 - (2 ^ k - 1)) = n / 2 ^ k * 2 ^ k := by
  have hmask : 2 ^ 32 - 1 - (2 ^ k - 1) = 2 ^ k * (2 ^ (32 - k) - 1) := by
    have hpos : 0 < 2 ^ k := Nat.two_pow_pos k
    rw [Nat.mul_sub, ← Nat.pow_add, Nat.add_sub_cancel' hk]
    omega
  rw [hmask, Nat.mul_comm (n / 2 ^ k)]
  refine Nat.eq_of_testBit_eq fun i => ?_
  simp only [Nat.testBit_and, Nat.testBit_two_pow_mul, Nat.testBit_two_pow_sub_one,
    Nat.testBit_div_two_pow]
  by_cases hi : k ≤ i
  · have hsub : i - k + k = i := Nat.sub_add_cancel hi
    by_cases hlow : i - k < 32 - k
    · simp [hi, hlow]
    · have hbit : n.testBit i = false :=
        Nat.testBit_lt_two_pow (Nat.lt_of_lt_of_le hn (Nat.pow_le_pow_right (by decide) (by omega)))
      simp [hi, hlow, hbit]
  · simp [hi]

/-- The first aligned address from the chunk on. -/
theorem alignedPart_spec (hk : k ≤ 32) (hraw : raw + (2 ^ k - 1) < 2 ^ 32) :
    alignedPart raw (2 ^ k) % 2 ^ k = 0 ∧ raw ≤ alignedPart raw (2 ^ k) ∧
      alignedPart raw (2 ^ k) < raw + 2 ^ k := by
  have hpos : 0 < 2 ^ k := Nat.two_pow_pos k
  have hdiv := Nat.div_add_mod (raw + (2 ^ k - 1)) (2 ^ k)
  have hmod := Nat.mod_lt (raw + (2 ^ k - 1)) hpos
  rw [Nat.mul_comm] at hdiv
  rw [alignedPart, and_high_mask hraw hk]
  exact ⟨Nat.mul_mod_left .., by omega, by omega⟩

/-! ### What is in front -/

/-- The front of an allocated block is freed. -/
theorem lead_spec (lead : Nat) (h : IsHeap d g m (c.fill [b])) (hb : b.free = false)
    (hbefore : lastFree false c.pre = false) (hmin : sizeofMmFreenode ≤ lead)
    (hle : lead + sizeofMmFreenode ≤ b.size) (hmod : lead % 8 = 0) (hd : lead % d = 0) :
    ∃ m' x y, mmAddfreechunk g (updatePreceding (release (setSize (setPreceding (setSize m
          (c.addr + lead) (b.size - lead)) (c.addr + lead) (lead ||| mmAllocBit)) c.addr lead)
          c.addr) (c.addr + b.size) (b.size - lead)) c.addr = some m' ∧
      IsHeap d g m' (c.fill [x, y]) ∧ x.free = true ∧ x.size = lead ∧ y.free = false ∧
      y.size = b.size - lead ∧ Kept (InPayload (c.rest b.size)) m m' := by
  obtain ⟨es, hinv⟩ := h.inv
  have hbounds := hinv.spot_bounds
  obtain ⟨hsize, hprec, hnext⟩ := hinv.block
  obtain ⟨-, -, hafter⟩ := h.spot_coalesced
  have hspan : span [b] = b.size := by simp
  rw [hspan] at hbounds
  rw [lastFree_cons, lastFree_nil, hb] at hafter
  have hgranule := b.granule
  simp only [sizeofMmFreenode] at hmin hle
  obtain ⟨x, hx⟩ : ∃ x : Block, x = ⟨lead, true, hmod, by simp only [sizeofMmFreenode]; omega⟩ :=
    ⟨_, rfl⟩
  obtain ⟨y, hy⟩ : ∃ y : Block, y = ⟨b.size - lead, false, by omega,
    by simp only [sizeofMmFreenode]; omega⟩ := ⟨_, rfl⟩
  have hxsize : x.size = lead := by rw [hx]
  have hysize : y.size = b.size - lead := by rw [hy]
  have hxfree : x.free = true := by rw [hx]
  have hyfree : y.free = false := by rw [hy]
  have hspan' : span [x, y] = b.size := by
    simp only [span_cons, span_nil]
    omega
  have hout (z : Nat) (hz : InPayload (c.rest b.size) z) : c.Outside b.size z := by
    rw [← hspan] at hz ⊢
    exact hinv.outside_of_rest hz
  rw [← hysize, ← hxsize]
  have hbit : x.size ||| mmAllocBit < 2 ^ 32 := encode_lt (f := false) (by omega)
  have hkept {S : Nat → Prop} (hS : ∀ z, S z → c.Outside b.size z) :
      Kept S m (updatePreceding (release (setSize (setPreceding (setSize m (c.addr + x.size) y.size)
        (c.addr + x.size) (x.size ||| mmAllocBit)) c.addr x.size) c.addr) (c.addr + b.size)
        y.size) := by
    refine Kept.setWord (Kept.setWord (Kept.setWord (Kept.setWord (Kept.setWord (.refl _ m) ?_) ?_)
      ?_) ?_) ?_ <;>
    · intro z hz
      have hz := hS z hz
      simp only [Spot.Outside] at hz
      omega
  have hinv₂ : Inv g (updatePreceding (release (setSize (setPreceding (setSize m (c.addr + x.size)
      y.size) (c.addr + x.size) (x.size ||| mmAllocBit)) c.addr x.size) c.addr) (c.addr + b.size)
      y.size) (c.fill [x, y]) es [.chunk c.addr x.size] := by
    refine hinv.two [] (by simp [chunksOf, hb]) (by simp [chunksOf, hxfree, hyfree])
      (by rw [hspan]; omega) (hkept fun z hz => hspan ▸ hz) ?_ ?_ ?_ ?_ ?_
    · simp (disch := omega) only [size, updatePreceding, release, setPreceding, setSize,
        word_setWord_of_ne, word_setWord]
    · rw [hxfree]
      have hrelease := preceding_release (m := setSize (setPreceding (setSize m (c.addr + x.size)
        y.size) (c.addr + x.size) (x.size ||| mmAllocBit)) c.addr x.size) (a := c.addr)
        (p := c.prev) (f := b.free) (by omega) (by
          rw [← hprec]
          simp (disch := omega) only [preceding, setPreceding, setSize, word_setWord_of_ne])
      rw [← hrelease]
      exact word_setWord_of_ne (by omega)
    · simp (disch := omega) only [size, updatePreceding, release, setPreceding, setSize,
        word_setWord_of_ne, word_setWord]
    · rw [hyfree]
      simp (disch := omega) only [preceding, updatePreceding, release, setPreceding, setSize,
        word_setWord_of_ne]
      exact word_setWord hbit
    · rw [hspan]
      refine preceding_updatePreceding (p := b.size) (by omega) (by omega) ?_
      rw [← hnext]
      simp (disch := omega) only [preceding, release, setPreceding, setSize, word_setWord_of_ne]
  obtain ⟨m', es', hadd, hinv', hsafe⟩ := hinv₂.addfreechunk
  have hkept' := hinv₂.kept_rest_of_safe hsafe
  rw [hspan'] at hkept'
  refine ⟨m', x, y, hadd, h.fill hinv' ?_ ?_ ?_ ?_, hxfree, rfl, hyfree, rfl,
    (hkept hout).trans hkept'⟩
  · rw [hspan, hspan']
  · simp [hxfree, hyfree, hbefore]
  · simpa [hyfree] using hafter
  · have hbd := h.spot_grain b (List.mem_cons_self ..)
    have hdvd : d ∣ lead := Nat.dvd_of_mod_eq_zero hd
    simp only [List.mem_cons, List.not_mem_nil, or_false]
    rintro z (rfl | rfl)
    · rw [hxsize, hd]
    · rw [hysize]
      exact Nat.mod_eq_zero_of_dvd (Nat.dvd_sub (Nat.dvd_of_mod_eq_zero hbd) hdvd)

/-- Where the aligned part begins, and what is in front of it. -/
theorem freeLeading_spec (h : IsHeap d g m (c.fill [b])) (hb : b.free = false)
    (hbefore : lastFree false c.pre = false) (aligned alignment : Nat) (hd : d ∣ 8)
    (hle : c.addr + 16 ≤ aligned) (hlt : aligned < c.addr + 8 + alignment)
    (hmod : aligned % 8 = 0) (halign : alignment % 8 = 0)
    (hroom : alignment + 32 ≤ b.size) :
    ∃ m' x y aligned', freeLeading g m (c.addr + sizeofMmAllocnode) aligned alignment =
        some (m', c.addr + x.size, aligned') ∧
      IsHeap d g m' (c.fill [x, y]) ∧ x.free = true ∧ y.free = false ∧
      c.addr + x.size + sizeofMmAllocnode = aligned' ∧
      (aligned' = aligned ∨ aligned' = aligned + alignment) ∧ x.size ≤ alignment + 8 ∧
      x.size + y.size = b.size ∧ Kept (InPayload (c.rest b.size)) m m' ∧
      size m' (c.addr + x.size) = y.size := by
  obtain ⟨es, hinv⟩ := h.inv
  have hbounds := hinv.spot_bounds
  simp only [span_cons, span_nil, Nat.add_zero] at hbounds
  -- the second aligned address if there is no room for a free chunk before the first
  obtain ⟨aligned', haligned, hcases, hlow, hhigh⟩ : ∃ aligned',
      (if aligned - sizeofMmAllocnode - c.addr < sizeofMmFreenode then aligned + alignment
        else aligned) = aligned' ∧ (aligned' = aligned ∨ aligned' = aligned + alignment) ∧
      c.addr + 24 ≤ aligned' ∧ aligned' ≤ c.addr + 16 + alignment := by
    simp only [sizeofMmAllocnode, sizeofMmFreenode]
    by_cases hless : aligned - 8 - c.addr < 16
    · exact ⟨aligned + alignment, if_pos hless, .inr rfl, by omega, by omega⟩
    · exact ⟨aligned, if_neg hless, .inl rfl, by omega, by omega⟩
  have hmod' : aligned' % 8 = 0 := by omega
  obtain ⟨lead, hlead⟩ : ∃ lead, c.addr + lead = aligned' - sizeofMmAllocnode :=
    ⟨aligned' - sizeofMmAllocnode - c.addr, by simp only [sizeofMmAllocnode]; omega⟩
  simp only [sizeofMmAllocnode] at hlead
  obtain ⟨m', x, y, hadd, hheap, hx, rfl, hy, hysize, hkept⟩ := lead_spec lead h hb
    hbefore (by simp only [sizeofMmFreenode]; omega) (by simp only [sizeofMmFreenode]; omega)
    (by omega) (Nat.mod_eq_zero_of_dvd (Nat.dvd_trans hd (Nat.dvd_of_mod_eq_zero (by omega))))
  have hymin := y.min
  have hxmin := x.min
  simp only [sizeofMmFreenode] at hxmin hymin
  refine ⟨m', x, y, aligned', ?_, hheap, hx, hy, ?_, hcases, by omega, by omega, hkept, ?_⟩
  · have hsub : c.addr + sizeofMmAllocnode - sizeofMmAllocnode = c.addr := Nat.add_sub_cancel ..
    have hlead' : aligned' - sizeofMmAllocnode = c.addr + x.size := hlead.symm
    have hfront : c.addr + x.size - c.addr = x.size := Nat.add_sub_cancel_left ..
    have hback : c.addr + b.size - (c.addr + x.size) = b.size - x.size := by omega
    have hnot : ¬ aligned < c.addr + sizeofMmAllocnode + 8 := by
      simp only [sizeofMmAllocnode]
      omega
    have hread : size (release (setSize (setPreceding (setSize m (c.addr + x.size)
        (b.size - x.size)) (c.addr + x.size) (x.size ||| mmAllocBit)) c.addr x.size) c.addr)
        (c.addr + x.size) = b.size - x.size := by
      simp (disch := omega) only [size, release, setPreceding, setSize, word_setWord_of_ne,
        word_setWord]
    rw [freeLeading, hsub, hinv.block.1]
    simp only [if_neg hnot, haligned, hlead', hfront, hback, hread, hadd, Option.bind_eq_bind,
      Option.bind_some]
  · simp only [sizeofMmAllocnode]
    omega
  · obtain ⟨es', hinv'⟩ := hheap.inv
    exact hinv'.blocks.2.2.1

/-- The allocated part of a divided chunk, and the rest. -/
theorem Divided.split {new : List Block} (h : Divided b n new) (hle : n ≤ b.size) :
    ∃ x tail, new = x :: tail ∧ x.free = false ∧ n ≤ x.size ∧ (∀ y ∈ tail, y.free = true) ∧
      x.size + span tail = b.size := by
  cases h with
  | whole x hx hsize _ => exact ⟨x, [], rfl, hx, by omega, by simp, by simpa using hsize⟩
  | parts x y hx hsize hy hsum =>
      exact ⟨x, [y], rfl, hx, by omega, by simp [hy], by simpa using hsum⟩

/-- The place of the chunk that was found: a block that is left over is counted to what is behind
it. -/
theorem Found.place {m' : Memory} {new : List Block} (h : IsHeap d g m (c.fill [b]))
    (hfound : Found d g m c b n m' new) :
    ∃ (c₁ : Spot) (x : Block), c₁.addr = c.addr ∧ IsHeap d g m' (c₁.fill [x]) ∧
      x.free = false ∧ n ≤ x.size ∧ c.rest b.size = c₁.rest x.size ∧
      lastFree false c₁.pre = false := by
  obtain ⟨x, tail, rfl, hx, hxsize, htail, hxspan⟩ := hfound.divided.split hfound.large
  refine ⟨{ c with post := tail ++ c.post }, x, rfl, ?_, hx, hxsize, ?_, ?_⟩
  · have hfill : ({ c with post := tail ++ c.post } : Spot).fill [x] = c.fill (x :: tail) := by
      simp [Spot.fill]
    rw [hfill]
    exact hfound.heap
  · rw [← hxspan]
    exact Spot.rest_post (c := { c with post := tail ++ c.post }) rfl htail
  · have hcoalesced := h.spot_coalesced.2.1
    rw [coalesced_cons, hfound.free] at hcoalesced
    cases hlast : lastFree false c.pre with
    | false => rfl
    | true => cases hcoalesced.1 hlast

/-! ### What is behind -/

/-- What the request does not need is given back. -/
theorem shrink_request (hd : d ∣ 8) (h : IsHeap d g m (c.fill [b])) (hb : b.free = false)
    (hpos : 0 < request) (hmod : request % 16 = 0) (hle : request + 8 ≤ b.size) :
    ∃ m' rs' x, mmShrinkchunk g m c.addr (request + sizeofMmAllocnode) = some m' ∧
      IsHeap d g m' rs' ∧ (busy (layout rs')).Perm ((c.addr, x) :: c.rest b.size) ∧
      x.free = false ∧ request + sizeofMmAllocnode ≤ x.size ∧
      Kept (InPayload (c.rest b.size)) m m' := by
  have hmod8 : (request + sizeofMmAllocnode) % 8 = 0 := by
    simp only [sizeofMmAllocnode]
    omega
  obtain ⟨m', rs', x, hshrink, hheap, hbusy, hx, hxsize, hkept⟩ :=
    mmShrinkchunk_spec h hb hmod8
      (Nat.mod_eq_zero_of_dvd (Nat.dvd_trans hd (Nat.dvd_of_mod_eq_zero hmod8)))
      (by simp only [sizeofMmAllocnode, sizeofMmFreenode]; omega) hle
  exact ⟨m', rs', x, hshrink, hheap, hbusy, hx, hxsize, hkept.mono fun z hz => .inl hz⟩

/-- The front of a chunk is freed, and what the request does not need of the rest. -/
theorem freeLeading_shrink (hd : d ∣ 8) (h : IsHeap d g m (c.fill [b])) (hb : b.free = false)
    (hbefore : lastFree false c.pre = false) (aligned alignment : Nat)
    (hle : c.addr + 16 ≤ aligned) (hlt : aligned < c.addr + 8 + alignment)
    (hmod : aligned % 8 = 0) (halign : alignment % 8 = 0) (hpos : 0 < request)
    (hmod' : request % 16 = 0) (hroom : request + 2 * alignment + 8 ≤ b.size)
    (hlarge : 32 ≤ alignment) :
    ∃ m₁ m' rs' a x aligned', freeLeading g m (c.addr + sizeofMmAllocnode) aligned alignment =
        some (m₁, a, aligned') ∧ request < size m₁ a - sizeofMmAllocnode ∧
      mmShrinkchunk g m₁ a (request + sizeofMmAllocnode) = some m' ∧
      a + sizeofMmAllocnode = aligned' ∧ (aligned' = aligned ∨ aligned' = aligned + alignment) ∧
      IsHeap d g m' rs' ∧ (busy (layout rs')).Perm ((a, x) :: c.rest b.size) ∧ x.free = false ∧
      request + sizeofMmAllocnode ≤ x.size ∧ Kept (InPayload (c.rest b.size)) m m' := by
  obtain ⟨m₁, y, y', aligned', hlead, hheap₁, hy, hy', haligned', hwhich, hfront, hysum, hkept₁,
    hread⟩ := freeLeading_spec h hb hbefore aligned alignment hd hle hlt hmod halign (by omega)
  -- the place of the rest
  obtain ⟨c₁, hc₁⟩ : ∃ c₁ : Spot, c₁ = { c with pre := c.pre ++ [y] } := ⟨_, rfl⟩
  have haddr : c₁.addr = c.addr + y.size := by simp [hc₁, Spot.addr, Nat.add_assoc]
  have hheap₁' : IsHeap d g m₁ (c₁.fill [y']) := by
    have hfill : c₁.fill [y'] = c.fill [y, y'] := by simp [Spot.fill, hc₁]
    rw [hfill]
    exact hheap₁
  have hrest : c₁.rest y'.size = c.rest b.size := by
    have := Spot.rest_pre (c := c₁) (n := y'.size)
      (show c₁.pre = c.pre ++ [y] by rw [hc₁]) (by simp [hy])
    rw [← this, span_cons, span_nil, Nat.add_zero, hysum, hc₁]
  obtain ⟨m', rs', x, hshrink, hheap', hbusy, hx, hxsize, hkept'⟩ :=
    shrink_request hd hheap₁' hy' hpos hmod' (by omega)
  rw [hrest] at hbusy hkept'
  rw [haddr] at hshrink hbusy
  refine ⟨m₁, m', rs', c.addr + y.size, x, aligned', hlead, ?_, hshrink, haligned', hwhich, hheap',
    hbusy, hx, hxsize, hkept₁.trans hkept'⟩
  rw [hread]
  simp only [sizeofMmAllocnode]
  omega

/-! ### The function -/

/-- `memalign` allocates a block at an aligned address, if there is a free block in which it has
room for two of them. -/
theorem memalign_spec (hd : d ∣ 8) (h : IsHeap d g m rs) (hk : 5 ≤ k) (hpos : 0 < request)
    (hlt : request + 2 * 2 ^ k + 46 < 2 ^ 32) :
    (memalign g m (2 ^ k) request = some (m, 0) ∧ ∀ p ∈ layout rs, p.2.free = true →
        p.2.size < chunkSize (mmAlignUp request + 2 * 2 ^ k)) ∨
      ∃ m' rs' a x, memalign g m (2 ^ k) request = some (m', a + sizeofMmAllocnode) ∧
        IsHeap d g m' rs' ∧ (busy (layout rs')).Perm ((a, x) :: busy (layout rs)) ∧
        x.free = false ∧ request + sizeofMmAllocnode ≤ x.size ∧
        (a + sizeofMmAllocnode) % 2 ^ k = 0 ∧ Kept (InPayload (busy (layout rs))) m m' := by
  obtain ⟨size', hsize', hup, hupmod, huphigh⟩ : ∃ size', mmAlignUp request = size' ∧
      request ≤ size' ∧ size' % 16 = 0 ∧ size' < request + 16 := by
    refine ⟨_, rfl, ?_⟩
    simp only [mmAlignUp, mmAlignDown, sizeT, mmGranMask, mmMinChunk, mmMinShift]
    omega
  obtain ⟨j, rfl⟩ := Nat.exists_eq_add_of_le hk
  have hpow : 2 ^ (5 + j) = 32 * 2 ^ j := by rw [Nat.pow_add]
  have hjpos : 0 < 2 ^ j := Nat.two_pow_pos j
  have hk32 : 5 + j ≤ 32 := by
    refine Nat.le_of_lt ((Nat.pow_lt_pow_iff_right (by decide : 1 < 2)).mp ?_)
    omega
  generalize halignment : 2 ^ (5 + j) = alignment at *
  have hnot : ¬ alignment ≤ mmMinChunk := by
    simp only [mmMinChunk, mmMinShift]
    omega
  have hsum : sizeT (size' + 2 * alignment) = size' + 2 * alignment := by
    simp only [sizeT]
    omega
  obtain ⟨-, hchunk, -⟩ := chunkSize_spec (show size' + 2 * alignment + 23 < 2 ^ 32 by omega)
  rw [memalign, if_neg hnot, hsize']
  simp only [hsum]
  rcases malloc_cases (Nat.dvd_trans hd (by decide)) h
    (show 0 < size' + 2 * alignment by omega) (by omega) with
    ⟨hmalloc, hnone⟩ | ⟨m₁, c, b, new, rfl, hmalloc, hfound⟩
  · exact .inl ⟨by rw [hmalloc]; rfl, hnone⟩
  · right
    obtain ⟨c₁, x, haddr, hheap, hx, hxsize, hrest, hbefore⟩ := hfound.place h
    have hkept := hfound.kept
    rw [busy_fill_free hfound.free, hrest]
    rw [hrest] at hkept
    obtain ⟨es, hinv⟩ := hheap.inv
    have hbounds := hinv.spot_bounds
    simp only [span_cons, span_nil, Nat.add_zero] at hbounds
    have hne : ¬ c₁.addr + sizeofMmAllocnode = 0 := by simp [sizeofMmAllocnode]
    have hraw : c₁.addr + sizeofMmAllocnode + (2 ^ (5 + j) - 1) < 2 ^ 32 := by
      simp only [sizeofMmAllocnode]
      omega
    obtain ⟨halignmod, haliglow, halighigh⟩ := alignedPart_spec hk32 hraw
    rw [halignment] at halignmod haliglow halighigh
    rw [hmalloc, ← haddr]
    simp only [Option.bind_eq_bind, Option.bind_some, if_neg hne]
    generalize alignedPart (c₁.addr + sizeofMmAllocnode) alignment = aligned at *
    by_cases heq : aligned = c₁.addr + sizeofMmAllocnode
    · -- the chunk is aligned
      obtain ⟨m', rs', z, hshrink, hheap', hbusy, hz, hzsize, hkept'⟩ :=
        shrink_request hd hheap hx (show 0 < size' by omega) hupmod (by omega)
      refine ⟨m', rs', c₁.addr, z, ?_, hheap', hbusy, hz, by omega, heq ▸ halignmod,
        hkept.trans hkept'⟩
      have hsub : c₁.addr + sizeofMmAllocnode - sizeofMmAllocnode = c₁.addr := Nat.add_sub_cancel ..
      have hmore : size' + 2 * alignment > size' := by omega
      simp only [heq, ne_eq, not_true_eq_false, if_false, Option.bind_some, hsub, if_pos hmore,
        hshrink]
    · -- what is in front of the aligned part is freed
      have h8 : alignment % 8 = 0 := by omega
      have haligned8 : aligned % 8 = 0 := by
        have hdvd : 8 ∣ aligned := Nat.dvd_trans (Nat.dvd_of_mod_eq_zero h8)
          (Nat.dvd_of_mod_eq_zero halignmod)
        omega
      obtain ⟨m₂, m', rs', a, z, aligned', hlead, hmore, hshrink, ha, hwhich, hheap', hbusy, hz,
        hzsize, hkept'⟩ := freeLeading_shrink hd hheap hx hbefore aligned alignment
          (by simp only [sizeofMmAllocnode] at heq haliglow; omega)
          (by simp only [sizeofMmAllocnode] at halighigh; omega) haligned8 h8
          (show 0 < size' by omega) hupmod (by omega) (by omega)
      refine ⟨m', rs', a, z, ?_, hheap', hbusy, hz, by omega, ?_, hkept.trans hkept'⟩
      · simp only [ne_eq, heq, not_false_eq_true, if_true, hlead, Option.bind_some, if_pos hmore,
          hshrink, ha]
      · rw [ha]
        rcases hwhich with rfl | rfl
        · exact halignmod
        · rw [Nat.add_mod_right, halignmod]

end Px4Firmware.Mm
