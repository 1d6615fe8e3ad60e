import Px4Firmware.Mm.Extend

/-!
# Px4Firmware.Mm.Realloc

**`realloc`.** Whether the chunk is shrunk, extended where it is, or replaced by another one, the
contents are those of the old chunk as far as both go, and the other allocated blocks are as they
were (`realloc_spec`).
-/

namespace Px4Firmware.Mm

open Lib Lib.Memory

variable {g : Globals} {m : Memory} {rs : List Region} {c : Spot} {es : List Entry}
  {b x y : Block} {a n request needed prevsize nextsize : Nat}

theorem takes_spec (needed prevsize nextsize : Nat) (hneeded : 0 < needed)
    (henough : needed ≤ prevsize + nextsize) :
    (takes needed prevsize nextsize).1 + (takes needed prevsize nextsize).2 = needed ∧
      (takes needed prevsize nextsize).1 ≤ prevsize ∧
      (takes needed prevsize nextsize).2 ≤ nextsize := by
  rw [takes]
  by_cases hprev : prevsize > 0 ∧ (nextsize ≥ prevsize ∨ nextsize = 0)
  · rw [if_pos hprev]
    by_cases hmore : needed > prevsize
    · rw [if_pos hmore]
      simp only
      omega
    · rw [if_neg hmore]
      simp only
      omega
  · rw [if_neg hprev]
    by_cases hnext : nextsize > 0 ∧ needed ≠ 0
    · rw [if_pos hnext]
      by_cases hmore : needed > nextsize
      · rw [if_pos hmore]
        simp only
        omega
      · rw [if_neg hmore]
        simp only
        omega
    · omega

/-- What is taken is a number of granules. -/
theorem takes_mod (needed : Nat) (hneeded : needed % 16 = 0) (hprev : prevsize % 16 = 0)
    (hnext : nextsize % 16 = 0) :
    (takes needed prevsize nextsize).1 % 16 = 0 ∧ (takes needed prevsize nextsize).2 % 16 = 0 := by
  have hsub (n : Nat) (hn : n % 16 = 0) : (needed - n) % 16 = 0 := by omega
  rw [takes]
  split
  · split
    · exact ⟨hprev, hsub _ hprev⟩
    · exact ⟨hneeded, rfl⟩
  · split
    · split
      · exact ⟨hsub _ hnext, hnext⟩
      · exact ⟨rfl, hneeded⟩
    · exact ⟨rfl, rfl⟩

/-! ### The chunks next to the one that is reallocated -/

theorem next_spec (h : IsHeap 16 g m (c.fill [b])) :
    ∃ nextsize, (if isFree m (c.addr + b.size) then size m (c.addr + b.size) else 0) = nextsize ∧
      nextsize % 16 = 0 ∧ (nextsize ≠ 0 → ∃ y post, c.post = y :: post ∧ y.free = true ∧
        nextsize = y.size) := by
  obtain ⟨es, hinv⟩ := h.inv
  have hbounds := hinv.spot_bounds
  simp only [span_cons, span_nil, Nat.add_zero] at hbounds
  have hfree_iff := isFree_iff (p := b.size) (by omega) hinv.block.2.2
  by_cases hhead : headFree c.post = true
  · cases hc : c.post with
    | nil => simp [hc] at hhead
    | cons y post =>
        have hfree := hfree_iff.mpr hhead
        rw [hc, headFree_cons] at hhead
        have hfill : c.fill [b] = ({ c with post } : Spot).fill [b, y] := by simp [Spot.fill, hc]
        rw [hfill] at hinv h
        refine ⟨y.size, ?_, h.spot_grain y (by simp), fun _ => ⟨y, post, rfl, hhead, rfl⟩⟩
        rw [if_pos hfree]
        exact hinv.blocks.2.2.1
  · refine ⟨0, if_neg fun hfree => hhead (hfree_iff.mp hfree), rfl, fun hne => absurd rfl hne⟩

theorem prev_spec (h : IsHeap 16 g m (c.fill [b])) :
    ∃ prevsize, (if isFree m (c.addr - (preceding m c.addr &&& (mmAllocBit - 1))) then
        size m (c.addr - (preceding m c.addr &&& (mmAllocBit - 1))) else 0) = prevsize ∧
      prevsize % 16 = 0 ∧ (prevsize ≠ 0 → ∃ y pre, c.pre = pre ++ [y] ∧ y.free = true ∧
        prevsize = y.size ∧ c.addr - (preceding m c.addr &&& (mmAllocBit - 1)) =
          ({ c with pre } : Spot).addr) := by
  obtain ⟨es, hinv⟩ := h.inv
  have hbounds := hinv.spot_bounds
  rw [hinv.block.2.1, encode_mod (by omega)]
  rcases List.eq_nil_or_concat c.pre with hc | ⟨pre, y, hc⟩
  · have hguard := (hinv.tiled _ Spot.mem_fill).guard.2
    have hstart : c.addr - c.prev = c.start := by simp [Spot.addr, Spot.prev, hc]
    refine ⟨0, if_neg fun hfree => ?_, rfl, fun hne => absurd rfl hne⟩
    rw [hstart] at hfree
    have := (isFree_iff (by decide) hguard).mp hfree
    cases this
  · rw [List.concat_eq_append] at hc
    have hsub : c.addr - c.prev = ({ c with pre } : Spot).addr := by
      simp [Spot.addr, Spot.prev, hc]
      omega
    have hfill : c.fill [b] = ({ c with pre } : Spot).fill [y, b] := by simp [Spot.fill, hc]
    rw [hfill] at hinv h
    have hbounds' := hinv.spot_bounds
    obtain ⟨hsize, hprec, -⟩ := hinv.blocks
    have hfree_iff := isFree_iff (by omega) hprec
    rw [hsub]
    by_cases hy : y.free = true
    · refine ⟨y.size, by rw [if_pos (hfree_iff.mpr hy), hsize], h.spot_grain y (by simp),
        fun _ => ?_⟩
      exact ⟨y, pre, hc, hy, rfl, rfl⟩
    · exact ⟨0, if_neg fun hfree => hy (hfree_iff.mp hfree), rfl, fun hne => absurd rfl hne⟩

/-! ### Extending a chunk where it is -/

/-- The block of a place after a part of the operation: it ends where it ended, and the contents are
those of the old one. -/
structure Spot.Moved (c c' : Spot) (b x : Block) (m m' : Memory) : Prop where
  allocated : x.free = false
  post : c'.post = c.post
  ends : c'.addr + x.size = c.addr + b.size
  rest : c'.rest x.size = c.rest b.size
  kept : Kept (InPayload (c.rest b.size)) m m'
  contents : ∀ k, 8 ≤ k → k < b.size → m' (c'.addr + k) = m (c.addr + k)

theorem Spot.Moved.refl (hb : b.free = false) : c.Moved c b b m m :=
  ⟨hb, rfl, rfl, rfl, .refl _ m, fun _ _ _ => rfl⟩

/-- The part of `realloc` that takes from the chunk before. -/
theorem extendPrev_step (h : IsHeap 16 g m (c.fill [b])) (hb : b.free = false)
    (hprev : prevsize ≠ 0 → ∃ y pre, c.pre = pre ++ [y] ∧ y.free = true ∧ prevsize = y.size ∧
      a = ({ c with pre } : Spot).addr)
    (hle : n ≤ prevsize) (hmod : n % 16 = 0) :
    ∃ m' c' x, (if n ≠ 0 then extendPrev g m c.addr a (c.addr + b.size) prevsize n
        else some (m, c.addr)) = some (m', c'.addr) ∧
      IsHeap 16 g m' (c'.fill [x]) ∧ x.size = b.size + n ∧ c.Moved c' b x m m' := by
  by_cases hn : n = 0
  · subst hn
    exact ⟨m, c, b, if_neg fun h => h rfl, h, rfl, .refl hb⟩
  · obtain ⟨y, pre, hc, hy, rfl, rfl⟩ := hprev (by omega)
    have hfill : c.fill [b] = ({ c with pre } : Spot).fill [y, b] := by simp [Spot.fill, hc]
    have haddr : c.addr = ({ c with pre } : Spot).addr + y.size := by
      simp [Spot.addr, hc, Nat.add_assoc]
    have hrest : ({ c with pre } : Spot).rest (y.size + b.size) = c.rest b.size := by
      have := Spot.rest_pre (n := b.size) (l := [y]) hc (by simp [hy])
      simpa using this
    rw [hfill] at h
    obtain ⟨m', l, x, hextend, hheap, ⟨hl, hlfree⟩, hx, hxsize, hkept, hcontents⟩ :=
      extendPrev_spec h hy hb (by omega) hle hmod
    have hplace : ({ c with pre := pre ++ l } : Spot).addr =
        ({ c with pre } : Spot).addr + span l := by
      simp [Spot.addr, Nat.add_assoc]
    have hrest' : ({ c with pre := pre ++ l } : Spot).rest x.size = c.rest b.size := by
      have := Spot.rest_pre (c := { c with pre := pre ++ l }) (n := x.size) rfl hlfree
      rw [← this, ← hrest]
      congr 1
      omega
    refine ⟨m', { c with pre := pre ++ l }, x, ?_, ?_, hxsize, hx, rfl, ?_, hrest', ?_, ?_⟩
    · rw [if_pos hn, haddr, hextend, hplace]
    · have hfill' : ({ c with pre := pre ++ l } : Spot).fill [x] =
          ({ c with pre } : Spot).fill (l ++ [x]) := by simp [Spot.fill]
      rw [hfill']
      exact hheap
    · omega
    · rw [← hrest]
      exact hkept
    · intro k hlow hhigh
      rw [hplace, haddr]
      exact hcontents k hlow hhigh

/-- The part of `realloc` that takes from the chunk after. -/
theorem extendNext_step (h : IsHeap 16 g m (c.fill [b])) (hb : b.free = false)
    (hnext : nextsize ≠ 0 → ∃ y post, c.post = y :: post ∧ y.free = true ∧ nextsize = y.size)
    (hle : n ≤ nextsize) (hmod : n % 16 = 0) :
    ∃ m' rs' x, (if n ≠ 0 then extendNext g m c.addr (c.addr + b.size) nextsize n else some m) =
        some m' ∧
      IsHeap 16 g m' rs' ∧ (busy (layout rs')).Perm ((c.addr, x) :: c.rest b.size) ∧
      x.free = false ∧ x.size = b.size + n ∧ Kept (InPayload (c.rest b.size)) m m' ∧
      ∀ k, 8 ≤ k → k < b.size → m' (c.addr + k) = m (c.addr + k) := by
  by_cases hn : n = 0
  · subst hn
    exact ⟨m, _, b, if_neg fun h => h rfl, h, busy_fill_allocated hb, hb, rfl, .refl _ m,
      fun _ _ _ => rfl⟩
  · obtain ⟨y, post, hc, hy, rfl⟩ := hnext (by omega)
    have hfill : c.fill [b] = ({ c with post } : Spot).fill [b, y] := by simp [Spot.fill, hc]
    have hrest : ({ c with post } : Spot).rest (b.size + y.size) = c.rest b.size := by
      have := Spot.rest_post (n := b.size) (r := [y]) hc (by simp [hy])
      simpa using this
    rw [hfill] at h
    obtain ⟨m', l, x, hextend, hheap, ⟨hl, hlfree⟩, hx, hxsize, hkept⟩ :=
      extendNext_spec h hb hy (by omega) hle hmod
    have hkept' : Kept (c.Held b.size b.size) m m' := hkept.mono fun z hz => by
      have := Spot.held_post (k := b.size) (n := b.size) (z := z) (r := [y]) hc (by simp [hy])
      simpa using this.mpr hz
    rw [Spot.addr_with_post] at hextend
    refine ⟨m', _, x, ?_, hheap, ?_, hx, hxsize, hkept'.mono fun z hz => .inl hz,
      fun k hlow hhigh => hkept' _ (.inr ⟨by omega, by omega⟩)⟩
    · rw [if_pos hn, hextend]
    · refine busy_fill.trans ?_
      rw [placed_cons, busy_cons_allocated hx, busy_placed_free hlfree, ← hrest,
        Spot.addr_with_post, span_cons, hxsize]
      have hspan : b.size + n + span l = b.size + y.size := by omega
      rw [hspan]
      rfl

/-! ### Another chunk -/

/-- The contents of allocated blocks are apart. -/
theorem Inv.payload_apart {rest : List (Nat × Block)} {p : Nat × Block} {z : Nat}
    (h : Inv g m rs es []) (hperm : (busy (layout rs)).Perm (p :: rest))
    (hz : InPayload rest z) : z < p.1 ∨ p.1 + p.2.size ≤ z := by
  obtain ⟨q, hq, hlow, hhigh⟩ := hz
  have hpairwise : (busy (layout rs)).Pairwise
      fun p q => p.1 + p.2.size ≤ q.1 ∨ q.1 + q.2.size ≤ p.1 :=
    h.layout_pairwise.filter _
  have hapart := hperm.pairwise hpairwise fun h => Or.symm h
  have := (List.pairwise_cons.mp hapart).1 q hq
  simp only [sizeofMmAllocnode] at hlow
  omega

/-- The part of `realloc` that allocates another chunk. -/
theorem replace_spec {m₁ : Memory} {rs₁ : List Region} {rest : List (Nat × Block)} {a₁ : Nat}
    (h : IsHeap 16 g m₁ rs₁) (hperm : (busy (layout rs₁)).Perm ((a₁, x) :: (a, b) :: rest))
    (hsize : b.size + 8 ≤ x.size) :
    ∃ m' rs', free g (m₁.copy (a₁ + sizeofMmAllocnode) (a + sizeofMmAllocnode) b.size)
        (a + sizeofMmAllocnode) = some m' ∧
      IsHeap 16 g m' rs' ∧ (busy (layout rs')).Perm ((a₁, x) :: rest) ∧
      Kept (InPayload rest) m₁ m' ∧ ∀ k, 8 ≤ k → k < b.size → m' (a₁ + k) = m₁ (a + k) := by
  obtain ⟨hnew, hx⟩ := mem_busy.mp (hperm.symm.subset (List.mem_cons_self ..))
  obtain ⟨hold, hb⟩ := mem_busy.mp
    (hperm.symm.subset (List.mem_cons_of_mem _ (List.mem_cons_self ..)))
  simp only at hx hb
  obtain ⟨es₁, hinv⟩ := h.inv
  have hpairwise := hperm.pairwise (hinv.layout_pairwise.filter _) fun h => Or.symm h
  have hapart := (List.pairwise_cons.mp hpairwise).1 (a, b) (List.mem_cons_self ..)
  simp only at hapart
  have hbmin := b.min
  simp only [sizeofMmFreenode] at hbmin
  -- the contents are copied
  have hheap₂ : IsHeap 16 g
      (m₁.copy (a₁ + sizeofMmAllocnode) (a + sizeofMmAllocnode) b.size) rs₁ := by
    refine h.contents_of_mem hnew hx fun z hz => copy_of_not_covers ?_
    simp only [sizeofMmAllocnode]
    simp only at hz
    omega
  obtain ⟨m', rs', hfree, hheap', hperm', hkept'⟩ := free_spec hheap₂ hold hb
  have hrest : (busy (layout rs')).Perm ((a₁, x) :: rest) :=
    (hperm'.symm.trans (hperm.trans (.swap ..))).cons_inv
  refine ⟨m', rs', hfree, hheap', hrest, ?_, fun k hlow hhigh => ?_⟩
  · refine Kept.trans (fun z hz => ?_) (hkept'.mono fun z hz => ?_)
    · have hz' := hinv.payload_apart hperm (z := z) (by
        obtain ⟨q, hq, hin⟩ := hz
        exact ⟨q, List.mem_cons_of_mem _ hq, hin⟩)
      refine copy_of_not_covers ?_
      simp only [sizeofMmAllocnode] at hz' ⊢
      omega
    · obtain ⟨q, hq, hin⟩ := hz
      exact ⟨q, hrest.symm.subset (List.mem_cons_of_mem _ hq), hin⟩
  · obtain ⟨j, rfl⟩ := Nat.exists_eq_add_of_le hlow
    rw [hkept' (a₁ + (8 + j)) ⟨(a₁, x), hrest.symm.subset (List.mem_cons_self ..), by
      simp only [sizeofMmAllocnode]; omega, by simp only; omega⟩]
    have hcopy : m₁.copy (a₁ + sizeofMmAllocnode) (a + sizeofMmAllocnode) b.size
        (a₁ + sizeofMmAllocnode + j) = m₁ (a + sizeofMmAllocnode + j) :=
      copy_of_covers (by simp only [sizeofMmAllocnode]; omega) (by omega)
    simpa [sizeofMmAllocnode, Nat.add_assoc] using hcopy

/-! ### The function -/

/-- The memory, the block and the blocks elsewhere after a block was reallocated. -/
structure Reallocated (g : Globals) (m : Memory) (p : Nat × Block) (rest : List (Nat × Block))
    (request : Nat) (m' : Memory) (rs' : List Region) (p' : Nat × Block) : Prop where
  heap : IsHeap 16 g m' rs'
  busy : (busy (layout rs')).Perm (p' :: rest)
  allocated : p'.2.free = false
  size : chunkSize request ≤ p'.2.size
  kept : Kept (InPayload rest) m m'
  contents : ∀ k, 8 ≤ k → k < p.2.size → k < chunkSize request → m' (p'.1 + k) = m (p.1 + k)

/-- The steps of `realloc` when the request is not zero. -/
theorem realloc_eq {old : Nat} (hpos : 0 < request) (hsize : size m a = old)
    (hnext : (if isFree m (a + old) then size m (a + old) else 0) = nextsize)
    (hprev : (if isFree m (a - (preceding m a &&& (mmAllocBit - 1))) then
      size m (a - (preceding m a &&& (mmAllocBit - 1))) else 0) = prevsize) :
    realloc g m (a + sizeofMmAllocnode) request =
      if chunkSize request ≤ old then
        (if chunkSize request < old then mmShrinkchunk g m a (chunkSize request) else some m).bind
          fun m => some (m, a + sizeofMmAllocnode)
      else if nextsize + prevsize + old ≥ chunkSize request then
        (if (takes (chunkSize request - old) prevsize nextsize).1 ≠ 0 then
            extendPrev g m a (a - (preceding m a &&& (mmAllocBit - 1))) (a + old) prevsize
              (takes (chunkSize request - old) prevsize nextsize).1
          else some (m, a)).bind fun r =>
            (if (takes (chunkSize request - old) prevsize nextsize).2 ≠ 0 then
                extendNext g r.1 r.2 (a + old) nextsize
                  (takes (chunkSize request - old) prevsize nextsize).2
              else some r.1).bind fun m => some (m, r.2 + sizeofMmAllocnode)
      else (malloc g m (chunkSize request)).bind fun r =>
        if r.2 ≠ 0 then
          (free g (r.1.copy r.2 (a + sizeofMmAllocnode) old) (a + sizeofMmAllocnode)).bind
            fun m => some (m, r.2)
        else some r := by
  have hsub : a + sizeofMmAllocnode - sizeofMmAllocnode = a := Nat.add_sub_cancel ..
  rw [realloc, if_neg (by simp [sizeofMmAllocnode]), if_neg (by omega)]
  have hneeded : mmAlignUp (sizeT (request + sizeofMmAllocnode)) = chunkSize request := rfl
  have hstep (n : Nat) (r : Memory × Nat) :
      (if n ≠ 0 then (extendNext g r.1 r.2 (a + old) nextsize n).bind fun m =>
          some (m, r.2 + sizeofMmAllocnode)
        else some (r.1, r.2 + sizeofMmAllocnode)) =
        (if n ≠ 0 then extendNext g r.1 r.2 (a + old) nextsize n else some r.1).bind fun m =>
          some (m, r.2 + sizeofMmAllocnode) := by
    split <;> rfl
  simp only [hsub, hsize, hnext, hprev, hneeded, ← hstep]
  split
  · split <;> rfl
  · split
    · split <;> rfl
    · rfl

/-- `realloc` keeps the contents, whether the block is shrunk, extended or replaced. It fails only
if there is no chunk to replace it. -/
theorem realloc_spec {rest : List (Nat × Block)} (h : IsHeap 16 g m rs)
    (hperm : (busy (layout rs)).Perm ((a, b) :: rest)) (hpos : 0 < request)
    (hlt : request + 47 < 2 ^ 32) :
    (realloc g m (a + sizeofMmAllocnode) request = some (m, 0) ∧ b.size < chunkSize request ∧
        ∀ p ∈ layout rs, p.2.free = true → p.2.size < chunkSize (chunkSize request)) ∨
      ∃ m' rs' a' x, realloc g m (a + sizeofMmAllocnode) request =
          some (m', a' + sizeofMmAllocnode) ∧
        Reallocated g m (a, b) rest request m' rs' (a', x) := by
  obtain ⟨hp, hb⟩ := mem_busy.mp (hperm.symm.subset (List.mem_cons_self ..))
  obtain ⟨c, hc, rfl⟩ := Spot.exists_of_mem hp
  simp only at hc hb
  subst hc
  have hrest : (c.rest b.size).Perm rest :=
    ((busy_fill_allocated hb).symm.trans hperm).cons_inv
  have hin {z : Nat} (hz : InPayload rest z) : InPayload (c.rest b.size) z := by
    obtain ⟨q, hq, hin⟩ := hz
    exact ⟨q, hrest.symm.subset hq, hin⟩
  obtain ⟨hmod, hlow, hhigh⟩ := chunkSize_spec (show request + 23 < 2 ^ 32 by omega)
  have hmin : sizeofMmFreenode ≤ chunkSize request := by
    simp only [sizeofMmFreenode]
    omega
  have hbmod := h.spot_grain b (List.mem_cons_self ..)
  obtain ⟨es, hinv⟩ := h.inv
  obtain ⟨nextsize, hnext, hnextmod, hnext'⟩ := next_spec h
  obtain ⟨prevsize, hprev, hprevmod, hprev'⟩ := prev_spec h
  rw [realloc_eq hpos hinv.block.1 hnext hprev]
  by_cases hle : chunkSize request ≤ b.size
  · -- the chunk is large enough
    rw [if_pos hle]
    by_cases hless : chunkSize request < b.size
    · obtain ⟨m', rs', x, hshrink, hheap, hbusy, hx, hxsize, hkept⟩ :=
        mmShrinkchunk_spec h hb (by omega) hmod hmin hle
      refine .inr ⟨m', rs', c.addr, x, by rw [if_pos hless, hshrink]; rfl, hheap,
        hbusy.trans (hrest.cons _), hx, hxsize, hkept.mono fun z hz => .inl (hin hz), ?_⟩
      exact fun k hlow _ hhigh => hkept _ (.inr ⟨Nat.add_le_add_left hlow _,
        Nat.add_lt_add_left hhigh _⟩)
    · refine .inr ⟨m, _, c.addr, b, by rw [if_neg hless]; rfl, h, hperm, hb, hle, .refl _ m, ?_⟩
      exact fun _ _ _ _ => rfl
  · rw [if_neg hle]
    by_cases henough : nextsize + prevsize + b.size ≥ chunkSize request
    · -- the chunk is extended
      obtain ⟨hsum, hprevle, hnextle⟩ := takes_spec (chunkSize request - b.size) prevsize
        nextsize (by omega) (by omega)
      obtain ⟨hmod₁, hmod₂⟩ := takes_mod (chunkSize request - b.size) (by omega) hprevmod hnextmod
      rw [if_pos henough]
      obtain ⟨m₁, c₁, x₁, hextend₁, hheap₁, hsize₁, hmoved⟩ :=
        extendPrev_step h hb (fun hne => hprev' hne) hprevle hmod₁
      obtain ⟨m₂, rs₂, x₂, hextend₂, hheap₂, hbusy₂, hx₂, hsize₂, hkept₂, hcontents₂⟩ :=
        extendNext_step hheap₁ hmoved.allocated (by rw [hmoved.post]; exact hnext') hnextle hmod₂
      rw [hmoved.ends] at hextend₂
      rw [hmoved.rest] at hkept₂ hbusy₂
      refine .inr ⟨m₂, rs₂, c₁.addr, x₂, ?_, hheap₂, hbusy₂.trans (hrest.cons _), hx₂, ?_,
        (hmoved.kept.trans hkept₂).mono fun z hz => hin hz, fun k hlow hhigh _ => ?_⟩
      · rw [hextend₁, Option.bind_some, hextend₂]
        rfl
      · simp only
        omega
      · rw [hcontents₂ k hlow (by simp only at hhigh; omega)]
        exact hmoved.contents k hlow hhigh
    · -- the chunk is replaced
      rw [if_neg henough]
      have hlow' := (chunkSize_spec (show chunkSize request + 23 < 2 ^ 32 by omega)).2.1
      rcases malloc_spec (Nat.dvd_refl 16) h (show 0 < chunkSize request by omega) (by omega) with
        ⟨hmalloc, hnone⟩ | ⟨m₁, rs₁, a₁, b₁, x, hmalloc, hheap₁, -, -, -, -, hbusy₁, hx, hxsize, -,
          hkept₁⟩
      · exact .inl ⟨by rw [hmalloc]; rfl, by omega, hnone⟩
      · obtain ⟨m', rs', hfree, hheap', hbusy', hkept', hcontents⟩ :=
          replace_spec hheap₁ (hbusy₁.trans (hperm.cons _)) (by omega)
        have hkept : Kept (InPayload ((c.addr, b) :: rest)) m m₁ := hkept₁.mono fun z hz => by
          obtain ⟨q, hq, hin⟩ := hz
          exact ⟨q, hperm.symm.subset hq, hin⟩
        refine .inr ⟨m', rs', a₁, x, ?_, hheap', hbusy', hx, by simp only; omega,
          Kept.trans (hkept.mono fun z hz => ?_) hkept', fun k hlow hhigh _ => ?_⟩
        · have hne : a₁ + sizeofMmAllocnode ≠ 0 := by simp [sizeofMmAllocnode]
          rw [hmalloc, Option.bind_some, if_pos hne, hfree]
          rfl
        · obtain ⟨q, hq, hin⟩ := hz
          exact ⟨q, List.mem_cons_of_mem _ hq, hin⟩
        · rw [hcontents k hlow hhigh]
          exact hkept _ ⟨(c.addr, b), List.mem_cons_self .., Nat.add_le_add_left hlow _,
            Nat.add_lt_add_left hhigh _⟩

end Px4Firmware.Mm
