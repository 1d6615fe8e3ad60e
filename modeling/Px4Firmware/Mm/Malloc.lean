import Px4Firmware.Mm.Steps

/-!
# Px4Firmware.Mm.Malloc

**`malloc`.** Between operations a heap has no two free blocks next to each other, and all sizes are
multiples of a granule (`IsHeap`). `malloc` fails only if no free block is large enough, and else it
takes the smallest one that is (`malloc_spec`).
-/

namespace Px4Firmware.Mm

open Lib Lib.Memory

/-- Whether the last of the blocks is free, or what is before them. -/
def lastFree : Bool → List Block → Bool
  | f, [] => f
  | _, b :: bs => lastFree b.free bs

/-- No free block comes after a free block. -/
def Coalesced : Bool → List Block → Prop
  | _, [] => True
  | f, b :: bs => (f = true → b.free = false) ∧ Coalesced b.free bs

/-- A heap between operations. -/
structure IsHeap (d : Nat) (g : Globals) (m : Memory) (rs : List Region) : Prop where
  inv : ∃ es, Inv g m rs es []
  coalesced : ∀ r ∈ rs, Coalesced false r.blocks
  grain : ∀ p ∈ layout rs, p.2.size % d = 0

variable {g : Globals} {m : Memory} {rs : List Region} {c : Spot} {es : List Entry}
  {f : Bool} {bs bs' old new : List Block} {b x y : Block} {d request : Nat}

/-! ### Free blocks next to each other -/

@[simp] theorem lastFree_nil : lastFree f [] = f := rfl

@[simp] theorem lastFree_cons : lastFree f (b :: bs) = lastFree b.free bs := rfl

@[simp] theorem headFree_nil : headFree [] = false := rfl

@[simp] theorem headFree_cons : headFree (b :: bs) = b.free := rfl

@[simp] theorem coalesced_nil : Coalesced f [] := trivial

@[simp] theorem coalesced_cons :
    Coalesced f (b :: bs) ↔ (f = true → b.free = false) ∧ Coalesced b.free bs := Iff.rfl

@[simp] theorem lastFree_append : lastFree f (bs ++ bs') = lastFree (lastFree f bs) bs' := by
  induction bs generalizing f with
  | nil => rfl
  | cons b bs ih => simp [ih]

theorem coalesced_append :
    Coalesced f (bs ++ bs') ↔ Coalesced f bs ∧ Coalesced (lastFree f bs) bs' := by
  induction bs generalizing f with
  | nil => simp
  | cons b bs ih => simp [ih, and_assoc]

/-- What comes first decides. -/
theorem coalesced_iff :
    Coalesced f bs ↔ (f = true → headFree bs = false) ∧ Coalesced false bs := by
  cases bs with
  | nil => simp
  | cons b bs => simp

namespace IsHeap

/-- The blocks around a place. -/
theorem spot_coalesced (h : IsHeap d g m (c.fill old)) :
    Coalesced false c.pre ∧ Coalesced (lastFree false c.pre) old ∧
      Coalesced (lastFree (lastFree false c.pre) old) c.post := by
  have hfocus := h.coalesced _ Spot.mem_fill
  rwa [coalesced_append, coalesced_append] at hfocus

theorem spot_grain (h : IsHeap d g m (c.fill old)) : ∀ b ∈ old, b.size % d = 0 := by
  intro b hb
  obtain ⟨a, ha⟩ := exists_placed (a := c.addr) hb
  refine h.grain (a, b) ?_
  rw [Spot.layout_fill]
  exact List.mem_append_right _ (List.mem_append_left _ ha)

/-- Blocks are replaced by others. -/
theorem fill {m' : Memory} (h : IsHeap d g m (c.fill old)) (hinv : Inv g m' (c.fill new) es [])
    (hspan : span new = span old) (hnew : Coalesced (lastFree false c.pre) new)
    (hpost : Coalesced (lastFree (lastFree false c.pre) new) c.post)
    (hgrain : ∀ b ∈ new, b.size % d = 0) : IsHeap d g m' (c.fill new) where
  inv := ⟨es, hinv⟩
  coalesced := by
    intro r hr
    rcases List.mem_append.mp hr with hr | hr
    · exact h.coalesced r (List.mem_append_left _ hr)
    · rcases List.mem_cons.mp hr with rfl | hr
      · exact coalesced_append.mpr
          ⟨h.spot_coalesced.1, coalesced_append.mpr ⟨hnew, hpost⟩⟩
      · exact h.coalesced r (List.mem_append_right _ (List.mem_cons_of_mem _ hr))
  grain := by
    intro p hp
    have hold := h.grain p
    rw [Spot.layout_fill, hspan] at hp
    rw [Spot.layout_fill] at hold
    simp only [List.mem_append] at hp hold
    rcases hp with hp | hp | hp
    · exact hold (.inl hp)
    · obtain ⟨pre, post, hblocks, -⟩ := placed_split hp
      exact hgrain p.2 (by simp [hblocks])
    · exact hold (.inr (.inr hp))

theorem mono {d' : Nat} (h : IsHeap d g m rs) (hd : d' ∣ d) : IsHeap d' g m rs :=
  ⟨h.inv, h.coalesced, fun p hp =>
    Nat.mod_eq_zero_of_dvd (Nat.dvd_trans hd (Nat.dvd_of_mod_eq_zero (h.grain p hp)))⟩

end IsHeap

/-! ### The size of a chunk -/

/-- The size of the chunk for a request. -/
def chunkSize (request : Nat) : Nat := mmAlignUp (sizeT (request + sizeofMmAllocnode))

theorem chunkSize_spec (hrequest : request + 23 < 2 ^ 32) :
    chunkSize request % 16 = 0 ∧ request + 8 ≤ chunkSize request ∧
      chunkSize request < request + 24 := by
  simp only [chunkSize, mmAlignUp, mmAlignDown, sizeT, sizeofMmAllocnode, mmGranMask, mmMinChunk,
    mmMinShift]
  omega

/-- A free chunk is in the list. -/
theorem Inv.chunk_mem (h : Inv g m rs es []) {a s : Nat} :
    .chunk a s ∈ es ↔ ∃ p ∈ layout rs, p.2.free = true ∧ p.1 = a ∧ p.2.size = s := by
  have hperm := h.perm
  rw [List.append_nil] at hperm
  constructor
  · intro hmem
    rcases List.mem_append.mp (hperm.subset (List.mem_cons_of_mem _ hmem)) with hhook | hchunk
    · obtain ⟨i, -, hi⟩ := List.mem_map.mp hhook
      cases hi
    · obtain ⟨p, hp, hfree, heq⟩ := mem_chunksOf hchunk
      cases heq
      exact ⟨p, hp, hfree, rfl, rfl⟩
  · rintro ⟨p, hp, hfree, rfl, rfl⟩
    have hmem := hperm.symm.subset (List.mem_append_right _ (chunk_mem_chunksOf hp hfree))
    exact (List.mem_cons.mp hmem).resolve_left (fun heq => by cases heq)

/-- The chunk that is taken is divided if enough remains. -/
inductive Divided (b : Block) (n : Nat) : List Block → Prop
  | whole (x : Block) (hfree : x.free = false) (hsize : x.size = b.size)
      (hsmall : b.size < n + sizeofMmFreenode) : Divided b n [x]
  | parts (x y : Block) (hfree : x.free = false) (hsize : x.size = n) (hfree' : y.free = true)
      (hsize' : x.size + y.size = b.size) : Divided b n [x, y]

/-- What is taken out of the list is among the free blocks. -/
theorem Inv.spot_chunk_mem (h : Inv g m (c.fill [b]) es []) (hfree : b.free = true) :
    .chunk c.addr b.size ∈ es :=
  h.chunk_mem.mpr ⟨(c.addr, b), by simp [Spot.layout_fill], hfree, rfl, rfl⟩

theorem takeChunk_spec (h : Inv g m (c.fill [b]) es []) (hfree : b.free = true) {n : Nat}
    (hn : n % 8 = 0) (hmin : sizeofMmFreenode ≤ n) (hle : n ≤ b.size) :
    ∃ m' es' new, takeChunk g m c.addr n = some m' ∧ Divided b n new ∧
      Inv g m' (c.fill new) es' [] ∧ Kept (InPayload (c.rest b.size)) m m' := by
  have hspan : span [b] = b.size := by simp
  have hout (z : Nat) (hz : InPayload (c.rest b.size) z) : c.Outside b.size z := by
    have := h.outside_of_rest (x := z)
    rw [hspan] at this
    exact this hz
  have hbmin := b.min
  have hbounds := h.spot_bounds
  rw [hspan] at hbounds
  obtain ⟨m₁, es₁, hunlink, hinv₁, hsafe₁⟩ := h.unlink (h.spot_chunk_mem hfree)
  have hkept₁ := h.kept_rest_of_safe hsafe₁
  rw [hspan] at hkept₁
  have hsize := hinv₁.block.1
  simp only [sizeofMmFreenode] at hmin hbmin
  by_cases hmuch : b.size - n ≥ sizeofMmFreenode
  · -- the chunk is divided, and the rest of it goes back to the list
    obtain ⟨x, hx⟩ : ∃ x : Block, x = ⟨n, true, hn, hmin⟩ := ⟨_, rfl⟩
    obtain ⟨y, hy⟩ : ∃ y : Block, y = ⟨b.size - n, true, by have := b.granule; omega, hmuch⟩ :=
      ⟨_, rfl⟩
    have hxsize : x.size = n := by rw [hx]
    have hysize : y.size = b.size - n := by rw [hy]
    have hsum : x.size + y.size = b.size := by omega
    have hinv₂ := hinv₁.carve (p := b.size) (x := x) (y := y) [] (by simp [chunksOf, hfree])
      (show List.Perm [.chunk (c.addr + n) (b.size - n), .chunk c.addr n] _ by
        simpa [chunksOf, hx, hy] using List.Perm.swap ..)
      (by rw [hspan, hsum]) (by rw [hy]) (by rw [hinv₁.block.2.1, hfree, hx]) (by omega)
      (by rw [hspan]; exact hinv₁.block.2.2)
    rw [hxsize, hysize, hspan] at hinv₂
    obtain ⟨m₃, es₃, hadd, hinv₃, hsafe₃⟩ := hinv₂.addfreechunk
    have hkept₃ := hinv₂.kept_rest_of_safe hsafe₃
    have hinv₄ := Inv.allocate (c := { c with post := y :: c.post }) (b := x)
      (hxsize ▸ hinv₃) (by rw [hx])
    refine ⟨allocate m₃ c.addr, es₃, [x.mark false, y], ?_, ?_, hinv₄, ?_⟩
    · simp only [takeChunk, hunlink, Option.bind_eq_bind, Option.bind_some, hsize, if_pos hmuch]
      exact congrArg (fun r : Option Memory => r.bind fun m => some (allocate m c.addr)) hadd
    · exact .parts _ _ rfl hxsize (by rw [hy]) hsum
    · have hymin := y.min
      simp only [sizeofMmFreenode] at hymin
      rw [span_cons, span_cons, span_nil, Nat.add_zero, hsum] at hkept₃
      refine c.kept_setWord (Kept.trans ?_ hkept₃) hout (.inl (by omega))
      exact Inv.kept_carve (by omega) (by omega) (by omega) hkept₁ fun z hz => .inl (hout z hz)
  · have hinv₂ := hinv₁.allocate hfree
    refine ⟨allocate m₁ c.addr, es₁, [b.mark false], ?_, ?_, hinv₂, ?_⟩
    · simp only [takeChunk, hunlink, Option.bind_eq_bind, Option.bind_some, hsize, if_neg hmuch]
    · simp only [sizeofMmFreenode] at hmuch
      exact .whole _ rfl rfl (by simp only [sizeofMmFreenode]; omega)
    · exact c.kept_setWord hkept₁ hout (.inl (by omega))

/-- A divided chunk stays coalesced with what is around it. -/
theorem Divided.coalesced {n : Nat} (h : Divided b n new) (hfree : b.free = true)
    (hold : Coalesced (lastFree f [b]) bs) :
    Coalesced f new ∧ Coalesced (lastFree f new) bs := by
  rw [lastFree_cons, lastFree_nil, hfree] at hold
  cases h with
  | whole x hx _ _ =>
      refine ⟨by simp [hx], ?_⟩
      rw [lastFree_cons, lastFree_nil, hx]
      exact (coalesced_iff.mp hold).2
  | parts x y hx _ hy _ =>
      refine ⟨by simp [hx], ?_⟩
      rw [lastFree_cons, lastFree_cons, lastFree_nil, hy]
      exact hold

theorem Divided.span_eq {n : Nat} (h : Divided b n new) : span new = b.size := by
  cases h with
  | whole x _ hsize _ => simp [hsize]
  | parts x y _ _ _ hsize => simp [hsize]

/-- The allocated part of a divided chunk. -/
theorem Divided.busy {n a : Nat} (h : Divided b n new) (hle : n ≤ b.size) :
    ∃ x : Block, Mm.busy (placed a new) = [(a, x)] ∧ x.free = false ∧ n ≤ x.size ∧
      x.size < n + sizeofMmFreenode := by
  cases h with
  | whole x hx hsize hsmall =>
      refine ⟨x, by simp [busy_cons_allocated hx], hx, by omega, by omega⟩
  | parts x y hx hsize hy _ =>
      refine ⟨x, ?_, hx, Nat.le_of_eq hsize.symm, ?_⟩
      · rw [placed_cons, placed_cons, placed_nil, busy_cons_allocated hx, busy_cons_free hy,
          busy_nil]
      · simp only [sizeofMmFreenode]
        omega

theorem Divided.grain {n : Nat} (h : Divided b n new) (hb : b.size % d = 0) (hn : n % d = 0) :
    ∀ x ∈ new, x.size % d = 0 := by
  intro x hx
  cases h with
  | whole y _ hsize _ =>
      rw [List.mem_singleton.mp hx, hsize, hb]
  | parts y z _ hy _ hsize =>
      have hdvd : d ∣ y.size + z.size := Nat.dvd_of_mod_eq_zero (hsize ▸ hb)
      have hdvd' : d ∣ y.size := Nat.dvd_of_mod_eq_zero (hy ▸ hn)
      rcases List.mem_cons.mp hx with rfl | hx
      · exact Nat.mod_eq_zero_of_dvd hdvd'
      · rw [List.mem_singleton.mp hx]
        exact Nat.mod_eq_zero_of_dvd ((Nat.dvd_add_right hdvd').mp hdvd)

/-- Where `malloc` finds a chunk, and what becomes of it. -/
structure Found (d : Nat) (g : Globals) (m : Memory) (c : Spot) (b : Block) (n : Nat)
    (m' : Memory) (new : List Block) : Prop where
  heap : IsHeap d g m' (c.fill new)
  free : b.free = true
  large : n ≤ b.size
  best : ∀ p ∈ layout (c.fill [b]), p.2.free = true → n ≤ p.2.size → b.size ≤ p.2.size
  divided : Divided b n new
  kept : Kept (InPayload (c.rest b.size)) m m'

theorem malloc_cases (hd : d ∣ 16) (h : IsHeap d g m rs) (hpos : 0 < request)
    (hlt : request + 23 < 2 ^ 32) :
    (malloc g m request = some (m, 0) ∧
        ∀ p ∈ layout rs, p.2.free = true → p.2.size < chunkSize request) ∨
      ∃ m' c b new, rs = c.fill [b] ∧ malloc g m request = some (m', c.addr + sizeofMmAllocnode) ∧
        Found d g m c b (chunkSize request) m' new := by
  obtain ⟨es, hinv⟩ := h.inv
  obtain ⟨hmod, hlow, hhigh⟩ := chunkSize_spec hlt
  have hmin : sizeofMmFreenode ≤ chunkSize request := by
    simp only [sizeofMmFreenode]
    omega
  obtain ⟨hndx, hclass, -⟩ := mmSize2ndx_spec hmin
  have hsame : (if chunkSize request ≥ mmMaxChunk then mmNnodes - 1
      else mmSize2ndx (chunkSize request)) = mmSize2ndx (chunkSize request) := by
    by_cases hmax : chunkSize request ≥ mmMaxChunk
    · rw [if_pos hmax, mmSize2ndx, if_pos hmax]
    · rw [if_neg hmax]
  have hmalloc (node : Nat)
      (hfind : findChunk m (chunkSize request) g.bound
        (flink m (g.hook (mmSize2ndx (chunkSize request)))) = some node) :
      malloc g m request = if node = 0 then some (m, 0)
        else (takeChunk g m node (chunkSize request)).bind
          fun m => some (m, node + sizeofMmAllocnode) := by
    rw [malloc, if_neg (Nat.pos_iff_ne_zero.mp hpos)]
    change (findChunk m (chunkSize request) g.bound (flink m (g.hook (if chunkSize request ≥
      mmMaxChunk then mmNnodes - 1 else mmSize2ndx (chunkSize request))))).bind _ = _
    rw [hsame, hfind]
    rfl
  rcases hinv.list.findChunk_spec hinv.nodesAt_list hndx hclass hinv.length_lt with
    ⟨hfind, hnone⟩ | ⟨a, s, hmem, hfind, hlarge, hbest⟩
  · refine .inl ⟨by rw [hmalloc 0 hfind, if_pos rfl], fun p hp hfree => ?_⟩
    exact hnone p.1 p.2.size (hinv.chunk_mem.mpr ⟨p, hp, hfree, rfl, rfl⟩)
  · obtain ⟨⟨a, b⟩, hp, hfree, rfl, rfl⟩ := hinv.chunk_mem.mp hmem
    obtain ⟨c, rfl, haddr⟩ := Spot.exists_of_mem hp
    simp only at haddr hfree hlarge hfind hbest
    subst haddr
    obtain ⟨m', es', new, htake, hdivided, hinv', hkept⟩ :=
      takeChunk_spec hinv hfree (by omega) hmin hlarge
    have hne : c.addr ≠ 0 := Nat.pos_iff_ne_zero.mp (hinv.layout_bounds hp).1
    have hcoalesced := hdivided.coalesced hfree h.spot_coalesced.2.2
    refine .inr ⟨m', c, b, new, rfl, ?_, ?_, hfree, hlarge, ?_, hdivided, hkept⟩
    · rw [hmalloc c.addr hfind, if_neg hne, htake]
      rfl
    · exact h.fill hinv' (by rw [hdivided.span_eq]; simp) hcoalesced.1 hcoalesced.2
        (hdivided.grain (h.grain _ hp)
          (Nat.mod_eq_zero_of_dvd (Nat.dvd_trans hd (Nat.dvd_of_mod_eq_zero hmod))))
    · intro p hp hpfree hple
      exact hbest p.1 p.2.size (hinv.chunk_mem.mpr ⟨p, hp, hpfree, rfl, rfl⟩) hple

/-- The allocated blocks around a free one. -/
theorem busy_fill_free (hfree : b.free = true) : busy (layout (c.fill [b])) = c.rest b.size := by
  rw [Spot.layout_fill, Spot.rest, placed_cons, placed_nil, busy_append, busy_append,
    busy_append, busy_cons_free hfree]
  simp

/-- `malloc` takes the smallest free block that is large enough. -/
theorem malloc_spec (hd : d ∣ 16) (h : IsHeap d g m rs) (hpos : 0 < request)
    (hlt : request + 23 < 2 ^ 32) :
    (malloc g m request = some (m, 0) ∧
        ∀ p ∈ layout rs, p.2.free = true → p.2.size < chunkSize request) ∨
      ∃ m' rs' a b x, malloc g m request = some (m', a + sizeofMmAllocnode) ∧
        IsHeap d g m' rs' ∧ (a, b) ∈ layout rs ∧ b.free = true ∧ chunkSize request ≤ b.size ∧
        (∀ p ∈ layout rs, p.2.free = true → chunkSize request ≤ p.2.size → b.size ≤ p.2.size) ∧
        (busy (layout rs')).Perm ((a, x) :: busy (layout rs)) ∧ x.free = false ∧
        chunkSize request ≤ x.size ∧ x.size < chunkSize request + sizeofMmFreenode ∧
        Kept (InPayload (busy (layout rs))) m m' := by
  rcases malloc_cases hd h hpos hlt with hnone | ⟨m', c, b, new, rfl, hmalloc, hfound⟩
  · exact .inl hnone
  · obtain ⟨x, hbusy, hx, hle, hlt'⟩ := hfound.divided.busy (a := c.addr) hfound.large
    refine .inr ⟨m', c.fill new, c.addr, b, x, hmalloc, hfound.heap, by simp [Spot.layout_fill],
      hfound.free, hfound.large, hfound.best, ?_, hx, hle, hlt', ?_⟩
    · rw [busy_fill_free hfound.free, ← hfound.divided.span_eq]
      refine busy_fill.trans ?_
      rw [hbusy]
      rfl
    · rw [busy_fill_free hfound.free]
      exact hfound.kept

end Px4Firmware.Mm
