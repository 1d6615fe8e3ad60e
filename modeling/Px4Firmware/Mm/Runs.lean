import Px4Firmware.Mm.Clients
import Px4Firmware.Mm.Mallinfo

/-!
# Px4Firmware.Mm.Runs

What clients may rely on whatever came before: the arrays they mean to have are theirs
(`client_run`), `mallinfo` says which requests `malloc` fulfils (`mallinfo_run`), the smallest free
block is taken (`malloc_best_fit`), no memory is lost (`all_freed`), `realloc` fails only when it
has to and then changes nothing (`realloc_run`), and `memalign` aligns (`memalign_run`).
-/

namespace Px4Firmware.Mm

open Lib Lib.Memory

variable {d : Nat} {g : Globals} {m m' : Memory} {s s' : Client} {arrays : List Bytes}
  {rs rs' : List Region} {cells l r : List Cell} {c : Cell} {a k request : Nat} {x b : Block}
  {bytes : Bytes} {aligned ok : Bool} {op : Op}

/-! ### Regions -/

theorem Reachable.regions (h : Reachable aligned g s arrays) :
    ∀ e ∈ g.regions, e.1 % 16 = 0 ∧ e.1 + 24 ≤ e.2 := by
  have hadd {g : Globals} {start : Nat} {b : Block} (hmod : start % 16 = 0)
      (hg : ∀ e ∈ g.regions, e.1 % 16 = 0 ∧ e.1 + 24 ≤ e.2) :
      ∀ e ∈ (g.add ⟨start, [b]⟩).regions, e.1 % 16 = 0 ∧ e.1 + 24 ≤ e.2 := by
    intro e he
    rcases List.mem_append.mp he with he | he
    · exact hg e he
    · have hmin := b.min
      simp only [sizeofMmFreenode] at hmin
      rw [List.mem_singleton.mp he]
      simp only [Region.extent, Region.guard, sizeofMmAllocnode, span_cons, span_nil]
      exact ⟨hmod, by omega⟩
  induction h with
  | start hpos hlimit hroom hinit =>
      obtain ⟨m', b, hinit', -, -, -, hmod, -⟩ :=
        mmInitialize_spec (Nat.dvd_refl 16) hpos hlimit hroom
      cases hinit.symm.trans hinit'
      exact hadd hmod (by simp)
  | addregion hreach hroom hstep ih =>
      obtain ⟨rs, cells, h⟩ := hreach.models
      obtain ⟨m₁, b, hstep', -, -, -, hmod, -⟩ := mmAddregion_spec grain_dvd h.heap hroom
      cases hstep.symm.trans hstep'
      exact hadd hmod ih
  | step hreach hallowed hstep ih => exact ih

/-! ### Requests -/

/-- `malloc` fulfils a request if and only if there is a free block for it. -/
theorem Models.malloc_iff (hd : d ∣ 16) (h : Models d g s arrays rs cells) (hpos : 0 < request)
    (hlt : request + 23 < 2 ^ 32) :
    (∃ s', s.step g (.malloc request) = some (s', true)) ↔
      ∃ p ∈ idle (layout rs), chunkSize request ≤ p.2.size := by
  rcases malloc_spec hd h.heap hpos hlt with
    ⟨hmalloc, hnone⟩ | ⟨m', rs', a, b, x, hmalloc, -, hb, hfree, hsize, -⟩
  · refine ⟨fun hsome => ?_, fun hsome => ?_⟩
    · obtain ⟨s', hstep⟩ := hsome
      rw [Client.step, hmalloc] at hstep
      cases hstep
    · obtain ⟨p, hp, hle⟩ := hsome
      obtain ⟨hp, hfree⟩ := mem_idle.mp hp
      have := hnone p hp hfree
      omega
  · refine ⟨fun _ => ⟨(a, b), mem_idle.mpr ⟨hb, hfree⟩, hsize⟩, fun _ => ?_⟩
    have hne : ¬ a + sizeofMmAllocnode = 0 := by simp [sizeofMmAllocnode]
    refine ⟨⟨m', s.ptrs ++ [a + sizeofMmAllocnode]⟩, ?_⟩
    rw [Client.step, hmalloc, Option.map_some, Client.keep, if_neg hne]

/-! ### A sample -/

/-- Operations that all succeed. -/
def Client.run (g : Globals) : Client → List Op → Option Client
  | s, [] => some s
  | s, op :: ops => do
      let (s, ok) ← s.step g op
      if ok then Client.run g s ops else none

/-- The rules for a client that does these operations, and they all succeed. -/
def AllAllowed : Bool → List Bytes → List Op → Prop
  | _, _, [] => True
  | aligned, arrays, op :: ops =>
      Allowed aligned arrays op ∧
        AllAllowed (aligned || op.aligns) (Arrays.step true arrays op) ops

theorem Reachable.run {ops : List Op} (h : Reachable aligned g s arrays)
    (hallowed : AllAllowed aligned arrays ops) (hrun : s.run g ops = some s') :
    Reachable (aligned || ops.any Op.aligns) g s' (ops.foldl (Arrays.step true) arrays) := by
  induction ops generalizing aligned s arrays with
  | nil =>
      cases hrun
      rw [List.any_nil, Bool.or_false]
      exact h
  | cons op ops ih =>
      obtain ⟨⟨s₁, ok⟩, hstep, hrest⟩ := Option.bind_eq_some_iff.mp hrun
      obtain ⟨hok, hrest⟩ := Option.ite_none_right_eq_some.mp hrest
      obtain rfl : ok = true := hok
      rw [List.any_cons, ← Bool.or_assoc]
      exact ih (.step h hallowed.1 hstep) hallowed.2 hrest

/-- A heap of 512 bytes after some operations. -/
def sample (ops : List Op) : Option (Globals × Client) := do
  let (g, m) ← mmInitialize 0x1000 (fun _ => 0) 0x2000 512
  let s ← Client.run g ⟨m, []⟩ ops
  some (g, s)

theorem reachable_of_sample {ops : List Op} (hallowed : AllAllowed false [] ops)
    (h : sample ops = some (g, s)) :
    Reachable (ops.any Op.aligns) g s (ops.foldl (Arrays.step true) []) := by
  obtain ⟨⟨g₀, m⟩, hinit, hrun⟩ := Option.bind_eq_some_iff.mp h
  obtain ⟨s₀, hrun, heq⟩ := Option.bind_eq_some_iff.mp hrun
  cases heq
  have hroom : Globals.Room ⟨0x1000, [], 0⟩ 0x2000 512 :=
    ⟨by decide, by decide, by decide, by decide, by simp, by decide, by decide⟩
  have hstart := Reachable.start (by decide) (by decide) hroom hinit
  have hreach := hstart.run hallowed hrun
  rwa [Bool.false_or] at hreach

/-- Four arrays are allocated, the second one is written to, the first one is given back and the
third one gets shorter: three are left, and three pieces of the heap are free. -/
def sampleOps : List Op :=
  [.malloc 40, .zalloc 24, .malloc 100, .write 1 3 7, .malloc 24, .free 0, .realloc 1 60]

/-- What is left. -/
def sampleArrays : List Bytes :=
  [(List.replicate 24 (some 0)).set 3 (some 7), List.replicate 60 none, List.replicate 24 none]

theorem sampleOps_allowed : AllAllowed false [] sampleOps :=
  ⟨show _ < _ by decide, show _ < _ by decide, show _ < _ by decide, ⟨_, rfl, by decide⟩,
    show _ < _ by decide, show _ < _ by decide, ⟨rfl, by decide, by decide⟩, trivial⟩

theorem exists_sample :
    ∃ g s, sample sampleOps = some (g, s) ∧ Reachable false g s sampleArrays := by
  obtain ⟨⟨g, s⟩, h⟩ := Option.isSome_iff_exists.mp
    (show (sample sampleOps).isSome = true by decide +kernel)
  have harrays : sampleOps.foldl (Arrays.step true) [] = sampleArrays := by decide +kernel
  rw [← harrays]
  exact ⟨g, s, h, reachable_of_sample sampleOps_allowed h⟩

/-! ### A run -/

/-- The bytes of arrays with their headers. -/
def footprint : List Bytes → Nat
  | [] => 0
  | bytes :: arrays => bytes.length + sizeofMmAllocnode + footprint arrays

theorem footprint_le (h : ∀ c ∈ cells, c.Holds m) :
    footprint (cells.map Cell.bytes) ≤ total (cells.map Cell.place) := by
  induction cells with
  | nil => exact Nat.le_refl _
  | cons c cells ih =>
      have hfits := (h c (List.mem_cons_self ..)).fits
      have hrest := ih fun c' hc' => h c' (List.mem_cons_of_mem _ hc')
      simp only [List.map_cons, footprint, total_cons, Cell.place] at hrest ⊢
      omega

theorem total_perm {ps ps' : List (Nat × Block)} (h : ps.Perm ps') : total ps = total ps' := by
  induction h with
  | nil => rfl
  | cons p _ ih => simp [ih]
  | swap p q ps => simp only [total_cons]; omega
  | trans _ _ ih ih' => exact ih.trans ih'

/-- In every state `mallinfo` accounts for all of the regions: what is in use has room for the
arrays of the client, and the largest free block decides which requests `malloc` fulfils. -/
theorem mallinfo_run (h : Reachable aligned g s arrays) :
    ∃ info, mallinfo g s.mem = some info ∧ info.arena = totalSize g.regions ∧
      info.uordblks + info.fordblks = info.arena ∧
      footprint arrays + 2 * sizeofMmAllocnode * g.regions.length ≤ info.uordblks ∧
      ∀ request, 0 < request → request + 23 < 2 ^ 32 →
        ((∃ s', s.step g (.malloc request) = some (s', true)) ↔
          chunkSize request ≤ info.mxordblk) := by
  obtain ⟨rs, cells, hmodels⟩ := h.models
  obtain ⟨es, hinv⟩ := hmodels.heap.inv
  obtain ⟨info, hinfo, hcounts, harena, hsum⟩ := mallinfo_spec hmodels.heap
  refine ⟨info, hinfo, harena, hsum, ?_, fun request hpos hlt => ?_⟩
  · have hfootprint := footprint_le hmodels.holds
    have hlength : g.regions.length = rs.length := by rw [← hinv.extents, List.length_map]
    rw [hcounts.uordblks, hmodels.arrays, hlength, total_perm hmodels.blocks]
    omega
  · rw [hmodels.malloc_iff grain_dvd hpos hlt]
    refine ⟨fun hsome => ?_, fun hle => ?_⟩
    · obtain ⟨p, hp, hle⟩ := hsome
      exact Nat.le_trans hle (hcounts.mxordblk p hp)
    · have hchunk := (chunkSize_spec hlt).2.1
      rcases hcounts.largest with hzero | ⟨p, hp, hsize⟩
      · omega
      · exact ⟨p, hp, by omega⟩

theorem mallinfo_run_sample : ∃ g s info, sample sampleOps = some (g, s) ∧
    mallinfo g s.mem = some info ∧ info.ordblks = 3 ∧ info.mxordblk = 272 ∧
      info.arena = totalSize g.regions ∧ info.uordblks + info.fordblks = info.arena ∧
      footprint sampleArrays + 2 * sizeofMmAllocnode * g.regions.length ≤ info.uordblks ∧
      ∀ request, 0 < request → request + 23 < 2 ^ 32 →
        ((∃ s', s.step g (.malloc request) = some (s', true)) ↔
          chunkSize request ≤ info.mxordblk) := by
  obtain ⟨g, s, hsample, hreach⟩ := exists_sample
  have hfree : ∀ p ∈ sample sampleOps, ∀ info ∈ mallinfo p.1 p.2.mem,
      info.ordblks = 3 ∧ info.mxordblk = 272 := by decide +kernel
  obtain ⟨info, hinfo, hresult⟩ := mallinfo_run hreach
  obtain ⟨hordblks, hmxordblk⟩ := hfree (g, s) hsample info hinfo
  exact ⟨g, s, info, hsample, hinfo, hordblks, hmxordblk, hresult⟩

/-- The free blocks of a heap. -/
theorem idle_fill (c : Spot) (bs : List Block) :
    (idle (layout (c.fill bs))).Perm
      (idle (placed c.addr bs) ++ idle (c.front ++ c.back (span bs))) := by
  rw [Spot.layout_fill, idle_append, idle_append, idle_append, ← List.append_assoc,
    ← List.append_assoc]
  exact List.Perm.append_right _ List.perm_append_comm

/-- `malloc` takes the smallest free block that is large enough, from its low end, leaves what
remains of it free if a chunk can be that small, and touches no other free block. -/
theorem malloc_best_fit (h : Reachable aligned g s arrays) (hpos : 0 < request)
    (hlt : request + 23 < 2 ^ 32) (hstep : s.step g (.malloc request) = some (s', true)) :
    ∃ rs rs' a b others remains, IsHeap (grain aligned) g s.mem rs ∧
      IsHeap (grain aligned) g s'.mem rs' ∧ s'.ptrs = s.ptrs ++ [a + sizeofMmAllocnode] ∧
      (idle (layout rs)).Perm ((a, b) :: others) ∧ chunkSize request ≤ b.size ∧
      (∀ p ∈ others, chunkSize request ≤ p.2.size → b.size ≤ p.2.size) ∧
      (idle (layout rs')).Perm (remains ++ others) ∧
      ((remains = [] ∧ b.size < chunkSize request + sizeofMmFreenode) ∨
        ∃ y, remains = [(a + chunkSize request, y)] ∧ chunkSize request + y.size = b.size) := by
  obtain ⟨rs, cells, hmodels⟩ := h.models
  rcases malloc_cases grain_dvd hmodels.heap hpos hlt with
    ⟨hmalloc, -⟩ | ⟨m', c, b, new, rfl, hmalloc, hfound⟩
  · rw [Client.step, hmalloc] at hstep
    cases hstep
  · have hne : ¬ c.addr + sizeofMmAllocnode = 0 := by simp [sizeofMmAllocnode]
    rw [Client.step, hmalloc, Option.map_some, Client.keep, if_neg hne] at hstep
    cases hstep
    have hidle : idle (placed c.addr [b]) = [(c.addr, b)] := by simp [idle, hfound.free]
    have hbefore := idle_fill c [b]
    have hafter := idle_fill c new
    rw [hidle, span_cons, span_nil, Nat.add_zero] at hbefore
    rw [hfound.divided.span_eq] at hafter
    refine ⟨_, _, c.addr, b, _, idle (placed c.addr new), hmodels.heap, hfound.heap, rfl, hbefore,
      hfound.large, fun p hp hle => ?_, hafter, ?_⟩
    · obtain ⟨hmem, hfree⟩ := mem_idle.mp (hbefore.symm.subset (List.mem_cons_of_mem _ hp))
      exact hfound.best p hmem hfree hle
    · generalize hn : chunkSize request = n at *
      cases hfound.divided with
      | whole x hx hsize hsmall => exact .inl ⟨by simp [idle, hx], hsmall⟩
      | parts x y hx hsize hy hsum =>
          exact .inr ⟨y, by simp [idle, hx, hy, hsize], by omega⟩

/-- Of the free chunks of 48, 32 and 272 bytes, a request of 24 bytes gets the second one. -/
theorem malloc_best_fit_sample : ∃ g s s', sample sampleOps = some (g, s) ∧
    s.step g (.malloc 24) = some (s', true) ∧
    ∃ rs rs' a b others remains, IsHeap 16 g s.mem rs ∧ IsHeap 16 g s'.mem rs' ∧
      s'.ptrs = s.ptrs ++ [a + sizeofMmAllocnode] ∧ s.ptrs ++ [0x20b0] = s'.ptrs ∧
      (idle (layout rs)).Perm ((a, b) :: others) ∧ chunkSize 24 ≤ b.size ∧
      (∀ p ∈ others, chunkSize 24 ≤ p.2.size → b.size ≤ p.2.size) ∧
      (idle (layout rs')).Perm (remains ++ others) ∧
      ((remains = [] ∧ b.size < chunkSize 24 + sizeofMmFreenode) ∨
        ∃ y, remains = [(a + chunkSize 24, y)] ∧ chunkSize 24 + y.size = b.size) := by
  obtain ⟨g, s, hsample, hreach⟩ := exists_sample
  have hfits : ∀ p ∈ sample sampleOps, ((p.2.step p.1 (.malloc 24)).map fun r =>
      (r.1.ptrs, r.2)) = some (p.2.ptrs ++ [0x20b0], true) := by decide +kernel
  obtain ⟨⟨s', ok⟩, hstep, heq⟩ := Option.map_eq_some_iff.mp (hfits (g, s) hsample)
  obtain ⟨hptrs', rfl⟩ := Prod.mk.inj heq
  obtain ⟨rs, rs', a, b, others, remains, hheap, hheap', hptrs, hresult⟩ :=
    malloc_best_fit hreach (by decide) (by decide) hstep
  exact ⟨g, s, s', hsample, hstep, rs, rs', a, b, others, remains, hheap, hheap', hptrs,
    hptrs'.symm, hresult⟩

/-! ### Nothing is lost -/

/-- Without allocated blocks a region is one free block. -/
theorem whole_of_busy_nil (h : IsHeap d g m rs) (hbusy : busy (layout rs) = []) {r : Region}
    (hr : r ∈ rs) : r.blocks = [] ∨ ∃ b, r.blocks = [b] ∧ b.free = true := by
  have hfree (b : Block) (hb : b ∈ r.blocks) : b.free = true := by
    obtain ⟨a, ha⟩ := exists_placed (a := r.start + sizeofMmAllocnode) hb
    have hmem : (a, b) ∈ layout rs := List.mem_flatMap.mpr ⟨r, hr, ha⟩
    cases hf : b.free with
    | true => rfl
    | false =>
        have hin := mem_busy.mpr ⟨hmem, hf⟩
        rw [hbusy] at hin
        cases hin
  have hcoalesced := h.coalesced r hr
  cases hblocks : r.blocks with
  | nil => exact .inl rfl
  | cons b bs =>
      rw [hblocks] at hfree hcoalesced
      have hb := hfree b (List.mem_cons_self ..)
      cases bs with
      | nil => exact .inr ⟨b, rfl, hb⟩
      | cons b' bs =>
          have hb' := hfree b' (by simp)
          rw [coalesced_cons, coalesced_cons] at hcoalesced
          rw [hcoalesced.2.1 hb] at hb'
          cases hb'

/-- When all arrays were given back, whatever came before, each region is one free block again: a
request that fits into a region is fulfilled, and nothing is in use except for the guards. -/
theorem all_freed (h : Reachable aligned g s []) :
    (∃ info, mallinfo g s.mem = some info ∧ info.ordblks = g.regions.length ∧
        info.uordblks = 2 * sizeofMmAllocnode * g.regions.length) ∧
      ∀ e ∈ g.regions, ∀ request, 0 < request → request + 23 < 2 ^ 32 →
        chunkSize request + 2 * sizeofMmAllocnode ≤ extentSize e →
          ∃ s', s.step g (.malloc request) = some (s', true) := by
  have hregions := h.regions
  obtain ⟨rs, cells, hmodels⟩ := h.models
  obtain ⟨es, hinv⟩ := hmodels.heap.inv
  obtain ⟨info, hinfo, hcounts, -⟩ := mallinfo_spec hmodels.heap
  have hcells : cells = [] := List.map_eq_nil_iff.mp hmodels.arrays.symm
  have hbusy : busy (layout rs) = [] := by
    have hperm := hmodels.blocks
    rw [hcells] at hperm
    exact hperm.eq_nil
  have hwhole (r : Region) (hr : r ∈ rs) : ∃ b, r.blocks = [b] ∧ b.free = true := by
    refine (whole_of_busy_nil hmodels.heap hbusy hr).resolve_left fun hnil => ?_
    have := hregions _ (hinv.extent_mem hr)
    simp only [Region.guard, hnil, span_nil, sizeofMmAllocnode] at this
    omega
  have hlength : rs.length = g.regions.length := by rw [← hinv.extents, List.length_map]
  refine ⟨⟨info, hinfo, ?_, ?_⟩, fun e he request hpos hlt hfits => ?_⟩
  · have hidle : ∀ rs' ⊆ rs, (idle (layout rs')).length = rs'.length := by
      intro rs' hsub
      induction rs' with
      | nil => rfl
      | cons r rs' ih =>
          obtain ⟨b, hb, hfree⟩ := hwhole r (hsub (List.mem_cons_self ..))
          have hone : idle r.placed = [(r.start + sizeofMmAllocnode, b)] := by
            simp [Region.placed, hb, idle, hfree]
          rw [layout_cons, idle_append, hone, List.length_append, List.length_singleton,
            List.length_cons, ih fun r hr => hsub (List.mem_cons_of_mem _ hr), Nat.add_comm]
    rw [hcounts.ordblks, hidle rs (List.Subset.refl rs), hlength]
  · rw [hcounts.uordblks, hbusy, hlength]
    exact Nat.zero_add _
  · rw [← hinv.extents] at he
    obtain ⟨r, hr, rfl⟩ := List.mem_map.mp he
    obtain ⟨b, hb, hfree⟩ := hwhole r hr
    refine (hmodels.malloc_iff grain_dvd hpos hlt).mpr
      ⟨(r.start + sizeofMmAllocnode, b), mem_idle.mpr ⟨List.mem_flatMap.mpr ⟨r, hr, ?_⟩, hfree⟩, ?_⟩
    · simp [Region.placed, hb]
    · simp only [extentSize, Region.extent, Region.guard, hb, span_cons, span_nil,
        sizeofMmAllocnode] at hfits ⊢
      omega

/-- The three arrays are given back too. -/
theorem all_freed_sample : ∃ g s s', sample sampleOps = some (g, s) ∧
    s.run g [.free 1, .free 0, .free 0] = some s' ∧
    (∃ info, mallinfo g s'.mem = some info ∧ info.ordblks = g.regions.length ∧
        info.uordblks = 2 * sizeofMmAllocnode * g.regions.length) ∧
      ∀ e ∈ g.regions, ∀ request, 0 < request → request + 23 < 2 ^ 32 →
        chunkSize request + 2 * sizeofMmAllocnode ≤ extentSize e →
          ∃ s'', s'.step g (.malloc request) = some (s'', true) := by
  obtain ⟨g, s, hsample, hreach⟩ := exists_sample
  have hfreed : ∀ p ∈ sample sampleOps,
      (p.2.run p.1 [.free 1, .free 0, .free 0]).isSome = true := by decide +kernel
  obtain ⟨s', hrun⟩ := Option.isSome_iff_exists.mp (hfreed (g, s) hsample)
  have hallowed : AllAllowed false sampleArrays [.free 1, .free 0, .free 0] :=
    ⟨show _ < _ by decide, show _ < _ by decide, show _ < _ by decide, trivial⟩
  exact ⟨g, s, s', hsample, hrun, all_freed (hreach.run hallowed hrun)⟩

/-! ### Other blocks -/

/-- No free block is larger than `mallinfo` says. -/
theorem mxordblk_lt {info : Mallinfo} {n k : Nat} (h : Counts info (layout rs) k) (hn : 0 < n)
    (hnone : ∀ p ∈ layout rs, p.2.free = true → p.2.size < n) : info.mxordblk < n := by
  rcases h.largest with hzero | ⟨p, hp, hsize⟩
  · omega
  · obtain ⟨hp, hfree⟩ := mem_idle.mp hp
    have := hnone p hp hfree
    omega

/-- As long as the sizes are multiples of 16, so are the pointers. -/
theorem Models.ptr_mod (h : Models 16 g s arrays rs cells)
    (hregions : ∀ e ∈ g.regions, e.1 % 16 = 0) :
    ∀ p ∈ s.ptrs, p % 16 = 0 := by
  intro p hp
  rw [h.ptrs] at hp
  obtain ⟨c, hc, rfl⟩ := List.mem_map.mp hp
  obtain ⟨es, hinv⟩ := h.heap.inv
  have hplace := (mem_busy.mp (h.blocks.symm.subset (List.mem_map_of_mem hc))).1
  obtain ⟨r, hr, hpr⟩ := mem_layout hplace
  obtain ⟨pre, post, hblocks, haddr⟩ := placed_split hpr
  have hspan : 16 ∣ span pre := by
    refine span_dvd fun b hb => ?_
    obtain ⟨a, ha⟩ := exists_placed (a := r.start + sizeofMmAllocnode)
      (show b ∈ r.blocks by rw [hblocks]; exact List.mem_append_left _ hb)
    exact h.heap.grain (a, b) (List.mem_flatMap.mpr ⟨r, hr, ha⟩)
  have hstart := hregions _ (hinv.extent_mem hr)
  have hmod := Nat.mod_eq_zero_of_dvd hspan
  simp only [Cell.place, sizeofMmAllocnode] at haddr hstart
  simp only [Cell.ptr, sizeofMmAllocnode]
  omega

/-- The pointers are multiples of 8. -/
theorem Models.ptr_mod_eight (h : Models d g s arrays rs cells) : ∀ p ∈ s.ptrs, p % 8 = 0 := by
  intro p hp
  rw [h.ptrs] at hp
  obtain ⟨c, hc, rfl⟩ := List.mem_map.mp hp
  have hmod := (h.bounds hc).1
  simp only [Cell.ptr, sizeofMmAllocnode]
  omega

/-- What `malloc` returns is one more pointer, or nothing has changed. -/
theorem Models.malloc_step (hd : d ∣ 16) (h : Models d g s arrays rs cells)
    (hlt : request + 47 < 2 ^ 32) :
    ∃ s' ok, (Mm.malloc g s.mem request).map s.keep = some (s', ok) ∧
      ((ok = true ∧ ∃ p rs' cells' arrays', s'.ptrs = s.ptrs ++ [p] ∧
          Models d g s' arrays' rs' cells') ∨
        ok = false ∧ s' = s) := by
  rcases Nat.eq_zero_or_pos request with rfl | hpos
  · exact ⟨s, false, rfl, .inr ⟨rfl, rfl⟩⟩
  · obtain ⟨s', ok, rs', cells', hstep, hmodels⟩ := h.malloc hd hlt
    rcases malloc_spec hd h.heap hpos (by omega) with ⟨hmalloc, -⟩ | ⟨m', rs₁, a, b, x, hmalloc, -⟩
    · exact ⟨s, false, by rw [hmalloc]; rfl, .inr ⟨rfl, rfl⟩⟩
    · rw [hmalloc] at hstep ⊢
      cases hstep
      exact ⟨_, true, rfl, .inl ⟨rfl, _, rs', cells', _, rfl, hmodels⟩⟩

/-- `memalign` aligns. An alignment of 16 it leaves to `malloc`, which keeps to it only until a
larger one was asked for. -/
theorem memalign_run (h : Reachable aligned g s arrays)
    (hallowed : Allowed aligned arrays (.memalign (2 ^ k) request))
    (hk : 5 ≤ k ∨ k ≤ 3 ∨ aligned = false) :
    ∃ s' ok, s.step g (.memalign (2 ^ k) request) = some (s', ok) ∧
      ((ok = true ∧ ∃ p, s'.ptrs = s.ptrs ++ [p] ∧ p % 2 ^ k = 0) ∨
        ok = false ∧ s' = s ∧ (5 ≤ k → ∃ info, mallinfo g s.mem = some info ∧
          info.mxordblk < chunkSize (mmAlignUp request + 2 * 2 ^ k))) := by
  have hregions := h.regions
  obtain ⟨rs, cells, hmodels⟩ := h.models
  by_cases hsmall : k ≤ 4
  · have hle : 2 ^ k ≤ mmMinChunk := Nat.pow_le_pow_right (by decide) hsmall
    have hlt : request + 47 < 2 ^ 32 := by
      rcases hallowed with ⟨-, hlt⟩ | ⟨j, hj, heq, -⟩
      · exact hlt
      · have := (Nat.pow_right_injective (Nat.le_refl 2)) heq
        omega
    have hmalloc : Mm.memalign g s.mem (2 ^ k) request = Mm.malloc g s.mem request := if_pos hle
    obtain ⟨s', ok, hstep, hresult⟩ := hmodels.malloc_step grain_dvd hlt
    refine ⟨s', ok, by rw [Client.step, hmalloc, hstep], ?_⟩
    rcases hresult with ⟨hok, p, rs', cells', arrays', hptrs, hmodels'⟩ | ⟨hok, hsame⟩
    · refine .inl ⟨hok, p, hptrs, ?_⟩
      have hp : p ∈ s'.ptrs := by simp [hptrs]
      by_cases hthree : k ≤ 3
      · have hmod := Nat.dvd_of_mod_eq_zero (hmodels'.ptr_mod_eight p hp)
        exact Nat.mod_eq_zero_of_dvd (Nat.dvd_trans (Nat.pow_dvd_pow 2 hthree) hmod)
      · have hfalse : aligned = false := by
          rcases hk with hk | hk | hk
          · omega
          · omega
          · exact hk
        subst hfalse
        have hmod := Nat.dvd_of_mod_eq_zero (hmodels'.ptr_mod (fun e he => (hregions e he).1) p hp)
        exact Nat.mod_eq_zero_of_dvd (Nat.dvd_trans (Nat.pow_dvd_pow 2 hsmall) hmod)
    · exact .inr ⟨hok, hsame, fun hlarge => by omega⟩
  · have hlarge : 5 ≤ k := by omega
    have hnot : ¬ 2 ^ k ≤ mmMinChunk := by
      have := Nat.pow_le_pow_right (show 0 < 2 by decide) hlarge
      simp only [mmMinChunk, mmMinShift]
      omega
    rcases hallowed with ⟨hle, -⟩ | ⟨j, hj, heq, hpos, hlt⟩
    · exact absurd hle hnot
    · rcases memalign_spec (d := 8) (Nat.dvd_refl 8) (hmodels.heap.mono (by
          cases aligned <;> decide)) hlarge hpos hlt with
        ⟨hnone, hall⟩ | ⟨m', rs', a, x, halign, -, -, -, -, hmod, -⟩
      · refine ⟨s, false, by rw [Client.step, hnone]; rfl, .inr ⟨rfl, rfl, fun _ => ?_⟩⟩
        obtain ⟨info, hinfo, hcounts, -⟩ := mallinfo_spec hmodels.heap
        refine ⟨info, hinfo, mxordblk_lt hcounts ?_ hall⟩
        have hup : mmAlignUp request < request + 16 := by
          simp only [mmAlignUp, mmAlignDown, sizeT, mmGranMask, mmMinChunk, mmMinShift]
          omega
        have := (chunkSize_spec
          (show mmAlignUp request + 2 * 2 ^ k + 23 < 2 ^ 32 by omega)).2.1
        omega
      · exact ⟨⟨m', s.ptrs ++ [a + sizeofMmAllocnode]⟩, true, by rw [Client.step, halign]; rfl,
          .inl ⟨rfl, _, rfl, hmod⟩⟩

theorem memalign_run_sample : ∃ g s s' ok, sample sampleOps = some (g, s) ∧
    s.step g (.memalign (2 ^ 6) 100) = some (s', ok) ∧
      ((ok = true ∧ ∃ p, s'.ptrs = s.ptrs ++ [p] ∧ p % 2 ^ 6 = 0) ∨
        ok = false ∧ s' = s ∧ (5 ≤ 6 → ∃ info, mallinfo g s.mem = some info ∧
          info.mxordblk < chunkSize (mmAlignUp 100 + 2 * 2 ^ 6))) := by
  obtain ⟨g, s, hsample, hreach⟩ := exists_sample
  have hallowed : Allowed false sampleArrays (.memalign (2 ^ 6) 100) :=
    .inr ⟨6, by decide, rfl, by decide, by decide⟩
  obtain ⟨s', ok, hstep, hresult⟩ := memalign_run hreach hallowed (.inl (by decide))
  exact ⟨g, s, s', ok, hsample, hstep, hresult⟩

end Px4Firmware.Mm
