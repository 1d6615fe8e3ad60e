import Px4Firmware.Mm.Malloc

/-!
# Px4Firmware.Mm.Mallinfo

**`mallinfo`.** The walk over the nodes of a region ends at its last guard, and the sizes it adds up
are those of the region (`mallinfo_spec`).
-/

namespace Px4Firmware.Mm

open Lib Lib.Memory

variable {g : Globals} {m : Memory} {rs : List Region} {bs : List Block} {es : List Entry}
  {info : Mallinfo} {a p fuel : Nat}

/-- What `mallinfo` counts of a block. -/
def Mallinfo.count (info : Mallinfo) (b : Block) : Mallinfo :=
  if b.free then
    { info with
      ordblks := info.ordblks + 1
      mxordblk := if b.size > info.mxordblk then b.size else info.mxordblk
      fordblks := info.fordblks + b.size }
  else { info with uordblks := info.uordblks + b.size }

/-- What `mallinfo` counts of the guards of a region. -/
def Mallinfo.guard (info : Mallinfo) : Mallinfo :=
  { info with uordblks := info.uordblks + sizeofMmAllocnode }

/-- What `mallinfo` counts of a region. -/
def Mallinfo.region (info : Mallinfo) (r : Region) : Mallinfo :=
  (r.blocks.foldl Mallinfo.count info.guard).guard

theorem countNodes_spec (info : Mallinfo) (h : Headers m a p bs) (hp : p < 2 ^ 31)
    (hspan : span bs < 2 ^ 31) (hfuel : bs.length < fuel) :
    countNodes m (a + span bs) fuel a info = some (bs.foldl Mallinfo.count info).guard := by
  induction bs generalizing a p fuel info with
  | nil =>
      cases fuel with
      | zero => cases hfuel
      | succ fuel =>
          rw [span_nil, Nat.add_zero, countNodes, if_neg (Nat.lt_irrefl a), if_pos rfl]
          rfl
  | cons b bs ih =>
      cases fuel with
      | zero => cases hfuel
      | succ fuel =>
          obtain ⟨⟨hsize, hprec⟩, hrest⟩ := h
          have hmin := b.min
          simp only [sizeofMmFreenode] at hmin
          rw [span_cons] at hspan ⊢
          have hfree := isFree_iff hp hprec
          have hnext := ih (info.count b) hrest (by omega) (by omega)
            (Nat.lt_of_succ_lt_succ hfuel)
          rw [Nat.add_assoc] at hnext
          rw [countNodes, if_pos (by omega), hsize, List.foldl_cons, ← hnext]
          by_cases hb : b.free = true
          · rw [if_pos (hfree.mpr hb), Mallinfo.count, if_pos hb]
          · rw [if_neg fun hf => hb (hfree.mp hf), Mallinfo.count, if_neg hb]

theorem extentSize_le_totalSize {l : List (Nat × Nat)} {e : Nat × Nat} (he : e ∈ l) :
    extentSize e ≤ totalSize l := by
  induction l with
  | nil => cases he
  | cons e' l ih =>
      rcases List.mem_cons.mp he with rfl | he
      · exact Nat.le_add_right ..
      · exact Nat.le_trans (ih he) (Nat.le_add_left ..)

/-- The guards of a region are counted with its blocks. -/
theorem countNodes_region (h : Inv g m rs es []) {r : Region} (hr : r ∈ rs) :
    countNodes m r.guard g.bound r.start info = some (info.region r) := by
  have hregion := h.region_bounds hr
  have htotal := extentSize_le_totalSize (h.extent_mem hr)
  obtain ⟨⟨hsize, hprec⟩, hheaders⟩ := h.tiled r hr
  have hlength := length_placed_le r.start r.blocks
  have hblocks : (placed r.start r.blocks).length = r.blocks.length := length_placed ..
  rw [← h.globals.heapsize] at htotal
  simp only [extentSize, Region.guard, sizeofMmAllocnode] at htotal hregion
  obtain ⟨fuel, hfuel⟩ : ∃ fuel, g.bound = fuel + 1 := ⟨g.heapsize + (mmNnodes - 1), rfl⟩
  have hbound : g.heapsize < g.bound := Nat.lt_add_of_pos_right (by decide)
  have hfree := isFree_iff (by decide) hprec
  have hcount := countNodes_spec info.guard hheaders (by decide) (by omega)
    (show r.blocks.length < fuel by omega)
  rw [hfuel, countNodes, if_pos (by simp only [Region.guard, sizeofMmAllocnode]; omega),
    if_neg (fun hf => by cases hfree.mp hf), hsize]
  exact hcount

/-! ### What is counted -/

/-- The free ones of blocks. -/
def idle (ps : List (Nat × Block)) : List (Nat × Block) := ps.filter fun p => p.2.free

/-- The bytes of blocks. -/
def total : List (Nat × Block) → Nat
  | [] => 0
  | p :: ps => p.2.size + total ps

variable {ps ps' : List (Nat × Block)} {k : Nat}

@[simp] theorem total_nil : total [] = 0 := rfl

@[simp] theorem total_cons (q : Nat × Block) : total (q :: ps) = q.2.size + total ps := rfl

@[simp] theorem total_append : total (ps ++ ps') = total ps + total ps' := by
  induction ps with
  | nil => simp
  | cons q ps ih => simp [ih, Nat.add_assoc]

@[simp] theorem idle_append : idle (ps ++ ps') = idle ps ++ idle ps' := by simp [idle]

theorem mem_idle {q : Nat × Block} : q ∈ idle ps ↔ q ∈ ps ∧ q.2.free = true := by simp [idle]

theorem total_placed : total (placed a bs) = span bs := by
  induction bs generalizing a with
  | nil => rfl
  | cons b bs ih => simp [ih]

/-- A block is free or allocated. -/
theorem total_busy_add_idle (ps : List (Nat × Block)) :
    total (busy ps) + total (idle ps) = total ps := by
  induction ps with
  | nil => rfl
  | cons q ps ih =>
      cases hq : q.2.free with
      | false =>
          simp only [busy, idle, List.filter_cons, hq, Bool.not_false, Bool.false_eq_true, if_true,
            if_false, total_cons] at ih ⊢
          omega
      | true =>
          simp only [busy, idle, List.filter_cons, hq, Bool.not_true, Bool.false_eq_true, if_true,
            if_false, total_cons] at ih ⊢
          omega

/-- The numbers are those of blocks, and `k` bytes of guards. -/
structure Counts (info : Mallinfo) (ps : List (Nat × Block)) (k : Nat) : Prop where
  ordblks : info.ordblks = (idle ps).length
  fordblks : info.fordblks = total (idle ps)
  uordblks : info.uordblks = total (busy ps) + k
  mxordblk : ∀ p ∈ idle ps, p.2.size ≤ info.mxordblk
  largest : info.mxordblk = 0 ∨ ∃ p ∈ idle ps, p.2.size = info.mxordblk

namespace Counts

theorem count (h : Counts info ps k) (b : Block) : Counts (info.count b) (ps ++ [(a, b)]) k := by
  rw [Mallinfo.count]
  cases hb : b.free with
  | false =>
      have hidle : idle (ps ++ [(a, b)]) = idle ps := by simp [idle, hb]
      refine ⟨?_, ?_, ?_, ?_, ?_⟩
      · rw [hidle]
        exact h.ordblks
      · rw [hidle]
        exact h.fordblks
      · simp only [Bool.false_eq_true, if_false]
        rw [busy_append, busy_cons_allocated hb, busy_nil, total_append, total_cons, total_nil,
          h.uordblks]
        exact Nat.add_right_comm ..
      · rw [hidle]
        exact h.mxordblk
      · rw [hidle]
        exact h.largest
  | true =>
      have hidle : idle (ps ++ [(a, b)]) = idle ps ++ [(a, b)] := by simp [idle, hb]
      refine ⟨?_, ?_, ?_, ?_, ?_⟩
      · simp [hidle, h.ordblks]
      · simp [hidle, h.fordblks]
      · simp only [if_true]
        rw [busy_append, busy_cons_free hb, busy_nil, List.append_nil, h.uordblks]
      · intro q hq
        simp only [hidle, List.mem_append, List.mem_singleton, if_true] at hq ⊢
        rcases hq with hq | rfl
        · have := h.mxordblk q hq
          split <;> omega
        · simp only
          split <;> omega
      · simp only [hidle, if_true]
        by_cases hmore : b.size > info.mxordblk
        · exact .inr ⟨(a, b), by simp, by rw [if_pos hmore]⟩
        · rw [if_neg hmore]
          refine h.largest.imp id fun hp => ?_
          obtain ⟨q, hq, hsize⟩ := hp
          exact ⟨q, List.mem_append_left _ hq, hsize⟩

theorem guard (h : Counts info ps k) : Counts info.guard ps (k + sizeofMmAllocnode) :=
  ⟨h.ordblks, h.fordblks, by rw [Mallinfo.guard, h.uordblks, Nat.add_assoc], h.mxordblk, h.largest⟩

theorem blocks (h : Counts info ps k) :
    Counts (bs.foldl Mallinfo.count info) (ps ++ placed a bs) k := by
  induction bs generalizing a info ps with
  | nil =>
      rw [placed_nil, List.append_nil]
      exact h
  | cons b bs ih =>
      have hrest := ih (a := a + b.size) (h.count (a := a) b)
      rw [List.append_assoc] at hrest
      exact hrest

theorem region (h : Counts info ps k) (r : Region) :
    Counts (info.region r) (ps ++ r.placed) (k + 2 * sizeofMmAllocnode) :=
  h.guard.blocks.guard

theorem regions (h : Counts info ps k) (rs : List Region) :
    Counts (rs.foldl Mallinfo.region info) (ps ++ layout rs)
      (k + 2 * sizeofMmAllocnode * rs.length) := by
  induction rs generalizing info ps k with
  | nil =>
      rw [layout_nil, List.append_nil]
      exact h
  | cons r rs ih =>
      have hrest := ih (h.region r)
      rw [List.append_assoc] at hrest
      rw [List.foldl_cons, layout_cons, List.length_cons, Nat.mul_succ, Nat.add_comm (_ * _),
        ← Nat.add_assoc]
      exact hrest

end Counts

theorem totalSize_eq (rs : List Region) :
    totalSize (rs.map Region.extent) = total (layout rs) + 2 * sizeofMmAllocnode * rs.length := by
  induction rs with
  | nil => rfl
  | cons r rs ih =>
      have hplaced : total r.placed = span r.blocks := total_placed
      simp only [List.map_cons, totalSize, layout_cons, total_append, List.length_cons, ih, hplaced,
        extentSize, Region.extent, Region.guard, sizeofMmAllocnode]
      omega

/-- `mallinfo` counts every block once, and with the guards all of the regions. -/
theorem mallinfo_spec {d : Nat} (h : IsHeap d g m rs) :
    ∃ info, mallinfo g m = some info ∧
      Counts info (layout rs) (2 * sizeofMmAllocnode * rs.length) ∧
      info.arena = totalSize g.regions ∧ info.uordblks + info.fordblks = info.arena := by
  obtain ⟨es, hinv⟩ := h.inv
  have hzero : Counts ⟨0, 0, 0, 0, 0⟩ [] 0 := ⟨rfl, rfl, rfl, by simp [idle], .inl rfl⟩
  have hcounts := hzero.regions rs
  rw [List.nil_append, Nat.zero_add] at hcounts
  -- each region is walked to its end
  have hwalk (rs' : List Region) (hsub : rs' ⊆ rs) (info : Mallinfo) :
      (rs'.map Region.extent).foldlM (fun info region =>
        countNodes m region.2 g.bound region.1 info) info =
        some (rs'.foldl Mallinfo.region info) := by
    induction rs' generalizing info with
    | nil => rfl
    | cons r rs' ih =>
        rw [List.map_cons, List.foldlM_cons]
        simp only [Region.extent]
        rw [countNodes_region hinv (hsub (List.mem_cons_self ..))]
        exact ih (fun r hr => hsub (List.mem_cons_of_mem _ hr)) _
  generalize hinfo : rs.foldl Mallinfo.region ⟨0, 0, 0, 0, 0⟩ = info at hcounts
  have hsum : info.uordblks + info.fordblks = g.heapsize := by
    have hall := total_busy_add_idle (layout rs)
    rw [hcounts.uordblks, hcounts.fordblks, hinv.globals.heapsize, ← hinv.extents, totalSize_eq]
    omega
  refine ⟨{ info with arena := g.heapsize }, ?_, ?_, hinv.globals.heapsize, hsum⟩
  · have hfold := hwalk rs (List.Subset.refl rs) ⟨0, 0, 0, 0, 0⟩
    rw [hinv.extents, hinfo] at hfold
    simp only [mallinfo, hfold, Option.bind_eq_bind, Option.bind_some, if_pos hsum]
  · exact ⟨hcounts.ordblks, hcounts.fordblks, hcounts.uordblks, hcounts.mxordblk, hcounts.largest⟩

end Px4Firmware.Mm
