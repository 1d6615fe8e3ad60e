import Px4Firmware.Mm.Init
import Px4Firmware.Mm.Memalign

/-!
# Px4Firmware.Mm.Clients

**The heap as its clients see it.** A client of the memory manager means to have arrays, each of its
own; `Arrays.step` is what its operations do to them. What it has is pointers into one memory
(`Client`). In any order of operations that keeps to the rules, every operation returns, and what
the client knows of its arrays is what is in memory where the pointers point (`Models`,
`Models.step`).

The rules are those that the memory manager relies on: the pointers are live ones, what is written
is inside of the arrays, the sizes do not wrap around, and `realloc` is not called after `memalign`,
which makes chunks with sizes that `realloc` could not divide.
-/

namespace Px4Firmware.Mm

open Lib Lib.Memory

/-- What a client knows of the bytes of an array. -/
abbrev Bytes := List (Option UInt8)

inductive Op where
  | malloc (request : Nat)
  | zalloc (request : Nat)
  | calloc (n elemSize : Nat)
  | memalign (alignment request : Nat)
  | realloc (i request : Nat)
  | free (i : Nat)
  | write (i offset : Nat) (value : UInt8)

/-! ### Arrays -/

namespace Arrays

/-- A new array, if there is memory for it. -/
def new (ok : Bool) (arrays : List Bytes) (bytes : Bytes) : List Bytes :=
  if ok then arrays ++ [bytes] else arrays

def resize (request : Nat) (bytes : Bytes) : Bytes :=
  bytes.take request ++ List.replicate (request - bytes.length) none

/-- What the client means by an operation. -/
def step (ok : Bool) (arrays : List Bytes) : Op → List Bytes
  | .malloc request => new ok arrays (List.replicate request none)
  | .zalloc request => new ok arrays (List.replicate request (some 0))
  | .calloc n elemSize => new ok arrays (List.replicate (n * elemSize) (some 0))
  | .memalign _ request => new ok arrays (List.replicate request none)
  | .realloc i request =>
      if request = 0 then arrays.eraseIdx i
      else if ok then arrays.modify i (resize request)
      else arrays
  | .free i => arrays.eraseIdx i
  | .write i offset value => arrays.modify i (·.set offset (some value))

end Arrays

/-! ### Pointers -/

/-- The memory and the pointers of a client. -/
structure Client where
  mem : Memory
  ptrs : List Nat

namespace Client

variable (g : Globals) (s : Client)

/-- Keep a pointer that was returned, if it is one. -/
def keep (r : Memory × Nat) : Client × Bool :=
  if r.2 = 0 then (⟨r.1, s.ptrs⟩, false) else (⟨r.1, s.ptrs ++ [r.2]⟩, true)

/-- An operation, and whether there was memory for it. -/
def step : Op → Option (Client × Bool)
  | .malloc request => (malloc g s.mem request).map s.keep
  | .zalloc request => (zalloc g s.mem request).map s.keep
  | .calloc n elemSize => (calloc g s.mem n elemSize).map s.keep
  | .memalign alignment request => (memalign g s.mem alignment request).map s.keep
  | .realloc i request => do
      let p ← s.ptrs[i]?
      let (m, q) ← realloc g s.mem p request
      if request = 0 then some (⟨m, s.ptrs.eraseIdx i⟩, true)
      else if q = 0 then some (⟨m, s.ptrs⟩, false)
      else some (⟨m, s.ptrs.set i q⟩, true)
  | .free i => do
      let p ← s.ptrs[i]?
      let m ← free g s.mem p
      some (⟨m, s.ptrs.eraseIdx i⟩, true)
  | .write i offset value => do
      let p ← s.ptrs[i]?
      some (⟨s.mem.fill (p + offset) value 1, s.ptrs⟩, true)

end Client

/-- The rules for a client. -/
def Allowed (aligned : Bool) (arrays : List Bytes) : Op → Prop
  | .malloc request => request + 47 < 2 ^ 32
  | .zalloc request => request + 47 < 2 ^ 32
  | .calloc n elemSize => n * elemSize + 47 < 2 ^ 32
  | .memalign alignment request =>
      alignment ≤ mmMinChunk ∧ request + 47 < 2 ^ 32 ∨
        ∃ k, 5 ≤ k ∧ alignment = 2 ^ k ∧ 0 < request ∧ request + 2 * alignment + 46 < 2 ^ 32
  | .realloc i request => aligned = false ∧ i < arrays.length ∧ request + 47 < 2 ^ 32
  | .free i => i < arrays.length
  | .write i offset _ => ∃ bytes, arrays[i]? = some bytes ∧ offset < bytes.length

/-- Whether `memalign` was called. -/
def Op.aligns : Op → Bool
  | .memalign _ _ => true
  | _ => false

/-- What can come about from the initialization on. -/
inductive Reachable : Bool → Globals → Client → List Bytes → Prop
  | start {nodelist heapstart heapsize : Nat} {m m' : Memory} {g : Globals}
      (hpos : 0 < nodelist) (hlimit : nodelist + sizeofMmFreenode * mmNnodes ≤ 2 ^ 32)
      (hroom : Globals.Room ⟨nodelist, [], 0⟩ heapstart heapsize)
      (h : mmInitialize nodelist m heapstart heapsize = some (g, m')) :
      Reachable false g ⟨m', []⟩ []
  | addregion {aligned : Bool} {g g' : Globals} {s : Client} {arrays : List Bytes} {m' : Memory}
      {heapstart heapsize : Nat} (hreach : Reachable aligned g s arrays)
      (hroom : g.Room heapstart heapsize)
      (h : mmAddregion g s.mem heapstart heapsize = some (g', m')) :
      Reachable aligned g' ⟨m', s.ptrs⟩ arrays
  | step {aligned ok : Bool} {g : Globals} {s s' : Client} {arrays : List Bytes} {op : Op}
      (hreach : Reachable aligned g s arrays) (hallowed : Allowed aligned arrays op)
      (h : s.step g op = some (s', ok)) :
      Reachable (aligned || op.aligns) g s' (Arrays.step ok arrays op)

/-! ### The invariant -/

/-- A block with an array in it. -/
structure Cell where
  addr : Nat
  block : Block
  bytes : Bytes

namespace Cell

def ptr (c : Cell) : Nat := c.addr + sizeofMmAllocnode

def place (c : Cell) : Nat × Block := (c.addr, c.block)

/-- What the client knows is in memory. -/
structure Holds (c : Cell) (m : Memory) : Prop where
  fits : c.bytes.length + sizeofMmAllocnode ≤ c.block.size
  known : ∀ k v, c.bytes[k]? = some (some v) → m (c.ptr + k) = v

end Cell

/-- Every live pointer is one to a block of the heap, with an array in it. -/
structure Models (d : Nat) (g : Globals) (s : Client) (arrays : List Bytes) (rs : List Region)
    (cells : List Cell) : Prop where
  heap : IsHeap d g s.mem rs
  blocks : (busy (layout rs)).Perm (cells.map Cell.place)
  ptrs : s.ptrs = cells.map Cell.ptr
  arrays : arrays = cells.map Cell.bytes
  holds : ∀ c ∈ cells, c.Holds s.mem

variable {d : Nat} {g : Globals} {m m' : Memory} {s : Client} {arrays : List Bytes}
  {rs rs' : List Region} {cells l r : List Cell} {c : Cell} {a request : Nat} {x b : Block}
  {bytes : Bytes} {aligned : Bool} {op : Op}

theorem Cell.Holds.kept (h : c.Holds m) (hkept : Kept (InPayload [c.place]) m m') : c.Holds m' where
  fits := h.fits
  known := by
    intro k v hk
    obtain ⟨hlt, -⟩ := List.getElem?_eq_some_iff.mp hk
    have hfits := h.fits
    rw [hkept (c.ptr + k) ⟨c.place, List.mem_singleton_self _, Nat.le_add_right .., ?_⟩]
    · exact h.known k v hk
    · simp only [Cell.ptr, Cell.place]
      omega

theorem holds_of_kept (h : ∀ c ∈ cells, c.Holds m)
    (hkept : Kept (InPayload (cells.map Cell.place)) m m') : ∀ c ∈ cells, c.Holds m' := by
  intro c hc
  refine (h c hc).kept (hkept.mono fun z hz => ?_)
  obtain ⟨p, hp, hin⟩ := hz
  rw [List.mem_singleton.mp hp] at hin
  exact ⟨c.place, List.mem_map_of_mem hc, hin⟩

theorem InPayload.perm {ps ps' : List (Nat × Block)} (hperm : ps.Perm ps') {z : Nat}
    (hz : InPayload ps z) : InPayload ps' z := by
  obtain ⟨p, hp, hin⟩ := hz
  exact ⟨p, hperm.subset hp, hin⟩

namespace Models

/-- Another array is there. -/
theorem new (h : Models d g s arrays rs cells) {d' : Nat} (hheap : IsHeap d' g m' rs')
    (hbusy : (busy (layout rs')).Perm ((a, x) :: busy (layout rs)))
    (hkept : Kept (InPayload (busy (layout rs))) s.mem m')
    (hholds : Cell.Holds ⟨a, x, bytes⟩ m') :
    Models d' g ⟨m', s.ptrs ++ [a + sizeofMmAllocnode]⟩ (arrays ++ [bytes]) rs'
      (cells ++ [⟨a, x, bytes⟩]) where
  heap := hheap
  blocks := by
    rw [List.map_append]
    exact (hbusy.trans (h.blocks.cons _)).trans (List.perm_append_singleton _ _).symm
  ptrs := by
    rw [List.map_append, h.ptrs]
    rfl
  arrays := by
    rw [List.map_append, h.arrays]
    rfl
  holds := by
    intro c hc
    rcases List.mem_append.mp hc with hc | hc
    · exact holds_of_kept h.holds (hkept.mono fun z hz => hz.perm h.blocks.symm) c hc
    · rw [List.mem_singleton.mp hc]
      exact hholds

/-- An array is not there any longer. -/
theorem delete (h : Models d g s arrays rs (l ++ c :: r)) {d' : Nat} (hheap : IsHeap d' g m' rs')
    (hbusy : (busy (layout rs)).Perm (c.place :: busy (layout rs')))
    (hkept : Kept (InPayload (busy (layout rs'))) s.mem m') :
    Models d' g ⟨m', s.ptrs.eraseIdx l.length⟩ (arrays.eraseIdx l.length) rs' (l ++ r) := by
  have hperm : (busy (layout rs')).Perm ((l ++ r).map Cell.place) := by
    have hall := h.blocks
    rw [List.map_append, List.map_cons] at hall
    rw [List.map_append]
    exact (hbusy.symm.trans (hall.trans List.perm_middle)).cons_inv
  refine ⟨hheap, hperm, ?_, ?_, ?_⟩
  · simp [h.ptrs, List.eraseIdx_append_of_length_le]
  · simp [h.arrays, List.eraseIdx_append_of_length_le]
  · refine holds_of_kept (fun c' hc' => h.holds c' ?_) (hkept.mono fun z hz => hz.perm hperm.symm)
    rcases List.mem_append.mp hc' with hc' | hc'
    · exact List.mem_append_left _ hc'
    · exact List.mem_append_right _ (List.mem_cons_of_mem _ hc')

/-- An array is another one now. -/
theorem replace (h : Models d g s arrays rs (l ++ c :: r)) {d' : Nat} (hheap : IsHeap d' g m' rs')
    (hbusy : (busy (layout rs')).Perm ((a, x) :: (l ++ r).map Cell.place))
    (hkept : Kept (InPayload ((l ++ r).map Cell.place)) s.mem m') {f : Bytes → Bytes}
    (hholds : Cell.Holds ⟨a, x, f c.bytes⟩ m') :
    Models d' g ⟨m', s.ptrs.set l.length (a + sizeofMmAllocnode)⟩ (arrays.modify l.length f) rs'
      (l ++ ⟨a, x, f c.bytes⟩ :: r) where
  heap := hheap
  blocks := by
    rw [List.map_append] at hbusy
    rw [List.map_append, List.map_cons]
    exact hbusy.trans List.perm_middle.symm
  ptrs := by
    simp [h.ptrs, Cell.ptr]
  arrays := by
    simp [h.arrays, List.modify_eq_take_drop]
  holds := by
    have hrest : ∀ c' ∈ l ++ r, c'.Holds m' := by
      refine holds_of_kept (fun c' hc' => h.holds c' ?_) hkept
      rcases List.mem_append.mp hc' with hc' | hc'
      · exact List.mem_append_left _ hc'
      · exact List.mem_append_right _ (List.mem_cons_of_mem _ hc')
    intro c' hc'
    rcases List.mem_append.mp hc' with hc' | hc'
    · exact hrest c' (List.mem_append_left _ hc')
    · rcases List.mem_cons.mp hc' with rfl | hc'
      · exact hholds
      · exact hrest c' (List.mem_append_right _ hc')

/-- The cell of a live pointer. -/
theorem cell (h : Models d g s arrays rs cells) {i : Nat} (hi : i < arrays.length) :
    ∃ l c r, cells = l ++ c :: r ∧ l.length = i ∧ s.ptrs[i]? = some c.ptr := by
  rw [h.arrays, List.length_map] at hi
  refine ⟨cells.take i, cells[i], cells.drop (i + 1), ?_, ?_, ?_⟩
  · simp
  · simp
    omega
  · rw [h.ptrs, List.getElem?_map, List.getElem?_eq_getElem hi]
    rfl

end Models

/-! ### Operations -/

theorem Cell.Holds.unknown (hsize : request + sizeofMmAllocnode ≤ x.size) :
    Cell.Holds ⟨a, x, List.replicate request none⟩ m where
  fits := by rw [List.length_replicate]; exact hsize
  known := by
    intro k v hk
    rw [List.getElem?_replicate] at hk
    split at hk <;> simp at hk

theorem Cell.Holds.zero (hsize : request + sizeofMmAllocnode ≤ x.size) :
    Cell.Holds ⟨a, x, List.replicate request (some 0)⟩
      (m.fill (a + sizeofMmAllocnode) 0 request) where
  fits := by rw [List.length_replicate]; exact hsize
  known := by
    intro k v hk
    rw [List.getElem?_replicate] at hk
    by_cases hlt : k < request
    · rw [if_pos hlt] at hk
      cases hk
      exact fill_of_covers (Nat.le_add_right ..) (Nat.add_lt_add_left hlt _)
    · rw [if_neg hlt] at hk
      cases hk

/-- The first bytes of an array are kept when it gets another length. -/
theorem Cell.Holds.resize (h : c.Holds m) (hsize : chunkSize request ≤ x.size)
    (hrequest : request + sizeofMmAllocnode ≤ chunkSize request)
    (hcontents : ∀ k, 8 ≤ k → k < c.block.size → k < chunkSize request →
      m' (a + k) = m (c.addr + k)) :
    Cell.Holds ⟨a, x, Arrays.resize request c.bytes⟩ m' where
  fits := by
    simp only [Arrays.resize, List.length_append, List.length_take, List.length_replicate]
    omega
  known := by
    intro k v hk
    have hfits := h.fits
    simp only [sizeofMmAllocnode] at hfits hrequest
    simp only [Arrays.resize] at hk
    by_cases hlt : k < (c.bytes.take request).length
    · rw [List.getElem?_append_left hlt, List.getElem?_take_of_lt (by simp at hlt; omega)] at hk
      rw [List.length_take] at hlt
      have hmoved := hcontents (8 + k) (by omega) (by omega) (by omega)
      have hknown := h.known k v hk
      simp only [Cell.ptr, sizeofMmAllocnode] at hknown ⊢
      rw [Nat.add_assoc, hmoved, ← Nat.add_assoc]
      exact hknown
    · rw [List.getElem?_append_right (Nat.le_of_not_lt hlt), List.getElem?_replicate] at hk
      split at hk <;> simp at hk

/-- An operation returns, and what it does is what the client means by it. -/
def Returns (d : Nat) (g : Globals) (r : Option (Client × Bool)) (arrays : Bool → List Bytes) :
    Prop :=
  ∃ s' ok rs' cells', r = some (s', ok) ∧ Models d g s' (arrays ok) rs' cells'

namespace Models

theorem mono {d' : Nat} (h : Models d g s arrays rs cells) (hd : d' ∣ d) :
    Models d' g s arrays rs cells :=
  ⟨h.heap.mono hd, h.blocks, h.ptrs, h.arrays, h.holds⟩

/-- There is no memory. -/
theorem keep_null (h : Models d g s arrays rs cells) :
    Returns d g (some (s.keep (s.mem, 0))) fun ok => Arrays.new ok arrays bytes :=
  ⟨s, false, rs, cells, rfl, h⟩

theorem malloc (hd : d ∣ 16) (h : Models d g s arrays rs cells) (hlt : request + 47 < 2 ^ 32) :
    Returns d g ((malloc g s.mem request).map s.keep) fun ok =>
      Arrays.new ok arrays (List.replicate request none) := by
  rcases Nat.eq_zero_or_pos request with rfl | hpos
  · exact h.keep_null
  · have hlow := (chunkSize_spec (show request + 23 < 2 ^ 32 by omega)).2.1
    rcases malloc_spec hd h.heap hpos (by omega) with
      ⟨hmalloc, -⟩ | ⟨m', rs', a, b, x, hmalloc, hheap, -, -, -, -, hbusy, -, hsize, -, hkept⟩
    · rw [hmalloc]
      exact h.keep_null
    · rw [hmalloc]
      exact ⟨_, true, rs', _, rfl, h.new hheap hbusy hkept (.unknown (by
        simp only [sizeofMmAllocnode]
        omega))⟩

theorem zalloc (hd : d ∣ 16) (h : Models d g s arrays rs cells) (hlt : request + 47 < 2 ^ 32) :
    Returns d g ((zalloc g s.mem request).map s.keep) fun ok =>
      Arrays.new ok arrays (List.replicate request (some 0)) := by
  rcases Nat.eq_zero_or_pos request with rfl | hpos
  · exact h.keep_null
  · have hlow := (chunkSize_spec (show request + 23 < 2 ^ 32 by omega)).2.1
    rcases malloc_spec hd h.heap hpos (by omega) with
      ⟨hmalloc, -⟩ | ⟨m', rs', a, b, x, hmalloc, hheap, -, -, -, -, hbusy, hx, hsize, -, hkept⟩
    · rw [Mm.zalloc, hmalloc]
      exact h.keep_null
    · have hne : a + sizeofMmAllocnode ≠ 0 := by simp [sizeofMmAllocnode]
      have hzalloc : Mm.zalloc g s.mem request =
          some (m'.fill (a + sizeofMmAllocnode) 0 request, a + sizeofMmAllocnode) := by
        rw [Mm.zalloc, hmalloc]
        simp only [Option.bind_eq_bind, Option.bind_some, if_pos hne]
      obtain ⟨es, hinv⟩ := hheap.inv
      -- the new block is cleared, and no other
      have hheap' : IsHeap d g (m'.fill (a + sizeofMmAllocnode) 0 request) rs' := by
        refine hheap.contents_of_mem (p := (a, x))
          (mem_busy.mp (hbusy.symm.subset (List.mem_cons_self ..))).1 hx fun z hz =>
            fill_of_not_covers ?_
        simp only [sizeofMmAllocnode] at hz ⊢
        omega
      have hkept' : Kept (InPayload (busy (layout rs))) m'
          (m'.fill (a + sizeofMmAllocnode) 0 request) := fun z hz => by
        have hapart := hinv.payload_apart hbusy hz
        refine fill_of_not_covers ?_
        simp only [sizeofMmAllocnode] at hapart ⊢
        omega
      rw [hzalloc]
      exact ⟨_, true, rs', _, rfl, h.new hheap' hbusy (hkept.trans hkept') (.zero (by
        simp only [sizeofMmAllocnode]
        omega))⟩

theorem calloc (hd : d ∣ 16) (h : Models d g s arrays rs cells) {n elemSize : Nat}
    (hlt : n * elemSize + 47 < 2 ^ 32) :
    Returns d g ((calloc g s.mem n elemSize).map s.keep) fun ok =>
      Arrays.new ok arrays (List.replicate (n * elemSize) (some 0)) := by
  by_cases hpos : n > 0 ∧ elemSize > 0
  · have hsizeT : sizeT (n * elemSize) = n * elemSize := Nat.mod_eq_of_lt (by omega)
    rw [Mm.calloc, if_pos hpos, hsizeT]
    exact h.zalloc hd hlt
  · rw [Mm.calloc, if_neg hpos]
    exact h.keep_null

theorem memalign (hd : d ∣ 8) (h : Models d g s arrays rs cells) {k : Nat} (hk : 5 ≤ k)
    (hpos : 0 < request) (hlt : request + 2 * 2 ^ k + 46 < 2 ^ 32) :
    Returns d g ((memalign g s.mem (2 ^ k) request).map s.keep) fun ok =>
      Arrays.new ok arrays (List.replicate request none) := by
  rcases memalign_spec hd h.heap hk hpos hlt with
    ⟨hnone, -⟩ | ⟨m', rs', a, x, halign, hheap, hbusy, -, hsize, -, hkept⟩
  · rw [hnone]
    exact h.keep_null
  · rw [halign]
    exact ⟨_, true, rs', _, rfl, h.new hheap hbusy hkept (.unknown hsize)⟩

theorem free (h : Models d g s arrays rs (l ++ c :: r)) :
    Returns d g ((free g s.mem c.ptr).bind fun m =>
        some (⟨m, s.ptrs.eraseIdx l.length⟩, true)) fun _ => arrays.eraseIdx l.length := by
  obtain ⟨hp, hfree⟩ := mem_busy.mp (h.blocks.symm.subset (a := c.place) (by simp))
  obtain ⟨m', rs', hfree', hheap, hbusy, hkept⟩ := free_spec h.heap hp hfree
  have hmem : Mm.free g s.mem c.ptr = some m' := hfree'
  rw [hmem]
  exact ⟨_, true, rs', _, rfl, h.delete hheap hbusy hkept⟩

theorem write (h : Models d g s arrays rs (l ++ c :: r)) {offset : Nat} {value : UInt8}
    (hoffset : offset < c.bytes.length) :
    Returns d g (some (⟨s.mem.fill (c.ptr + offset) value 1, s.ptrs⟩, true)) fun _ =>
      arrays.modify l.length (·.set offset (some value)) := by
  have hholds := h.holds c (by simp)
  have hfits := hholds.fits
  obtain ⟨hp, hfree⟩ := mem_busy.mp (h.blocks.symm.subset (a := c.place) (by simp))
  obtain ⟨es, hinv⟩ := h.heap.inv
  have hperm : (busy (layout rs)).Perm (c.place :: (l ++ r).map Cell.place) := by
    refine h.blocks.trans ?_
    rw [List.map_append, List.map_cons, List.map_append]
    exact List.perm_middle
  simp only [Cell.place, Cell.ptr, sizeofMmAllocnode] at hp hfree hfits hperm ⊢
  have hheap : IsHeap d g (s.mem.fill (c.addr + 8 + offset) value 1) rs := by
    refine h.heap.contents_of_mem hp hfree fun z hz => fill_of_not_covers ?_
    simp only at hz
    omega
  have hkept : Kept (InPayload ((l ++ r).map Cell.place)) s.mem
      (s.mem.fill (c.addr + 8 + offset) value 1) := fun z hz => by
    have hapart := hinv.payload_apart hperm hz
    refine fill_of_not_covers ?_
    simp only at hapart
    omega
  have hcell : Cell.Holds ⟨c.addr, c.block, c.bytes.set offset (some value)⟩
      (s.mem.fill (c.addr + 8 + offset) value 1) := by
    refine ⟨by rw [List.length_set]; exact hholds.fits, fun k v hk => ?_⟩
    simp only [Cell.ptr, sizeofMmAllocnode] at hk ⊢
    by_cases heq : offset = k
    · subst heq
      rw [List.getElem?_set_self hoffset] at hk
      cases hk
      exact fill_of_covers (Nat.le_refl _) (Nat.lt_succ_self _)
    · rw [List.getElem?_set_ne heq] at hk
      rw [fill_of_not_covers (by omega)]
      exact hholds.known k v hk
  have hreplace := h.replace (f := (·.set offset (some value))) hheap hperm hkept hcell
  have hsame : s.ptrs.set l.length (c.addr + sizeofMmAllocnode) = s.ptrs := by
    simp [h.ptrs, Cell.ptr]
  rw [hsame] at hreplace
  exact ⟨_, true, rs, _, rfl, hreplace⟩

theorem realloc (h : Models 16 g s arrays rs (l ++ c :: r)) (hpos : 0 < request)
    (hlt : request + 47 < 2 ^ 32) :
    Returns 16 g ((realloc g s.mem c.ptr request).bind fun p =>
        if p.2 = 0 then some (⟨p.1, s.ptrs⟩, false)
        else some (⟨p.1, s.ptrs.set l.length p.2⟩, true)) fun ok =>
      if ok then arrays.modify l.length (Arrays.resize request) else arrays := by
  have hperm : (busy (layout rs)).Perm ((c.addr, c.block) :: (l ++ r).map Cell.place) := by
    refine h.blocks.trans ?_
    rw [List.map_append, List.map_cons, List.map_append]
    exact List.perm_middle
  rcases realloc_spec h.heap hperm hpos hlt with
    ⟨hrealloc, -⟩ | ⟨m', rs', a', x, hrealloc, hmoved⟩
  · rw [Cell.ptr, hrealloc]
    exact ⟨s, false, rs, _, rfl, h⟩
  · have hne : ¬ a' + sizeofMmAllocnode = 0 := by simp [sizeofMmAllocnode]
    have hcell : Cell.Holds ⟨a', x, Arrays.resize request c.bytes⟩ m' :=
      (h.holds c (by simp)).resize hmoved.size
        (chunkSize_spec (show request + 23 < 2 ^ 32 by omega)).2.1 hmoved.contents
    rw [Cell.ptr, hrealloc, Option.bind_some, if_neg hne]
    exact ⟨_, true, rs', _, rfl, h.replace hmoved.heap hmoved.busy hmoved.kept hcell⟩

end Models

/-! ### Runs -/

/-- The sizes of blocks are multiples of 16 until `memalign` is called. -/
def grain (aligned : Bool) : Nat := if aligned then 8 else 16

theorem grain_dvd : grain aligned ∣ 16 := by
  cases aligned <;> decide

theorem grain_or_dvd {f : Bool} : grain (aligned || f) ∣ grain aligned := by
  cases aligned <;> cases f <;> decide

/-- Every operation that the rules allow returns, and does what the client means by it. -/
theorem Models.step (h : Models (grain aligned) g s arrays rs cells)
    (hallowed : Allowed aligned arrays op) :
    Returns (grain (aligned || op.aligns)) g (s.step g op) fun ok => Arrays.step ok arrays op := by
  have hmono := h.mono (grain_or_dvd (f := op.aligns))
  cases op with
  | malloc request => exact hmono.malloc grain_dvd hallowed
  | zalloc request => exact hmono.zalloc grain_dvd hallowed
  | calloc n elemSize => exact hmono.calloc grain_dvd hallowed
  | memalign alignment request =>
      rcases hallowed with ⟨hle, hlt⟩ | ⟨k, hk, rfl, hpos, hlt⟩
      · have hmalloc : Mm.memalign g s.mem alignment request = Mm.malloc g s.mem request :=
          if_pos hle
        rw [Client.step, hmalloc]
        exact hmono.malloc grain_dvd hlt
      · refine hmono.memalign ?_ hk hpos hlt
        rw [Op.aligns, Bool.or_true]
        exact Nat.dvd_refl 8
  | realloc i request =>
      obtain ⟨rfl, hi, hlt⟩ := hallowed
      obtain ⟨l, c, r, rfl, rfl, hptr⟩ := h.cell hi
      simp only [Client.step, hptr, Option.bind_eq_bind, Option.bind_some]
      rcases Nat.eq_zero_or_pos request with rfl | hpos
      · have hne : ¬ c.ptr = 0 := by simp [Cell.ptr, sizeofMmAllocnode]
        have hrealloc : Mm.realloc g s.mem c.ptr 0 = (Mm.free g s.mem c.ptr).bind fun m =>
            some (m, 0) := by
          rw [Mm.realloc, if_neg hne, if_pos rfl]
          rfl
        rw [hrealloc, Option.bind_assoc]
        exact h.free
      · have hne : ¬ request = 0 := by omega
        simp only [if_neg hne, Arrays.step]
        exact h.realloc hpos hlt
  | free i =>
      obtain ⟨l, c, r, rfl, rfl, hptr⟩ := h.cell hallowed
      simp only [Client.step, hptr, Option.bind_eq_bind, Option.bind_some]
      exact hmono.free
  | write i offset value =>
      obtain ⟨bytes, hbytes, hoffset⟩ := hallowed
      obtain ⟨l, c, r, rfl, rfl, hptr⟩ := h.cell (List.getElem?_eq_some_iff.mp hbytes).1
      simp only [Client.step, hptr, Option.bind_eq_bind, Option.bind_some]
      refine hmono.write ?_
      have hcell : some c.bytes = some bytes := by
        rw [← hbytes, h.arrays]
        simp
      rw [Option.some.inj hcell]
      exact hoffset

/-- The heap of everything that can come about. -/
theorem Reachable.models (h : Reachable aligned g s arrays) :
    ∃ rs cells, Models (grain aligned) g s arrays rs cells := by
  induction h with
  | start hpos hlimit hroom hinit =>
      obtain ⟨m', b, hinit', hb, -, -, -, hheap⟩ :=
        mmInitialize_spec (d := grain false) grain_dvd hpos hlimit hroom
      cases hinit.symm.trans hinit'
      refine ⟨_, [], hheap, ?_, rfl, rfl, by simp⟩
      simp [Region.placed, busy_cons_free hb]
  | @addregion aligned g g' s arrays m' heapstart heapsize hreach hroom hadd ih =>
      obtain ⟨rs, cells, h⟩ := ih
      obtain ⟨m₁, b, hadd', hb, -, -, -, hheap, hkept⟩ := mmAddregion_spec grain_dvd h.heap hroom
      cases hadd.symm.trans hadd'
      refine ⟨_, cells, hheap, ?_, h.ptrs, h.arrays,
        holds_of_kept h.holds (hkept.mono fun z hz => hz.perm h.blocks.symm)⟩
      simp [Region.placed, busy_cons_free hb, h.blocks]
  | step hreach hallowed hstep ih =>
      obtain ⟨rs, cells, h⟩ := ih
      obtain ⟨s', ok, rs', cells', hstep', hmodels⟩ := h.step hallowed
      cases hstep.symm.trans hstep'
      exact ⟨rs', cells', hmodels⟩

/-- Two arrays are in different blocks. -/
theorem Models.apart (h : Models d g s arrays rs cells) {i j : Nat} {c c' : Cell}
    (hi : cells[i]? = some c) (hj : cells[j]? = some c') (hne : j ≠ i) :
    c.addr + c.block.size ≤ c'.addr ∨ c'.addr + c'.block.size ≤ c.addr := by
  obtain ⟨es, hinv⟩ := h.heap.inv
  have hpairwise : (cells.map Cell.place).Pairwise
      fun p q => p.1 + p.2.size ≤ q.1 ∨ q.1 + q.2.size ≤ p.1 :=
    h.blocks.pairwise (hinv.layout_pairwise.filter _) fun h => Or.symm h
  rw [List.pairwise_map, List.pairwise_iff_getElem] at hpairwise
  obtain ⟨hi', rfl⟩ := List.getElem?_eq_some_iff.mp hi
  obtain ⟨hj', rfl⟩ := List.getElem?_eq_some_iff.mp hj
  rcases Nat.lt_or_gt_of_ne hne with hlt | hlt
  · exact (hpairwise j i hj' hi' hlt).symm
  · exact hpairwise i j hi' hj' hlt

/-- An array lies in a region. -/
theorem Models.bounds (h : Models d g s arrays rs cells) {c : Cell} (hc : c ∈ cells) :
    c.addr % 8 = 0 ∧ ∃ e ∈ g.regions, e.1 + 8 ≤ c.addr ∧ c.addr + c.block.size ≤ e.2 := by
  obtain ⟨es, hinv⟩ := h.heap.inv
  have hp := (mem_busy.mp (h.blocks.symm.subset (List.mem_map_of_mem hc))).1
  obtain ⟨r, hr, hpr⟩ := mem_layout hp
  obtain ⟨c', rfl, haddr⟩ := Spot.exists_of_mem hp
  have hbounds := hinv.spot_bounds
  rw [haddr] at hbounds
  exact ⟨hbounds.2.2.1, _, hinv.extent_mem hr, r.placed_bounds hpr⟩

end Px4Firmware.Mm
