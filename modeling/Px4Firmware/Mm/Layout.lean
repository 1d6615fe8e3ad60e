import Mathlib.Data.Nat.Bitwise
import Px4Firmware.Mm.Heap

/-!
# Px4Firmware.Mm.Layout

**What the heap looks like.** A region is a list of blocks; where a block is follows from the sizes
of the blocks before it, so that two blocks cannot overlap and no byte is lost. `Region.Tiled` says
that the headers in memory are those of the blocks of a region, between its guards.
-/

namespace Px4Firmware.Mm

open Lib Lib.Memory

/-- A chunk as the allocator means it. -/
structure Block where
  size : Nat
  free : Bool
  granule : size % 8 = 0
  min : sizeofMmFreenode ≤ size

/-- The memory between two guard nodes. -/
structure Region where
  start : Nat
  blocks : List Block

/-- The bytes of blocks that follow each other. -/
def span : List Block → Nat
  | [] => 0
  | b :: bs => b.size + span bs

/-- The size of the last of the blocks, or of what is before them. -/
def lastSize : Nat → List Block → Nat
  | p, [] => p
  | _, b :: bs => lastSize b.size bs

/-- Whether a free block is first. -/
def headFree : List Block → Bool
  | [] => false
  | b :: _ => b.free

/-- The blocks and their addresses. -/
def placed : Nat → List Block → List (Nat × Block)
  | _, [] => []
  | a, b :: bs => (a, b) :: placed (a + b.size) bs

@[simp] theorem span_nil : span [] = 0 := rfl

@[simp] theorem span_cons (b : Block) (bs : List Block) : span (b :: bs) = b.size + span bs := rfl

@[simp] theorem lastSize_nil (p : Nat) : lastSize p [] = p := rfl

@[simp] theorem lastSize_cons (p : Nat) (b : Block) (bs : List Block) :
    lastSize p (b :: bs) = lastSize b.size bs := rfl

@[simp] theorem placed_nil (a : Nat) : placed a [] = [] := rfl

@[simp] theorem placed_cons (a : Nat) (b : Block) (bs : List Block) :
    placed a (b :: bs) = (a, b) :: placed (a + b.size) bs := rfl

@[simp] theorem span_append (bs bs' : List Block) : span (bs ++ bs') = span bs + span bs' := by
  induction bs with
  | nil => simp
  | cons b bs ih => simp [ih, Nat.add_assoc]

@[simp] theorem lastSize_append (p : Nat) (bs bs' : List Block) :
    lastSize p (bs ++ bs') = lastSize (lastSize p bs) bs' := by
  induction bs generalizing p with
  | nil => rfl
  | cons b bs ih => simp [ih]

@[simp] theorem placed_append (a : Nat) (bs bs' : List Block) :
    placed a (bs ++ bs') = placed a bs ++ placed (a + span bs) bs' := by
  induction bs generalizing a with
  | nil => simp
  | cons b bs ih => simp [ih, Nat.add_assoc]

/-- A block lies between the ends of all of them. -/
theorem placed_bounds {a : Nat} {bs : List Block} {p : Nat × Block} (hp : p ∈ placed a bs) :
    a ≤ p.1 ∧ p.1 + p.2.size ≤ a + span bs := by
  induction bs generalizing a with
  | nil => simp at hp
  | cons b bs ih =>
      rcases List.mem_cons.mp hp with rfl | hp
      · simp [← Nat.add_assoc]
      · have := ih hp
        simp only [span_cons]
        omega

theorem exists_placed {a : Nat} {bs : List Block} {b : Block} (hb : b ∈ bs) :
    ∃ a', (a', b) ∈ placed a bs := by
  induction bs generalizing a with
  | nil => cases hb
  | cons b' bs ih =>
      rcases List.mem_cons.mp hb with rfl | hb
      · exact ⟨a, List.mem_cons_self ..⟩
      · obtain ⟨a', ha'⟩ := ih hb
        exact ⟨a', List.mem_cons_of_mem _ ha'⟩

/-- A block divides the others. -/
theorem placed_split {a : Nat} {bs : List Block} {p : Nat × Block} (hp : p ∈ placed a bs) :
    ∃ pre post, bs = pre ++ p.2 :: post ∧ p.1 = a + span pre := by
  induction bs generalizing a with
  | nil => simp at hp
  | cons b bs ih =>
      rcases List.mem_cons.mp hp with rfl | hp
      · exact ⟨[], bs, rfl, rfl⟩
      · obtain ⟨pre, post, rfl, haddr⟩ := ih hp
        exact ⟨b :: pre, post, rfl, by rw [haddr, span_cons, Nat.add_assoc]⟩

theorem span_mod (bs : List Block) : span bs % 8 = 0 := by
  induction bs with
  | nil => rfl
  | cons b bs ih =>
      have hgranule := b.granule
      rw [span_cons]
      omega

theorem span_dvd {d : Nat} {bs : List Block} (h : ∀ b ∈ bs, b.size % d = 0) : d ∣ span bs := by
  induction bs with
  | nil => exact Nat.dvd_zero d
  | cons b bs ih =>
      refine Nat.dvd_add (Nat.dvd_of_mod_eq_zero (h b (List.mem_cons_self ..))) ?_
      exact ih fun b hb => h b (List.mem_cons_of_mem _ hb)

theorem length_placed (a : Nat) (bs : List Block) : (placed a bs).length = bs.length := by
  induction bs generalizing a with
  | nil => rfl
  | cons b bs ih => simp [ih]

theorem length_placed_le (a : Nat) (bs : List Block) : (placed a bs).length ≤ span bs := by
  induction bs generalizing a with
  | nil => simp
  | cons b bs ih =>
      have hmin := b.min
      have := ih (a + b.size)
      simp only [sizeofMmFreenode] at hmin
      simp only [placed_cons, List.length_cons, span_cons]
      omega

theorem lastSize_le_span (p : Nat) (bs : List Block) : lastSize p bs ≤ p + span bs := by
  induction bs generalizing p with
  | nil => simp
  | cons b bs ih =>
      have := ih b.size
      simp only [lastSize_cons, span_cons]
      omega

/-! ### The header words -/

/-- The second word of a header. -/
def encode (p : Nat) (free : Bool) : Nat := if free then p else p ||| mmAllocBit

section

variable {m m' : Memory} {a p v : Nat} {f : Bool}

theorem or_mmAllocBit (hp : p < 2 ^ 31) : p ||| mmAllocBit = p + 2 ^ 31 := by
  rw [Nat.or_comm, Nat.add_comm]
  exact (Nat.two_pow_add_eq_or_of_lt hp 1).symm

theorem and_mmAllocBit (hp : p < 2 ^ 31) : p &&& mmAllocBit = 0 := by
  have htest : p.testBit 31 = false := Nat.testBit_lt_two_pow hp
  exact (Nat.and_two_pow p 31).trans (by simp [htest])

theorem and_mmAllocBit_pred : p &&& (mmAllocBit - 1) = p % 2 ^ 31 :=
  Nat.and_two_pow_sub_one_eq_mod p 31

theorem encode_lt (hp : p < 2 ^ 31) : encode p f < 2 ^ 32 := by
  cases f with
  | false =>
      have := or_mmAllocBit hp
      simp only [encode, Bool.false_eq_true, if_false]
      omega
  | true =>
      simp only [encode, if_true]
      omega

theorem encode_and_mmAllocBit (hp : p < 2 ^ 31) :
    encode p f &&& mmAllocBit = encode 0 f := by
  cases f with
  | false => simp [encode, Nat.and_or_distrib_right, and_mmAllocBit hp]
  | true => simp [encode, and_mmAllocBit hp]

theorem encode_mod (hp : p < 2 ^ 31) : encode p f &&& (mmAllocBit - 1) = p := by
  rw [and_mmAllocBit_pred]
  cases f with
  | false =>
      have := or_mmAllocBit hp
      simp only [encode, Bool.false_eq_true, if_false]
      omega
  | true =>
      simp only [encode, if_true]
      omega

theorem or_encode_zero : v ||| encode 0 f = encode v f := by
  cases f with
  | false => simp [encode]
  | true => simp [encode]

theorem encode_or : encode p f ||| mmAllocBit = encode p false := by
  cases f with
  | false => simp [encode]
  | true => simp [encode]

theorem isFree_iff (hp : p < 2 ^ 31) (h : preceding m a = encode p f) :
    isFree m a ↔ f = true := by
  rw [isFree, h, encode_and_mmAllocBit hp]
  cases f with
  | false => simp [encode, mmAllocBit]
  | true => simp [encode]

theorem preceding_updatePreceding (hp : p < 2 ^ 31) (hv : v < 2 ^ 31)
    (h : preceding m a = encode p f) : preceding (updatePreceding m a v) a = encode v f := by
  rw [updatePreceding, h, encode_and_mmAllocBit hp, or_encode_zero]
  exact word_setWord (encode_lt hv)

theorem preceding_release (hp : p < 2 ^ 31) (h : preceding m a = encode p f) :
    preceding (release m a) a = encode p true := by
  rw [release, h, encode_mod hp]
  exact word_setWord (Nat.lt_trans hp (by decide))

theorem preceding_allocate (hp : p < 2 ^ 31) (h : preceding m a = encode p f) :
    preceding (allocate m a) a = encode p false := by
  rw [allocate, h, encode_or]
  exact word_setWord (encode_lt hp)

end

/-! ### The headers of blocks -/

/-- The memory has the header of a chunk. -/
def HasHeader (m : Memory) (a p s : Nat) (free : Bool) : Prop :=
  size m a = s ∧ preceding m a = encode p free

/-- The memory has the headers of blocks that follow each other. -/
def Walk (m : Memory) : Nat → Nat → List Block → Prop
  | _, _, [] => True
  | a, p, b :: bs => HasHeader m a p b.size b.free ∧ Walk m (a + b.size) b.size bs

/-- The memory has the headers of blocks and of the guard after them. -/
def Headers (m : Memory) : Nat → Nat → List Block → Prop
  | a, p, [] => HasHeader m a p sizeofMmAllocnode false
  | a, p, b :: bs => HasHeader m a p b.size b.free ∧ Headers m (a + b.size) b.size bs

/-- Where the guard after the blocks is. -/
def Region.guard (r : Region) : Nat := r.start + sizeofMmAllocnode + span r.blocks

/-- The end of a region. -/
def Region.limit (r : Region) : Nat := r.guard + sizeofMmAllocnode

/-- The headers of a region. -/
structure Region.Tiled (m : Memory) (r : Region) : Prop where
  guard : HasHeader m r.start 0 sizeofMmAllocnode false
  headers : Headers m (r.start + sizeofMmAllocnode) sizeofMmAllocnode r.blocks

section

variable {m m' : Memory} {a p s v : Nat} {f : Bool} {b : Block} {bs bs' : List Block}

theorem HasHeader.congr (h : HasHeader m a p s f) (hm : ∀ x, a ≤ x → x < a + 8 → m' x = m x) :
    HasHeader m' a p s f := by
  refine ⟨?_, ?_⟩
  · exact (word_congr fun x hlow hhigh => hm x hlow (by omega)).trans h.1
  · exact (word_congr fun x hlow hhigh => hm x (by omega) (by omega)).trans h.2

theorem headers_append :
    Headers m a p (bs ++ bs') ↔
      Walk m a p bs ∧ Headers m (a + span bs) (lastSize p bs) bs' := by
  induction bs generalizing a p with
  | nil => simp [Walk]
  | cons b bs ih => simp [Headers, Walk, ih, Nat.add_assoc, and_assoc]

/-- The second word of the header that comes next. -/
theorem Headers.preceding_eq (h : Headers m a p bs) : preceding m a = encode p (headFree bs) := by
  cases bs with
  | nil => exact h.2
  | cons b bs => exact h.1.2

/-- The headers are where the blocks begin. -/
def InHeaders (a : Nat) (bs : List Block) (x : Nat) : Prop :=
  ∃ p ∈ placed a bs, p.1 ≤ x ∧ x < p.1 + 8

theorem Walk.congr (h : Walk m a p bs) (hm : ∀ x, InHeaders a bs x → m' x = m x) :
    Walk m' a p bs := by
  induction bs generalizing a p with
  | nil => trivial
  | cons b bs ih =>
      refine ⟨h.1.congr fun x hlow hhigh => hm x ?_, ih h.2 fun x hx => hm x ?_⟩
      · exact ⟨(a, b), List.mem_cons_self .., hlow, hhigh⟩
      · obtain ⟨q, hq, hx⟩ := hx
        exact ⟨q, List.mem_cons_of_mem _ hq, hx⟩

theorem Walk.header (h : Walk m a p bs) {q : Nat × Block} (hq : q ∈ placed a bs) :
    ∃ v, HasHeader m q.1 v q.2.size q.2.free := by
  induction bs generalizing a p with
  | nil => cases hq
  | cons b bs ih =>
      rcases List.mem_cons.mp hq with rfl | hq
      · exact ⟨p, h.1⟩
      · exact ih h.2 hq

theorem headers_iff :
    Headers m a p bs ↔
      Walk m a p bs ∧ HasHeader m (a + span bs) (lastSize p bs) sizeofMmAllocnode false := by
  have h : Headers m a p (bs ++ []) ↔ _ := headers_append
  rw [List.append_nil] at h
  exact h

theorem Headers.congr (h : Headers m a p bs) (hm : ∀ x, InHeaders a bs x → m' x = m x)
    (hguard : ∀ x, a + span bs ≤ x → x < a + span bs + 8 → m' x = m x) : Headers m' a p bs := by
  rw [headers_iff] at h ⊢
  exact ⟨h.1.congr hm, h.2.congr hguard⟩

/-- The chunk before is another one now. -/
theorem Headers.update (h : Headers m a p bs) (hprec : preceding m' a = encode v (headFree bs))
    (hm : ∀ x, a ≤ x → x < a + 4 ∨ a + 8 ≤ x → x < a + span bs + 8 → m' x = m x) :
    Headers m' a v bs := by
  cases bs with
  | nil =>
      refine ⟨(word_congr fun x hlow hhigh => hm x hlow (.inl hhigh) ?_).trans h.1, hprec⟩
      simp only [span_nil]
      omega
  | cons b bs =>
      have hmin := b.min
      simp only [sizeofMmFreenode] at hmin
      simp only [span_cons] at hm
      refine ⟨⟨(word_congr fun x hlow hhigh => hm x hlow (.inl hhigh) ?_).trans h.1.1, hprec⟩, ?_⟩
      · omega
      · refine h.2.congr (fun x hx => ?_) fun x hlow hhigh => hm x ?_ (.inr ?_) ?_
        · obtain ⟨q, hq, hlow, hhigh⟩ := hx
          have hbounds := placed_bounds hq
          have hqmin := q.2.min
          simp only [sizeofMmFreenode] at hqmin
          exact hm x (by omega) (.inr (by omega)) (by omega)
        · omega
        · omega
        · omega

/-- The headers of a region lie in it. -/
theorem Region.Tiled.congr {r : Region} (h : r.Tiled m)
    (hm : ∀ x, r.start ≤ x → x < r.guard + 8 → m' x = m x) : r.Tiled m' := by
  simp only [Region.guard, sizeofMmAllocnode] at hm
  obtain ⟨hguard, hheaders⟩ := h
  refine ⟨hguard.congr fun x hlow hhigh => hm x hlow (by omega),
    hheaders.congr (fun x hx => ?_) fun x hlow hhigh => ?_⟩
  · obtain ⟨p, hp, hlow, hhigh⟩ := hx
    have hplaced := placed_bounds hp
    have hmin := p.2.min
    simp only [sizeofMmFreenode, sizeofMmAllocnode] at hmin hplaced
    exact hm x (by omega) (by omega)
  · simp only [sizeofMmAllocnode] at hlow hhigh
    exact hm x (by omega) (by omega)

end

end Px4Firmware.Mm
