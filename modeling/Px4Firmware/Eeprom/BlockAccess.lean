import Px4Firmware.Drivers.I2cBus
import Mathlib.Algebra.Ring.Int.Defs
import Mathlib.Algebra.Ring.Nat
import Mathlib.Tactic.ByContra
import Mathlib.Tactic.Ring

/-!
# Px4Firmware.Eeprom.BlockAccess

**The EEPROM as a block device** (`24xxxx_mtd.c`). A request for blocks becomes one for the pages
they are made of, and is cut off where the device ends; then a loop transfers the pages.

The loop does not run for the number of pages that is left of the request: `blocksleft` has been
taken before the cut. The number of pages is computed in 32 bits, and the address of a page in 16. A
part of 64 KB has a place for each of these addresses; the one of 16 KB decodes 14 bits of them, so
that it takes a page behind its end for one at its start. `stays_on_device_iff` says which requests
stay on the device, by the addresses that are sent.
-/

namespace Px4Firmware.Eeprom

open Px4Firmware.Drivers

/-! ### The device -/

/-- A part, and of how many of its pages a block is made (`CONFIG_AT24XX_MTD_BLOCKSIZE`). -/
structure Part where
  pagesize : Nat
  npages : Nat
  cluster : Nat
  pagesize_pos : 0 < pagesize
  npages_pos : 0 < npages
  npages_lt : npages < 65536
  cluster_pos : 0 < cluster
  cluster_dvd : cluster ∣ npages
  /-- Every byte has an address of 16 bits. -/
  addressable : npages * pagesize ≤ 65536

/-- `CONFIG_AT24XX_SIZE == 128`, with blocks of 256 bytes. -/
def at24c128 : Part where
  pagesize := 64
  npages := 256
  cluster := 4
  pagesize_pos := Nat.zero_lt_succ 63
  npages_pos := Nat.zero_lt_succ 255
  npages_lt := Nat.le_of_ble_eq_true rfl
  cluster_pos := Nat.zero_lt_succ 3
  cluster_dvd := ⟨64, rfl⟩
  addressable := Nat.le_of_ble_eq_true rfl

/-- The caller's buffer. -/
abbrev Buffer := Nat → UInt8

/-- What happens to the block of the buffer at a place: what is sent behind the address, and what
becomes of the buffer when the transfer succeeds. -/
structure Method (part : Part) where
  sends : Nat → Buffer → List UInt8
  stores : Nat → Bytes → Buffer → Buffer
  stores_frame : ∀ place bytes buffer i, i < place ∨ place + part.pagesize ≤ i →
    stores place bytes buffer i = buffer i

/-- A page that the loop has transferred, or tried to. -/
structure Page where
  addr0 : UInt8
  addr1 : UInt8
  place : Nat
  payload : List UInt8
  done : Bool

/-- The address that is sent: the high byte first. -/
def Page.offset (page : Page) : Nat := page.addr0.toNat * 256 + page.addr1.toNat

/-! ### The loop -/

/-- What the loop leaves. -/
structure Transferred where
  pages : List Page
  /-- It has not returned `ERROR`. -/
  finished : Bool
  buffer : Buffer
  bus : Bus

/-- The loop of `at24c_bread` and of `at24c_bwrite`. A page is tried
`CONFIG_AT24XX_WRITE_TIMEOUT_MS` times. -/
def transferPages (part : Part) (method : Method part) :
    Nat → Int → Nat → Buffer → Bus → Transferred
  | 0, _, _, buffer, bus => ⟨[], true, buffer, bus⟩
  | blocksleft + 1, startblock, place, buffer, bus =>
      -- `offset` has 16 bits.
      let offset := (startblock * part.pagesize % 65536).toNat
      let page done : Page :=
        { addr0 := UInt8.ofNat (offset / 256)
          addr1 := UInt8.ofNat (offset % 256)
          place
          payload := method.sends place buffer
          done }
      match bus.transfer 19 with
      | (some bytes, bus) =>
          let rest := transferPages part method blocksleft ((startblock + 1).bmod 4294967296)
            (place + part.pagesize) (method.stores place bytes buffer) bus
          { rest with pages := page true :: rest.pages }
      | (none, bus) => ⟨[page false], false, buffer, bus⟩

/-- What a request leaves, and what it returns: nothing for `ERROR`. -/
structure Answer where
  ret : Option Int
  pages : List Page
  buffer : Buffer
  bus : Bus

/-- The first page, in 32 bits. -/
def firstPage (part : Part) (startblock : Int32) : Int :=
  (startblock.toInt * part.cluster).bmod 4294967296

/-- The number of pages, in 32 bits. -/
def pageCount (part : Part) (nblocks : UInt32) : Nat := nblocks.toNat * part.cluster % 4294967296

/-- The number of pages after the cut. The sum is one of unsigned numbers. -/
def cutCount (part : Part) (first : Int) (count : Nat) : Nat :=
  if (part.npages : Int) < (first + count) % 4294967296 then
    ((part.npages - first) % 4294967296).toNat
  else count

/-- A request. -/
def blockAccess (part : Part) (method : Method part) (startblock : Int32) (nblocks : UInt32)
    (buffer : Buffer) (bus : Bus) : Answer :=
  let first := firstPage part startblock
  let blocksleft := pageCount part nblocks
  if part.npages ≤ first then ⟨some 0, [], buffer, bus⟩
  else
    -- The loop still runs for `blocksleft`.
    let nblocks := cutCount part first blocksleft
    let out := transferPages part method blocksleft first 0 buffer bus
    let ret := ((nblocks / part.cluster : Nat) : Int).bmod 4294967296
    ⟨if out.finished then some ret else none, out.pages, out.buffer, out.bus⟩

/-- A read stores what it receives. -/
def reading (part : Part) : Method part where
  sends := fun _ _ => []
  stores := fun place bytes buffer i =>
    if place ≤ i ∧ i < place + part.pagesize then bytes (i - place) else buffer i
  stores_frame := fun place bytes buffer i h => if_neg (by omega)

/-- A write sends the block behind the address. -/
def writing (part : Part) : Method part where
  sends := fun place buffer => (List.range part.pagesize).map fun i => buffer (place + i)
  stores := fun _ _ buffer => buffer
  stores_frame := fun _ _ _ _ _ => rfl

/-- `at24c_bread`. -/
def at24cBread (part : Part) : Int32 → UInt32 → Buffer → Bus → Answer :=
  blockAccess part (reading part)

/-- `at24c_bwrite`. -/
def at24cBwrite (part : Part) : Int32 → UInt32 → Buffer → Bus → Answer :=
  blockAccess part (writing part)

/-! ### The law -/

/-- The first page of a request. -/
def requestedFirst (part : Part) (startblock : Int32) : Int := startblock.toInt * part.cluster

/-- How many pages of the device a request is for: those of
`[startblock, min (startblock + nblocks) npages)`. -/
def requestedCount (part : Part) (startblock : Int32) (nblocks : UInt32) : Nat :=
  (min ((startblock.toInt + nblocks.toNat) * part.cluster) part.npages -
    requestedFirst part startblock).toNat

/-- The pages that are transferred. -/
def Answer.transferred (answer : Answer) : Nat := answer.pages.countP Page.done

/-- The law. -/
structure StaysOnDevice (part : Part) (startblock : Int32) (nblocks : UInt32) (buffer : Buffer)
    (answer : Answer) : Prop where
  /-- The pages that are requested are addressed one after the other. -/
  addressed : answer.pages.map (fun page => (page.offset : Int)) <+:
    (List.range (requestedCount part startblock nblocks)).map fun i : Nat =>
      (requestedFirst part startblock + i) * part.pagesize
  /-- A page belongs to its part of the buffer. -/
  places : answer.pages.map Page.place =
    (List.range answer.pages.length).map fun i => i * part.pagesize
  /-- The rest of the buffer is left alone. -/
  kept : ∀ i, answer.transferred * part.pagesize ≤ i → answer.buffer i = buffer i
  /-- The number that is returned is that of the blocks that have been transferred, all of those
  that are requested. -/
  count : ∀ ret, answer.ret = some ret → ret * part.cluster = answer.transferred ∧
    answer.transferred = requestedCount part startblock nblocks

/-- The bus gives up on one of that many pages. -/
def GivesUp (bus : Bus) (count : Nat) : Prop := (bus.received 19 count).length < count

/-- The condition. A request for no page of the device is one behind its end also in 32 bits, or it
is for no pages in 32 bits and does not begin before the device. Any other request does not begin
before the device, and what it has in 32 bits is the number of its pages, unless the bus gives up in
time. -/
def Safe (part : Part) (startblock : Int32) (nblocks : UInt32) (bus : Bus) : Prop :=
  let first := firstPage part startblock
  let blocksleft := pageCount part nblocks
  let count := requestedCount part startblock nblocks
  if count = 0 then part.npages ≤ first ∨ 0 ≤ first ∧ blocksleft = 0
  else 0 ≤ startblock.toInt ∧ (blocksleft = count ∨ GivesUp bus (min blocksleft count))

/-! ### A run of the loop -/

section

variable {part : Part} {method : Method part}

/-- A page in 32 bits has the address it has. -/
theorem offset_bmod (page i : Int) (pagesize : Nat) :
    (page.bmod 4294967296 + i) * pagesize % 65536 = (page + i) * pagesize % 65536 := by
  have hwrap := Int.bmod_add_bdiv page 4294967296
  have hsplit : (page + i) * pagesize = (page.bmod 4294967296 + i) * pagesize +
      65536 * (65536 * page.bdiv 4294967296 * pagesize) := by
    calc (page + i) * pagesize
        = (page.bmod 4294967296 + (4294967296 : Nat) * page.bdiv 4294967296 + i) * pagesize := by
          rw [hwrap]
      _ = _ := by
          push_cast
          ring
  rw [hsplit, Int.add_mul_emod_self_left]

theorem offset_bytes {offset : Nat} (h : offset < 65536) :
    (UInt8.ofNat (offset / 256)).toNat * 256 + (UInt8.ofNat (offset % 256)).toNat = offset := by
  simp only [UInt8.toNat_ofNat']
  omega

/-- What a run of the loop leaves, in which so many transfers succeed. -/
structure Ran (part : Part) (blocksleft : Nat) (startblock : Int) (place : Nat) (buffer : Buffer)
    (out : Transferred) (succeeded : Nat) : Prop where
  addressed : out.pages.map (fun page => (page.offset : Int)) =
    (List.range (min (succeeded + 1) blocksleft)).map fun i : Nat =>
      (startblock + i) * part.pagesize % 65536
  places : out.pages.map Page.place =
    (List.range (min (succeeded + 1) blocksleft)).map fun i => place + i * part.pagesize
  transferred : out.pages.countP Page.done = succeeded
  finished : out.finished = decide (succeeded = blocksleft)
  kept : ∀ i, i < place ∨ place + succeeded * part.pagesize ≤ i → out.buffer i = buffer i

theorem ran_nil {startblock : Int} {place : Nat} {buffer : Buffer} {bus : Bus} :
    Ran part 0 startblock place buffer ⟨[], true, buffer, bus⟩ 0 :=
  ⟨rfl, rfl, rfl, rfl, fun _ _ => rfl⟩

/-- A transfer that fails is the last one. -/
theorem ran_failed {blocksleft place : Nat} {startblock : Int} {buffer : Buffer} {bus : Bus}
    {page : Page} (hoffset : (page.offset : Int) = startblock * part.pagesize % 65536)
    (hplace : page.place = place) (hdone : page.done = false) :
    Ran part (blocksleft + 1) startblock place buffer ⟨[page], false, buffer, bus⟩ 0 where
  addressed := by simp [hoffset]
  places := by simp [hplace]
  transferred := by simp [hdone]
  finished := by simp
  kept := fun _ _ => rfl

/-- A transfer that succeeds is followed by those of the rest. -/
theorem ran_cons {blocksleft place succeeded : Nat} {startblock : Int} {bytes : Bytes}
    {buffer : Buffer} {rest : Transferred} {page : Page}
    (hoffset : (page.offset : Int) = startblock * part.pagesize % 65536)
    (hplace : page.place = place) (hdone : page.done = true)
    (h : Ran part blocksleft ((startblock + 1).bmod 4294967296) (place + part.pagesize)
      (method.stores place bytes buffer) rest succeeded) :
    Ran part (blocksleft + 1) startblock place buffer
      { rest with pages := page :: rest.pages } (succeeded + 1) where
  addressed := by
    rw [Nat.add_min_add_right, List.range_succ_eq_map, List.map_cons, List.map_cons, h.addressed,
      List.map_map, hoffset]
    refine congrArg₂ List.cons (by simp) (List.map_congr_left fun i _ => ?_)
    rw [offset_bmod, Function.comp_apply, Nat.succ_eq_add_one, Int.natCast_add, Int.natCast_one,
      Int.add_comm i 1, Int.add_assoc]
  places := by
    rw [Nat.add_min_add_right, List.range_succ_eq_map, List.map_cons, List.map_cons, h.places,
      List.map_map, hplace]
    refine congrArg₂ List.cons (by simp) (List.map_congr_left fun i _ => ?_)
    rw [Function.comp_apply, Nat.succ_eq_add_one, Nat.add_mul, Nat.one_mul]
    omega
  transferred := by rw [List.countP_cons_of_pos hdone, h.transferred]
  finished := by simp [h.finished]
  kept := fun i hi => by
    rw [Nat.add_mul, Nat.one_mul] at hi
    rw [h.kept i (by omega), method.stores_frame _ _ _ _ (by omega)]

theorem transferPages_ran (blocksleft : Nat) (startblock : Int) (place : Nat) (buffer : Buffer)
    (bus : Bus) :
    Ran part blocksleft startblock place buffer
      (transferPages part method blocksleft startblock place buffer bus)
      (bus.received 19 blocksleft).length := by
  induction blocksleft generalizing startblock place buffer bus with
  | zero => exact ran_nil
  | succ blocksleft ih =>
      have hoffset : (startblock * part.pagesize % 65536).toNat < 65536 := by omega
      match h : bus.transfer 19 with
      | (some bytes, bus') =>
          simp only [transferPages, h, Bus.received_of_some h, List.length_cons]
          refine ran_cons ?_ rfl rfl (ih _ _ _ bus')
          rw [Page.offset, offset_bytes hoffset]
          omega
      | (none, bus') =>
          simp only [transferPages, h, Bus.received_of_none h, List.length_nil]
          refine ran_failed ?_ rfl rfl
          rw [Page.offset, offset_bytes hoffset]
          omega

end

/-! ### The pages of a request -/

section

variable {part : Part} {startblock : Int32} {nblocks : UInt32}

theorem map_range_prefix_iff {α : Type} (f g : Nat → α) (m n : Nat) :
    (List.range m).map f <+: (List.range n).map g ↔ m ≤ n ∧ ∀ i < m, f i = g i := by
  rw [List.prefix_iff_eq_take, List.length_map, List.length_range, ← List.map_take,
    List.take_range]
  constructor
  · intro h
    have hlength := congrArg List.length h
    rw [List.length_map, List.length_map, List.length_range, List.length_range] at hlength
    rw [← hlength, List.map_inj_left] at h
    exact ⟨by omega, fun i hi => h i (List.mem_range.2 hi)⟩
  · rintro ⟨hle, hall⟩
    rw [Nat.min_eq_left hle]
    exact List.map_congr_left fun i hi => hall i (List.mem_range.1 hi)

/-- The pages are those of whole blocks. -/
theorem cluster_dvd_requestedCount : part.cluster ∣ requestedCount part startblock nblocks := by
  obtain ⟨blocks, hblocks⟩ := part.cluster_dvd
  have hmin : ∃ k : Int, min ((startblock.toInt + nblocks.toNat) * part.cluster) part.npages =
      part.cluster * k := by
    rcases Int.le_total ((startblock.toInt + nblocks.toNat) * part.cluster) part.npages with h | h
    · exact ⟨_, by rw [Int.min_eq_left h, Int.mul_comm]⟩
    · exact ⟨blocks, by rw [Int.min_eq_right h, hblocks, Int.natCast_mul]⟩
  obtain ⟨k, hk⟩ := hmin
  refine Int.natCast_dvd_natCast.1 ?_
  rw [requestedCount, hk, requestedFirst, Int.mul_comm startblock.toInt, ← Int.mul_sub]
  rcases Int.le_total 0 (k - startblock.toInt) with h | h
  · rw [Int.toNat_of_nonneg (Int.mul_nonneg (Int.natCast_nonneg _) h)]
    exact Int.dvd_mul_right _ _
  · rw [Int.toNat_of_nonpos (Int.mul_nonpos_of_nonneg_of_nonpos (Int.natCast_nonneg _) h)]
    exact Int.dvd_zero _

/-- A request for pages of the device begins before its end. -/
theorem requested_bounds (h : requestedCount part startblock nblocks ≠ 0) :
    requestedFirst part startblock + requestedCount part startblock nblocks ≤ part.npages := by
  rw [requestedCount] at h ⊢
  omega

/-- In 32 bits it begins where it begins, if it does not do so before the device. -/
theorem firstPage_eq (h : requestedCount part startblock nblocks ≠ 0)
    (hstart : 0 ≤ startblock.toInt) :
    firstPage part startblock = requestedFirst part startblock := by
  have hbounds := requested_bounds h
  have hfirst : 0 ≤ requestedFirst part startblock :=
    Int.mul_nonneg hstart (Int.natCast_nonneg _)
  have hnpages := part.npages_lt
  have hbmod := Int.bmod_eq_of_le (n := requestedFirst part startblock) (m := 4294967296)
    (by omega) (by omega)
  exact hbmod

end

/-! ### What is returned -/

section

variable {part : Part} {method : Method part} {startblock : Int32} {nblocks : UInt32}
  {buffer : Buffer} {bus : Bus}

theorem cutCount_of_le {first : Int} {count : Nat} (hfirst : 0 ≤ first)
    (hle : first + count ≤ part.npages) : cutCount part first count = count := by
  have hnpages := part.npages_lt
  rw [cutCount, Int.emod_eq_of_lt (by omega) (by omega), if_neg (by omega)]

/-- The number of blocks of a small number of pages. -/
theorem ret_of_small {count : Nat} (h : count < 2147483648) :
    ((count / part.cluster : Nat) : Int).bmod 4294967296 = (count / part.cluster : Nat) := by
  have hle := Nat.div_le_self count part.cluster
  generalize count / part.cluster = blocks at hle ⊢
  exact Int.bmod_eq_of_le (by omega) (by omega)

/-- A request that begins before the device for no pages: the cut makes it one for pages. -/
theorem ret_ne_zero {first : Int} (hfirst : first < 0) (hlow : -2147483648 ≤ first) :
    ((cutCount part first 0 / part.cluster : Nat) : Int).bmod 4294967296 ≠ 0 := by
  have hnpages := part.npages_lt
  have hcluster := Nat.le_of_dvd part.npages_pos part.cluster_dvd
  have hcut : (cutCount part first 0 : Int) = part.npages - first := by
    rw [cutCount, if_pos (by omega)]
    omega
  have hpos : 1 ≤ cutCount part first 0 / part.cluster :=
    (Nat.one_le_div_iff part.cluster_pos).2 (by omega)
  have hle := Nat.div_le_self (cutCount part first 0) part.cluster
  intro habsurd
  have hdvd := Int.dvd_of_bmod_eq_zero habsurd
  omega

/-! ### A request -/

/-- What the answer has to be when the request is behind the end in 32 bits. -/
theorem staysOnDevice_behind (hbehind : part.npages ≤ firstPage part startblock) :
    StaysOnDevice part startblock nblocks buffer
        (blockAccess part method startblock nblocks buffer bus) ↔
      requestedCount part startblock nblocks = 0 := by
  have hanswer : blockAccess part method startblock nblocks buffer bus =
      ⟨some 0, [], buffer, bus⟩ := if_pos hbehind
  rw [hanswer]
  constructor
  · intro hlaw
    exact (hlaw.count 0 rfl).2.symm
  · intro hcount
    refine ⟨List.nil_prefix, rfl, fun _ _ => rfl, fun ret hret => ?_⟩
    cases hret
    exact ⟨Int.zero_mul _, hcount.symm⟩

theorem Ran.length_pages {blocksleft place succeeded : Nat} {first : Int} {out : Transferred}
    (h : Ran part blocksleft first place buffer out succeeded) :
    out.pages.length = min (succeeded + 1) blocksleft := by
  have hplaces := congrArg List.length h.places
  rwa [List.length_map, List.length_map, List.length_range] at hplaces

/-- The law for an answer that a run of the loop leaves. -/
theorem Ran.staysOnDevice_iff {blocksleft succeeded : Nat} {first ret : Int} {out : Transferred}
    (h : Ran part blocksleft first 0 buffer out succeeded) :
    StaysOnDevice part startblock nblocks buffer
        ⟨if out.finished then some ret else none, out.pages, out.buffer, out.bus⟩ ↔
      (min (succeeded + 1) blocksleft ≤ requestedCount part startblock nblocks ∧
        ∀ i < min (succeeded + 1) blocksleft, (first + (i : Nat)) * part.pagesize % 65536 =
          (requestedFirst part startblock + (i : Nat)) * part.pagesize) ∧
      (succeeded = blocksleft →
        ret * part.cluster = blocksleft ∧ blocksleft = requestedCount part startblock nblocks) := by
  rw [← map_range_prefix_iff]
  constructor
  · intro hlaw
    have haddressed := hlaw.addressed
    rw [h.addressed] at haddressed
    refine ⟨haddressed, fun hall => ?_⟩
    have hfinished : out.finished = true := by rw [h.finished, decide_eq_true hall]
    have hret := hlaw.count _ (if_pos hfinished)
    rw [Answer.transferred, h.transferred, hall] at hret
    exact hret
  · rintro ⟨haddressed, hcounted⟩
    refine ⟨by rw [h.addressed]; exact haddressed, ?_, fun i hi => ?_, fun ret' hret => ?_⟩
    · rw [h.places, h.length_pages]
      simp
    · rw [Answer.transferred, h.transferred] at hi
      exact h.kept i (Or.inr (by omega))
    · rw [Answer.transferred, h.transferred]
      dsimp only at hret
      rw [h.finished] at hret
      by_cases hall : succeeded = blocksleft
      · rw [decide_eq_true hall, if_pos rfl] at hret
        rw [← Option.some.inj hret, hall]
        exact hcounted hall
      · rw [decide_eq_false hall] at hret
        cases hret

/-- What it has to be otherwise. -/
theorem staysOnDevice_within {first : Int} {blocksleft succeeded : Nat}
    (hfirst : firstPage part startblock = first) (hcount : pageCount part nblocks = blocksleft)
    (hsucceeded : (bus.received 19 blocksleft).length = succeeded)
    (hwithin : ¬(part.npages : Int) ≤ first) :
    StaysOnDevice part startblock nblocks buffer
        (blockAccess part method startblock nblocks buffer bus) ↔
      (min (succeeded + 1) blocksleft ≤ requestedCount part startblock nblocks ∧
        ∀ i < min (succeeded + 1) blocksleft, (first + (i : Nat)) * part.pagesize % 65536 =
          (requestedFirst part startblock + (i : Nat)) * part.pagesize) ∧
      (succeeded = blocksleft →
        ((cutCount part first blocksleft / part.cluster : Nat) : Int).bmod 4294967296 *
            part.cluster = blocksleft ∧
          blocksleft = requestedCount part startblock nblocks) := by
  have hran : Ran part blocksleft first 0 buffer
      (transferPages part method blocksleft first 0 buffer bus) succeeded :=
    hsucceeded ▸ transferPages_ran blocksleft first 0 buffer bus
  rw [← hran.staysOnDevice_iff, blockAccess, hfirst, hcount]
  dsimp only
  rw [if_neg hwithin]

/-- A page of the device has its place in the addresses. -/
theorem offset_of_page {page : Int} (hlow : 0 ≤ page) (hhigh : page < part.npages) :
    page * part.pagesize % 65536 = page * part.pagesize := by
  have hpagesize := part.pagesize_pos
  have haddressable := part.addressable
  refine Int.emod_eq_of_lt (Int.mul_nonneg hlow (Int.natCast_nonneg _)) ?_
  calc page * (part.pagesize : Int)
      < (part.npages : Int) * part.pagesize := Int.mul_lt_mul_of_pos_right hhigh (by omega)
    _ ≤ 65536 := by exact_mod_cast haddressable

/-- A request for no page of the device. -/
theorem staysOnDevice_iff_of_none (hcount : requestedCount part startblock nblocks = 0) :
    StaysOnDevice part startblock nblocks buffer
        (blockAccess part method startblock nblocks buffer bus) ↔
      part.npages ≤ firstPage part startblock ∨
        0 ≤ firstPage part startblock ∧ pageCount part nblocks = 0 := by
  by_cases hbehind : part.npages ≤ firstPage part startblock
  · rw [staysOnDevice_behind hbehind]
    exact ⟨fun _ => Or.inl hbehind, fun _ => hcount⟩
  · rw [staysOnDevice_within rfl rfl rfl hbehind, hcount]
    constructor
    · rintro ⟨⟨htried, -⟩, hret⟩
      have hzero : pageCount part nblocks = 0 := by omega
      refine Or.inr ⟨?_, hzero⟩
      by_contra hnegative
      rw [hzero] at hret
      have hlow := Int.le_bmod (x := startblock.toInt * part.cluster) (m := 4294967296) (by decide)
      obtain ⟨hmul, -⟩ := hret rfl
      rcases Int.mul_eq_zero.1 hmul with h | h
      · exact ret_ne_zero (Int.not_le.1 hnegative) hlow h
      · have hcluster := part.cluster_pos
        omega
    · rintro (h | ⟨hfirst, hzero⟩)
      · exact absurd h hbehind
      · rw [hzero, cutCount_of_le hfirst (by omega), Nat.zero_div]
        exact ⟨⟨by omega, fun i hi => by omega⟩, fun _ => ⟨by simp, rfl⟩⟩

/-- A request in front of the device is for an address in front of it. -/
theorem requestedFirst_offset_neg (part : Part) (h : startblock.toInt < 0) :
    requestedFirst part startblock * part.pagesize < 0 :=
  Int.mul_neg_of_neg_of_pos
    (Int.mul_neg_of_neg_of_pos h (Int.natCast_pos.2 part.cluster_pos))
    (Int.natCast_pos.2 part.pagesize_pos)

/-- A request for pages of the device. -/
theorem staysOnDevice_iff_of_some (hcount : requestedCount part startblock nblocks ≠ 0) :
    StaysOnDevice part startblock nblocks buffer
        (blockAccess part method startblock nblocks buffer bus) ↔
      0 ≤ startblock.toInt ∧
        (pageCount part nblocks = requestedCount part startblock nblocks ∨
          GivesUp bus (min (pageCount part nblocks) (requestedCount part startblock nblocks))) := by
  have hbounds := requested_bounds hcount
  by_cases hbehind : part.npages ≤ firstPage part startblock
  · rw [staysOnDevice_behind hbehind]
    constructor
    · exact fun h => absurd h hcount
    · rintro ⟨hstart, -⟩
      rw [firstPage_eq hcount hstart] at hbehind
      omega
  · rw [staysOnDevice_within rfl rfl rfl hbehind, GivesUp,
      Bus.length_received_of_le (Nat.min_le_left (pageCount part nblocks) _)]
    have hle := bus.length_received_le 19 (pageCount part nblocks)
    constructor
    · rintro ⟨⟨htried, hoffsets⟩, hret⟩
      constructor
      · by_contra hnegative
        -- The first page that is tried has another address; if none is tried, the count is wrong.
        have hfirst := requestedFirst_offset_neg part (Int.not_le.1 hnegative)
        by_cases hsome : pageCount part nblocks = 0
        · exact hcount ((hret (by omega)).2.symm.trans hsome)
        · have hzero := hoffsets 0 (by omega)
          rw [Int.natCast_zero, Int.add_zero, Int.add_zero] at hzero
          omega
      · by_cases hall : (bus.received 19 (pageCount part nblocks)).length = pageCount part nblocks
        · exact Or.inl (hret hall).2
        · exact Or.inr (by omega)
    · rintro ⟨hstart, hsafe⟩
      have hfirst := firstPage_eq hcount hstart
      have hnonneg : 0 ≤ requestedFirst part startblock :=
        Int.mul_nonneg hstart (Int.natCast_nonneg _)
      rw [hfirst]
      refine ⟨⟨?_, fun i hi => offset_of_page (by omega) ?_⟩, ?_⟩
      · omega
      · omega
      · intro hall
        have heq : pageCount part nblocks = requestedCount part startblock nblocks := by omega
        have hnpages := part.npages_lt
        rw [cutCount_of_le hnonneg (by omega), ret_of_small (by omega), heq]
        refine ⟨?_, rfl⟩
        exact_mod_cast Nat.div_mul_cancel cluster_dvd_requestedCount

theorem staysOnDevice_iff :
    StaysOnDevice part startblock nblocks buffer
        (blockAccess part method startblock nblocks buffer bus) ↔
      Safe part startblock nblocks bus := by
  by_cases hcount : requestedCount part startblock nblocks = 0
  · rw [Safe, if_pos hcount]
    exact staysOnDevice_iff_of_none hcount
  · rw [Safe, if_neg hcount]
    exact staysOnDevice_iff_of_some hcount

end

/-- **Requests for blocks.** Reading and writing stay on the device, transfer the pages that are
requested, once and in order, into and out of their parts of the buffer, and return their number,
exactly for these requests. -/
theorem stays_on_device_iff (part : Part) (startblock : Int32) (nblocks : UInt32) (buffer : Buffer)
    (bus : Bus) :
    (StaysOnDevice part startblock nblocks buffer
        (at24cBread part startblock nblocks buffer bus) ↔ Safe part startblock nblocks bus) ∧
      (StaysOnDevice part startblock nblocks buffer
        (at24cBwrite part startblock nblocks buffer bus) ↔ Safe part startblock nblocks bus) :=
  ⟨staysOnDevice_iff, staysOnDevice_iff⟩

/-- Two blocks from the last one on: the second one goes over the first of the device. -/
theorem write_behind_end :
    ¬StaysOnDevice at24c128 63 2 (fun _ => 0)
      (at24cBwrite at24c128 63 2 (fun _ => 0) ⟨fun _ => some fun _ => 0, 0⟩) := by
  have hrequested : requestedCount at24c128 63 2 = 4 := by decide
  have hcount : pageCount at24c128 2 = 8 := by decide
  rw [at24cBwrite, staysOnDevice_iff_of_some (by rw [hrequested]; decide), hrequested, hcount]
  rintro ⟨-, h | h⟩
  · exact absurd h (by decide)
  · exact absurd h (by rw [GivesUp]; decide)

end Px4Firmware.Eeprom
