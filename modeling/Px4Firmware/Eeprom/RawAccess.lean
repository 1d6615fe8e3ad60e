import Px4Firmware.Lib.Copies
import Px4Firmware.Lib.Transition
import Mathlib.Tactic.ByContra

/-!
# Px4Firmware.Eeprom.RawAccess

**The EEPROM as a file** (`drv_eeprom.c`). The file has an offset, which `lseek` sets and which
every request moves. A request is split where the pages of the device end, into transfers that each
begin with their address.

The place of a transfer in the buffer is counted in whole pages, also when the first transfer is of
a part of a page, and for a write to a small device it is the address itself. The length is returned
whether or not the transfers have succeeded, for want of braces, and a seek is checked against the
end of the device alone. `raw_access_array_iff` says which requests the driver serves as an array
would.
-/

namespace Px4Firmware.Eeprom.Raw

open Px4Firmware.Lib

/-! ### The driver -/

/-- The geometry of a device, as it is passed to `eeprom_attach`. -/
structure Device where
  sizeBytes : Nat
  pageSizeBytes : Nat
  sizeBytes_lt : sizeBytes < 65536
  pageSizeBytes_pos : 0 < pageSizeBytes
  pageSizeBytes_lt : pageSizeBytes < 65536

/-- `FMU_BASEBOARD_EEPROM_TOTAL_SIZE_BYTES` and `FMU_BASEBOARD_EEPROM_PAGE_SIZE_BYTES`. -/
def baseboard : Device where
  sizeBytes := 128
  pageSizeBytes := 8
  sizeBytes_lt := Nat.le_of_ble_eq_true rfl
  pageSizeBytes_pos := Nat.zero_lt_succ 7
  pageSizeBytes_lt := Nat.le_of_ble_eq_true rfl

/-- The bytes of the device, or those from a pointer on. -/
abbrev Contents := Int → UInt8

/-- The file. The offset is an `off_t`. -/
structure File where
  offset : Int
  memory : Contents

/-- A transfer of the loop, with the bytes that are sent as its address and the place of its bytes
in the buffer. -/
structure Transfer where
  cmd : List UInt8
  place : Int
  length : Nat
  done : Bool

/-- The address that the device is sent: the high byte first. -/
def Transfer.address (transfer : Transfer) : Nat :=
  transfer.cmd.foldl (fun address byte => address * 256 + byte.toNat) 0

/-- A device of at most 256 bytes is sent the low byte only. -/
def Device.cmd (dev : Device) (offset : Int) : List UInt8 :=
  let low := UInt8.ofNat (offset % 256).toNat
  if dev.sizeBytes ≤ 256 then [low] else [UInt8.ofNat (offset % 65536 / 256).toNat, low]

/-- The length up to the page border. The remainder has the sign of the offset. -/
def Device.toBorder (dev : Device) (offset : Int) : Nat :=
  (dev.pageSizeBytes - offset.tmod dev.pageSizeBytes).toNat

theorem Device.toBorder_pos (dev : Device) (offset : Int) : 0 < dev.toBorder offset := by
  have hlt := Int.tmod_lt_of_pos offset (Int.natCast_pos.mpr dev.pageSizeBytes_pos)
  unfold Device.toBorder
  omega

/-- The transfer when so many bytes are left of a request that ends at an offset. -/
def Device.transfer (dev : Device) (place : Int → Nat → Int) (stop : Int) (remaining counts : Nat)
    (done : Bool) : Transfer where
  cmd := dev.cmd (stop - remaining)
  place := place (stop - remaining) counts
  length := min (dev.toBorder (stop - remaining)) remaining
  done := done

/-- The loop of `eeprom_read_internal` and of `eeprom_write_internal`, up to the first transfer that
fails. -/
def Device.transfers (dev : Device) (place : Int → Nat → Int) (fails : Nat → Bool) (stop : Int)
    (remaining counts : Nat) : List Transfer :=
  if remaining = 0 then []
  -- `break`: the transfers behind it are not made.
  else if fails counts then [dev.transfer place stop remaining counts false]
  else
    dev.transfer place stop remaining counts true ::
      dev.transfers place fails stop (remaining - min (dev.toBorder (stop - remaining)) remaining)
        (counts + 1)
termination_by remaining
decreasing_by
  have hpos := dev.toBorder_pos (stop - remaining)
  omega

/-- The transfers of a request. -/
def Device.request (dev : Device) (place : Int → Nat → Int) (fails : Nat → Bool) (offset : Int)
    (len : UInt16) : List Transfer :=
  dev.transfers place fails (offset + len.toNat) len.toNat 0

/-- The bytes of a transfer, from the device to the buffer. -/
def Transfer.load (transfer : Transfer) : Copy where
  src := transfer.address
  dst := transfer.place
  length := transfer.length

/-- The bytes of a transfer, from the buffer to the device. -/
def Transfer.store (transfer : Transfer) : Copy where
  src := transfer.place
  dst := transfer.address
  length := transfer.length

/-- The copies of a read: those of the transfers that succeed. -/
def loads (transfers : List Transfer) : List Copy :=
  (transfers.filter Transfer.done).map Transfer.load

/-- The copies of a write. -/
def stores (transfers : List Transfer) : List Copy :=
  (transfers.filter Transfer.done).map Transfer.store

/-- What a request returns and leaves. -/
structure Answer where
  ret : Int
  file : File
  data : Contents
  transfers : List Transfer

/-- No transfer has failed. -/
def Answer.succeeded (answer : Answer) : Bool := answer.transfers.all Transfer.done

/-- The end of a request. The length is returned whatever the transfers have returned. -/
def File.finish (file : File) (len : UInt16) (transfers : List Transfer)
    (memory data : Contents) : Answer where
  -- `return len;` is not in the branch it is indented for.
  ret := len.toNat
  file :=
    { offset := if transfers.all Transfer.done then file.offset + len.toNat else file.offset
      memory }
  data := data
  transfers := transfers

/-- The place in the buffer by the number of the transfers before. -/
def Device.placeOfCount (dev : Device) (_ : Int) (counts : Nat) : Int := counts * dev.pageSizeBytes

/-- The place in the buffer that a write takes its bytes from. -/
def Device.placeOfWrite (dev : Device) (offset : Int) (counts : Nat) : Int :=
  if dev.sizeBytes ≤ 256 then offset else dev.placeOfCount offset counts

/-- `eeprom_read_internal`; `fails` says which of its transfers fail. -/
def eepromReadInternal (dev : Device) (file : File) (len : UInt16) (fails : Nat → Bool)
    (data : Contents) : Answer :=
  if dev.sizeBytes < file.offset + len.toNat then ⟨-28, file, data, []⟩
  else
    let transfers := dev.request dev.placeOfCount fails file.offset len
    file.finish len transfers file.memory (Copy.apply file.memory (loads transfers) data)

/-- `eeprom_write_internal`. -/
def eepromWriteInternal (dev : Device) (file : File) (len : UInt16) (fails : Nat → Bool)
    (data : Contents) : Answer :=
  if dev.sizeBytes < file.offset + len.toNat then ⟨-28, file, data, []⟩
  else
    let transfers := dev.request dev.placeOfWrite fails file.offset len
    file.finish len transfers (Copy.apply data (stores transfers) file.memory) data

/-- `SEEK_SET`, `SEEK_CUR`, `SEEK_END` and any other number. -/
inductive Whence
  | set
  | cur
  | fromEnd
  | other

/-- The check of a seek, and the seek. -/
def File.moveTo (dev : Device) (file : File) (target : Int) : Int × File :=
  if target < dev.sizeBytes - 1 then (target, { file with offset := target })
  else (-29, file)

/-- Where `SEEK_CUR` goes: a sum in 32 bits. -/
def File.relative (file : File) (offset : Int32) : Int :=
  (file.offset + offset.toInt).bmod 4294967296

/-- `eeprom_seek0`, with what it returns. -/
def eepromSeek0 (dev : Device) (file : File) (offset : Int32) : Whence → Int × File
  | .set => file.moveTo dev offset.toInt
  | .cur => file.moveTo dev (file.relative offset)
  | .fromEnd => (-29, file)
  | .other => (file.offset, file)

/-! ### Runs -/

/-- What is called, with the caller's buffer and the transfers that fail. -/
inductive Event
  | open0
  | seek0 (offset : Int32) (whence : Whence)
  | read (len : UInt16) (fails : Nat → Bool) (data : Contents)
  | write (len : UInt16) (fails : Nat → Bool) (data : Contents)

/-- A call. `eeprom_open0` resets the offset; nothing ever sets `is_open`. -/
def next (dev : Device) (file : File) : Event → File
  | .open0 => { file with offset := 0 }
  | .seek0 offset whence => (eepromSeek0 dev file offset whence).2
  | .read len fails data => (eepromReadInternal dev file len fails data).file
  | .write len fails data => (eepromWriteInternal dev file len fails data).file

/-- The driver, from `eeprom_attach` on. -/
def system (dev : Device) : LTS File Event where
  init file := file.offset = 0
  step file e file' := next dev file e = file'

/-! ### The law -/

/-- What a request returns, and where it leaves the offset. -/
structure Reported (file : File) (len : UInt16) (answer : Answer) : Prop where
  advanced : answer.succeeded = true →
    answer.ret = len.toNat ∧ answer.file.offset = file.offset + len.toNat
  failed : answer.succeeded = false → answer.ret < 0 ∧ answer.file.offset = file.offset

/-- A read of an array. -/
structure ReadsArray (file : File) (len : UInt16) (data : Contents) (answer : Answer) : Prop
    extends Reported file len answer where
  filled : answer.succeeded = true → ∀ i : Nat, i < len.toNat →
    answer.data i = file.memory (file.offset + i)
  kept : ∀ i : Int, i < 0 ∨ len.toNat ≤ i → answer.data i = data i

/-- A write to an array, with no transfer across a page border. -/
structure WritesArray (dev : Device) (file : File) (len : UInt16) (data : Contents)
    (answer : Answer) : Prop extends Reported file len answer where
  stored : answer.succeeded = true → ∀ i : Nat, i < len.toNat →
    answer.file.memory (file.offset + i) = data i
  kept : ∀ a : Int, a < file.offset ∨ file.offset + len.toNat ≤ a →
    answer.file.memory a = file.memory a
  paged : ∀ transfer ∈ answer.transfers,
    transfer.address % dev.pageSizeBytes + transfer.length ≤ dev.pageSizeBytes

/-- The law of a call. A request within the device is one to an array, whatever the device and the
buffer hold. -/
def Lawful (dev : Device) (file : File) : Event → Prop
  | .read len fails _ => file.offset + len.toNat ≤ dev.sizeBytes → ∀ memory data,
      ReadsArray { file with memory } len data
        (eepromReadInternal dev { file with memory } len fails data)
  | .write len fails _ => file.offset + len.toNat ≤ dev.sizeBytes → ∀ memory data,
      WritesArray dev { file with memory } len data
        (eepromWriteInternal dev { file with memory } len fails data)
  | _ => True

/-- The offset is one of the device, or its end. -/
def OnDevice (dev : Device) (file : File) : Prop :=
  0 ≤ file.offset ∧ file.offset ≤ dev.sizeBytes

/-! ### The condition -/

/-- A request has a transfer of that number: one for each page that it touches. -/
def Device.HasTransfer (dev : Device) (offset : Int) (len count : Nat) : Prop :=
  0 < len ∧ (count * dev.pageSizeBytes : Int) < offset % dev.pageSizeBytes + len

/-- A request begins with a page, or has one transfer. -/
def Device.Aligned (dev : Device) (offset : Int) (len : UInt16) : Prop :=
  offset % dev.pageSizeBytes = 0 ∨ offset % dev.pageSizeBytes + len.toNat ≤ dev.pageSizeBytes

/-- A seek does not go before the device, or is refused. -/
def Device.Checked (dev : Device) (target : Int) : Prop :=
  0 ≤ target ∨ (dev.sizeBytes : Int) - 1 ≤ target

/-- The condition of a call. -/
def Careful (dev : Device) (file : File) : Event → Prop
  | .open0 => True
  | .seek0 offset .set => dev.Checked offset.toInt
  | .seek0 offset .cur => dev.Checked (file.relative offset)
  | .seek0 _ _ => True
  | .read len fails _ => file.offset + len.toNat ≤ dev.sizeBytes →
      (∀ count, dev.HasTransfer file.offset len.toNat count → fails count = false) ∧
        dev.Aligned file.offset len
  | .write len fails _ => file.offset + len.toNat ≤ dev.sizeBytes →
      (∀ count, dev.HasTransfer file.offset len.toNat count → fails count = false) ∧
        if dev.sizeBytes ≤ 256 then file.offset = 0 ∨ len.toNat = 0
        else dev.Aligned file.offset len

/-! ### The transfers of a request -/

section

variable {dev : Device} {place : Int → Nat → Int} {fails : Nat → Bool} {stop : Int}

@[simp] theorem transfers_zero {counts : Nat} : dev.transfers place fails stop 0 counts = [] := by
  simp [Device.transfers]

theorem transfers_of_fails {remaining counts : Nat} (hpos : 0 < remaining)
    (h : fails counts = true) :
    dev.transfers place fails stop remaining counts =
      [dev.transfer place stop remaining counts false] := by
  rw [Device.transfers, if_neg (by omega), if_pos h]

theorem transfers_of_succeeds {remaining counts : Nat} (hpos : 0 < remaining)
    (h : fails counts = false) :
    dev.transfers place fails stop remaining counts =
      dev.transfer place stop remaining counts true ::
        dev.transfers place fails stop (remaining - min (dev.toBorder (stop - remaining)) remaining)
          (counts + 1) := by
  rw [Device.transfers, if_neg (by omega), if_neg (Bool.eq_false_iff.mp h)]

/-- **The rule of the loop**: an invariant of what is left and of the counter says what the
transfers are like. -/
theorem forall_transfers {I : Nat → Nat → Prop} {P : Transfer → Prop}
    (htransfer : ∀ remaining counts done, 0 < remaining → I remaining counts →
      P (dev.transfer place stop remaining counts done))
    (hkeep : ∀ remaining counts, 0 < remaining → I remaining counts →
      I (remaining - min (dev.toBorder (stop - remaining)) remaining) (counts + 1))
    {remaining counts : Nat} (hstart : I remaining counts) :
    ∀ transfer ∈ dev.transfers place fails stop remaining counts, P transfer := by
  induction remaining using Nat.strongRecOn generalizing counts with
  | _ remaining ih =>
      rcases Nat.eq_zero_or_pos remaining with rfl | hpos
      · simp
      · have hborder := dev.toBorder_pos (stop - remaining)
        cases hfails : fails counts with
        | true =>
            rw [transfers_of_fails hpos hfails, List.forall_mem_singleton]
            exact htransfer remaining counts false hpos hstart
        | false =>
            rw [transfers_of_succeeds hpos hfails, List.forall_mem_cons]
            exact ⟨htransfer remaining counts true hpos hstart,
              ih _ (by omega) (hkeep remaining counts hpos hstart)⟩

/-- A page border is as far away as the remainder says. -/
theorem Device.toBorder_of_nonneg (dev : Device) {offset : Int} (h : 0 ≤ offset) :
    (dev.toBorder offset : Int) = dev.pageSizeBytes - offset % dev.pageSizeBytes := by
  have hlt := Int.emod_lt_of_pos offset (Int.natCast_pos.mpr dev.pageSizeBytes_pos)
  rw [Device.toBorder, Int.tmod_eq_emod_of_nonneg h, Int.toNat_of_nonneg (by omega)]

/-- The loop goes on with whole pages. -/
theorem Device.emod_toBorder (dev : Device) {offset : Int} (h : 0 ≤ offset) :
    (offset + dev.toBorder offset) % dev.pageSizeBytes = 0 := by
  have hsplit := Int.mul_ediv_add_emod offset dev.pageSizeBytes
  have hnext : offset + dev.toBorder offset =
      dev.pageSizeBytes * (offset / dev.pageSizeBytes + 1) := by
    rw [dev.toBorder_of_nonneg h, Int.mul_add, Int.mul_one]
    omega
  rw [hnext, Int.mul_emod_right]

/-- Where the next transfer begins. -/
theorem start_of_next {remaining : Nat} (h : dev.toBorder (stop - remaining) ≤ remaining) :
    stop - ((remaining - min (dev.toBorder (stop - remaining)) remaining : Nat) : Int) =
      stop - remaining + dev.toBorder (stop - remaining) := by
  omega

/-- What is sent is the address. -/
theorem address_transfer {remaining counts : Nat} {done : Bool} (hnonneg : 0 ≤ stop - remaining)
    (hlt : stop - remaining < dev.sizeBytes) :
    ((dev.transfer place stop remaining counts done).address : Int) = stop - remaining := by
  have hsize := dev.sizeBytes_lt
  simp only [Transfer.address, Device.transfer, Device.cmd]
  split
  · simp only [List.foldl_cons, List.foldl_nil, UInt8.toNat_ofNat']
    omega
  · simp only [List.foldl_cons, List.foldl_nil, UInt8.toNat_ofNat']
    omega

section

variable {offset : Int} {remaining counts : Nat}

/-- A transfer keeps to the request, and to a page. -/
theorem within_request (hnonneg : 0 ≤ offset) (hstop : stop ≤ dev.sizeBytes)
    (hleft : offset ≤ stop - remaining) :
    ∀ transfer ∈ dev.transfers place fails stop remaining counts,
      offset ≤ transfer.address ∧ transfer.address + transfer.length ≤ stop ∧
        transfer.address % dev.pageSizeBytes + transfer.length ≤ dev.pageSizeBytes := by
  refine forall_transfers (I := fun remaining _ => offset ≤ stop - remaining) ?_ ?_ hleft
  · intro remaining counts done hpos hleft
    have hborder := dev.toBorder_of_nonneg (show 0 ≤ stop - remaining by omega)
    have haddress : ((dev.transfer place stop remaining counts done).address : Int) =
        stop - remaining := address_transfer (by omega) (by omega)
    have hmod : (((dev.transfer place stop remaining counts done).address % dev.pageSizeBytes :
        Nat) : Int) = (stop - remaining) % dev.pageSizeBytes := by
      rw [Int.natCast_emod, haddress]
    have hlength : (dev.transfer place stop remaining counts done).length =
        min (dev.toBorder (stop - remaining)) remaining := rfl
    omega
  · intro remaining counts hpos hleft
    omega

/-- The first transfer of a request. -/
theorem hasTransfer_zero {start : Int} (hpos : 0 < remaining) :
    dev.HasTransfer start remaining 0 := by
  have hmodulo := Int.emod_nonneg start
    (Int.ne_of_gt (Int.natCast_pos.mpr dev.pageSizeBytes_pos))
  exact ⟨hpos, by omega⟩

/-- The other transfers of a request are those of what the first one leaves. -/
theorem hasTransfer_succ_iff {count : Nat} (hnonneg : 0 ≤ stop - remaining) (hpos : 0 < remaining) :
    dev.HasTransfer (stop - remaining) remaining (count + 1) ↔
      let rest := remaining - min (dev.toBorder (stop - remaining)) remaining
      dev.HasTransfer (stop - rest) rest count := by
  have hborder := dev.toBorder_of_nonneg hnonneg
  have hnext := dev.emod_toBorder hnonneg
  have hcount : (0 : Int) ≤ count * dev.pageSizeBytes :=
    Int.natCast_nonneg (count * dev.pageSizeBytes)
  simp only [Device.HasTransfer]
  rw [Int.natCast_succ, Int.add_mul, Int.one_mul]
  by_cases hlast : remaining ≤ dev.toBorder (stop - remaining)
  · -- Nothing is left.
    omega
  · rw [start_of_next (by omega), hnext]
    omega

/-- The transfers fail where the condition says. -/
theorem all_done_iff (hnonneg : 0 ≤ stop - remaining) :
    (dev.transfers place fails stop remaining counts).all Transfer.done = true ↔
      ∀ count, dev.HasTransfer (stop - remaining) remaining count →
        fails (counts + count) = false := by
  induction remaining using Nat.strongRecOn generalizing counts with
  | _ remaining ih =>
      rcases Nat.eq_zero_or_pos remaining with rfl | hpos
      · simp [Device.HasTransfer]
      · have hborder := dev.toBorder_pos (stop - remaining)
        rw [← Nat.and_forall_add_one, imp_iff_right (hasTransfer_zero hpos), Nat.add_zero]
        cases hfails : fails counts with
        | true => simp [transfers_of_fails hpos hfails, Device.transfer]
        | false =>
            rw [transfers_of_succeeds hpos hfails, List.all_cons,
              show (dev.transfer place stop remaining counts true).done = true from rfl,
              Bool.true_and, ih _ (by omega) (by omega), and_iff_right rfl]
            refine forall_congr' fun count => ?_
            rw [hasTransfer_succ_iff hnonneg hpos, Nat.add_right_comm, Nat.add_assoc counts count]

/-- Transfers that succeed cover the request. -/
theorem covers_request (hnonneg : 0 ≤ stop - remaining) (hstop : stop ≤ dev.sizeBytes)
    (hdone : (dev.transfers place fails stop remaining counts).all Transfer.done = true) {x : Int}
    (hle : stop - remaining ≤ x) (hlt : x < stop) :
    ∃ transfer ∈ dev.transfers place fails stop remaining counts,
      transfer.address ≤ x ∧ x < transfer.address + transfer.length := by
  induction remaining using Nat.strongRecOn generalizing counts with
  | _ remaining ih =>
      have hpos : 0 < remaining := by omega
      have hborder := dev.toBorder_pos (stop - remaining)
      cases hfails : fails counts with
      | true =>
          rw [transfers_of_fails hpos hfails] at hdone
          cases hdone
      | false =>
          rw [transfers_of_succeeds hpos hfails] at hdone ⊢
          rw [List.all_cons, Bool.and_eq_true] at hdone
          by_cases hfirst : x < stop - remaining + min (dev.toBorder (stop - remaining)) remaining
          · have haddress : ((dev.transfer place stop remaining counts true).address : Int) =
                stop - remaining := address_transfer hnonneg (by omega)
            refine ⟨_, List.mem_cons_self, by omega, ?_⟩
            rw [haddress]
            simp only [Device.transfer]
            omega
          · obtain ⟨transfer, hmem, hcovers⟩ :=
              ih (remaining - min (dev.toBorder (stop - remaining)) remaining) (by omega) (by omega)
                hdone.2 (by omega)
            exact ⟨transfer, List.mem_cons_of_mem _ hmem, hcovers⟩

/-- Whole pages have their place by their number. -/
theorem place_of_aligned (hnonneg : 0 ≤ offset) (hstop : stop ≤ dev.sizeBytes)
    (hcounts : (counts * dev.pageSizeBytes : Int) = stop - remaining - offset)
    (haligned : (stop - remaining) % dev.pageSizeBytes = 0 ∨
      (stop - remaining) % dev.pageSizeBytes + remaining ≤ dev.pageSizeBytes) :
    ∀ transfer ∈ dev.transfers dev.placeOfCount fails stop remaining counts,
      transfer.place = transfer.address - offset := by
  refine forall_transfers (I := fun remaining counts =>
    offset ≤ stop - remaining ∧ (0 < remaining →
      (counts * dev.pageSizeBytes : Int) = stop - remaining - offset ∧
      ((stop - remaining) % dev.pageSizeBytes = 0 ∨
        (stop - remaining) % dev.pageSizeBytes + remaining ≤ dev.pageSizeBytes))) ?_ ?_
    ⟨?_, fun _ => ⟨hcounts, haligned⟩⟩
  · intro remaining counts done hpos ⟨hle, h⟩
    rw [address_transfer (show 0 ≤ stop - remaining by omega) (by omega)]
    exact (h hpos).1
  · intro remaining counts hpos ⟨hle, h⟩
    have hborder := dev.toBorder_of_nonneg (show 0 ≤ stop - remaining by omega)
    refine ⟨by omega, fun hrest => ?_⟩
    obtain ⟨hcounts, haligned | hlast⟩ := h hpos
    · have hnext := dev.emod_toBorder (show 0 ≤ stop - remaining by omega)
      rw [start_of_next (by omega), hnext, Int.natCast_succ, Int.add_mul, Int.one_mul]
      exact ⟨by omega, .inl rfl⟩
    · omega
  · have hplace : (0 : Int) ≤ counts * dev.pageSizeBytes :=
      Int.natCast_nonneg (counts * dev.pageSizeBytes)
    omega

/-- After a part of a page, the next place is the next page of the buffer: the bytes between have
none. -/
theorem place_of_unaligned (hnonneg : 0 ≤ offset) (hunaligned : 0 < offset % dev.pageSizeBytes)
    (hstop : stop = offset + remaining) :
    ∀ transfer ∈ dev.transfers dev.placeOfCount fails stop remaining 0,
      transfer.place + transfer.length ≤ dev.pageSizeBytes - offset % dev.pageSizeBytes ∨
        dev.pageSizeBytes - offset % dev.pageSizeBytes < transfer.place := by
  refine forall_transfers
    (I := fun remaining counts => 0 < counts ∨ stop = offset + remaining) ?_ ?_ (.inr hstop)
  · intro remaining counts done hpos hfirst
    simp only [Device.transfer, Device.placeOfCount]
    rcases Nat.eq_zero_or_pos counts with rfl | hcounts
    · have hoffset : stop - remaining = offset := by omega
      have hborder := dev.toBorder_of_nonneg hnonneg
      rw [hoffset]
      omega
    · have hplace : dev.pageSizeBytes ≤ counts * dev.pageSizeBytes :=
        Nat.le_mul_of_pos_left _ hcounts
      right
      rw [← Int.natCast_mul]
      omega
  · exact fun _ counts _ _ => .inl (Nat.succ_pos counts)

end

end

/-! ### A request -/

/-- Every byte has its place in the buffer. -/
def Placed (offset : Int) (transfers : List Transfer) : Prop :=
  ∀ transfer ∈ transfers, transfer.place = transfer.address - offset

/-- A byte of the buffer is no place of a transfer. -/
def Skips (p : Int) (transfers : List Transfer) : Prop :=
  ∀ transfer ∈ transfers, ¬ (transfer.place ≤ p ∧ p < transfer.place + transfer.length)

section

variable {dev : Device} {place : Int → Nat → Int} {fails : Nat → Bool} {file : File}
  {offset : Int} {len : UInt16} {memory data : Contents} {transfers : List Transfer}

theorem request_all_done_iff (place : Int → Nat → Int) (hnonneg : 0 ≤ offset) :
    (dev.request place fails offset len).all Transfer.done = true ↔
      ∀ count, dev.HasTransfer offset len.toNat count → fails count = false := by
  have hstart : offset + len.toNat - (len.toNat : Int) = offset := by omega
  rw [Device.request, all_done_iff (by omega), hstart]
  simp only [Nat.zero_add]

/-- The return value is right when there is nothing to report. -/
theorem reported_finish_iff :
    Reported file len (file.finish len transfers memory data) ↔
      transfers.all Transfer.done = true := by
  constructor
  · intro h
    by_contra hfailed
    -- A failure would have to be reported by a negative length.
    have hneg : (len.toNat : Int) < 0 := (h.failed (Bool.eq_false_iff.mpr hfailed)).1
    omega
  · intro h
    exact ⟨fun _ => ⟨rfl, if_pos h⟩, fun hfailed => absurd h (Bool.eq_false_iff.mp hfailed)⟩

/-- Whole pages, or one transfer: every byte has its place. -/
theorem placed_of_aligned (hnonneg : 0 ≤ offset) (hdevice : offset + len.toNat ≤ dev.sizeBytes)
    (haligned : dev.Aligned offset len) :
    Placed offset (dev.request dev.placeOfCount fails offset len) := by
  have hstart : offset + len.toNat - (len.toNat : Int) = offset := by omega
  refine place_of_aligned hnonneg hdevice (by omega) ?_
  rw [hstart]
  exact haligned

/-- Otherwise the bytes of the first page are too few to reach the place of the second. -/
theorem exists_skips_of_not_aligned (hnonneg : 0 ≤ offset) (h : ¬ dev.Aligned offset len) :
    ∃ p : Nat, p < len.toNat ∧ Skips p (dev.request dev.placeOfCount fails offset len) := by
  have hmodulo := Int.emod_nonneg offset
    (Int.ne_of_gt (Int.natCast_pos.mpr dev.pageSizeBytes_pos))
  have hlt := Int.emod_lt_of_pos offset (Int.natCast_pos.mpr dev.pageSizeBytes_pos)
  rw [Device.Aligned, not_or] at h
  -- The first byte of the second page.
  refine ⟨(dev.pageSizeBytes - offset % dev.pageSizeBytes).toNat, by omega, ?_⟩
  intro transfer hmem
  have hplace := place_of_unaligned hnonneg (by omega) rfl transfer hmem
  omega

/-- The address as a place. -/
theorem place_eq_address (hnonneg : 0 ≤ offset) (hdevice : offset + len.toNat ≤ dev.sizeBytes) :
    ∀ transfer ∈ dev.request (fun offset _ => offset) fails offset len,
      transfer.place = transfer.address := by
  refine forall_transfers (I := fun remaining _ => remaining ≤ len.toNat) ?_ ?_ (Nat.le_refl _)
  · intro remaining counts done hpos hle
    rw [address_transfer (by omega) (by omega)]
    rfl
  · intro remaining counts hpos hle
    omega

/-- It is right for a request from the start of the device. -/
theorem placed_of_address (hnonneg : 0 ≤ offset) (hdevice : offset + len.toNat ≤ dev.sizeBytes)
    (h : offset = 0 ∨ len.toNat = 0) :
    Placed offset (dev.request (fun offset _ => offset) fails offset len) := by
  intro transfer hmem
  have hplace := place_eq_address hnonneg hdevice transfer hmem
  rcases h with rfl | hempty
  · omega
  · rw [Device.request, hempty, transfers_zero] at hmem
    cases hmem

/-- The first byte is behind every other start. -/
theorem skips_of_address (hpos : 0 < offset) (hdevice : offset + len.toNat ≤ dev.sizeBytes) :
    Skips 0 (dev.request (fun offset _ => offset) fails offset len) := by
  intro transfer hmem
  have hplace := place_eq_address (by omega) hdevice transfer hmem
  have hle : offset ≤ transfer.address :=
    (within_request (by omega) hdevice (by omega) transfer hmem).1
  omega

/-! ### Reads and writes -/

/-- What the transfers of a request are like: they keep to the request and to the pages, and when
none fails, they cover the request. -/
structure Split (dev : Device) (offset : Int) (len : UInt16) (transfers : List Transfer) :
    Prop where
  within : ∀ transfer ∈ transfers,
    offset ≤ transfer.address ∧ transfer.address + transfer.length ≤ offset + len.toNat
  paged : ∀ transfer ∈ transfers,
    transfer.address % dev.pageSizeBytes + transfer.length ≤ dev.pageSizeBytes
  covers : transfers.all Transfer.done = true → ∀ i : Nat, i < len.toNat →
    ∃ transfer ∈ transfers, transfer.address ≤ offset + i ∧
      offset + i < transfer.address + transfer.length

theorem split_request (hnonneg : 0 ≤ offset) (hdevice : offset + len.toNat ≤ dev.sizeBytes) :
    Split dev offset len (dev.request place fails offset len) where
  within := fun transfer hmem =>
    have h := within_request hnonneg hdevice (by omega) transfer hmem
    ⟨h.1, h.2.1⟩
  paged := fun transfer hmem => (within_request hnonneg hdevice (by omega) transfer hmem).2.2
  covers := fun hdone i hi => covers_request (by omega) hdevice hdone (by omega) (by omega)

theorem mem_loads {load : Copy} :
    load ∈ loads transfers ↔
      ∃ transfer ∈ transfers, transfer.done = true ∧ transfer.load = load := by
  simp [loads, and_assoc]

theorem mem_stores {store : Copy} :
    store ∈ stores transfers ↔
      ∃ transfer ∈ transfers, transfer.done = true ∧ transfer.store = store := by
  simp [stores, and_assoc]

/-- A read in which every byte has its place. -/
theorem readsArray_of_placed (hsplit : Split dev file.offset len transfers)
    (hdone : transfers.all Transfer.done = true) (hplaced : Placed file.offset transfers) :
    ReadsArray file len data
      (file.finish len transfers file.memory
        (Copy.apply file.memory (loads transfers) data)) where
  toReported := reported_finish_iff.mpr hdone
  filled := by
    intro _ i hi
    obtain ⟨transfer, hmem, hle, hlt⟩ := hsplit.covers hdone i hi
    have hplace := hplaced transfer hmem
    have hcovers : transfer.load.Covers i := by
      simp only [Copy.Covers, Transfer.load]
      omega
    have hload := mem_loads.mpr ⟨transfer, hmem, List.all_eq_true.mp hdone transfer hmem, rfl⟩
    rw [Int.add_comm]
    refine Copy.apply_of_shifted ?_ ⟨_, hload, hcovers⟩
    intro load hload
    obtain ⟨transfer, hmem, -, rfl⟩ := mem_loads.mp hload
    have hplace := hplaced transfer hmem
    simp only [Transfer.load]
    omega
  kept := by
    intro i hi
    refine Copy.apply_of_outside fun load hload hcovers => ?_
    obtain ⟨transfer, hmem, -, rfl⟩ := mem_loads.mp hload
    have hplace := hplaced transfer hmem
    have hwithin := hsplit.within transfer hmem
    simp only [Copy.Covers, Transfer.load] at hcovers
    omega

/-- A write in which every byte has its place. -/
theorem writesArray_of_placed (hsplit : Split dev file.offset len transfers)
    (hdone : transfers.all Transfer.done = true) (hplaced : Placed file.offset transfers) :
    WritesArray dev file len data
      (file.finish len transfers (Copy.apply data (stores transfers) file.memory) data) where
  toReported := reported_finish_iff.mpr hdone
  stored := by
    intro _ i hi
    obtain ⟨transfer, hmem, hle, hlt⟩ := hsplit.covers hdone i hi
    have hstore := mem_stores.mpr ⟨transfer, hmem, List.all_eq_true.mp hdone transfer hmem, rfl⟩
    have hshift : ∀ store ∈ stores transfers, store.src = store.dst + -file.offset := by
      intro store hstore
      obtain ⟨transfer, hmem, -, rfl⟩ := mem_stores.mp hstore
      exact hplaced transfer hmem
    calc Copy.apply data (stores transfers) file.memory (file.offset + i)
        = data (file.offset + i + -file.offset) :=
          Copy.apply_of_shifted hshift ⟨_, hstore, hle, hlt⟩
      _ = data i := by
          congr 1
          omega
  kept := by
    intro a ha
    refine Copy.apply_of_outside fun store hstore hcovers => ?_
    obtain ⟨transfer, hmem, -, rfl⟩ := mem_stores.mp hstore
    have hwithin := hsplit.within transfer hmem
    simp only [Copy.Covers, Transfer.store] at hcovers
    omega
  paged := hsplit.paged

/-- A read in which a byte has no place. -/
theorem not_readsArray_of_skips (offset : Int) {p : Nat} (hp : p < len.toNat)
    (hskips : Skips p transfers) (hdone : transfers.all Transfer.done = true) :
    ∃ memory data, ¬ ReadsArray ⟨offset, memory⟩ len data
      (File.finish ⟨offset, memory⟩ len transfers memory
        (Copy.apply memory (loads transfers) data)) := by
  refine ⟨fun _ => 1, fun _ => 0, fun h => ?_⟩
  have hfilled : Copy.apply (fun _ => 1) (loads transfers) (fun _ => 0) (p : Int) = (1 : UInt8) :=
    h.filled hdone p hp
  -- The byte keeps the value from before.
  rw [Copy.apply_of_outside] at hfilled
  · cases hfilled
  · intro load hload hcovers
    obtain ⟨transfer, hmem, -, rfl⟩ := mem_loads.mp hload
    exact hskips transfer hmem hcovers

/-- A write in which a byte has no place. -/
theorem not_writesArray_of_skips (dev : Device) (offset : Int) {p : Nat} (hp : p < len.toNat)
    (hskips : Skips p transfers) (hdone : transfers.all Transfer.done = true) :
    ∃ memory data, ¬ WritesArray dev ⟨offset, memory⟩ len data
      (File.finish ⟨offset, memory⟩ len transfers
        (Copy.apply data (stores transfers) memory) data) := by
  refine ⟨fun _ => 0, fun i => if i = p then 1 else 0, fun h => ?_⟩
  have hstored : Copy.apply (fun i : Int => if i = p then 1 else 0) (stores transfers)
      (fun _ => 0) (offset + p) = (if (p : Int) = p then 1 else 0 : UInt8) :=
    h.stored hdone p hp
  -- The byte is the only one that is not zero, and it is not sent.
  rw [if_pos rfl, Copy.apply_of_unread (p := p) (a := 0) (fun i hi => if_neg hi) ?_ rfl] at hstored
  · cases hstored
  · intro store hstore
    obtain ⟨transfer, hmem, -, rfl⟩ := mem_stores.mp hstore
    exact hskips transfer hmem

theorem read_within (hdevice : offset + len.toNat ≤ dev.sizeBytes) :
    eepromReadInternal dev ⟨offset, memory⟩ len fails data =
      let transfers := dev.request dev.placeOfCount fails offset len
      File.finish ⟨offset, memory⟩ len transfers memory
        (Copy.apply memory (loads transfers) data) :=
  if_neg (Int.not_lt.mpr hdevice)

theorem write_within (hdevice : offset + len.toNat ≤ dev.sizeBytes) :
    eepromWriteInternal dev ⟨offset, memory⟩ len fails data =
      let transfers := dev.request dev.placeOfWrite fails offset len
      File.finish ⟨offset, memory⟩ len transfers
        (Copy.apply data (stores transfers) memory) data :=
  if_neg (Int.not_lt.mpr hdevice)

/-- **Which reads are those of an array.** -/
theorem readsArray_iff (hnonneg : 0 ≤ offset) (hdevice : offset + len.toNat ≤ dev.sizeBytes) :
    (∀ memory data, ReadsArray ⟨offset, memory⟩ len data
      (eepromReadInternal dev ⟨offset, memory⟩ len fails data)) ↔
      (∀ count, dev.HasTransfer offset len.toNat count → fails count = false) ∧
        dev.Aligned offset len := by
  simp only [read_within hdevice]
  rw [← request_all_done_iff dev.placeOfCount hnonneg]
  constructor
  · intro h
    have hdone := reported_finish_iff.mp (h (fun _ => 0) fun _ => 0).toReported
    refine ⟨hdone, ?_⟩
    by_contra hunaligned
    obtain ⟨p, hp, hskips⟩ := exists_skips_of_not_aligned hnonneg hunaligned
    obtain ⟨memory, data, hnot⟩ := not_readsArray_of_skips offset hp hskips hdone
    exact hnot (h memory data)
  · rintro ⟨hdone, haligned⟩ memory data
    exact readsArray_of_placed (split_request hnonneg hdevice) hdone
      (placed_of_aligned hnonneg hdevice haligned)

/-- **Which writes are those of an array**, when the transfers have their place by a rule. -/
theorem writesArray_iff_of_place {Right : Prop} (hnonneg : 0 ≤ offset)
    (hdevice : offset + len.toNat ≤ dev.sizeBytes)
    (hplaced : Right → Placed offset (dev.request dev.placeOfWrite fails offset len))
    (hskips : ¬ Right →
      ∃ p : Nat, p < len.toNat ∧ Skips p (dev.request dev.placeOfWrite fails offset len)) :
    (∀ memory data, WritesArray dev ⟨offset, memory⟩ len data
      (eepromWriteInternal dev ⟨offset, memory⟩ len fails data)) ↔
      (∀ count, dev.HasTransfer offset len.toNat count → fails count = false) ∧ Right := by
  simp only [write_within hdevice]
  rw [← request_all_done_iff dev.placeOfWrite hnonneg]
  constructor
  · intro h
    have hdone := reported_finish_iff.mp (h (fun _ => 0) fun _ => 0).toReported
    refine ⟨hdone, ?_⟩
    by_contra hwrong
    obtain ⟨p, hp, hskips⟩ := hskips hwrong
    obtain ⟨memory, data, hnot⟩ := not_writesArray_of_skips dev offset hp hskips hdone
    exact hnot (h memory data)
  · rintro ⟨hdone, hright⟩ memory data
    exact writesArray_of_placed (split_request hnonneg hdevice) hdone (hplaced hright)

theorem placeOfWrite_of_small (h : dev.sizeBytes ≤ 256) :
    dev.placeOfWrite = fun offset _ => offset := by
  funext offset counts
  exact if_pos h

theorem placeOfWrite_of_large (h : ¬ dev.sizeBytes ≤ 256) :
    dev.placeOfWrite = dev.placeOfCount := by
  funext offset counts
  exact if_neg h

/-- **Which writes are those of an array.** -/
theorem writesArray_iff (hnonneg : 0 ≤ offset) (hdevice : offset + len.toNat ≤ dev.sizeBytes) :
    (∀ memory data, WritesArray dev ⟨offset, memory⟩ len data
      (eepromWriteInternal dev ⟨offset, memory⟩ len fails data)) ↔
      (∀ count, dev.HasTransfer offset len.toNat count → fails count = false) ∧
        if dev.sizeBytes ≤ 256 then offset = 0 ∨ len.toNat = 0 else dev.Aligned offset len := by
  by_cases hsmall : dev.sizeBytes ≤ 256
  · rw [if_pos hsmall]
    refine writesArray_iff_of_place hnonneg hdevice (fun h => ?_) fun h => ?_
    · rw [placeOfWrite_of_small hsmall]
      exact placed_of_address hnonneg hdevice h
    · rw [placeOfWrite_of_small hsmall]
      rw [not_or] at h
      exact ⟨0, by omega, skips_of_address (by omega) hdevice⟩
  · rw [if_neg hsmall]
    refine writesArray_iff_of_place hnonneg hdevice (fun h => ?_) fun h => ?_
    · rw [placeOfWrite_of_large hsmall]
      exact placed_of_aligned hnonneg hdevice h
    · rw [placeOfWrite_of_large hsmall]
      exact exists_skips_of_not_aligned hnonneg h

/-! ### A call -/

/-- A seek keeps the offset on the device where it is checked at both ends. -/
theorem onDevice_moveTo_iff {target : Int} (h : OnDevice dev file) :
    OnDevice dev (file.moveTo dev target).2 ↔ dev.Checked target := by
  unfold File.moveTo Device.Checked
  split
  · simp only [OnDevice]
    omega
  · simp only [h, true_iff]
    omega

/-- A request moves the offset to the end of what it is for, if anywhere. -/
theorem onDevice_finish (h : OnDevice dev file)
    (hdevice : file.offset + len.toNat ≤ dev.sizeBytes) :
    OnDevice dev (file.finish len transfers memory data).file := by
  obtain ⟨hnonneg, hle⟩ := h
  simp only [File.finish, OnDevice]
  split <;> omega

theorem onDevice_read (h : OnDevice dev file) :
    OnDevice dev (next dev file (.read len fails data)) := by
  simp only [next, eepromReadInternal]
  split
  · exact h
  · exact onDevice_finish h (by omega)

theorem onDevice_write (h : OnDevice dev file) :
    OnDevice dev (next dev file (.write len fails data)) := by
  simp only [next, eepromWriteInternal]
  split
  · exact h
  · exact onDevice_finish h (by omega)

/-- **The law of a call.** -/
theorem onDevice_and_lawful_iff {e : Event} (h : OnDevice dev file) :
    OnDevice dev (next dev file e) ∧ Lawful dev file e ↔ Careful dev file e := by
  cases e with
  | open0 => simp [OnDevice, next, Lawful, Careful]
  | seek0 offset whence =>
      rw [show Lawful dev file (.seek0 offset whence) ↔ True from Iff.rfl, and_true]
      cases whence with
      | set => exact onDevice_moveTo_iff h
      | cur => exact onDevice_moveTo_iff h
      | fromEnd => exact iff_of_true h trivial
      | other => exact iff_of_true h trivial
  | read len fails data =>
      rw [and_iff_right (onDevice_read h)]
      exact forall_congr' fun hdevice => readsArray_iff h.1 hdevice
  | write len fails data =>
      rw [and_iff_right (onDevice_write h)]
      exact forall_congr' fun hdevice => writesArray_iff h.1 hdevice

end

/-! ### Runs -/

/-- Careful calls keep the offset on the device. -/
theorem onDevice_of_reachable {dev : Device} {file : File}
    (h : ((system dev).restrict (Careful dev)).Reachable file) : OnDevice dev file := by
  refine h.invariant (I := OnDevice dev) (fun file hinit => ?_) fun file e file' hfile hstep => ?_
  · have hzero : file.offset = 0 := hinit
    rw [OnDevice, hzero]
    omega
  · obtain ⟨hcareful, rfl⟩ := hstep
    exact ((onDevice_and_lawful_iff hfile).mpr hcareful).1

/-- **The file is a byte array** in exactly the runs of careful calls: the requests within the
device are those of an array, and the offset stays on the device. -/
theorem raw_access_array_iff (dev : Device) (memory : Contents) (es : List Event) (file : File) :
    ((system dev).obeying fun file e file' => OnDevice dev file' ∧ Lawful dev file e).Run
        ⟨0, memory⟩ es file ↔
      ((system dev).restrict (Careful dev)).Run ⟨0, memory⟩ es file := by
  refine LTS.run_obeying_iff (fun file e file' hreach hstep => ?_) rfl
  obtain rfl := hstep
  exact onDevice_and_lawful_iff (onDevice_of_reachable hreach)

/-- Not every run is one of an array. Eight bytes of the base-board EEPROM from its second byte on
are seven of the first page and one of the next, which goes to the ninth place of the buffer. -/
theorem unaligned_read_breaks : ¬ ∀ (dev : Device) (memory : Contents) (es : List Event)
    (file : File), (system dev).Run ⟨0, memory⟩ es file →
    ((system dev).obeying fun file e file' => OnDevice dev file' ∧ Lawful dev file e).Run
      ⟨0, memory⟩ es file := by
  intro h
  have hrun := h baseboard (fun _ => 0)
    [.seek0 1 .set, .read 8 (fun _ => false) fun _ => 0] _ (.cons rfl (.cons rfl (.nil _)))
  cases hrun with
  | cons hseek hrest =>
      obtain ⟨rfl, -⟩ := hseek
      cases hrest with
      | cons hread _ =>
          have hseeked : OnDevice baseboard
              (next baseboard ⟨0, fun _ => 0⟩ (.seek0 1 .set)) := ⟨by decide, by decide⟩
          have hcareful := (onDevice_and_lawful_iff hseeked).mp ⟨hread.1 ▸ hread.2.1, hread.2.2⟩
          rcases (hcareful (by decide)).2 with hborder | hlength
          · exact absurd hborder (by decide)
          · exact absurd hlength (by decide)

end Px4Firmware.Eeprom.Raw
