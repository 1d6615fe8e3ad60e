import Px4Firmware.Lib.Crc
import Mathlib.Data.List.Basic

/-!
# Px4Firmware.Uploader.ImageCrc

The checksum by which the uploader script (`Tools/px_uploader.py`) checks the flash of a board
after programming: `firmware.crc` of the image, as if it were padded with `0xff`, the contents of
erased flash, to the size of the flash.

Numbers are Python's, which have no width.
-/

namespace Px4Firmware.PxUploader

open Lib

/-- `crctab`. -/
def crctab : List Nat := [
  0x00000000, 0x77073096, 0xee0e612c, 0x990951ba, 0x076dc419, 0x706af48f, 0xe963a535, 0x9e6495a3,
  0x0edb8832, 0x79dcb8a4, 0xe0d5e91e, 0x97d2d988, 0x09b64c2b, 0x7eb17cbd, 0xe7b82d07, 0x90bf1d91,
  0x1db71064, 0x6ab020f2, 0xf3b97148, 0x84be41de, 0x1adad47d, 0x6ddde4eb, 0xf4d4b551, 0x83d385c7,
  0x136c9856, 0x646ba8c0, 0xfd62f97a, 0x8a65c9ec, 0x14015c4f, 0x63066cd9, 0xfa0f3d63, 0x8d080df5,
  0x3b6e20c8, 0x4c69105e, 0xd56041e4, 0xa2677172, 0x3c03e4d1, 0x4b04d447, 0xd20d85fd, 0xa50ab56b,
  0x35b5a8fa, 0x42b2986c, 0xdbbbc9d6, 0xacbcf940, 0x32d86ce3, 0x45df5c75, 0xdcd60dcf, 0xabd13d59,
  0x26d930ac, 0x51de003a, 0xc8d75180, 0xbfd06116, 0x21b4f4b5, 0x56b3c423, 0xcfba9599, 0xb8bda50f,
  0x2802b89e, 0x5f058808, 0xc60cd9b2, 0xb10be924, 0x2f6f7c87, 0x58684c11, 0xc1611dab, 0xb6662d3d,
  0x76dc4190, 0x01db7106, 0x98d220bc, 0xefd5102a, 0x71b18589, 0x06b6b51f, 0x9fbfe4a5, 0xe8b8d433,
  0x7807c9a2, 0x0f00f934, 0x9609a88e, 0xe10e9818, 0x7f6a0dbb, 0x086d3d2d, 0x91646c97, 0xe6635c01,
  0x6b6b51f4, 0x1c6c6162, 0x856530d8, 0xf262004e, 0x6c0695ed, 0x1b01a57b, 0x8208f4c1, 0xf50fc457,
  0x65b0d9c6, 0x12b7e950, 0x8bbeb8ea, 0xfcb9887c, 0x62dd1ddf, 0x15da2d49, 0x8cd37cf3, 0xfbd44c65,
  0x4db26158, 0x3ab551ce, 0xa3bc0074, 0xd4bb30e2, 0x4adfa541, 0x3dd895d7, 0xa4d1c46d, 0xd3d6f4fb,
  0x4369e96a, 0x346ed9fc, 0xad678846, 0xda60b8d0, 0x44042d73, 0x33031de5, 0xaa0a4c5f, 0xdd0d7cc9,
  0x5005713c, 0x270241aa, 0xbe0b1010, 0xc90c2086, 0x5768b525, 0x206f85b3, 0xb966d409, 0xce61e49f,
  0x5edef90e, 0x29d9c998, 0xb0d09822, 0xc7d7a8b4, 0x59b33d17, 0x2eb40d81, 0xb7bd5c3b, 0xc0ba6cad,
  0xedb88320, 0x9abfb3b6, 0x03b6e20c, 0x74b1d29a, 0xead54739, 0x9dd277af, 0x04db2615, 0x73dc1683,
  0xe3630b12, 0x94643b84, 0x0d6d6a3e, 0x7a6a5aa8, 0xe40ecf0b, 0x9309ff9d, 0x0a00ae27, 0x7d079eb1,
  0xf00f9344, 0x8708a3d2, 0x1e01f268, 0x6906c2fe, 0xf762575d, 0x806567cb, 0x196c3671, 0x6e6b06e7,
  0xfed41b76, 0x89d32be0, 0x10da7a5a, 0x67dd4acc, 0xf9b9df6f, 0x8ebeeff9, 0x17b7be43, 0x60b08ed5,
  0xd6d6a3e8, 0xa1d1937e, 0x38d8c2c4, 0x4fdff252, 0xd1bb67f1, 0xa6bc5767, 0x3fb506dd, 0x48b2364b,
  0xd80d2bda, 0xaf0a1b4c, 0x36034af6, 0x41047a60, 0xdf60efc3, 0xa867df55, 0x316e8eef, 0x4669be79,
  0xcb61b38c, 0xbc66831a, 0x256fd2a0, 0x5268e236, 0xcc0c7795, 0xbb0b4703, 0x220216b9, 0x5505262f,
  0xc5ba3bbe, 0xb2bd0b28, 0x2bb45a92, 0x5cb36a04, 0xc2d7ffa7, 0xb5d0cf31, 0x2cd99e8b, 0x5bdeae1d,
  0x9b64c2b0, 0xec63f226, 0x756aa39c, 0x026d930a, 0x9c0906a9, 0xeb0e363f, 0x72076785, 0x05005713,
  0x95bf4a82, 0xe2b87a14, 0x7bb12bae, 0x0cb61b38, 0x92d28e9b, 0xe5d5be0d, 0x7cdcefb7, 0x0bdbdf21,
  0x86d3d2d4, 0xf1d4e242, 0x68ddb3f8, 0x1fda836e, 0x81be16cd, 0xf6b9265b, 0x6fb077e1, 0x18b74777,
  0x88085ae6, 0xff0f6a70, 0x66063bca, 0x11010b5c, 0x8f659eff, 0xf862ae69, 0x616bffd3, 0x166ccf45,
  0xa00ae278, 0xd70dd2ee, 0x4e048354, 0x3903b3c2, 0xa7672661, 0xd06016f7, 0x4969474d, 0x3e6e77db,
  0xaed16a4a, 0xd9d65adc, 0x40df0b66, 0x37d83bf0, 0xa9bcae53, 0xdebb9ec5, 0x47b2cf7f, 0x30b5ffe9,
  0xbdbdf21c, 0xcabac28a, 0x53b39330, 0x24b4a3a6, 0xbad03605, 0xcdd70693, 0x54de5729, 0x23d967bf,
  0xb3667a2e, 0xc4614ab8, 0x5d681b02, 0x2a6f2b94, 0xb40bbe37, 0xc30c8ea1, 0x5a05df1b, 0x2d02ef8d]

/-- `crcpad`. -/
def crcpad : List UInt8 := [0xff, 0xff, 0xff, 0xff]

/-- `index`: the low byte of the sum of the state and the byte. -/
def index (state : Nat) (byte : UInt8) : Nat := (state ^^^ byte.toNat) &&& 0xff

theorem crctab_length : crctab.length = 256 := by decide +kernel

theorem index_lt (state : Nat) (byte : UInt8) : index state byte < crctab.length := by
  rw [crctab_length]
  exact Nat.and_lt_two_pow (n := 8) _ (by decide)

/-- A pass of the loop of `__crc32`. -/
def crc32Byte (state : Nat) (byte : UInt8) : Nat :=
  crctab.get ⟨index state byte, index_lt state byte⟩ ^^^ (state >>> (8 : Nat))

/-- `__crc32`. -/
def crc32 (bytes : List UInt8) (state : Nat) : Nat := bytes.foldl crc32Byte state

/-- Python's `range`, for a step that is positive. -/
def range (start stop step : Int) : List Int :=
  (List.range ((stop - start + step - 1) / step).toNat).map fun k : Nat =>
    start + step * k

/-- The loop of `firmware.__init__` that pads the image to a length of four bytes. -/
def padImage (image : List UInt8) : List UInt8 :=
  if image.length % 4 ≠ 0 then padImage (image ++ [0xff]) else image
termination_by (4 - image.length % 4) % 4
decreasing_by
  rw [List.length_append, List.length_singleton]
  omega

theorem padImage_aligned (image : List UInt8) : (padImage image).length % 4 = 0 := by
  induction image using padImage.induct with
  | case1 image h ih =>
      rw [padImage, if_pos h]
      exact ih
  | case2 image h =>
      rw [padImage, if_neg h]
      exact Decidable.not_not.mp h

/-- A `firmware`: its image, whose length is a multiple of four bytes. -/
structure Firmware where
  image : List UInt8
  aligned : image.length % 4 = 0

/-- `firmware.__init__`, for the image that the file holds. -/
def Firmware.init (image : List UInt8) : Firmware := ⟨padImage image, padImage_aligned image⟩

/-- `firmware.crc`. -/
def Firmware.crc (fw : Firmware) (padlen : Nat) : Nat :=
  (range fw.image.length ((padlen : Int) - 1) 4).foldl (fun state _ => crc32 crcpad state)
    (crc32 fw.image 0)

/-! ### One pass over the padded image -/

theorem crc32_append (bytes bytes' : List UInt8) (state : Nat) :
    crc32 (bytes ++ bytes') state = crc32 bytes' (crc32 bytes state) := List.foldl_append

/-- The passes of the loop over the pad, put together. -/
theorem iterate_crcpad (n state : Nat) :
    (crc32 crcpad)^[n] state = crc32 (List.replicate (4 * n) 0xff) state := by
  induction n generalizing state with
  | zero => rfl
  | succ n ih =>
      have hpad : List.replicate (4 * (n + 1)) 0xff = crcpad ++ List.replicate (4 * n) 0xff := by
        rw [Nat.mul_succ, Nat.add_comm, List.replicate_add]
        rfl
      rw [Function.iterate_succ_apply, ih, hpad, crc32_append]

/-- The loop over the pad runs once for every four bytes that the image lacks. -/
theorem length_range {start stop : Nat} (hle : start ≤ stop) (hstart : start % 4 = 0)
    (hstop : stop % 4 = 0) :
    4 * (range start ((stop : Int) - 1) 4).length = stop - start := by
  rw [range, List.length_map, List.length_range]
  omega

/-- The checksum is that of the image with the pad behind it. -/
theorem Firmware.crc_eq (fw : Firmware) {padlen : Nat} (hle : fw.image.length ≤ padlen)
    (hpadlen : padlen % 4 = 0) :
    fw.crc padlen
      = crc32 (fw.image ++ List.replicate (padlen - fw.image.length) 0xff) 0 := by
  rw [Firmware.crc, List.foldl_const, iterate_crcpad, length_range hle fw.aligned hpadlen,
    crc32_append]

/-- `__init__` fills the last word up. -/
theorem padImage_eq (image : List UInt8) :
    padImage image = image ++ List.replicate ((4 - image.length % 4) % 4) 0xff := by
  induction image using padImage.induct with
  | case1 image h ih =>
      have hone : (4 - image.length % 4) % 4
          = 1 + (4 - (image ++ [(0xff : UInt8)]).length % 4) % 4 := by
        rw [List.length_append, List.length_singleton]
        omega
      rw [padImage, if_pos h, ih, hone, List.replicate_add, List.append_assoc]
      rfl
  | case2 image h =>
      have hnone : (4 - image.length % 4) % 4 = 0 := by omega
      rw [padImage, if_neg h, hnone, List.replicate_zero, List.append_nil]

/-- What `__init__` appends is of the pad: the checksum is that of the file's image with `0xff`
behind it. -/
theorem Firmware.crc_init (image : List UInt8) {padlen : Nat} (hle : image.length ≤ padlen)
    (hpadlen : padlen % 4 = 0) :
    (Firmware.init image).crc padlen
      = crc32 (image ++ List.replicate (padlen - image.length) 0xff) 0 := by
  have himage : (Firmware.init image).image
      = image ++ List.replicate ((4 - image.length % 4) % 4) 0xff := padImage_eq image
  have hlength : (Firmware.init image).image.length
      = image.length + (4 - image.length % 4) % 4 := by
    rw [himage, List.length_append, List.length_replicate]
  have hpads : padlen - image.length
      = (4 - image.length % 4) % 4 + (padlen - (Firmware.init image).image.length) := by omega
  rw [Firmware.crc_eq _ (by omega) hpadlen, hpads, List.replicate_add, ← List.append_assoc,
    ← himage]

/-! ### The table -/

/-- The divisor of CRC-32, without its leading term, reflected. -/
def polynomial : Nat := 0xedb88320

/-- The table holds the division of each byte. -/
theorem crctab_eq {i : Nat} (hi : i < 256) :
    crctab.getD i 0 = Crc.shifts polynomial 8 i := by
  have htable : ∀ i < 256, crctab.getD i 0 = Crc.shifts polynomial 8 i := by decide +kernel
  exact htable i hi

theorem crc32Byte_eq (state : Nat) (byte : UInt8) :
    crc32Byte state byte = Crc.byte polynomial state byte := by
  rw [Crc.byte_eq_table polynomial (fun i hi => crctab_eq hi), crc32Byte]
  congr 1
  exact (List.getD_eq_getElem crctab 0 (index_lt state byte)).symm

/-- **The table-driven loop is CRC-32**, from any state and without a final complement. -/
theorem crc32_eq (bytes : List UInt8) (state : Nat) :
    crc32 bytes state = Crc.bytes polynomial state bytes := by
  rw [crc32, Crc.bytes]
  congr
  funext state byte
  exact crc32Byte_eq state byte

theorem crc32_lt (bytes : List UInt8) : crc32 bytes 0 < 2 ^ 32 := by
  rw [crc32_eq]
  exact Crc.bytes_lt (by decide) (by decide) bytes (by decide)

/-! ### The law -/

/-- **The checksum of the padded image**: over an image of whole words, to a length of whole words
that is not below the image's, `firmware.crc` is the table-driven checksum of the image followed by
`0xff`. This is CRC-32, computed bit by bit, and it fits in 32 bits. -/
theorem crc_padded (fw : Firmware) (padlen : Nat) (hle : fw.image.length ≤ padlen)
    (hpadlen : padlen % 4 = 0) :
    fw.crc padlen = crc32 (fw.image ++ List.replicate (padlen - fw.image.length) 0xff) 0 ∧
      fw.crc padlen = Crc.bytes polynomial 0
        (fw.image ++ List.replicate (padlen - fw.image.length) 0xff) ∧
      fw.crc padlen < 2 ^ 32 := by
  have hcrc := fw.crc_eq hle hpadlen
  refine ⟨hcrc, ?_, ?_⟩
  · rw [hcrc, crc32_eq]
  · rw [hcrc]
    exact crc32_lt _

/-- An image of one word in a flash of three. -/
def wordImage : Firmware := ⟨[0x31, 0x32, 0x33, 0x34], rfl⟩

theorem crc_padded_wordImage :
    wordImage.crc 12 = crc32 [0x31, 0x32, 0x33, 0x34, 0xff, 0xff, 0xff, 0xff, 0xff, 0xff, 0xff,
      0xff] 0 ∧
    wordImage.crc 12 = Crc.bytes polynomial 0 [0x31, 0x32, 0x33, 0x34, 0xff, 0xff, 0xff, 0xff,
      0xff, 0xff, 0xff, 0xff] ∧
    wordImage.crc 12 < 2 ^ 32 :=
  crc_padded wordImage 12 (by decide) rfl

end Px4Firmware.PxUploader
