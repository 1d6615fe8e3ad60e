import Px4Firmware.Gps.Decode

/-!
# Px4Firmware.Gps.Mtk

**The MTK decoder** of the GPS app (`gps/mtk.c`, `gps/mtk.h`): the byte-wise parser `mtk_parse`, its
buffer, and the position it fills in. The names of its states are those of the source, where
`GOT_CK_A` and `GOT_CK_B` come after the two symbols that a packet begins with.

The conversion of the date and the time, which goes through floating point and `mktime`, is a
parameter. Console output and the mutex are left out.

`parse_packet` is about a fresh decoder that reads a packet: it returns one at the last byte, with
the contents of the packet in its buffer, and `decoded_packet` says which position they give.
-/

namespace Px4Firmware.Gps.Mtk

open Px4Firmware.Lib

/-! ### The data -/

/-- `MTK_BUFFER_SIZE`. -/
abbrev bufferSize : Nat := 128

/-- The length of a `gps_bin_mtk_packet_t` without its checksum. -/
abbrev packetSize : Nat := 33

/-- `enum MTK_DECODE_STATES`. -/
inductive DecodeState
  | uninit
  | gotCkA
  | gotCkB
  deriving DecidableEq

/-- `gps_bin_mtk_state_t`. -/
structure State where
  ckA : UInt8
  ckB : UInt8
  decodeState : DecodeState
  printErrors : Bool
  rxCount : Int16
  lastMessageTimestamp : UInt64

/-- The driver: its state, the buffer, the position, and how often the clock was read. -/
structure Driver where
  state : State
  rxBuffer : Vector UInt8 bufferSize
  position : VehicleGpsPosition
  clockReads : Nat

/-! ### The parser -/

namespace Driver

/-- The byte at an offset of the buffer. -/
def byteAt (d : Driver) (offset : Nat) : UInt8 := d.rxBuffer.toList.getD offset 0

/-- `mtk_decode_init`. -/
def decodeInit (d : Driver) : Driver :=
  { d with state := { d.state with
    ckA := 0
    ckB := 0
    rxCount := 0
    decodeState := .uninit
    printErrors := false } }

/-- `mtk_checksum`, on the checksum of the state. -/
def checksum (b : UInt8) (d : Driver) : Driver :=
  { d with state := { d.state with
    ckA := d.state.ckA + b
    ckB := d.state.ckB + (d.state.ckA + b) } }

/-- A byte of a packet is put into the buffer and counted; the checksum does not cover itself. -/
def receive (b : UInt8) (d : Driver) : Driver :=
  let d := if d.state.rxCount.toInt < 33 then d.checksum b else d
  { d with
    rxBuffer := d.rxBuffer.setIfInBounds d.state.rxCount.toInt.toNat b
    state := { d.state with rxCount := d.state.rxCount + 1 } }

/-- The checksum of the state is the one in the buffer. -/
def checksumOk (d : Driver) : Bool := d.state.ckA = d.byteAt 33 && d.state.ckB = d.byteAt 34

/-- Store the fields of a packet. The clock is read three times; what it shows at first is
overwritten. -/
def storePacket (unixTime : UInt32 → UInt32 → UInt64) (clock : Nat → UInt64) (d : Driver) :
    Driver :=
  { d with
    position := { d.position with
      lat := (word32 d.byteAt 1).toInt32 * 10
      lon := (word32 d.byteAt 5).toInt32 * 10
      alt := (word32 d.byteAt 9 * 10).toInt32
      fixType := d.byteAt 22
      eph := word16 d.byteAt 31
      epv := 65535
      vel := (word32 d.byteAt 13).toUInt16
      cog := 65535
      satellitesVisible := d.byteAt 21
      timeGpsUsec := unixTime (word32 d.byteAt 23) (word32 d.byteAt 27)
      counterPosValid := d.position.counterPosValid + 1
      timestamp := clock (d.clockReads + 1) }
    state := { d.state with lastMessageTimestamp := clock (d.clockReads + 2) }
    clockReads := d.clockReads + 3 }

/-- `mtk_parse`: whether a packet is complete, and the driver. -/
def mtkParse (unixTime : UInt32 → UInt32 → UInt64) (clock : Nat → UInt64) (b : UInt8)
    (d : Driver) : Nat × Driver :=
  match d.state.decodeState with
  | .uninit =>
      (0, if b = 0xd0 then { d with state := { d.state with decodeState := .gotCkA } } else d)
  | .gotCkA =>
      (0, if b = 0xdd then { d with state := { d.state with decodeState := .gotCkB } }
        else d.decodeInit)
  | .gotCkB =>
      let d := d.receive b
      if 35 ≤ d.state.rxCount.toInt then
        if d.checksumOk then
          (1, (d.storePacket unixTime clock).decodeInit)
        else
          (0, d.decodeInit)
      else
        (0, d)

/-- The decoder is as `mtk_decode_init` leaves it. -/
def Fresh (d : Driver) : Prop := d.decodeInit = d

end Driver

/-! ### Packets -/

/-- What a packet says, without its checksum. -/
structure Packet where
  contents : List UInt8
  length_eq : contents.length = packetSize

namespace Packet

/-- The checksum of the packet. -/
def checksum (p : Packet) : UInt8 × UInt8 := fletcher (0, 0) p.contents

/-- The packet on the wire. -/
def bytes (p : Packet) : List UInt8 := [0xd0, 0xdd] ++ p.contents ++ [p.checksum.1, p.checksum.2]

/-- The byte at an offset of the packet. -/
def byteAt (p : Packet) (offset : Nat) : UInt8 := p.contents.getD offset 0

/-- The position after a packet, but for its time stamp. -/
def update (unixTime : UInt32 → UInt32 → UInt64) (p : Packet) (position : VehicleGpsPosition) :
    VehicleGpsPosition :=
  { position with
    lat := (word32 p.byteAt 1).toInt32 * 10
    lon := (word32 p.byteAt 5).toInt32 * 10
    alt := (word32 p.byteAt 9 * 10).toInt32
    fixType := p.byteAt 22
    eph := word16 p.byteAt 31
    epv := 65535
    vel := (word32 p.byteAt 13).toUInt16
    cog := 65535
    satellitesVisible := p.byteAt 21
    timeGpsUsec := unixTime (word32 p.byteAt 23) (word32 p.byteAt 27)
    counterPosValid := position.counterPosValid + 1 }

theorem bytes_eq (p : Packet) :
    p.bytes = ([0xd0, 0xdd] ++ (p.contents ++ [p.checksum.1])) ++ [p.checksum.2] := by
  unfold bytes
  rw [List.append_assoc, List.append_assoc, List.append_assoc]
  rfl

theorem length_bytes (p : Packet) : p.bytes.length = 37 := by
  simp [bytes, p.length_eq]

end Packet

/-! ### Inside of a packet -/

/-- After the two symbols and some bytes of a packet, when the driver was `d` before. -/
structure Received (d : Driver) (received : List UInt8) (d' : Driver) : Prop where
  state : d'.state.decodeState = .gotCkB
  count : d'.state.rxCount.toInt = received.length
  ck : (d'.state.ckA, d'.state.ckB) = fletcher (0, 0) (received.take packetSize)
  buffer : ∀ i < received.length, d'.byteAt i = received.getD i 0
  position : d'.position = d.position
  clockReads : d'.clockReads = d.clockReads

section

variable (unixTime : UInt32 → UInt32 → UInt64) (clock : Nat → UInt64)

/-- The bytes are parsed one after the other: what `mtk_parse` returned for each, and the driver. -/
abbrev Driver.parseAll (bs : List UInt8) (d : Driver) : List Nat × Driver :=
  feed (fun b d => d.mtkParse unixTime clock b) bs d

/-- The two symbols, read by a decoder that starts anew. -/
theorem parse_symbols {d : Driver} (hfresh : d.Fresh) :
    (d.parseAll unixTime clock [0xd0, 0xdd]).1 = [0, 0] ∧
      Received d [] (d.parseAll unixTime clock [0xd0, 0xdd]).2 := by
  rw [← show d.decodeInit = d from hfresh]
  exact ⟨rfl, rfl, rfl, rfl, fun _ hi => absurd hi (Nat.not_lt_zero _), rfl, rfl⟩

/-- What a byte of a packet changes. -/
theorem receive_fields (d : Driver) (b : UInt8) :
    (d.receive b).state.decodeState = d.state.decodeState ∧
      (d.receive b).state.rxCount = d.state.rxCount + 1 ∧
      ((d.receive b).state.ckA, (d.receive b).state.ckB) =
        (if d.state.rxCount.toInt < 33 then fletcher (d.state.ckA, d.state.ckB) [b]
          else (d.state.ckA, d.state.ckB)) ∧
      (d.receive b).rxBuffer = d.rxBuffer.setIfInBounds d.state.rxCount.toInt.toNat b ∧
      (d.receive b).position = d.position ∧ (d.receive b).clockReads = d.clockReads := by
  unfold Driver.receive
  dsimp only
  split_ifs <;> exact ⟨rfl, rfl, rfl, rfl, rfl, rfl⟩

theorem Received.receive {d d' : Driver} {received : List UInt8} (h : Received d received d')
    (hroom : received.length < bufferSize) (b : UInt8) :
    Received d (received ++ [b]) (d'.receive b) := by
  obtain ⟨hstate, hsucc, hck, hbuffer, hposition, hclock⟩ := receive_fields d' b
  have hcount := h.count
  rw [hcount] at hck hbuffer
  refine ⟨hstate.trans h.state, ?_, ?_, ?_, hposition.trans h.position, hclock.trans h.clockReads⟩
  · unfold bufferSize at hroom
    rw [hsucc, toInt_succ (by omega) (by omega), hcount]
    simp
  · have hcovered := fletcher_take_concat [] received packetSize b
    rw [List.nil_append, List.nil_append, ← h.ck] at hcovered
    have hinside : (received.length : Int) < 33 ↔ received.length < packetSize := by
      unfold packetSize
      omega
    rw [hck, hcovered]
    simp only [hinside]
  · refine getD_concat_of_stored h.buffer fun i => ?_
    unfold Driver.byteAt
    rw [hbuffer]
    exact getD_setIfInBounds d'.rxBuffer hroom b i

/-- **A byte of a packet** before the last one. -/
theorem Received.byte {d d' : Driver} {received : List UInt8} (h : Received d received d')
    (hroom : received.length < 34) (b : UInt8) :
    (d'.mtkParse unixTime clock b).1 = 0 ∧
      Received d (received ++ [b]) (d'.mtkParse unixTime clock b).2 := by
  have hnext := h.receive (by unfold bufferSize; omega) b
  have hcount := hnext.count
  rw [List.length_append, List.length_singleton] at hcount
  have hparse : d'.mtkParse unixTime clock b = (0, d'.receive b) := by
    simp only [Driver.mtkParse, h.state]
    rw [if_neg (by omega)]
  rw [hparse]
  exact ⟨rfl, hnext⟩

/-- Several bytes of a packet. -/
theorem Received.bytes {d d' : Driver} {received : List UInt8} (h : Received d received d')
    (bs : List UInt8) (hroom : received.length + bs.length ≤ 34) :
    (d'.parseAll unixTime clock bs).1 = List.replicate bs.length 0 ∧
      Received d (received ++ bs) (d'.parseAll unixTime clock bs).2 :=
  feed_receives _ 34 (fun hreceived hlt b => hreceived.byte unixTime clock hlt b) bs h hroom

/-! ### A whole packet -/

/-- A packet up to its last byte. -/
theorem parse_start (p : Packet) {d : Driver} (hfresh : d.Fresh) :
    (d.parseAll unixTime clock p.bytes.dropLast).1 = List.replicate 36 0 ∧
      Received d (p.contents ++ [p.checksum.1])
        (d.parseAll unixTime clock p.bytes.dropLast).2 := by
  obtain ⟨hsymbols, hstart⟩ := parse_symbols unixTime clock hfresh
  have hlength : (p.contents ++ [p.checksum.1]).length = 34 := by
    rw [List.length_append, p.length_eq]
    rfl
  obtain ⟨hbody, hreceived⟩ := hstart.bytes unixTime clock (p.contents ++ [p.checksum.1])
    (by rw [hlength]; rfl)
  unfold Driver.parseAll at hsymbols hbody hreceived ⊢
  rw [p.bytes_eq, List.dropLast_concat, feed_append, hsymbols, hbody, hlength]
  exact ⟨rfl, hreceived⟩

/-- The last byte of a packet finds the checksum in the buffer. -/
theorem Received.checksumOk {p : Packet} {d d' : Driver}
    (h : Received d (p.contents ++ [p.checksum.1, p.checksum.2]) d') : d'.checksumOk = true := by
  have hck := h.ck
  have hlength : p.contents.length = 33 := p.length_eq
  rw [← p.length_eq, List.take_left] at hck
  have hckA : d'.state.ckA = p.checksum.1 := congrArg Prod.fst hck
  have hckB : d'.state.ckB = p.checksum.2 := congrArg Prod.snd hck
  have hbuffer := h.buffer
  rw [List.length_append, hlength, List.length_cons, List.length_singleton] at hbuffer
  have hfirst : d'.byteAt 33 = p.checksum.1 := by
    rw [hbuffer 33 (by decide), List.getD_append_right _ _ _ _ (Nat.le_of_eq hlength), hlength]
    rfl
  have hsecond : d'.byteAt 34 = p.checksum.2 := by
    rw [hbuffer 34 (by decide), List.getD_append_right _ _ _ _ (by omega), hlength]
    rfl
  simp [Driver.checksumOk, hckA, hckB, hfirst, hsecond]

/-- The last byte of a packet. -/
theorem Received.last {p : Packet} {d d' : Driver}
    (h : Received d (p.contents ++ [p.checksum.1]) d') :
    Received d (p.contents ++ [p.checksum.1, p.checksum.2]) (d'.receive p.checksum.2) ∧
      d'.mtkParse unixTime clock p.checksum.2 =
        (1, ((d'.receive p.checksum.2).storePacket unixTime clock).decodeInit) := by
  have hlength : (p.contents ++ [p.checksum.1]).length = 34 := by
    rw [List.length_append, p.length_eq]
    rfl
  have hcomplete := h.receive (by rw [hlength]; decide) p.checksum.2
  have hcount : (d'.receive p.checksum.2).state.rxCount.toInt = 35 := by
    rw [hcomplete.count, List.length_append, hlength]
    rfl
  rw [List.append_assoc, List.singleton_append] at hcomplete
  refine ⟨hcomplete, ?_⟩
  simp only [Driver.mtkParse, h.state]
  rw [if_pos (Int.le_of_eq hcount.symm), if_pos hcomplete.checksumOk]

/-- **The driver after a packet**: the fields are stored when all of it is in the buffer. -/
theorem parse_packet (p : Packet) {d : Driver} (hfresh : d.Fresh) :
    ∃ e : Driver, Received d (p.contents ++ [p.checksum.1, p.checksum.2]) e ∧
      d.parseAll unixTime clock p.bytes =
        (List.replicate 36 0 ++ [1], (e.storePacket unixTime clock).decodeInit) := by
  obtain ⟨hstart, hreceived⟩ := parse_start unixTime clock p hfresh
  obtain ⟨hcomplete, hlast⟩ := hreceived.last unixTime clock
  have hsplit : p.bytes = p.bytes.dropLast ++ [p.checksum.2] := by
    rw [p.bytes_eq, List.dropLast_concat]
  have hparse := feed_append (fun b d => Driver.mtkParse unixTime clock b d) p.bytes.dropLast
    [p.checksum.2] d
  rw [← hsplit, hstart, feed_cons, hlast] at hparse
  exact ⟨_, hcomplete, hparse⟩

/-- **The position after a packet** is the one it says, with the time it was read at. -/
theorem decoded_packet (p : Packet) {d : Driver} (hfresh : d.Fresh) :
    (d.parseAll unixTime clock p.bytes).2.position = { p.update unixTime d.position with
      timestamp := clock (d.clockReads + 1) } := by
  obtain ⟨e, hreceived, hparse⟩ := parse_packet unixTime clock p hfresh
  have hlength := p.length_eq
  have hbytes : ∀ i < packetSize, e.byteAt i = p.byteAt i := by
    intro i hi
    rw [hreceived.buffer i (by rw [List.length_append]; omega),
      List.getD_append _ _ _ _ (by omega)]
    rfl
  rw [hparse]
  show (e.storePacket unixTime clock).position = _
  simp only [Driver.storePacket, Packet.update]
  rw [word32_congr hbytes (by decide), word32_congr hbytes (by decide),
    word32_congr hbytes (by decide), word32_congr hbytes (by decide),
    word32_congr hbytes (by decide), word32_congr hbytes (by decide),
    word16_congr hbytes (by decide), hbytes 22 (by decide), hbytes 21 (by decide),
    hreceived.position, hreceived.clockReads]

end

end Px4Firmware.Gps.Mtk
