import Px4Firmware.Lib.Bytes

/-!
# Px4Firmware.Gps.Ubx

The UBX decoder of the GPS app (`gps/ubx.c`, `gps/ubx.h`): the state of the byte-wise parser
`ubx_parse`, the receive buffer, and the position it fills in.

Conversions through floating point, and `mktime`, are parameters (`Conversions`). The driver records
the index of every store into the receive buffer and into the satellite arrays; a store outside of
its array, which would overwrite other memory, is recorded and has no other effect here. Console
output and the mutex are left out.
-/

namespace Px4Firmware.Gps

open Px4Firmware.Lib

/-! ### The data -/

/-- `UBX_BUFFER_SIZE`. -/
abbrev ubxBufferSize : Nat := 1000

/-- The length of the satellite arrays. -/
abbrev satelliteSlots : Nat := 20

/-- `enum UBX_DECODE_STATES`. -/
inductive DecodeState
  | uninit
  | gotSync1
  | gotSync2
  | gotClass
  | gotMessageId
  | gotLength1
  | gotLength2
  deriving DecidableEq

/-- `enum UBX_MESSAGE_CLASSES`, without the one that is never used. -/
inductive MessageClass
  | unknown
  | nav
  | rxm
  deriving DecidableEq

/-- `enum UBX_MESSAGE_IDS`, without `ID_UNKNOWN`. -/
inductive MessageId
  | navPosllh
  | navSol
  | navTimeutc
  | navDop
  | navSvinfo
  | navVelned
  | rxmSvsi
  deriving DecidableEq

/-- The place of a message in `last_message_timestamps`. -/
def MessageId.index : MessageId → Fin 7
  | navPosllh => 0
  | navSol => 1
  | navTimeutc => 2
  | navDop => 3
  | navSvinfo => 4
  | navVelned => 5
  | rxmSvsi => 6

/-- `type_gps_bin_ubx_state`. The message id is `none` where the source has `ID_UNKNOWN`. -/
structure UbxState where
  ckA : UInt8
  ckB : UInt8
  decodeState : DecodeState
  printErrors : Bool
  rxCount : Int16
  payloadSize : UInt16
  messageClass : MessageClass
  messageId : Option MessageId
  lastMessageTimestamps : Vector UInt64 7

/-- One element of each of the five satellite arrays. -/
structure Satellite where
  prn : UInt8
  used : UInt8
  elevation : UInt8
  azimuth : UInt8
  snr : UInt8
  deriving DecidableEq

/-- An unused slot. -/
def Satellite.zero : Satellite := ⟨0, 0, 0, 0, 0⟩

/-- `struct vehicle_gps_position_s`. -/
structure VehicleGpsPosition where
  timestamp : UInt64
  counter : UInt32
  timeGpsUsec : UInt64
  lat : Int32
  lon : Int32
  alt : Int32
  counterPosValid : UInt16
  eph : UInt16
  epv : UInt16
  vel : UInt16
  cog : UInt16
  fixType : UInt8
  satellitesVisible : UInt8
  satellites : Vector Satellite satelliteSlots
  satelliteInfoAvailable : UInt8

/-- A store into the receive buffer, or into the satellite arrays. -/
inductive Store
  | rxBuffer (index : Int)
  | satellite (index : Nat)
  deriving DecidableEq

/-- The store hits its array. -/
def Store.inBounds : Store → Prop
  | rxBuffer index => 0 ≤ index ∧ index < ubxBufferSize
  | satellite index => index < satelliteSlots

instance (store : Store) : Decidable store.inBounds := by
  cases store <;> unfold Store.inBounds <;> infer_instance

/-- The conversions that go through floating point, and `mktime` of a date and a time. -/
structure Conversions where
  /-- `(uint64_t)mktime(…)`, from year, month, day, hour, minute and second. -/
  mktime : UInt16 → UInt8 → UInt8 → UInt8 → UInt8 → UInt8 → UInt64
  /-- `(uint64_t)(x * 1e-3f)`. -/
  microseconds : Int32 → UInt64
  /-- `(uint8_t)((float)x * 255.0f / 360.0f)`. -/
  azimuth : Int16 → UInt8
  /-- `(uint16_t)((float)x * 1e-3f)`. -/
  heading : Int32 → UInt16

/-- The driver: its state, the buffer, the position, how often the clock was read, and the stores so
far. -/
structure Driver where
  state : UbxState
  rxBuffer : Vector UInt8 ubxBufferSize
  position : VehicleGpsPosition
  clockReads : Nat
  stores : List Store

namespace Driver

/-! ### The receive buffer -/

/-- Store a byte. -/
def storeRx (index : Int) (b : UInt8) (d : Driver) : Driver :=
  { d with
    rxBuffer := if 0 ≤ index then d.rxBuffer.setIfInBounds index.toNat b else d.rxBuffer
    stores := d.stores ++ [.rxBuffer index] }

/-- The byte at an offset of the buffer. -/
def byteAt (d : Driver) (offset : Nat) : UInt8 := d.rxBuffer.toList.getD offset 0

/-- Store the satellite of a slot. -/
def storeSatellite (index : Nat) (satellite : Satellite) (d : Driver) : Driver :=
  { d with
    position := { d.position with
      satellites := d.position.satellites.setIfInBounds index satellite }
    stores := d.stores ++ [.satellite index] }

end Driver

/-- The little-endian 16-bit value at an offset. -/
def word16 (bytes : Nat → UInt8) (offset : Nat) : UInt16 :=
  UInt16.ofNat (ofDigits [bytes offset, bytes (offset + 1)])

/-- The little-endian 32-bit value at an offset. -/
def word32 (bytes : Nat → UInt8) (offset : Nat) : UInt32 :=
  UInt32.ofNat
    (ofDigits [bytes offset, bytes (offset + 1), bytes (offset + 2), bytes (offset + 3)])

/-! ### The messages -/

/-- What a channel of `NAV-SVINFO` says about its satellite. -/
def readSatellite (conv : Conversions) (bytes : Nat → UInt8) (offset : Nat) : Satellite :=
  let svid := bytes (offset + 1)
  let flags := bytes (offset + 2)
  -- Only a healthy satellite's data are stored.
  if flags &&& 16 = 0 then
    { prn := svid
      used := if flags &&& 1 ≠ 0 then 1 else 0
      elevation := bytes (offset + 5)
      azimuth := conv.azimuth (word16 bytes (offset + 6)).toInt16
      snr := bytes (offset + 4) }
  else
    { Satellite.zero with prn := svid }

namespace Driver

/-- Store the fields of `NAV-POSLLH`. -/
def navPosllh (d : Driver) : Driver :=
  { d with position := { d.position with
    lat := (word32 d.byteAt 8).toInt32
    lon := (word32 d.byteAt 4).toInt32
    alt := (word32 d.byteAt 16).toInt32
    counterPosValid := d.position.counterPosValid + 1 } }

/-- Store the fields of `NAV-SOL`. -/
def navSol (d : Driver) : Driver :=
  { d with position := { d.position with fixType := d.byteAt 10 } }

/-- Store the fields of `NAV-TIMEUTC`. -/
def navTimeutc (conv : Conversions) (d : Driver) : Driver :=
  { d with position := { d.position with
    timeGpsUsec :=
      1000000 * conv.mktime (word16 d.byteAt 12) (d.byteAt 14) (d.byteAt 15) (d.byteAt 16)
        (d.byteAt 17) (d.byteAt 18) + conv.microseconds (word32 d.byteAt 8).toInt32 } }

/-- Store the fields of `NAV-DOP`. -/
def navDop (d : Driver) : Driver :=
  { d with position := { d.position with
    eph := word16 d.byteAt 12
    epv := word16 d.byteAt 10 } }

/-- Store the fields of `NAV-SVINFO`: the channels, zeros in the other slots, and the flag. The
condition of the flag is `!packet_part1->numCh > 0`. -/
def navSvinfo (conv : Conversions) (d : Driver) : Driver :=
  let numCh := (d.byteAt 4).toNat
  let d := (List.range numCh).foldl
    (fun d i => d.storeSatellite i (readSatellite conv d.byteAt (8 + i * 12))) d
  let d := (List.range' numCh (satelliteSlots - numCh)).foldl
    (fun d i => d.storeSatellite i .zero) d
  { d with position := { d.position with
    satelliteInfoAvailable := if numCh = 0 then 1 else 0 } }

/-- Store the fields of `NAV-VELNED`. -/
def navVelned (conv : Conversions) (d : Driver) : Driver :=
  { d with position := { d.position with
    vel := (word32 d.byteAt 16).toUInt16
    cog := conv.heading (word32 d.byteAt 24).toInt32 } }

/-- Store the fields of `RXM-SVSI`. -/
def rxmSvsi (d : Driver) : Driver :=
  { d with position := { d.position with satellitesVisible := d.byteAt 6 } }

/-- Store the fields of a message. -/
def storeFields (conv : Conversions) (d : Driver) : MessageId → Driver
  | .navPosllh => d.navPosllh
  | .navSol => d.navSol
  | .navTimeutc => d.navTimeutc conv
  | .navDop => d.navDop
  | .navSvinfo => d.navSvinfo conv
  | .navVelned => d.navVelned conv
  | .rxmSvsi => d.rxmSvsi

/-- What is done after every message: the clock is read twice. -/
def stamp (clock : Nat → UInt64) (id : MessageId) (d : Driver) : Driver :=
  { d with
    position := { d.position with
      timestamp := clock d.clockReads
      counter := d.position.counter + 1 }
    state := { d.state with
      lastMessageTimestamps :=
        d.state.lastMessageTimestamps.set id.index (clock (d.clockReads + 1)) id.index.isLt }
    clockReads := d.clockReads + 2 }

/-! ### The parser -/

/-- `ubx_decode_init`. -/
def decodeInit (d : Driver) : Driver :=
  { d with state := { d.state with
    ckA := 0
    ckB := 0
    rxCount := 0
    decodeState := .uninit
    messageClass := .unknown
    messageId := none
    payloadSize := 0
    printErrors := false } }

/-- `ubx_checksum`, on the checksum of the state. -/
def checksum (b : UInt8) (d : Driver) : Driver :=
  { d with state := { d.state with
    ckA := d.state.ckA + b
    ckB := d.state.ckB + (d.state.ckA + b) } }

/-- The byte is a known message class. -/
def gotClass (messageClass : MessageClass) (d : Driver) : Driver :=
  { d with state := { d.state with decodeState := .gotClass, messageClass := messageClass } }

/-- The byte is a known message id. -/
def gotMessageId (id : MessageId) (d : Driver) : Driver :=
  { d with state := { d.state with decodeState := .gotMessageId, messageId := some id } }

/-- `rx_count++`. -/
def countByte (d : Driver) : Driver :=
  { d with state := { d.state with rxCount := d.state.rxCount + 1 } }

end Driver

/-- The id of a message in its class, as it is on the wire. -/
def messageIdOf : MessageClass → UInt8 → Option MessageId
  | .nav, b =>
      if b = 0x02 then some .navPosllh
      else if b = 0x06 then some .navSol
      else if b = 0x21 then some .navTimeutc
      else if b = 0x04 then some .navDop
      else if b = 0x30 then some .navSvinfo
      else if b = 0x12 then some .navVelned
      else none
  | .rxm, b => if b = 0x20 then some .rxmSvsi else none
  | .unknown, _ => none

/-- Where the checksum of a message is in the buffer, when it is complete: behind the packet of the
message, or at the end of what was received. -/
def MessageId.checksumOffset (rxCount : Int16) : MessageId → Nat
  | navPosllh => 28
  | navSol => 52
  | navTimeutc => 20
  | navDop => 18
  | navVelned => 36
  | navSvinfo => (rxCount.toInt - 1).toNat
  | rxmSvsi => (rxCount.toInt - 1).toNat

namespace Driver

/-- The checksum of the state is the one in the buffer. -/
def checksumOk (d : Driver) (id : MessageId) : Bool :=
  let offset := id.checksumOffset d.state.rxCount
  d.state.ckA = d.byteAt offset && d.state.ckB = d.byteAt (offset + 1)

/-- A byte of the payload or of the checksum is put into the buffer. -/
def receive (b : UInt8) (d : Driver) : Driver :=
  let d := if d.state.rxCount.toInt < d.state.payloadSize.toNat then d.checksum b else d
  d.storeRx d.state.rxCount.toInt b

/-- The payload and the checksum are in the buffer. -/
def complete (d : Driver) : Bool := d.state.payloadSize.toNat + 1 ≤ d.state.rxCount.toInt

/-- The last part of `ubx_parse`: a byte of the payload or of the checksum. -/
def parsePayload (conv : Conversions) (clock : Nat → UInt64) (b : UInt8) (d : Driver) :
    Nat × Driver :=
  let d := d.receive b
  if d.complete then
    match d.state.messageId with
    | some id =>
        if d.checksumOk id then
          (1, ((d.storeFields conv id).stamp clock id).decodeInit)
        else
          (0, d.decodeInit)
    | none => (0, d.decodeInit.countByte)
  else
    (0, d.countByte)

/-- `ubx_parse`: whether a message is complete, and the driver. -/
def ubxParse (conv : Conversions) (clock : Nat → UInt64) (b : UInt8) (d : Driver) :
    Nat × Driver :=
  match d.state.decodeState with
  | .uninit =>
      (0, if b = 0xb5 then { d with state := { d.state with decodeState := .gotSync1 } } else d)
  | .gotSync1 =>
      (0, if b = 0x62 then { d with state := { d.state with decodeState := .gotSync2 } }
        else d.decodeInit)
  | .gotSync2 =>
      let d := d.checksum b
      (0, if b = 0x01 then d.gotClass .nav else if b = 0x02 then d.gotClass .rxm
        else d.decodeInit)
  | .gotClass =>
      let d := d.checksum b
      match messageIdOf d.state.messageClass b with
      | some id => (0, d.gotMessageId id)
      | none => (0, d.decodeInit)
  | .gotMessageId =>
      let d := d.checksum b
      (0, { d with state := { d.state with
        payloadSize := UInt16.ofNat b.toNat
        decodeState := .gotLength1 } })
  | .gotLength1 =>
      let d := d.checksum b
      (0, { d with state := { d.state with
        payloadSize := UInt16.ofNat (d.state.payloadSize.toNat + b.toNat * 256)
        decodeState := .gotLength2 } })
  | .gotLength2 => d.parsePayload conv clock b

end Driver

/-! ### The reader -/

/-- `read_gps_ubx` while it reads: the driver, and the bytes that this call has counted. -/
structure Reader where
  driver : Driver
  rxCount : Nat

namespace Reader

/-- The check before a byte is parsed: a full buffer is flushed. -/
def flush (r : Reader) : Reader :=
  if ubxBufferSize ≤ r.rxCount then
    { driver := r.driver.decodeInit, rxCount := 0 }
  else
    { r with rxCount := r.rxCount + 1 }

/-- A byte is read. The call returns when a message is complete, and the next one counts anew. -/
def readByte (conv : Conversions) (clock : Nat → UInt64) (b : UInt8) (r : Reader) : Reader :=
  let (msgRead, driver) := r.flush.driver.ubxParse conv clock b
  { driver := driver, rxCount := if 0 < msgRead then 0 else r.flush.rxCount }

/-- The call returns because of a poll timeout or a failed read, and the next one counts anew. -/
def returns (r : Reader) : Reader := { r with rxCount := 0 }

end Reader

end Px4Firmware.Gps
