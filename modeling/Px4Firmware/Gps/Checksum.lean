import Mathlib.Data.List.Basic
import Px4Firmware.Gps.Decode

/-!
# Px4Firmware.Gps.Checksum

**Which messages the UBX decoder accepts.** A decoder without a buffer (`Wire`) says which messages
a stream of bytes has: for each the kind, the payload that its length declares, and the two bytes
that follow. The law is that `ubx_parse` accepts a message exactly when these two bytes are the
checksum, and that the fields it stores are those of a buffer that holds the payload and nothing
else.

`ubx_parse` looks for the checksum behind the packet of a message, though, and not behind the
payload: the law holds of the streams whose messages cover their packets (`acceptsByChecksum_run`),
and a message that is too short is compared with what is left in the buffer.
-/

namespace Px4Firmware.Gps

open Px4Firmware.Lib

/-! ### The messages in a stream of bytes -/

/-- A message: the payload that its length declares, and the two bytes that follow. -/
structure Message where
  id : MessageId
  payload : List UInt8
  ckA : UInt8
  ckB : UInt8

/-- The class, the id and the length on the wire. -/
def headerBytes (id : MessageId) (size : Nat) : List UInt8 :=
  [id.wireClass, id.wireId, UInt8.ofNat size, UInt8.ofNat (size / 256)]

/-- The two bytes that follow are the checksum. -/
def Message.Correct (m : Message) : Prop :=
  fletcher (0, 0) (headerBytes m.id m.payload.length ++ m.payload) = (m.ckA, m.ckB)

/-- A class on the wire. -/
def MessageClass.wire : MessageClass → UInt8
  | unknown => 0x00
  | nav => 0x01
  | rxm => 0x02

/-- Where a decoder without a buffer is in a stream of bytes: before a message, in its header, or in
its body of `size` bytes and a checksum. -/
inductive Wire
  | hunting
  | gotSync1
  | gotSync2
  | gotClass (messageClass : MessageClass)
  | gotMessageId (id : MessageId)
  | gotLength1 (id : MessageId) (low : UInt8)
  | body (id : MessageId) (size : Nat) (received : List UInt8)
  deriving DecidableEq

namespace Wire

/-- After a byte. -/
def next (b : UInt8) : Wire → Wire
  | hunting => if b = 0xb5 then gotSync1 else hunting
  | gotSync1 => if b = 0x62 then gotSync2 else hunting
  | gotSync2 => if b = 0x01 then gotClass .nav else if b = 0x02 then gotClass .rxm else hunting
  | gotClass messageClass =>
      match messageIdOf messageClass b with
      | some id => gotMessageId id
      | none => hunting
  | gotMessageId id => gotLength1 id b
  | gotLength1 id low => body id (low.toNat + b.toNat * 256) []
  | body id size received =>
      if received.length = size + 1 then hunting else body id size (received ++ [b])

/-- The message that a byte completes. -/
def completed (b : UInt8) : Wire → Option Message
  | body id size received =>
      if received.length = size + 1 then
        some ⟨id, received.take size, received.getD size 0, b⟩
      else none
  | _ => none

/-- If the byte is the second one of a length, the length is at most 900. -/
def Short (b : UInt8) : Wire → Prop
  | gotLength1 _ low => low.toNat + b.toNat * 256 ≤ 900
  | _ => True

end Wire

/-! ### The law -/

/-- The driver with a buffer that holds a payload and nothing else. -/
def Driver.holding (payload : List UInt8) (d : Driver) : Driver :=
  { d with rxBuffer := .ofFn fun i => payload.getD i.val 0 }

section

variable (conv : Conversions) (clock : Nat → UInt64)

/-- The position that a message leaves. -/
def Message.stored (m : Message) (d : Driver) : VehicleGpsPosition :=
  (((d.holding m.payload).storeFields conv m.id).stamp clock m.id).position

/-- The decoder on a stream of bytes with short messages, from any buffer. An event has the byte and
what `ubx_parse` returns. -/
def ubxStream : LTS (Driver × Wire) (UInt8 × Nat) where
  init p := p.1.Fresh ∧ p.1.stores = [] ∧ p.2 = .hunting
  step p e q := p.2.Short e.1 ∧ p.1.ubxParse conv clock e.1 = (e.2, q.1) ∧ q.2 = p.2.next e.1

/-- The law of a byte. -/
structure AcceptsByChecksum (p : Driver × Wire) (e : UInt8 × Nat) (q : Driver × Wire) : Prop where
  accepts : e.2 = 1 ↔ ∃ m, p.2.completed e.1 = some m ∧ m.Correct
  stored : e.2 = 1 → ∃ m, p.2.completed e.1 = some m ∧ q.1.position = m.stored conv clock p.1
  kept : e.2 ≠ 1 → q.1.position = p.1.position
  inBounds : ∀ store ∈ q.1.stores, store.inBounds

end

/-- A payload has all of the packet: it is as long as the packet of its kind, or it has the channels
that it says, not more than there are slots, or the part of `RXM-SVSI` that is read. -/
def MessageId.Covers (payload : List UInt8) : MessageId → Prop
  | navPosllh => payload.length = 28
  | navSol => payload.length = 52
  | navTimeutc => payload.length = 20
  | navDop => payload.length = 18
  | navVelned => payload.length = 36
  | navSvinfo =>
      8 + 12 * (payload.getD 4 0).toNat ≤ payload.length ∧
        (payload.getD 4 0).toNat ≤ satelliteSlots
  | rxmSvsi => 7 ≤ payload.length

/-- The condition on a byte: the message that it completes covers its packet. -/
def CoversPacket (p : Driver × Wire) (e : UInt8 × Nat) : Prop :=
  ∀ m, p.2.completed e.1 = some m → m.id.Covers m.payload

/-! ### The decoder follows the stream -/

/-- The driver in a header, after these bytes of it. -/
structure InHeader (d : Driver) (state : DecodeState) (bytes : List UInt8) : Prop where
  state : d.state.decodeState = state
  ck : (d.state.ckA, d.state.ckB) = fletcher (0, 0) bytes
  count : d.state.rxCount = 0

/-- The driver in a body, after these bytes of it. -/
structure InBody (d : Driver) (id : MessageId) (size : Nat) (received : List UInt8) : Prop where
  state : d.state.decodeState = .gotLength2
  messageId : d.state.messageId = some id
  payloadSize : d.state.payloadSize.toNat = size
  count : d.state.rxCount.toInt = received.length
  ck : (d.state.ckA, d.state.ckB) = fletcher (0, 0) (headerBytes id size ++ received.take size)
  buffer : ∀ i < received.length, d.byteAt i = received.getD i 0
  short : size ≤ 900
  le : received.length ≤ size + 1

/-- The driver is where the stream is. -/
def Follows (d : Driver) : Wire → Prop
  | .hunting => InHeader d .uninit []
  | .gotSync1 => InHeader d .gotSync1 []
  | .gotSync2 => InHeader d .gotSync2 []
  | .gotClass messageClass =>
      InHeader d .gotClass [messageClass.wire] ∧ d.state.messageClass = messageClass
  | .gotMessageId id =>
      InHeader d .gotMessageId [id.wireClass, id.wireId] ∧ d.state.messageId = some id
  | .gotLength1 id low =>
      InHeader d .gotLength1 [id.wireClass, id.wireId, low] ∧ d.state.messageId = some id ∧
        d.state.payloadSize.toNat = low.toNat
  | .body id size received => InBody d id size received

theorem follows_decodeInit (d : Driver) : Follows d.decodeInit .hunting := ⟨rfl, rfl, rfl⟩

/-- A known id is the one on the wire. -/
theorem wire_of_messageIdOf {messageClass : MessageClass} {b : UInt8} {id : MessageId}
    (h : messageIdOf messageClass b = some id) :
    id.wireClass = messageClass.wire ∧ id.wireId = b := by
  cases messageClass with
  | unknown => cases h
  | nav =>
      simp only [messageIdOf] at h
      split_ifs at h with h1 h2 h3 h4 h5 h6 <;> cases h
      · exact ⟨rfl, h1.symm⟩
      · exact ⟨rfl, h2.symm⟩
      · exact ⟨rfl, h3.symm⟩
      · exact ⟨rfl, h4.symm⟩
      · exact ⟨rfl, h5.symm⟩
      · exact ⟨rfl, h6.symm⟩
  | rxm =>
      simp only [messageIdOf] at h
      split_ifs at h with h1
      cases h
      exact ⟨rfl, h1.symm⟩

/-- What a byte that accepts nothing leaves. -/
structure Skips (d : Driver) (p : Nat × Driver) (w : Wire) : Prop where
  returned : p.1 = 0
  position : p.2.position = d.position
  inBounds : (∀ store ∈ d.stores, store.inBounds) → ∀ store ∈ p.2.stores, store.inBounds
  follows : Follows p.2 w

section

variable (conv : Conversions) (clock : Nat → UInt64) {d : Driver}

theorem checksum_ck {bytes : List UInt8}
    (h : (d.state.ckA, d.state.ckB) = fletcher (0, 0) bytes) (b : UInt8) :
    ((d.checksum b).state.ckA, (d.checksum b).state.ckB) = fletcher (0, 0) (bytes ++ [b]) := by
  rw [fletcher_append, ← h]
  rfl

/-- The length of a payload, from its two bytes. -/
theorem headerBytes_length (id : MessageId) (low high : UInt8) :
    headerBytes id (low.toNat + high.toNat * 256) = [id.wireClass, id.wireId, low, high] := by
  have hlow := low.toNat_lt
  have hhigh := high.toNat_lt
  have hfirst : UInt8.ofNat (low.toNat + high.toNat * 256) = low := by
    apply UInt8.toNat_inj.mp
    rw [UInt8.toNat_ofNat']
    omega
  have hsecond : UInt8.ofNat ((low.toNat + high.toNat * 256) / 256) = high := by
    apply UInt8.toNat_inj.mp
    rw [UInt8.toNat_ofNat']
    omega
  rw [headerBytes, hfirst, hsecond]

/-- **A byte before a body.** -/
theorem follows_header {w : Wire} (h : Follows d w) (hw : ∀ id size received,
    w ≠ .body id size received) {b : UInt8} (hshort : w.Short b) :
    Skips d (d.ubxParse conv clock b) (w.next b) := by
  cases w with
  | hunting =>
      unfold Driver.ubxParse
      rw [h.state]
      by_cases hb : b = 0xb5
      · simp only [hb, if_true, Wire.next]
        exact ⟨rfl, rfl, fun hstores => hstores, rfl, h.ck, h.count⟩
      · simp only [hb, if_false, Wire.next]
        exact ⟨rfl, rfl, fun hstores => hstores, h⟩
  | gotSync1 =>
      unfold Driver.ubxParse
      rw [h.state]
      by_cases hb : b = 0x62
      · simp only [hb, if_true, Wire.next]
        exact ⟨rfl, rfl, fun hstores => hstores, rfl, h.ck, h.count⟩
      · simp only [hb, if_false, Wire.next]
        exact ⟨rfl, rfl, fun hstores => hstores, follows_decodeInit d⟩
  | gotSync2 =>
      unfold Driver.ubxParse
      rw [h.state]
      have hck := checksum_ck h.ck b
      by_cases hnav : b = 0x01
      · simp only [hnav, if_true, Wire.next] at hck ⊢
        exact ⟨rfl, rfl, fun hstores => hstores, ⟨rfl, hck, h.count⟩, rfl⟩
      · by_cases hrxm : b = 0x02
        · simp only [hrxm, Wire.next] at hck ⊢
          exact ⟨rfl, rfl, fun hstores => hstores, ⟨rfl, hck, h.count⟩, rfl⟩
        · simp only [hnav, hrxm, if_false, Wire.next]
          exact ⟨rfl, rfl, fun hstores => hstores, follows_decodeInit _⟩
  | gotClass messageClass =>
      obtain ⟨hheader, hclass⟩ := h
      unfold Driver.ubxParse
      rw [hheader.state]
      have hck := checksum_ck hheader.ck b
      have hknown : (d.checksum b).state.messageClass = messageClass := hclass
      simp only [hknown, Wire.next]
      cases hid : messageIdOf messageClass b with
      | some id =>
          obtain ⟨hwire, rfl⟩ := wire_of_messageIdOf hid
          rw [← hwire] at hck
          exact ⟨rfl, rfl, fun hstores => hstores, ⟨rfl, hck, hheader.count⟩, rfl⟩
      | none => exact ⟨rfl, rfl, fun hstores => hstores, follows_decodeInit _⟩
  | gotMessageId id =>
      obtain ⟨hheader, hid⟩ := h
      unfold Driver.ubxParse
      rw [hheader.state]
      have hlow : (UInt16.ofNat b.toNat).toNat = b.toNat := by
        have := b.toNat_lt
        rw [UInt16.toNat_ofNat']
        omega
      exact ⟨rfl, rfl, fun hstores => hstores, ⟨rfl, checksum_ck hheader.ck b, hheader.count⟩, hid,
        hlow⟩
  | gotLength1 id low =>
      obtain ⟨hheader, hid, hlow⟩ := h
      unfold Driver.ubxParse
      rw [hheader.state]
      have hsize : (UInt16.ofNat (d.state.payloadSize.toNat + b.toNat * 256)).toNat =
          low.toNat + b.toNat * 256 := by
        have := low.toNat_lt
        have := b.toNat_lt
        rw [hlow, UInt16.toNat_ofNat']
        omega
      have hcount : d.state.rxCount.toInt = 0 := by
        rw [hheader.count]
        rfl
      have hck := checksum_ck hheader.ck b
      rw [List.cons_append, List.cons_append, List.cons_append, List.nil_append,
        ← headerBytes_length id low b] at hck
      exact {
        returned := rfl
        position := rfl
        inBounds := fun hstores => hstores
        follows := {
          state := rfl
          messageId := hid
          payloadSize := hsize
          count := hcount
          ck := by
            rw [List.take_nil, List.append_nil]
            exact hck
          buffer := fun i hi => absurd hi (Nat.not_lt_zero i)
          short := hshort
          le := Nat.zero_le _ } }
  | body id size received => exact absurd rfl (hw id size received)

/-! ### The body of a message -/

theorem InBody.receive_ck {id : MessageId} {size : Nat} {received : List UInt8}
    (h : InBody d id size received) (b : UInt8) :
    ((d.receive b).state.ckA, (d.receive b).state.ckB) =
      fletcher (0, 0) (headerBytes id size ++ (received ++ [b]).take size) :=
  Gps.receive_ck h.count h.payloadSize h.ck b

/-- A body fits into the buffer. -/
theorem InBody.room {id : MessageId} {size : Nat} {received : List UInt8}
    (h : InBody d id size received) : received.length < ubxBufferSize := by
  have := h.short
  have := h.le
  unfold ubxBufferSize
  omega

/-- The payload is in the buffer. -/
theorem InBody.payload {id : MessageId} {size : Nat} {received : List UInt8}
    (h : InBody d id size received) (b : UInt8) :
    ∀ i < (received.take size).length, (d.receive b).byteAt i = (received.take size).getD i 0 := by
  intro i hi
  rw [List.length_take] at hi
  rw [receive_buffer h.count h.buffer h.room b i (by simp; omega),
    List.getD_append _ _ _ _ (by omega), List.getD_eq_getElem?_getD, List.getD_eq_getElem?_getD,
    List.getElem?_take_of_lt (by omega)]

theorem InBody.inBounds {id : MessageId} {size : Nat} {received : List UInt8}
    (h : InBody d id size received) (hstores : ∀ store ∈ d.stores, store.inBounds) (b : UInt8) :
    ∀ store ∈ (d.receive b).stores, store.inBounds := by
  intro store hmem
  rw [(receive_state d b).2.2.2.2, List.mem_append, List.mem_singleton] at hmem
  rcases hmem with hold | rfl
  · exact hstores store hold
  · rw [h.count]
    exact ⟨Int.natCast_nonneg _, Int.ofNat_lt.mpr h.room⟩

/-- A byte before the last one. -/
theorem InBody.byte {id : MessageId} {size : Nat} {received : List UInt8}
    (h : InBody d id size received) (hless : received.length ≤ size) (b : UInt8) :
    Skips d (d.ubxParse conv clock b) (.body id size (received ++ [b])) := by
  obtain ⟨hcount, hsize, hmessage, hkeep, hreceived⟩ := receive_state d b
  have hroom := h.room
  have hparse : d.ubxParse conv clock b = (0, (d.receive b).countByte) := by
    unfold Driver.ubxParse
    rw [h.state]
    refine parsePayload_of_incomplete conv clock ?_ b
    rw [h.count, h.payloadSize]
    omega
  have hnext : (d.receive b).countByte.state.rxCount.toInt = (received ++ [b]).length := by
    show ((d.receive b).state.rxCount + 1).toInt = _
    unfold ubxBufferSize at hroom
    rw [hcount, toInt_succ (by rw [h.count]; omega) (by rw [h.count]; omega), h.count]
    simp
  rw [hparse]
  exact {
    returned := rfl
    position := (receive_position d b).1
    inBounds := fun hstores => h.inBounds hstores b
    follows := {
      state := hkeep.trans h.state
      messageId := hmessage.trans h.messageId
      payloadSize := (congrArg UInt16.toNat hsize).trans h.payloadSize
      count := hnext
      ck := h.receive_ck b
      buffer := receive_buffer h.count h.buffer hroom b
      short := h.short
      le := by
        rw [List.length_append, List.length_singleton]
        omega } }

/-- The last byte: the message is accepted when its packet's checksum is the one that was
computed. -/
theorem InBody.last {id : MessageId} {size : Nat} {received : List UInt8}
    (h : InBody d id size received) (hlast : received.length = size + 1) (b : UInt8) :
    d.ubxParse conv clock b =
      if (d.receive b).checksumOk id then
        (1, (((d.receive b).storeFields conv id).stamp clock id).decodeInit)
      else
        (0, (d.receive b).decodeInit) := by
  unfold Driver.ubxParse
  rw [h.state]
  refine parsePayload_of_complete conv clock ?_ h.messageId b
  rw [h.count, h.payloadSize]
  omega

/-- The checksum that is compared is the one that follows the payload, if that covers the packet. -/
theorem InBody.checksumOk_iff {id : MessageId} {size : Nat} {received : List UInt8}
    (h : InBody d id size received) (hlast : received.length = size + 1) (b : UInt8)
    (hcovers : id.Covers (received.take size)) :
    (d.receive b).checksumOk id = true ↔
      Message.Correct ⟨id, received.take size, received.getD size 0, b⟩ := by
  have hbuffer := receive_buffer h.count h.buffer h.room b
  have hck := h.receive_ck b
  have hlength : (received.take size).length = size := by
    rw [List.length_take]
    omega
  have hcount : (d.receive b).state.rxCount.toInt = size + 1 := by
    rw [(receive_state d b).1, h.count, hlast]
    rfl
  have hoffset : id.checksumOffset (d.receive b).state.rxCount = size := by
    rw [← hlength]
    cases id with
    | navSvinfo =>
        rw [MessageId.checksumOffset, hcount, hlength]
        omega
    | rxmSvsi =>
        rw [MessageId.checksumOffset, hcount, hlength]
        omega
    | _ => exact hcovers.symm
  rw [List.take_append_of_le_length (by omega)] at hck
  have hfirst : (d.receive b).byteAt size = received.getD size 0 := by
    rw [hbuffer size (by simp; omega), List.getD_append _ _ _ _ (by omega)]
  have hsecond : (d.receive b).byteAt (size + 1) = b := by
    rw [hbuffer (size + 1) (by simp; omega), ← hlast,
      List.getD_append_right _ _ _ _ (Nat.le_refl _), Nat.sub_self]
    rfl
  rw [Message.Correct, hlength, ← hck, Driver.checksumOk, hoffset]
  simp [hfirst, hsecond]

/-! ### The fields of a message -/

theorem byteAt_holding (payload : List UInt8) (d : Driver) {i : Nat} (hi : i < ubxBufferSize) :
    (d.holding payload).byteAt i = payload.getD i 0 := by
  simp [Driver.byteAt, Driver.holding, hi]

@[simp] theorem holding_position (payload : List UInt8) (d : Driver) :
    (d.holding payload).position = d.position := by
  simp only [Driver.holding]

@[simp] theorem holding_clockReads (payload : List UInt8) (d : Driver) :
    (d.holding payload).clockReads = d.clockReads := by
  simp only [Driver.holding]

/-- **The fields depend on the bytes of the payload alone**, if that covers the packet. -/
theorem storeFields_congr {d e : Driver} {payload : List UInt8}
    (hposition : d.position = e.position) (hclock : d.clockReads = e.clockReads)
    (hbytes : ∀ i < payload.length, d.byteAt i = e.byteAt i) {id : MessageId}
    (hcovers : id.Covers payload)
    (hchannels : id = .navSvinfo → (payload.getD 4 0).toNat = (e.byteAt 4).toNat) :
    (d.storeFields conv id).position = (e.storeFields conv id).position ∧
      (d.storeFields conv id).clockReads = (e.storeFields conv id).clockReads := by
  cases id with
  | navPosllh =>
      have hlength : payload.length = 28 := hcovers
      refine ⟨?_, hclock⟩
      simp only [Driver.storeFields, Driver.navPosllh, hposition]
      rw [word32_congr hbytes (by omega), word32_congr hbytes (by omega),
        word32_congr hbytes (by omega)]
  | navSol =>
      have hlength : payload.length = 52 := hcovers
      refine ⟨?_, hclock⟩
      simp only [Driver.storeFields, Driver.navSol, hposition]
      rw [hbytes 10 (by omega)]
  | navTimeutc =>
      have hlength : payload.length = 20 := hcovers
      refine ⟨?_, hclock⟩
      simp only [Driver.storeFields, Driver.navTimeutc, hposition]
      rw [word16_congr hbytes (by omega), word32_congr hbytes (by omega), hbytes 14 (by omega),
        hbytes 15 (by omega), hbytes 16 (by omega), hbytes 17 (by omega), hbytes 18 (by omega)]
  | navDop =>
      have hlength : payload.length = 18 := hcovers
      refine ⟨?_, hclock⟩
      simp only [Driver.storeFields, Driver.navDop, hposition]
      rw [word16_congr hbytes (by omega), word16_congr hbytes (by omega)]
  | navSvinfo =>
      obtain ⟨hlength, -⟩ := hcovers
      have hnumCh := hchannels rfl
      obtain ⟨hclockD, hpositionD⟩ := navSvinfo_fields conv d
      obtain ⟨hclockE, hpositionE⟩ := navSvinfo_fields conv e
      refine ⟨?_, hclockD.trans (hclock.trans hclockE.symm)⟩
      show (d.navSvinfo conv).position = (e.navSvinfo conv).position
      have hloop : (List.range (e.byteAt 4).toNat).foldl
          (fun v i => v.setIfInBounds i (readSatellite conv d.byteAt (8 + i * 12)))
          e.position.satellites =
        (List.range (e.byteAt 4).toNat).foldl
          (fun v i => v.setIfInBounds i (readSatellite conv e.byteAt (8 + i * 12)))
          e.position.satellites := by
        refine List.foldl_ext _ _ _ fun v i hi => ?_
        have hlt := List.mem_range.mp hi
        rw [readSatellite_congr conv hbytes (by omega)]
      rw [hpositionD, hpositionE, hbytes 4 (by omega), hposition, hloop]
  | navVelned =>
      have hlength : payload.length = 36 := hcovers
      refine ⟨?_, hclock⟩
      simp only [Driver.storeFields, Driver.navVelned, hposition]
      rw [word32_congr hbytes (by omega), word32_congr hbytes (by omega)]
  | rxmSvsi =>
      have hlength : 7 ≤ payload.length := hcovers
      refine ⟨?_, hclock⟩
      simp only [Driver.storeFields, Driver.rxmSvsi, hposition]
      rw [hbytes 6 (by omega)]

/-- What a message stores is what it says, if its payload covers the packet. -/
theorem InBody.stored {id : MessageId} {size : Nat} {received : List UInt8}
    (h : InBody d id size received) (hlast : received.length = size + 1) (b : UInt8)
    (hcovers : id.Covers (received.take size)) :
    (((d.receive b).storeFields conv id).stamp clock id).position =
      Message.stored conv clock ⟨id, received.take size, received.getD size 0, b⟩ d := by
  have hroom := h.room
  have hlength : (received.take size).length = size := by
    rw [List.length_take]
    omega
  obtain ⟨hposition, hclock⟩ := receive_position d b
  have hpayload := h.payload b
  have hholding : ∀ i < (received.take size).length,
      (d.holding (received.take size)).byteAt i = (received.take size).getD i 0 := by
    intro i hi
    exact byteAt_holding _ d (by omega)
  have hbytes : ∀ i < (received.take size).length,
      (d.receive b).byteAt i = (d.holding (received.take size)).byteAt i :=
    fun i hi => (hpayload i hi).trans (hholding i hi).symm
  have hchannels : id = .navSvinfo → ((received.take size).getD 4 0).toNat =
      ((d.holding (received.take size)).byteAt 4).toNat := by
    rintro rfl
    have hlt : 8 ≤ (received.take size).length := Nat.le_trans (Nat.le_add_right 8 _) hcovers.1
    rw [hholding 4 (by omega)]
  have hholdingPosition : (d.receive b).position = (d.holding (received.take size)).position := by
    rw [holding_position, hposition]
  have hholdingClock : (d.receive b).clockReads = (d.holding (received.take size)).clockReads := by
    rw [holding_clockReads, hclock]
  obtain ⟨hfields, hreads⟩ :=
    storeFields_congr conv hholdingPosition hholdingClock hbytes hcovers hchannels
  simp only [Message.stored, Driver.stamp, hfields, hreads]

/-- **One byte.** -/
theorem acceptsByChecksum_step {p q : Driver × Wire} {e : UInt8 × Nat}
    (hstep : (ubxStream conv clock).step p e q) (hcovers : CoversPacket p e)
    (h : Follows p.1 p.2) (hstores : ∀ store ∈ p.1.stores, store.inBounds) :
    AcceptsByChecksum conv clock p e q ∧ Follows q.1 q.2 := by
  obtain ⟨d, w⟩ := p
  obtain ⟨d', w'⟩ := q
  obtain ⟨b, ret⟩ := e
  obtain ⟨hshort, hparse, hw⟩ := hstep
  dsimp only at hshort hparse hw h hstores
  subst hw
  -- A byte that completes no message is skipped.
  have hskip : Skips d (d.ubxParse conv clock b) (w.next b) → w.completed b = none →
      AcceptsByChecksum conv clock (d, w) (b, ret) (d', w.next b) ∧ Follows d' (w.next b) := by
    intro hskips hnone
    rw [hparse] at hskips
    have hzero : ret = 0 := hskips.returned
    refine ⟨⟨?_, ?_, fun _ => hskips.position, hskips.inBounds hstores⟩, hskips.follows⟩
    · simp [hzero, hnone]
    · intro habsurd
      simp [hzero] at habsurd
  cases w with
  | body id size received =>
      have hbody : InBody d id size received := h
      by_cases hlast : received.length = size + 1
      · -- The last byte of the message.
        have hcompleted : (Wire.body id size received).completed b =
            some ⟨id, received.take size, received.getD size 0, b⟩ := if_pos hlast
        have hcovered : id.Covers (received.take size) := hcovers _ hcompleted
        have hok := hbody.checksumOk_iff hlast b hcovered
        have hfields := hbody.stored conv clock hlast b hcovered
        have hnext : (Wire.body id size received).next b = .hunting := if_pos hlast
        rw [hbody.last conv clock hlast b] at hparse
        rw [hnext]
        split at hparse
        · next hright =>
          cases hparse
          refine ⟨⟨?_, fun _ => ⟨_, hcompleted, hfields⟩, fun habsurd => absurd rfl habsurd, ?_⟩,
            follows_decodeInit _⟩
          · exact iff_of_true rfl ⟨_, hcompleted, hok.mp hright⟩
          · refine storeFields_inBounds conv (hbody.inBounds hstores b) ?_
            rintro rfl
            obtain ⟨hlength, hchannels⟩ := hcovered
            rw [hbody.payload b 4 (by omega)]
            exact hchannels
        · next hwrong =>
          cases hparse
          refine ⟨⟨?_, (fun habsurd => by cases habsurd), fun _ => ?_, ?_⟩, follows_decodeInit _⟩
          · refine iff_of_false (fun habsurd => by cases habsurd) ?_
            rintro ⟨m, hm, hcorrect⟩
            cases hcompleted.symm.trans hm
            exact hwrong (hok.mpr hcorrect)
          · exact (receive_position d b).1
          · exact hbody.inBounds hstores b
      · have hless : received.length ≤ size := by
          have hle : received.length ≤ size + 1 := h.le
          omega
        refine hskip ?_ (by simp [Wire.completed, hlast])
        simp only [Wire.next, if_neg hlast]
        exact h.byte conv clock hless b
  | _ =>
      refine hskip (follows_header conv clock h ?_ hshort) rfl
      intro id size received habsurd
      cases habsurd

/-- **The streams whose messages cover their packets obey the law**: the decoder accepts the
messages with a correct checksum, and stores what they say. -/
theorem acceptsByChecksum_run {p q : Driver × Wire} {events : List (UInt8 × Nat)}
    (hinit : (ubxStream conv clock).init p)
    (h : ((ubxStream conv clock).restrict CoversPacket).Run p events q) :
    ((ubxStream conv clock).obeying (AcceptsByChecksum conv clock)).Run p events q := by
  obtain ⟨hfresh, hstores, hhunting⟩ := hinit
  have hfollows : Follows p.1 p.2 := by
    rw [hhunting, ← show p.1.decodeInit = p.1 from hfresh]
    exact follows_decodeInit p.1
  have hbounds : ∀ store ∈ p.1.stores, store.inBounds := by simp [hstores]
  clear hfresh hstores hhunting
  induction h with
  | nil => exact .nil _
  | cons hstep _ ih =>
      obtain ⟨hlaw, hnext⟩ := acceptsByChecksum_step conv clock hstep.2 hstep.1 hfollows hbounds
      exact .cons ⟨hstep.2, hlaw⟩ (ih hnext hlaw.inBounds)

end

/-! ### Two streams -/

instance (payload : List UInt8) : (id : MessageId) → Decidable (id.Covers payload)
  | .navPosllh => inferInstanceAs (Decidable (_ = _))
  | .navSol => inferInstanceAs (Decidable (_ = _))
  | .navTimeutc => inferInstanceAs (Decidable (_ = _))
  | .navDop => inferInstanceAs (Decidable (_ = _))
  | .navVelned => inferInstanceAs (Decidable (_ = _))
  | .navSvinfo => inferInstanceAs (Decidable (_ ∧ _))
  | .rxmSvsi => inferInstanceAs (Decidable (_ ≤ _))

instance (m : Message) : Decidable m.Correct := inferInstanceAs (Decidable (_ = _))

instance (b : UInt8) : (w : Wire) → Decidable (w.Short b)
  | .gotLength1 _ _ => inferInstanceAs (Decidable (_ ≤ _))
  | .hunting | .gotSync1 | .gotSync2 | .gotClass _ | .gotMessageId _ | .body _ _ _ =>
      inferInstanceAs (Decidable True)

instance (p : Driver × Wire) (e : UInt8 × Nat) : Decidable (CoversPacket p e) :=
  match h : p.2.completed e.1 with
  | none => isTrue fun m hm => by cases h.symm.trans hm
  | some m => decidable_of_iff (m.id.Covers m.payload)
      ⟨fun hm m' hm' => by
        cases h.symm.trans hm'
        exact hm, fun hall => hall m h⟩

/-- The next state, if `ubx_parse` returns what the event has. -/
def streamNext (p : Driver × Wire) (e : UInt8 × Nat) : Option (Driver × Wire) :=
  let (ret, d) := p.1.ubxParse .whole (fun _ => 0) e.1
  if p.2.Short e.1 ∧ ret = e.2 then some (d, p.2.next e.1) else none

theorem step_of_streamNext {p q : Driver × Wire} {e : UInt8 × Nat} (h : streamNext p e = some q) :
    (ubxStream .whole fun _ => 0).step p e q := by
  dsimp only [streamNext] at h
  split at h
  · next hshort =>
    cases h
    exact ⟨hshort.1, Prod.ext hshort.2 rfl, rfl⟩
  · cases h

theorem stream_init : (ubxStream .whole fun _ => 0).init (.start, .hunting) :=
  ⟨start_fresh, rfl, rfl⟩

/-- Where the stream is depends on its bytes alone. -/
theorem wire_of_run {conv : Conversions} {clock : Nat → UInt64} {p q : Driver × Wire}
    {events : List (UInt8 × Nat)} (h : (ubxStream conv clock).Run p events q) :
    q.2 = events.foldl (fun w e => w.next e.1) p.2 := by
  induction h with
  | nil => rfl
  | cons hstep _ ih => rw [ih, hstep.2.2, List.foldl_cons]

/-- An `RXM-SVSI` with six satellites. -/
theorem svsi_acceptsByChecksum : ∃ events q,
    ((ubxStream .whole fun _ => 0).obeying (AcceptsByChecksum .whole fun _ => 0)).Run
      (.start, .hunting) events q ∧ q.1.position.satellitesVisible = 6 := by
  let events : List (UInt8 × Nat) :=
    ([0xb5, 0x62, 0x02, 0x20, 0x07, 0x00, 0, 0, 0, 0, 0, 0, 6, 0x2f] : List UInt8).map (·, 0) ++
      [(0x9b, 1)]
  have hsome : (events.foldlM (fun p e => if CoversPacket p e then streamNext p e else none)
      (Driver.start, Wire.hunting)).any (fun q => q.1.position.satellitesVisible == 6) = true := by
    decide +kernel
  obtain ⟨q, hq, hvisible⟩ := (Option.any_eq_true _ _).mp hsome
  have hrun : ((ubxStream .whole fun _ => 0).restrict CoversPacket).Run (.start, .hunting)
      events q := LTS.Run.restrict_of_foldlM (fun _ _ _ => step_of_streamNext) hq
  exact ⟨events, q, acceptsByChecksum_run .whole _ stream_init hrun, eq_of_beq hvisible⟩

/-- A `NAV-DOP` without a payload and with a correct checksum is not accepted: the checksum is
compared with what the buffer has behind a packet. -/
theorem short_navDop_not_accepted :
    ¬∀ (conv : Conversions) (clock : Nat → UInt64) (p q : Driver × Wire)
        (events : List (UInt8 × Nat)), (ubxStream conv clock).init p →
      (ubxStream conv clock).Run p events q →
      ((ubxStream conv clock).obeying (AcceptsByChecksum conv clock)).Run p events q := by
  intro hlaw
  let events : List (UInt8 × Nat) :=
    ([0xb5, 0x62, 0x01, 0x04, 0x00, 0x00, 0x05] : List UInt8).map (·, 0)
  have hsome : ((events ++ [(0x10, 0)]).foldlM streamNext (Driver.start, Wire.hunting)).isSome =
      true := by decide +kernel
  obtain ⟨q, hq⟩ := Option.isSome_iff_exists.mp hsome
  have hrun : (ubxStream .whole fun _ => 0).Run (.start, .hunting) (events ++ [(0x10, 0)]) q :=
    LTS.Run.of_foldlM (fun _ _ _ => step_of_streamNext) hq
  obtain ⟨u, hbefore, -, hlast⟩ := (hlaw _ _ _ _ _ stream_init hrun).exists_of_snoc
  have hbytes : events.foldl (fun w e => w.next e.1) Wire.hunting = .body .navDop 0 [0x05] := by
    decide
  have hwire : u.2 = .body .navDop 0 [0x05] := (wire_of_run hbefore.of_obeying).trans hbytes
  have haccepted := hlast.accepts.mpr ⟨⟨.navDop, [], 0x05, 0x10⟩, by rw [hwire]; rfl, by decide⟩
  cases haccepted

end Px4Firmware.Gps
