import Mathlib.Data.List.GetD
import Mathlib.Tactic.Set
import Px4Firmware.Lib.SyncPair
import Px4Firmware.Gps.Bounds

/-!
# Px4Firmware.Gps.Decode

**The UBX decoder on valid frames.** A frame of a known message, with the payload of its kind and a
correct checksum, makes `ubx_parse` return one at its last byte; the fields of the message are then
those of the payload, everything else is as before, and the decoder starts anew.

Inside of a frame, the state is a function of the bytes received so far (`Received`). `decoded_iff`
says which frames are decoded as they should be: those that fit into the buffer and are no
`NAV-SVINFO`, whose flag `satellite_info_available` the decoder gets the wrong way round.
-/

namespace Px4Firmware.Gps

open Px4Firmware.Lib

/-! ### Frames -/

/-- The class of a message on the wire. -/
def MessageId.wireClass : MessageId → UInt8
  | rxmSvsi => 0x02
  | _ => 0x01

/-- The id of a message on the wire. -/
def MessageId.wireId : MessageId → UInt8
  | navPosllh => 0x02
  | navSol => 0x06
  | navTimeutc => 0x21
  | navDop => 0x04
  | navSvinfo => 0x30
  | navVelned => 0x12
  | rxmSvsi => 0x20

/-- The payload of a kind of message: a fixed length, a length that depends on the number of
channels, or, for `RXM-SVSI`, any length that has the part that is read. -/
def MessageId.PayloadOk (payload : List UInt8) : MessageId → Prop
  | navPosllh => payload.length = 28
  | navSol => payload.length = 52
  | navTimeutc => payload.length = 20
  | navDop => payload.length = 18
  | navVelned => payload.length = 36
  | navSvinfo =>
      payload.length = 8 + 12 * (payload.getD 4 0).toNat ∧ (payload.getD 4 0).toNat ≤ 16
  | rxmSvsi => 7 ≤ payload.length ∧ payload.length < 65536

/-- A well-formed frame, without its checksum. -/
structure Frame where
  id : MessageId
  payload : List UInt8
  payloadOk : id.PayloadOk payload

/-- The checksum of bytes, from the checksum of those before. -/
def fletcher (ck : UInt8 × UInt8) (bytes : List UInt8) : UInt8 × UInt8 :=
  bytes.foldl (fun ck b => (ck.1 + b, ck.2 + (ck.1 + b))) ck

namespace Frame

/-- The class, the id and the length. -/
def header (f : Frame) : List UInt8 :=
  [f.id.wireClass, f.id.wireId, UInt8.ofNat f.payload.length, UInt8.ofNat (f.payload.length / 256)]

/-- The checksum of the frame. -/
def checksum (f : Frame) : UInt8 × UInt8 := fletcher (0, 0) (f.header ++ f.payload)

/-- What follows the header. -/
def body (f : Frame) : List UInt8 := f.payload ++ [f.checksum.1, f.checksum.2]

/-- The frame on the wire. -/
def bytes (f : Frame) : List UInt8 := [0xb5, 0x62] ++ f.header ++ f.body

/-- The byte at an offset of the payload. -/
def byteAt (f : Frame) (offset : Nat) : UInt8 := f.payload.getD offset 0

/-! ### What a frame says -/

/-- The number of channels of `NAV-SVINFO`. -/
def numCh (f : Frame) : Nat := (f.byteAt 4).toNat

/-- The satellites of `NAV-SVINFO`: its channels, then unused slots. -/
def satellites (conv : Conversions) (f : Frame) : Vector Satellite satelliteSlots :=
  .ofFn fun i =>
    if i.val < f.numCh then readSatellite conv f.byteAt (8 + i.val * 12) else .zero

/-- The position after a frame: the fields of the message are those of the payload, the others are
kept. -/
def update (conv : Conversions) (f : Frame) (p : VehicleGpsPosition) : VehicleGpsPosition :=
  match f.id with
  | .navPosllh =>
      { p with
        lat := (word32 f.byteAt 8).toInt32
        lon := (word32 f.byteAt 4).toInt32
        alt := (word32 f.byteAt 16).toInt32
        counterPosValid := p.counterPosValid + 1 }
  | .navSol => { p with fixType := f.byteAt 10 }
  | .navTimeutc =>
      { p with
        timeGpsUsec :=
          1000000 * conv.mktime (word16 f.byteAt 12) (f.byteAt 14) (f.byteAt 15) (f.byteAt 16)
            (f.byteAt 17) (f.byteAt 18) + conv.microseconds (word32 f.byteAt 8).toInt32 }
  | .navDop =>
      { p with
        eph := word16 f.byteAt 12
        epv := word16 f.byteAt 10 }
  | .navSvinfo =>
      { p with
        satellites := f.satellites conv
        satelliteInfoAvailable := if 0 < f.numCh then 1 else 0 }
  | .navVelned =>
      { p with
        vel := (word32 f.byteAt 16).toUInt16
        cog := conv.heading (word32 f.byteAt 24).toInt32 }
  | .rxmSvsi => { p with satellitesVisible := f.byteAt 6 }

end Frame

/-! ### Reading frames -/

section

variable (conv : Conversions) (clock : Nat → UInt64)

/-- The bytes are parsed one after the other: what `ubx_parse` returned for each, and the driver. -/
def Driver.parseAll : List UInt8 → Driver → List Nat × Driver
  | [], d => ([], d)
  | b :: bs, d =>
      let (returned, d) := d.ubxParse conv clock b
      let (rest, d) := Driver.parseAll bs d
      (returned :: rest, d)

/-- A frame is decoded: the last byte alone returns one, the position is the one the frame says and
carries the time and the count of the message, the decoder starts anew, and no store has missed its
array. -/
structure DecodedFrame (f : Frame) (d : Driver) (returned : List Nat) (d' : Driver) : Prop where
  returned : returned = List.replicate (f.bytes.length - 1) 0 ++ [1]
  position : d'.position = { f.update conv d.position with
    timestamp := clock d.clockReads
    counter := d.position.counter + 1 }
  fresh : d'.Fresh
  stores : ∀ store ∈ d'.stores, store.inBounds

/-- A sequence of frames is decoded. -/
def Decoded : List Frame → Driver → Prop
  | [], _ => True
  | f :: fs, d =>
      let (returned, d') := d.parseAll conv clock f.bytes
      DecodedFrame conv clock f d returned d' ∧ Decoded fs d'

/-! ### Inside of a frame -/

theorem parseAll_cons (b : UInt8) (bs : List UInt8) (d : Driver) :
    d.parseAll conv clock (b :: bs) =
      ((d.ubxParse conv clock b).1 ::
          ((d.ubxParse conv clock b).2.parseAll conv clock bs).1,
        ((d.ubxParse conv clock b).2.parseAll conv clock bs).2) := rfl

theorem parseAll_eq_feed (bs : List UInt8) (d : Driver) :
    d.parseAll conv clock bs = feed (fun b d => d.ubxParse conv clock b) bs d := by
  induction bs generalizing d with
  | nil => rfl
  | cons b bs ih => rw [parseAll_cons, feed_cons, ih]

theorem parseAll_append (bs cs : List UInt8) (d : Driver) :
    d.parseAll conv clock (bs ++ cs) =
      ((d.parseAll conv clock bs).1 ++ ((d.parseAll conv clock bs).2.parseAll conv clock cs).1,
        ((d.parseAll conv clock bs).2.parseAll conv clock cs).2) := by
  simp only [parseAll_eq_feed, feed_append]

/-- After the header and some bytes of the body of a frame, when the driver was `d` before. -/
structure Received (f : Frame) (d : Driver) (received : List UInt8) (d' : Driver) : Prop where
  state : d'.state.decodeState = .gotLength2
  id : d'.state.messageId = some f.id
  size : d'.state.payloadSize.toNat = f.payload.length
  count : d'.state.rxCount.toInt = received.length
  ck : (d'.state.ckA, d'.state.ckB) =
    fletcher (0, 0) (f.header ++ received.take f.payload.length)
  buffer : ∀ i < received.length, d'.byteAt i = received.getD i 0
  position : d'.position = d.position
  clockReads : d'.clockReads = d.clockReads
  stores : ∀ store ∈ d'.stores, store.inBounds

theorem Frame.length_lt (f : Frame) : f.payload.length < 65536 := by
  obtain ⟨id, payload, hok⟩ := f
  cases id with
  | navSvinfo =>
      obtain ⟨hlength, hchannels⟩ := hok
      show payload.length < 65536
      omega
  | rxmSvsi => exact hok.2
  | _ =>
      simp only [MessageId.PayloadOk] at hok
      show payload.length < 65536
      omega

/-- **The header** of a frame, read by a decoder that starts anew. -/
theorem parse_header (f : Frame) {d : Driver} (hfresh : d.Fresh)
    (hstores : ∀ store ∈ d.stores, store.inBounds) :
    (d.parseAll conv clock ([0xb5, 0x62] ++ f.header)).1 = List.replicate 6 0 ∧
      Received f d [] (d.parseAll conv clock ([0xb5, 0x62] ++ f.header)).2 := by
  have hlt := f.length_lt
  rw [← show d.decodeInit = d from hfresh]
  obtain ⟨id, payload, hok⟩ := f
  have hsize : (UInt16.ofNat ((UInt16.ofNat (UInt8.ofNat payload.length).toNat).toNat +
      (UInt8.ofNat (payload.length / 256)).toNat * 256)).toNat = payload.length := by
    have hlow : payload.length % 256 + payload.length / 256 * 256 = payload.length := by omega
    simp only [UInt16.toNat_ofNat', UInt8.toNat_ofNat']
    dsimp only at hlt
    omega
  cases id <;>
    exact ⟨rfl, rfl, rfl, hsize, rfl, (by rw [List.take_nil]; rfl),
      fun _ hi => absurd hi (Nat.not_lt_zero _), rfl, rfl, hstores⟩

theorem receive_position (d : Driver) (b : UInt8) :
    (d.receive b).position = d.position ∧ (d.receive b).clockReads = d.clockReads := by
  unfold Driver.receive
  dsimp only
  split_ifs <;> exact ⟨rfl, rfl⟩

theorem fletcher_append (ck : UInt8 × UInt8) (bs cs : List UInt8) :
    fletcher ck (bs ++ cs) = fletcher (fletcher ck bs) cs := List.foldl_append

/-- One more byte, where the checksum covers the first `size` of them. -/
theorem fletcher_take_concat (header received : List UInt8) (size : Nat) (b : UInt8) :
    fletcher (0, 0) (header ++ (received ++ [b]).take size) =
      if received.length < size then
        fletcher (fletcher (0, 0) (header ++ received.take size)) [b]
      else fletcher (0, 0) (header ++ received.take size) := by
  split_ifs with hinside
  · rw [List.take_of_length_le (by rw [List.length_append]; exact hinside),
      List.take_of_length_le (Nat.le_of_lt hinside), ← List.append_assoc, fletcher_append]
  · rw [List.take_append_of_le_length (by omega)]

/-- The checksum covers the payload, and not itself. -/
theorem receive_ck {d : Driver} {header received : List UInt8} {size : Nat}
    (hcount : d.state.rxCount.toInt = received.length) (hsize : d.state.payloadSize.toNat = size)
    (hck : (d.state.ckA, d.state.ckB) = fletcher (0, 0) (header ++ received.take size))
    (b : UInt8) :
    ((d.receive b).state.ckA, (d.receive b).state.ckB) =
      fletcher (0, 0) (header ++ (received ++ [b]).take size) := by
  rw [fletcher_take_concat, ← hck]
  unfold Driver.receive
  dsimp only
  rw [hcount, hsize]
  simp only [Int.ofNat_lt]
  split_ifs <;> rfl

theorem Received.receive_ck {f : Frame} {d d' : Driver} {received : List UInt8}
    (h : Received f d received d') (b : UInt8) :
    ((d'.receive b).state.ckA, (d'.receive b).state.ckB) =
      fletcher (0, 0) (f.header ++ (received ++ [b]).take f.payload.length) :=
  Gps.receive_ck h.count h.size h.ck b

/-- A byte that is stored inside of a buffer. -/
theorem getD_setIfInBounds {size index : Nat} (buffer : Vector UInt8 size) (hindex : index < size)
    (b : UInt8) (i : Nat) :
    (buffer.setIfInBounds index b).toList.getD i 0 =
      if i = index then b else buffer.toList.getD i 0 := by
  rw [Vector.toList_setIfInBounds, List.getD_eq_getElem?_getD, List.getElem?_set,
    List.getD_eq_getElem?_getD]
  by_cases heq : i = index
  · rw [if_pos heq.symm, if_pos heq, if_pos (by rw [Vector.length_toList]; exact hindex)]
    rfl
  · rw [if_neg (Ne.symm heq), if_neg heq]

/-- A buffer that has the bytes received so far, and one more. -/
theorem getD_concat_of_stored {bytes bytes' : Nat → UInt8} {received : List UInt8} {b : UInt8}
    (hbytes : ∀ i < received.length, bytes i = received.getD i 0)
    (hstored : ∀ i, bytes' i = if i = received.length then b else bytes i) :
    ∀ i < (received ++ [b]).length, bytes' i = (received ++ [b]).getD i 0 := by
  intro i hi
  rw [List.length_append, List.length_singleton] at hi
  rw [hstored]
  rcases Nat.lt_or_ge i received.length with hlt | hge
  · rw [if_neg (Nat.ne_of_lt hlt), hbytes i hlt, List.getD_append _ _ _ _ hlt]
  · have heq : i = received.length := by omega
    rw [if_pos heq, heq, List.getD_append_right _ _ _ _ (Nat.le_refl _), Nat.sub_self]
    rfl

theorem byteAt_storeRx (d : Driver) {index : Nat} (hindex : index < ubxBufferSize) (b : UInt8)
    (i : Nat) : (d.storeRx index b).byteAt i = if i = index then b else d.byteAt i := by
  unfold Driver.byteAt Driver.storeRx
  dsimp only
  rw [if_pos (Int.natCast_nonneg _), Int.toNat_natCast, getD_setIfInBounds _ hindex]

/-- The buffer has the bytes that were received. -/
theorem receive_buffer {d : Driver} {received : List UInt8}
    (hcount : d.state.rxCount.toInt = received.length)
    (hbuffer : ∀ i < received.length, d.byteAt i = received.getD i 0)
    (hroom : received.length < ubxBufferSize) (b : UInt8) :
    ∀ i < (received ++ [b]).length, (d.receive b).byteAt i = (received ++ [b]).getD i 0 := by
  refine getD_concat_of_stored hbuffer fun i => ?_
  unfold Driver.receive
  by_cases hinside : d.state.rxCount.toInt < d.state.payloadSize.toNat
  · have hstored := byteAt_storeRx (d.checksum b) hroom b i
    rw [← hcount] at hstored
    rw [if_pos hinside]
    exact hstored
  · have hstored := byteAt_storeRx d hroom b i
    rw [← hcount] at hstored
    rw [if_neg hinside]
    exact hstored

theorem Received.receive_buffer {f : Frame} {d d' : Driver} {received : List UInt8}
    (h : Received f d received d') (hroom : received.length < ubxBufferSize) (b : UInt8) :
    ∀ i < (received ++ [b]).length, (d'.receive b).byteAt i = (received ++ [b]).getD i 0 :=
  Gps.receive_buffer h.count h.buffer hroom b

/-- **A byte of the body** before the last one: one of the payload, or the first of the checksum. -/
theorem Received.byte {f : Frame} {d d' : Driver} {received : List UInt8}
    (h : Received f d received d') (hlength : received.length ≤ f.payload.length)
    (hroom : received.length < ubxBufferSize) (b : UInt8) :
    (d'.ubxParse conv clock b).1 = 0 ∧
      Received f d (received ++ [b]) (d'.ubxParse conv clock b).2 := by
  obtain ⟨hcount, hsize, hmessage, hkeep, hreceived⟩ := receive_state d' b
  have hparse : d'.ubxParse conv clock b = (0, (d'.receive b).countByte) := by
    unfold Driver.ubxParse
    rw [h.state]
    refine parsePayload_of_incomplete conv clock ?_ b
    rw [h.count, h.size]
    omega
  rw [hparse]
  refine ⟨rfl, ?_, ?_, ?_, ?_, ?_, ?_, ?_, ?_, ?_⟩
  · exact hkeep.trans h.state
  · exact hmessage.trans h.id
  · show (d'.receive b).state.payloadSize.toNat = _
    rw [hsize, h.size]
  · show ((d'.receive b).state.rxCount + 1).toInt = _
    unfold ubxBufferSize at hroom
    rw [hcount, toInt_succ (by rw [h.count]; omega) (by rw [h.count]; omega), h.count]
    simp
  · show ((d'.receive b).state.ckA, (d'.receive b).state.ckB) = _
    exact h.receive_ck b
  · exact h.receive_buffer hroom b
  · exact (receive_position d' b).1.trans h.position
  · exact (receive_position d' b).2.trans h.clockReads
  · intro store hmem
    rw [show (d'.receive b).countByte.stores = d'.stores ++ _ from hreceived, List.mem_append,
      List.mem_singleton] at hmem
    rcases hmem with hold | rfl
    · exact h.stores store hold
    · rw [h.count]
      exact ⟨Int.natCast_nonneg _, Int.ofNat_lt.mpr hroom⟩

/-- Several bytes of the body. -/
theorem Received.bytes {f : Frame} {d d' : Driver} {received : List UInt8}
    (h : Received f d received d') (bs : List UInt8)
    (hlength : received.length + bs.length ≤ f.payload.length + 1)
    (hroom : received.length + bs.length ≤ ubxBufferSize) :
    (d'.parseAll conv clock bs).1 = List.replicate bs.length 0 ∧
      Received f d (received ++ bs) (d'.parseAll conv clock bs).2 := by
  rw [parseAll_eq_feed]
  refine feed_receives _ (P := Received f d) (min (f.payload.length + 1) ubxBufferSize)
    (fun hreceived hlt b => ?_) bs h (Nat.le_min.mpr ⟨hlength, hroom⟩)
  obtain ⟨hinside, hroom⟩ := Nat.lt_min.mp hlt
  exact hreceived.byte conv clock (Nat.le_of_lt_succ hinside) hroom b

/-! ### The fields of a message -/

/-- The satellites that are stored one after the other; the bytes of the buffer stay. -/
theorem foldl_storeSatellite_position (g : (Nat → UInt8) → Nat → Satellite) (l : List Nat)
    (d : Driver) :
    let d' := l.foldl (fun d i => d.storeSatellite i (g d.byteAt i)) d
    d'.byteAt = d.byteAt ∧ d'.clockReads = d.clockReads ∧
      d'.position = { d.position with
        satellites := l.foldl (fun v i => v.setIfInBounds i (g d.byteAt i))
          d.position.satellites } := by
  induction l generalizing d with
  | nil => exact ⟨rfl, rfl, rfl⟩
  | cons i l ih => exact ih (d.storeSatellite i (g d.byteAt i))

theorem foldl_set_of_not_mem (g : Nat → Satellite) {l : List Nat} {k : Fin satelliteSlots}
    (hk : k.val ∉ l) (v : Vector Satellite satelliteSlots) :
    (l.foldl (fun v i => v.setIfInBounds i (g i)) v).get k = v.get k := by
  induction l generalizing v with
  | nil => rfl
  | cons i l ih =>
      rw [List.mem_cons, not_or] at hk
      rw [List.foldl_cons, ih hk.2]
      exact Vector.getElem_setIfInBounds_ne k.isLt (Ne.symm hk.1)

theorem foldl_set_of_mem (g : Nat → Satellite) {l : List Nat} {k : Fin satelliteSlots}
    (hk : k.val ∈ l) (v : Vector Satellite satelliteSlots) :
    (l.foldl (fun v i => v.setIfInBounds i (g i)) v).get k = g k.val := by
  induction l generalizing v with
  | nil => cases hk
  | cons i l ih =>
      rw [List.foldl_cons]
      by_cases hrest : k.val ∈ l
      · exact ih hrest _
      · rcases List.mem_cons.mp hk with heq | hmem
        · rw [foldl_set_of_not_mem g hrest, ← heq]
          exact Vector.getElem_setIfInBounds_self k.isLt
        · exact absurd hmem hrest

/-! What is read at an offset depends on the bytes there. -/

theorem word16_congr {f g : Nat → UInt8} {n : Nat} (h : ∀ i < n, f i = g i) {offset : Nat}
    (hoffset : offset + 2 ≤ n) : word16 f offset = word16 g offset := by
  unfold word16
  rw [h offset (by omega), h (offset + 1) (by omega)]

theorem word32_congr {f g : Nat → UInt8} {n : Nat} (h : ∀ i < n, f i = g i) {offset : Nat}
    (hoffset : offset + 4 ≤ n) : word32 f offset = word32 g offset := by
  unfold word32
  rw [h offset (by omega), h (offset + 1) (by omega), h (offset + 2) (by omega),
    h (offset + 3) (by omega)]

theorem readSatellite_congr {f g : Nat → UInt8} {n : Nat} (h : ∀ i < n, f i = g i) {offset : Nat}
    (hoffset : offset + 8 ≤ n) : readSatellite conv f offset = readSatellite conv g offset := by
  unfold readSatellite
  rw [h (offset + 1) (by omega), h (offset + 2) (by omega), h (offset + 4) (by omega),
    h (offset + 5) (by omega), word16_congr h (by omega)]

/-- The bytes of a payload, wherever they are read from. -/
def Frame.InBuffer (f : Frame) (d : Driver) : Prop :=
  ∀ i < f.payload.length, d.byteAt i = f.byteAt i

theorem Frame.svinfo_length {f : Frame} (hid : f.id = .navSvinfo) :
    f.payload.length = 8 + 12 * f.numCh ∧ f.numCh ≤ 16 := by
  have hok := f.payloadOk
  rw [hid] at hok
  exact hok

theorem numCh_inBuffer {f : Frame} (hid : f.id = .navSvinfo) {d : Driver} (h : f.InBuffer d) :
    (d.byteAt 4).toNat = f.numCh := by
  obtain ⟨hlength, -⟩ := f.svinfo_length hid
  rw [h 4 (by omega)]
  rfl

/-- The two loops of `NAV-SVINFO`: the channels, then zeros in the other slots. -/
theorem foldl_set_satellites {f : Frame} (hid : f.id = .navSvinfo) {d : Driver} (h : f.InBuffer d)
    (v : Vector Satellite satelliteSlots) :
    (List.range' f.numCh (satelliteSlots - f.numCh)).foldl
      (fun v i => v.setIfInBounds i Satellite.zero)
      ((List.range f.numCh).foldl
        (fun v i => v.setIfInBounds i (readSatellite conv d.byteAt (8 + i * 12))) v) =
      f.satellites conv := by
  obtain ⟨hlength, -⟩ := f.svinfo_length hid
  refine Vector.ext fun k hk => ?_
  have hslot := Vector.getElem_ofFn (f := fun i : Fin satelliteSlots =>
    if i.val < f.numCh then readSatellite conv f.byteAt (8 + i.val * 12) else .zero) hk
  refine Eq.trans ?_ hslot.symm
  dsimp only
  by_cases hused : k < f.numCh
  · -- The slot of a channel is stored by the first loop only.
    have hlater : k ∉ List.range' f.numCh (satelliteSlots - f.numCh) := by
      rw [List.mem_range'_1]
      omega
    rw [if_pos hused, ← readSatellite_congr conv h (by omega)]
    exact (foldl_set_of_not_mem (fun _ => .zero) (k := ⟨k, hk⟩) hlater _).trans
      (foldl_set_of_mem (fun i => readSatellite conv d.byteAt (8 + i * 12)) (k := ⟨k, hk⟩)
        (List.mem_range.mpr hused) _)
  · have hunused : k ∈ List.range' f.numCh (satelliteSlots - f.numCh) := by
      rw [List.mem_range'_1]
      omega
    rw [if_neg hused]
    exact foldl_set_of_mem (fun _ => .zero) (k := ⟨k, hk⟩) hunused _

/-- What `NAV-SVINFO` changes in the position. -/
theorem navSvinfo_fields (d : Driver) :
    (d.navSvinfo conv).clockReads = d.clockReads ∧
      (d.navSvinfo conv).position = { d.position with
        satellites :=
          (List.range' (d.byteAt 4).toNat (satelliteSlots - (d.byteAt 4).toNat)).foldl
            (fun v i => v.setIfInBounds i Satellite.zero)
            ((List.range (d.byteAt 4).toNat).foldl
              (fun v i => v.setIfInBounds i (readSatellite conv d.byteAt (8 + i * 12)))
              d.position.satellites)
        satelliteInfoAvailable := if (d.byteAt 4).toNat = 0 then 1 else 0 } := by
  obtain ⟨-, hclock, hposition⟩ := foldl_storeSatellite_position
    (fun bytes i => readSatellite conv bytes (8 + i * 12)) (List.range (d.byteAt 4).toNat) d
  obtain ⟨-, hclock', hposition'⟩ := foldl_storeSatellite_position (fun _ _ => .zero)
    (List.range' (d.byteAt 4).toNat (satelliteSlots - (d.byteAt 4).toNat))
    ((List.range (d.byteAt 4).toNat).foldl
      (fun d i => d.storeSatellite i (readSatellite conv d.byteAt (8 + i * 12))) d)
  unfold Driver.navSvinfo
  dsimp only
  refine ⟨hclock'.trans hclock, ?_⟩
  rw [hposition', hposition]

/-- `NAV-SVINFO`: the satellites are those of the frame, the flag is the wrong way round. -/
theorem navSvinfo_position {f : Frame} (hid : f.id = .navSvinfo) {d : Driver}
    (h : f.InBuffer d) :
    (d.navSvinfo conv).clockReads = d.clockReads ∧
      (d.navSvinfo conv).position = { f.update conv d.position with
        satelliteInfoAvailable := if f.numCh = 0 then 1 else 0 } := by
  obtain ⟨hclock, hposition⟩ := navSvinfo_fields conv d
  rw [numCh_inBuffer hid h, foldl_set_satellites conv hid h] at hposition
  refine ⟨hclock, hposition.trans ?_⟩
  unfold Frame.update
  rw [hid]

/-- **The other messages**: the fields are those of the frame. -/
theorem storeFields_position {f : Frame} (hid : f.id ≠ .navSvinfo) {d : Driver}
    (h : f.InBuffer d) :
    (d.storeFields conv f.id).clockReads = d.clockReads ∧
      (d.storeFields conv f.id).position = f.update conv d.position := by
  have hok := f.payloadOk
  unfold Frame.update
  -- The packet of each kind lies over the buffer, where the payload is.
  cases heq : f.id with
  | navPosllh =>
      rw [heq] at hok
      have hlength : f.payload.length = 28 := hok
      refine ⟨rfl, ?_⟩
      dsimp only
      rw [← word32_congr h (by omega), ← word32_congr h (by omega),
        ← word32_congr h (by omega)]
      rfl
  | navSol =>
      rw [heq] at hok
      have hlength : f.payload.length = 52 := hok
      refine ⟨rfl, ?_⟩
      dsimp only
      rw [← h 10 (by omega)]
      rfl
  | navTimeutc =>
      rw [heq] at hok
      have hlength : f.payload.length = 20 := hok
      refine ⟨rfl, ?_⟩
      dsimp only
      rw [← word16_congr h (by omega), ← word32_congr h (by omega), ← h 14 (by omega),
        ← h 15 (by omega), ← h 16 (by omega), ← h 17 (by omega), ← h 18 (by omega)]
      rfl
  | navDop =>
      rw [heq] at hok
      have hlength : f.payload.length = 18 := hok
      refine ⟨rfl, ?_⟩
      dsimp only
      rw [← word16_congr h (by omega), ← word16_congr h (by omega)]
      rfl
  | navSvinfo => exact absurd heq hid
  | navVelned =>
      rw [heq] at hok
      have hlength : f.payload.length = 36 := hok
      refine ⟨rfl, ?_⟩
      dsimp only
      rw [← word32_congr h (by omega), ← word32_congr h (by omega)]
      rfl
  | rxmSvsi =>
      rw [heq] at hok
      have hlength : 7 ≤ f.payload.length := hok.1
      refine ⟨rfl, ?_⟩
      dsimp only
      rw [← h 6 (by omega)]
      rfl

/-! ### A whole frame -/

theorem Frame.checksumOffset_eq (f : Frame) {rxCount : Int16}
    (hcount : rxCount.toInt = f.payload.length + 1) :
    f.id.checksumOffset rxCount = f.payload.length := by
  have hok := f.payloadOk
  unfold MessageId.checksumOffset
  cases heq : f.id with
  | navSvinfo =>
      dsimp only
      omega
  | rxmSvsi =>
      dsimp only
      omega
  | _ =>
      rw [heq] at hok
      exact Eq.symm hok

theorem Frame.bytes_eq (f : Frame) :
    f.bytes = (([0xb5, 0x62] ++ f.header) ++ (f.payload ++ [f.checksum.1])) ++
      [f.checksum.2] := by
  unfold Frame.bytes Frame.body
  rw [List.append_assoc ([0xb5, 0x62] ++ f.header), List.append_assoc f.payload]
  rfl

/-- The last byte of a frame finds the checksum in the buffer. -/
theorem Received.last {f : Frame} {d d' : Driver}
    (h : Received f d (f.payload ++ [f.checksum.1]) d')
    (hfits : f.payload.length ≤ longestPayload) :
    (d'.receive f.checksum.2).checksumOk f.id = true ∧ f.InBuffer (d'.receive f.checksum.2) := by
  have hlength : (f.payload ++ [f.checksum.1]).length = f.payload.length + 1 := by
    rw [List.length_append, List.length_singleton]
  have hroom : (f.payload ++ [f.checksum.1]).length < ubxBufferSize := by
    rw [hlength]
    unfold longestPayload at hfits
    unfold ubxBufferSize at *
    omega
  have hbuffer := h.receive_buffer hroom f.checksum.2
  rw [List.length_append, hlength, List.length_singleton] at hbuffer
  have hck := h.receive_ck f.checksum.2
  rw [List.append_assoc, List.take_left] at hck
  have hcount : (d'.receive f.checksum.2).state.rxCount.toInt = f.payload.length + 1 := by
    rw [(receive_state d' f.checksum.2).1, h.count, hlength]
    rfl
  refine ⟨?_, ?_⟩
  · unfold Driver.checksumOk
    rw [f.checksumOffset_eq hcount]
    dsimp only
    have hckA : (d'.receive f.checksum.2).state.ckA = f.checksum.1 := congrArg Prod.fst hck
    have hckB : (d'.receive f.checksum.2).state.ckB = f.checksum.2 := congrArg Prod.snd hck
    -- The two bytes of the checksum follow the payload in the buffer.
    have hfirst : (f.payload ++ [f.checksum.1] ++ [f.checksum.2]).getD f.payload.length 0 =
        f.checksum.1 := by
      rw [List.append_assoc, List.getD_append_right _ _ _ _ (Nat.le_refl _), Nat.sub_self]
      rfl
    have hsecond : (f.payload ++ [f.checksum.1] ++ [f.checksum.2]).getD
        (f.payload.length + 1) 0 = f.checksum.2 := by
      rw [List.append_assoc, List.getD_append_right _ _ _ _ (Nat.le_add_right _ 1),
        Nat.add_sub_cancel_left]
      rfl
    rw [hbuffer _ (by omega), hbuffer _ (by omega), hckA, hckB, hfirst, hsecond]
    simp
  · intro i hi
    rw [hbuffer i (by omega), List.append_assoc, List.getD_append _ _ _ _ hi]
    rfl

/-- **A frame that fits**, up to its last byte. -/
theorem parse_start (f : Frame) {d : Driver} (hfresh : d.Fresh)
    (hstores : ∀ store ∈ d.stores, store.inBounds)
    (hfits : f.payload.length ≤ longestPayload) :
    (d.parseAll conv clock f.bytes.dropLast).1 = List.replicate (f.bytes.length - 1) 0 ∧
      Received f d (f.payload ++ [f.checksum.1])
        (d.parseAll conv clock f.bytes.dropLast).2 := by
  obtain ⟨hheader, hstart⟩ := parse_header conv clock f hfresh hstores
  have hroom : f.payload.length + 2 ≤ ubxBufferSize := by
    unfold longestPayload at hfits
    unfold ubxBufferSize at *
    omega
  obtain ⟨hbody, hreceived⟩ := hstart.bytes conv clock (f.payload ++ [f.checksum.1])
    (by simp) (by simp; omega)
  rw [List.nil_append] at hreceived
  have hlength : f.bytes.length - 1 = 6 + (f.payload ++ [f.checksum.1]).length := by
    rw [f.bytes_eq]
    simp [Frame.header]
    omega
  rw [hlength, f.bytes_eq, List.dropLast_concat,
    parseAll_append conv clock ([0xb5, 0x62] ++ f.header), hheader, hbody,
    ← List.replicate_append_replicate]
  exact ⟨rfl, hreceived⟩

/-- **The driver after a frame that fits**: the fields are stored when the whole body is in the
buffer. -/
theorem parse_frame (f : Frame) {d : Driver} (hfresh : d.Fresh)
    (hstores : ∀ store ∈ d.stores, store.inBounds)
    (hfits : f.payload.length ≤ longestPayload) :
    ∃ e : Driver, f.InBuffer e ∧ e.position = d.position ∧ e.clockReads = d.clockReads ∧
      (∀ store ∈ e.stores, store.inBounds) ∧
      d.parseAll conv clock f.bytes = (List.replicate (f.bytes.length - 1) 0 ++ [1],
        ((e.storeFields conv f.id).stamp clock f.id).decodeInit) := by
  obtain ⟨hstart, hreceived⟩ := parse_start conv clock f hfresh hstores hfits
  have hroom : f.payload.length + 2 ≤ ubxBufferSize := by
    unfold longestPayload at hfits
    unfold ubxBufferSize at *
    omega
  set d₂ := (d.parseAll conv clock f.bytes.dropLast).2 with hd₂
  -- All but the last byte is received; this one completes the message.
  obtain ⟨hok, hbuffer⟩ := hreceived.last hfits
  have hlast : d₂.ubxParse conv clock f.checksum.2 =
      (1, (((d₂.receive f.checksum.2).storeFields conv f.id).stamp clock f.id).decodeInit) := by
    unfold Driver.ubxParse
    rw [hreceived.state]
    dsimp only
    rw [parsePayload_of_complete conv clock ?_ hreceived.id, if_pos hok]
    rw [hreceived.size, hreceived.count, List.length_append]
    exact Int.le_refl _
  refine ⟨d₂.receive f.checksum.2, hbuffer, ?_, ?_, ?_, ?_⟩
  · exact (receive_position d₂ f.checksum.2).1.trans hreceived.position
  · exact (receive_position d₂ f.checksum.2).2.trans hreceived.clockReads
  · intro store hmem
    rw [(receive_state d₂ f.checksum.2).2.2.2.2, List.mem_append, List.mem_singleton] at hmem
    rcases hmem with hold | rfl
    · exact hreceived.stores store hold
    · rw [hreceived.count]
      refine ⟨Int.natCast_nonneg _, Int.ofNat_lt.mpr ?_⟩
      rw [List.length_append, List.length_singleton]
      omega
  · have hsplit : f.bytes = f.bytes.dropLast ++ [f.checksum.2] := by
      rw [f.bytes_eq, List.dropLast_concat]
    have hparse := parseAll_append conv clock f.bytes.dropLast [f.checksum.2] d
    rw [← hsplit, hstart, ← hd₂, parseAll_cons, hlast] at hparse
    exact hparse

/-! ### Which frames are decoded -/

theorem update_counter (f : Frame) (p : VehicleGpsPosition) :
    (f.update conv p).counter = p.counter := by
  unfold Frame.update
  split <;> rfl

/-- A frame that fits and is no `NAV-SVINFO` is decoded. -/
theorem decodedFrame {f : Frame} (hid : f.id ≠ .navSvinfo)
    (hfits : f.payload.length ≤ longestPayload) {d : Driver} (hfresh : d.Fresh)
    (hstores : ∀ store ∈ d.stores, store.inBounds) :
    DecodedFrame conv clock f d (d.parseAll conv clock f.bytes).1
      (d.parseAll conv clock f.bytes).2 := by
  obtain ⟨e, hbuffer, hposition, hclock, hbounds, hparse⟩ :=
    parse_frame conv clock f hfresh hstores hfits
  obtain ⟨hreads, hfields⟩ := storeFields_position conv hid hbuffer
  rw [hparse]
  refine ⟨rfl, ?_, rfl, ?_⟩
  · show ((e.storeFields conv f.id).stamp clock f.id).position = _
    unfold Driver.stamp
    dsimp only
    rw [hfields, hreads, hposition, hclock, update_counter]
  · have hfields := storeFields_inBounds conv hbounds fun heq => absurd heq hid
    rw [← stamp_stores clock _ f.id] at hfields
    exact hfields

/-- `NAV-SVINFO` is decoded but for its flag. -/
theorem parse_svinfo {f : Frame} (hid : f.id = .navSvinfo) {d : Driver} (hfresh : d.Fresh)
    (hstores : ∀ store ∈ d.stores, store.inBounds) :
    (d.parseAll conv clock f.bytes).1 = List.replicate (f.bytes.length - 1) 0 ++ [1] ∧
      (d.parseAll conv clock f.bytes).2.position = { f.update conv d.position with
        timestamp := clock d.clockReads
        counter := d.position.counter + 1
        satelliteInfoAvailable := if f.numCh = 0 then 1 else 0 } ∧
      (d.parseAll conv clock f.bytes).2.Fresh ∧
      ∀ store ∈ (d.parseAll conv clock f.bytes).2.stores, store.inBounds := by
  obtain ⟨hlength, hchannels⟩ := f.svinfo_length hid
  obtain ⟨e, hbuffer, hposition, hclock, hbounds, hparse⟩ :=
    parse_frame conv clock f hfresh hstores (by unfold longestPayload ubxBufferSize; omega)
  obtain ⟨hreads, hfields⟩ := navSvinfo_position conv hid hbuffer
  rw [hparse, hid]
  refine ⟨rfl, ?_, rfl, ?_⟩
  · show ((e.navSvinfo conv).stamp clock .navSvinfo).position = _
    unfold Driver.stamp
    dsimp only
    rw [hfields, hreads, hposition, hclock]
    dsimp only
    rw [update_counter]
  · have hfields : ∀ store ∈ (e.storeFields conv .navSvinfo).stores, store.inBounds := by
      refine storeFields_inBounds conv hbounds fun _ => ?_
      rw [numCh_inBuffer hid hbuffer]
      exact Nat.le_trans hchannels (by decide)
    rw [← stamp_stores clock _ .navSvinfo] at hfields
    exact hfields

/-- The flag of `NAV-SVINFO` is never the one that the frame says. -/
theorem not_decodedFrame_svinfo {f : Frame} (hid : f.id = .navSvinfo) {d : Driver}
    (hfresh : d.Fresh) (hstores : ∀ store ∈ d.stores, store.inBounds) :
    ¬ DecodedFrame conv clock f d (d.parseAll conv clock f.bytes).1
      (d.parseAll conv clock f.bytes).2 := by
  obtain ⟨-, hposition, -, -⟩ := parse_svinfo conv clock hid hfresh hstores
  intro hdecoded
  have hflag := congrArg VehicleGpsPosition.satelliteInfoAvailable
    (hposition.symm.trans hdecoded.position)
  unfold Frame.update at hflag
  rw [hid] at hflag
  dsimp only at hflag
  split_ifs at hflag with hzero hpos hpos
  · omega
  · exact absurd hflag (by decide)
  · exact absurd hflag (by decide)
  · omega

/-- No store is ever forgotten. -/
theorem mem_ubxParse_stores {store : Store} {d : Driver} (h : store ∈ d.stores) (b : UInt8) :
    store ∈ (d.ubxParse conv clock b).2.stores := by
  unfold Driver.ubxParse
  cases d.state.decodeState with
  | uninit =>
      dsimp only
      split_ifs <;> exact h
  | gotSync1 =>
      dsimp only
      split_ifs <;> exact h
  | gotSync2 =>
      dsimp only
      split_ifs <;> exact h
  | gotClass =>
      dsimp only
      split <;> exact h
  | gotMessageId => exact h
  | gotLength1 => exact h
  | gotLength2 =>
      refine mem_parsePayload_stores conv clock ?_
      rw [(receive_state d b).2.2.2.2]
      exact List.mem_append_left _ h

theorem mem_parseAll_stores {store : Store} (bs : List UInt8) {d : Driver}
    (h : store ∈ d.stores) : store ∈ (d.parseAll conv clock bs).2.stores := by
  induction bs generalizing d with
  | nil => exact h
  | cons b bs ih => exact ih (mem_ubxParse_stores conv clock h b)

/-- A frame that does not fit is stored over the end of the buffer. -/
theorem not_inBounds_long {f : Frame} (hlong : longestPayload < f.payload.length) {d : Driver}
    (hfresh : d.Fresh) (hstores : ∀ store ∈ d.stores, store.inBounds) :
    ¬ ∀ store ∈ (d.parseAll conv clock f.bytes).2.stores, store.inBounds := by
  obtain ⟨-, hstart⟩ := parse_header conv clock f hfresh hstores
  have hbody : f.body.length = f.payload.length + 2 := by
    unfold Frame.body
    rw [List.length_append]
    rfl
  have hmore : ubxBufferSize < f.body.length := by
    unfold longestPayload at hlong
    unfold ubxBufferSize at *
    omega
  have htake : (f.body.take ubxBufferSize).length = ubxBufferSize :=
    List.length_take_of_le (Nat.le_of_lt hmore)
  obtain ⟨b, rest, hrest⟩ : ∃ b rest, f.body.drop ubxBufferSize = b :: rest :=
    List.exists_cons_of_length_pos (by rw [List.length_drop]; omega)
  obtain ⟨-, hfull⟩ := hstart.bytes conv clock (f.body.take ubxBufferSize)
    (by rw [htake, List.length_nil]; omega) (by rw [htake, List.length_nil]; omega)
  rw [List.nil_append] at hfull
  -- The buffer is full, and a byte comes.
  have hmem : Store.rxBuffer ubxBufferSize ∈ (d.parseAll conv clock f.bytes).2.stores := by
    have hsplit : f.bytes =
        ([0xb5, 0x62] ++ f.header) ++ (f.body.take ubxBufferSize ++ (b :: rest)) := by
      rw [← hrest, List.take_append_drop]
      rfl
    rw [hsplit, parseAll_append conv clock ([0xb5, 0x62] ++ f.header),
      parseAll_append conv clock (f.body.take ubxBufferSize), parseAll_cons]
    refine mem_parseAll_stores conv clock rest ?_
    unfold Driver.ubxParse
    rw [hfull.state]
    refine store_mem_parsePayload conv clock ?_ b
    rw [hfull.count, htake]
  intro hinside
  exact absurd (hinside _ hmem).2 (by decide)

theorem not_decodedFrame_long {f : Frame} (hlong : longestPayload < f.payload.length) {d : Driver}
    (hfresh : d.Fresh) (hstores : ∀ store ∈ d.stores, store.inBounds) :
    ¬ DecodedFrame conv clock f d (d.parseAll conv clock f.bytes).1
      (d.parseAll conv clock f.bytes).2 :=
  fun hdecoded => not_inBounds_long conv clock hlong hfresh hstores hdecoded.stores

/-- A frame that fits is stored inside of the buffer, whatever it says. -/
theorem parse_frame_stores (f : Frame) {d : Driver} (hfresh : d.Fresh)
    (hstores : ∀ store ∈ d.stores, store.inBounds)
    (hfits : f.payload.length ≤ longestPayload) :
    ∀ store ∈ (d.parseAll conv clock f.bytes).2.stores, store.inBounds := by
  by_cases hid : f.id = .navSvinfo
  · exact (parse_svinfo conv clock hid hfresh hstores).2.2.2
  · exact (decodedFrame conv clock hid hfits hfresh hstores).stores

/-- **The frames that are decoded** from a decoder that starts anew are exactly those that fit into
the buffer and are no `NAV-SVINFO`. -/
theorem decoded_iff (frames : List Frame) {d : Driver} (hfresh : d.Fresh)
    (hstores : ∀ store ∈ d.stores, store.inBounds) :
    Decoded conv clock frames d ↔
      ∀ f ∈ frames, f.id ≠ .navSvinfo ∧ f.payload.length ≤ longestPayload := by
  induction frames generalizing d with
  | nil => exact ⟨fun _ _ hmem => absurd hmem List.not_mem_nil, fun _ => trivial⟩
  | cons f frames ih =>
      rw [List.forall_mem_cons]
      constructor
      · intro hdecoded
        obtain ⟨hfirst, hrest⟩ := hdecoded
        refine ⟨⟨?_, ?_⟩, (ih hfirst.fresh hfirst.stores).mp hrest⟩
        · intro hid
          exact not_decodedFrame_svinfo conv clock hid hfresh hstores hfirst
        · refine Nat.le_of_not_lt fun hlong => ?_
          exact not_decodedFrame_long conv clock hlong hfresh hstores hfirst
      · intro hsupported
        obtain ⟨⟨hid, hfits⟩, hrest⟩ := hsupported
        have hfirst := decodedFrame conv clock hid hfits hfresh hstores
        exact ⟨hfirst, (ih hfirst.fresh hfirst.stores).mpr hrest⟩

end

/-- A `NAV-POSLLH` with the sync bytes in its payload. -/
def posllhFrame : Frame where
  id := .navPosllh
  payload := [0xb5, 0x62, 0x01, 0x02, 1, 0, 0, 0, 2, 0, 0, 0, 3, 0, 0, 0, 4, 0, 0, 0, 5, 0, 0, 0,
    0xb5, 0x62, 0xb5, 0x62]
  payloadOk := rfl

/-- An `RXM-SVSI` with six satellites. -/
def svsiFrame : Frame where
  id := .rxmSvsi
  payload := [0, 0, 0, 0, 0, 0, 6, 0]
  payloadOk := ⟨by decide, by decide⟩

theorem start_stores : ∀ store ∈ Driver.start.stores, store.inBounds :=
  fun _ hmem => absurd hmem List.not_mem_nil

theorem decoded_posllh_svsi :
    Decoded .whole (fun _ => 0) [posllhFrame, svsiFrame, posllhFrame] .start := by
  have hfits : posllhFrame.payload.length ≤ longestPayload ∧
      svsiFrame.payload.length ≤ longestPayload := by decide
  refine (decoded_iff .whole (fun _ => 0) _ start_fresh start_stores).mpr ?_
  simp only [List.forall_mem_cons]
  exact ⟨⟨(fun heq => by cases heq), hfits.1⟩, ⟨(fun heq => by cases heq), hfits.2⟩,
    ⟨(fun heq => by cases heq), hfits.1⟩, fun _ hmem => absurd hmem List.not_mem_nil⟩

/-- A `NAV-SVINFO` with one channel. -/
def svinfoFrame : Frame where
  id := .navSvinfo
  payload := [0, 0, 0, 0, 1, 0, 0, 0, 0, 5, 1, 7, 40, 30, 90, 0, 0, 0, 0, 0]
  payloadOk := ⟨by decide, by decide⟩

/-- Its flag says that there is no satellite. -/
theorem svinfo_flag_inverted :
    ¬ ∀ (conv : Conversions) (clock : Nat → UInt64) (frames : List Frame) (d : Driver), d.Fresh →
      (∀ store ∈ d.stores, store.inBounds) → Decoded conv clock frames d := by
  intro hall
  -- For any driver: at a fixed one, the parser would be run on the whole frame here.
  have hdecoded : ∀ d : Driver, d.Fresh → (∀ store ∈ d.stores, store.inBounds) →
      DecodedFrame .whole (fun _ => 0) svinfoFrame d
        (d.parseAll .whole (fun _ => 0) svinfoFrame.bytes).1
        (d.parseAll .whole (fun _ => 0) svinfoFrame.bytes).2 :=
    fun d hfresh hstores => (hall .whole (fun _ => 0) [svinfoFrame] d hfresh hstores).1
  exact not_decodedFrame_svinfo .whole (fun _ => 0) rfl start_fresh start_stores
    (hdecoded .start start_fresh start_stores)

end Px4Firmware.Gps
