import Px4Firmware.Gps.Mtk

/-!
# Px4Firmware.Gps.Resync

**Frames behind other bytes.** When the byte after the first sync byte is not the second one, both
decoders start anew, and do not look whether it is a first sync byte itself. In bytes without the
two sync bytes, a run of first ones is therefore eaten in pairs: if their number is odd, the one
that is left over takes the first byte of the frame for a wrong second one.

`resynchronises_iff` says after which bytes a frame is accepted at its last byte: those that end in
an even number of first sync bytes in a row. For UBX, the frame has to fit into the buffer as well.
-/

namespace Px4Firmware.Gps

open Px4Firmware.Lib

/-! ### The law -/

section

variable (conv : Conversions) (clock : Nat → UInt64)

/-- A frame behind other bytes is accepted at its last byte: this one alone returns one, all bytes
of the frame before it have been received, and no store has missed its array. -/
structure FrameAccepted (f : Frame) (l : List UInt8) (d : Driver) : Prop where
  returned : (d.parseAll conv clock (l ++ f.bytes)).1 =
    List.replicate ((l ++ f.bytes).length - 1) 0 ++ [1]
  received : Received f d (f.payload ++ [f.checksum.1])
    (d.parseAll conv clock (l ++ f.bytes.dropLast)).2
  stores : ∀ store ∈ (d.parseAll conv clock (l ++ f.bytes)).2.stores, store.inBounds

end

namespace Mtk

/-- A packet behind other bytes is accepted at its last byte: this one alone returns one, and all
bytes of the packet before it have been received. -/
structure PacketAccepted (unixTime : UInt32 → UInt32 → UInt64) (clock : Nat → UInt64) (p : Packet)
    (l : List UInt8) (d : Driver) : Prop where
  returned : (d.parseAll unixTime clock (l ++ p.bytes)).1 =
    List.replicate ((l ++ p.bytes).length - 1) 0 ++ [1]
  received : Received d (p.contents ++ [p.checksum.1])
    (d.parseAll unixTime clock (l ++ p.bytes.dropLast)).2

end Mtk

/-! ### How deep a decoder is in a frame -/

/-- A count that overflows is negative. -/
theorem toNat_succ_le (x : Int16) : (x + 1).toInt.toNat ≤ x.toInt.toNat + 1 := by
  have hlow := Int16.le_toInt x
  have hhigh := Int16.toInt_lt x
  have hhigh' := Int16.toInt_lt (x + 1)
  by_cases hlt : x.toInt < 32767
  · have hsucc : (x + 1).toInt = x.toInt + 1 := by
      rw [Int16.toInt_add, Int.bmod_eq_of_le] <;> simp <;> omega
    omega
  · omega

/-- How many bytes of a frame bring the decoder into a state. -/
def DecodeState.depth : DecodeState → Nat
  | uninit => 0
  | gotSync1 => 1
  | gotSync2 => 2
  | gotClass => 3
  | gotMessageId => 4
  | gotLength1 => 5
  | gotLength2 => 6

/-- How many bytes of a frame the decoder has got. -/
def Driver.depth (d : Driver) : Nat := d.state.decodeState.depth + d.state.rxCount.toInt.toNat

/-- Nothing is counted in a header, and in a payload the message is known. -/
structure Driver.Sound (d : Driver) : Prop where
  idle : d.state.decodeState ≠ .gotLength2 → d.Idle
  payload : d.state.decodeState = .gotLength2 → d.state.messageId.isSome = true

theorem Driver.Idle.sound {d : Driver} (h : d.Idle) : d.Sound where
  idle _ := h
  payload heq := h.id (by rw [heq]; rfl)

theorem Driver.Idle.depth {d : Driver} (h : d.Idle) : d.depth = d.state.decodeState.depth := by
  simp [Driver.depth, h.count]

section

variable (conv : Conversions) (clock : Nat → UInt64)

/-- A byte of a header brings the decoder to the next state, or back to the first. -/
theorem depth_header {d : Driver} (h : d.state.decodeState ≠ .gotLength2) (b : UInt8) :
    (d.ubxParse conv clock b).2.state.decodeState.depth ≤ d.state.decodeState.depth + 1 := by
  unfold Driver.ubxParse
  cases hstate : d.state.decodeState with
  | uninit =>
      dsimp only
      split_ifs
      · exact Nat.le_refl 1
      · rw [hstate]
        exact Nat.zero_le 1
  | gotSync1 =>
      dsimp only
      split_ifs
      · exact Nat.le_refl 2
      · exact Nat.zero_le 2
  | gotSync2 =>
      dsimp only
      split_ifs
      · exact Nat.le_refl 3
      · exact Nat.le_refl 3
      · exact Nat.zero_le 3
  | gotClass =>
      dsimp only
      split
      · exact Nat.le_refl 4
      · exact Nat.zero_le 4
  | gotMessageId => exact Nat.le_refl 5
  | gotLength1 => exact Nat.le_refl 6
  | gotLength2 => exact absurd hstate h

/-- A byte of a payload is counted, or the decoder starts anew. -/
theorem depth_payload {d : Driver} (hstate : d.state.decodeState = .gotLength2)
    (hid : d.state.messageId.isSome = true) (b : UInt8) :
    (d.ubxParse conv clock b).2.Sound ∧
      (d.ubxParse conv clock b).2.depth ≤ d.depth + 1 := by
  obtain ⟨hcount, -, hmessage, hkeep, -⟩ := receive_state d b
  obtain ⟨id, hsome⟩ := Option.isSome_iff_exists.mp hid
  have hparse : d.ubxParse conv clock b = d.parsePayload conv clock b := by
    simp only [Driver.ubxParse, hstate]
  rw [hparse]
  rcases Int.lt_or_le d.state.rxCount.toInt (d.state.payloadSize.toNat + 1) with hless | hdone
  · rw [parsePayload_of_incomplete conv clock hless]
    have hstate' : (d.receive b).countByte.state.decodeState = .gotLength2 := hkeep.trans hstate
    refine ⟨⟨fun hne => absurd hstate' hne, fun _ => ?_⟩, ?_⟩
    · show (d.receive b).state.messageId.isSome = true
      rw [hmessage]
      exact hid
    · have hsucc := toNat_succ_le d.state.rxCount
      unfold Driver.depth
      rw [hstate', hstate, show (d.receive b).countByte.state.rxCount = d.state.rxCount + 1 from
        congrArg (· + 1) hcount]
      omega
  · rw [parsePayload_of_complete conv clock hdone hsome]
    split_ifs
    · exact ⟨(idle_decodeInit _).sound, Nat.zero_le _⟩
    · exact ⟨(idle_decodeInit _).sound, Nat.zero_le _⟩

/-- **Each byte brings the UBX decoder at most one byte deeper** into a frame. -/
theorem ubx_deepens :
    Deepens (fun b d => d.ubxParse conv clock b) Driver.Sound Driver.depth where
  keeps b d hsound := by
    by_cases hstate : d.state.decodeState = .gotLength2
    · exact (depth_payload conv clock hstate (hsound.payload hstate) b).1
    · exact (ubxParse_header conv clock hstate (hsound.idle hstate) b).2.2.sound
  step b d hsound := by
    by_cases hstate : d.state.decodeState = .gotLength2
    · exact (depth_payload conv clock hstate (hsound.payload hstate) b).2
    · have hidle := hsound.idle hstate
      rw [hidle.depth, (ubxParse_header conv clock hstate hidle b).2.2.depth]
      exact depth_header conv clock hstate b

/-! ### UBX -/

/-- A decoder that starts anew is between two frames. -/
theorem Driver.Fresh.state {d : Driver} (h : d.Fresh) :
    d.state.decodeState = .uninit ∧ d.Idle := by
  rw [← show d.decodeInit = d from h]
  exact ⟨rfl, idle_decodeInit d⟩

/-- The UBX decoder hunts for `0xb5 0x62`. -/
theorem ubx_hunts {d : Driver} (hfresh : d.Fresh) :
    Hunts (fun b d => d.ubxParse conv clock b) 0 0xb5 0x62 d
      { d with state := { d.state with decodeState := .gotSync1 } } where
  ne := by decide
  fresh_first := by simp [Driver.ubxParse, hfresh.state.1]
  fresh_other b hb := by simp [Driver.ubxParse, hfresh.state.1, hb]
  half_other b hb := by
    simp only [Driver.ubxParse, if_neg hb]
    exact congrArg _ hfresh

/-- **UBX.** A frame behind bytes without the sync bytes is accepted if and only if these end in an
even number of first ones, and it fits into the buffer. -/
theorem frameAccepted_iff {l : List UInt8} (hl : ¬ [0xb5, 0x62] <:+: l) (f : Frame) {d : Driver}
    (hfresh : d.Fresh) (hstores : ∀ store ∈ d.stores, store.inBounds) :
    FrameAccepted conv clock f l d ↔
      Even (trailing (· = 0xb5) l) ∧ f.payload.length ≤ longestPayload := by
  have hhunts := ubx_hunts conv clock hfresh
  have hbehind : Even (trailing (· = 0xb5) l) → ∀ bs, d.parseAll conv clock (l ++ bs) =
      (List.replicate l.length 0 ++ (d.parseAll conv clock bs).1,
        (d.parseAll conv clock bs).2) := by
    intro heven bs
    rw [parseAll_eq_feed, hhunts.feed_append_of_even hl heven, ← parseAll_eq_feed]
  constructor
  · intro haccepted
    -- The decoder has got as deep into the frame as it is long, but for its last byte.
    have heven : Even (trailing (· = 0xb5) l) := by
      have hreceived := haccepted.received
      have hbytes : f.bytes.dropLast =
          0xb5 :: (0x62 :: f.header ++ (f.payload ++ [f.checksum.1])) := by
        rw [f.bytes_eq, List.dropLast_concat]
        rfl
      rw [hbytes, parseAll_eq_feed] at hreceived
      refine hhunts.even_of_depth (ubx_deepens conv clock) hfresh.state.2.sound
        (hfresh.state.2.depth.trans (congrArg _ hfresh.state.1)) hl
        (0x62 :: f.header ++ (f.payload ++ [f.checksum.1])) ?_
      simp only [Driver.depth, hreceived.state, hreceived.count]
      simp [Frame.header, DecodeState.depth]
      omega
    refine ⟨heven, Nat.le_of_not_lt fun hlong => ?_⟩
    have hstored := haccepted.stores
    rw [hbehind heven] at hstored
    exact not_inBounds_long conv clock hlong hfresh hstores hstored
  · intro hcondition
    obtain ⟨heven, hfits⟩ := hcondition
    obtain ⟨-, hreceived⟩ := parse_start conv clock f hfresh hstores hfits
    have hpositive : 0 < f.bytes.length := by simp [Frame.bytes]
    refine ⟨?_, ?_, ?_⟩
    · obtain ⟨e, -, -, -, -, hparse⟩ := parse_frame conv clock f hfresh hstores hfits
      rw [hbehind heven, hparse, List.length_append, Nat.add_sub_assoc hpositive,
        ← List.replicate_append_replicate, List.append_assoc]
    · rw [hbehind heven]
      exact hreceived
    · rw [hbehind heven]
      exact parse_frame_stores conv clock f hfresh hstores hfits

end

/-! ### MTK -/

namespace Mtk

/-- How many bytes of a packet the decoder has got. -/
def Driver.depth (d : Driver) : Nat :=
  match d.state.decodeState with
  | .uninit => 0
  | .gotCkA => 1
  | .gotCkB => 2 + d.state.rxCount.toInt.toNat

/-- Nothing is counted before the contents of a packet. -/
def Driver.Sound (d : Driver) : Prop := d.state.decodeState ≠ .gotCkB → d.state.rxCount = 0

section

variable (unixTime : UInt32 → UInt32 → UInt64) (clock : Nat → UInt64)

/-- What a byte does to the state. -/
theorem mtkParse_state {d : Driver} (hsound : d.Sound) (b : UInt8) :
    (d.mtkParse unixTime clock b).2.Sound ∧
      (d.mtkParse unixTime clock b).2.depth ≤ d.depth + 1 := by
  unfold Driver.mtkParse Driver.depth
  cases hstate : d.state.decodeState with
  | uninit =>
      have hcount := hsound (by rw [hstate]; decide)
      dsimp only
      split_ifs
      · exact ⟨fun _ => hcount, Nat.le_refl 1⟩
      · rw [hstate]
        exact ⟨fun _ => hcount, Nat.zero_le 1⟩
  | gotCkA =>
      have hcount := hsound (by rw [hstate]; decide)
      dsimp only
      split_ifs
      · refine ⟨fun _ => hcount, ?_⟩
        rw [hcount]
        exact Nat.le_refl 2
      · exact ⟨fun _ => rfl, Nat.zero_le 2⟩
  | gotCkB =>
      obtain ⟨hkeep, hsucc, -⟩ := receive_fields d b
      have hnext := toNat_succ_le d.state.rxCount
      dsimp only
      split_ifs
      · exact ⟨fun _ => rfl, Nat.zero_le _⟩
      · exact ⟨fun _ => rfl, Nat.zero_le _⟩
      · refine ⟨fun hne => absurd (hkeep.trans hstate) hne, ?_⟩
        rw [hkeep, hstate, hsucc]
        dsimp only
        omega

/-- **Each byte brings the MTK decoder at most one byte deeper** into a packet. -/
theorem mtk_deepens :
    Deepens (fun b d => d.mtkParse unixTime clock b) Driver.Sound Driver.depth where
  keeps b _ hsound := (mtkParse_state unixTime clock hsound b).1
  step b _ hsound := (mtkParse_state unixTime clock hsound b).2

/-- A decoder that starts anew is between two packets. -/
theorem Driver.Fresh.state {d : Driver} (h : d.Fresh) :
    d.state.decodeState = .uninit ∧ d.Sound ∧ d.depth = 0 := by
  rw [← show d.decodeInit = d from h]
  exact ⟨rfl, fun _ => rfl, rfl⟩

/-- The MTK decoder hunts for `0xd0 0xdd`. -/
theorem mtk_hunts {d : Driver} (hfresh : d.Fresh) :
    Hunts (fun b d => d.mtkParse unixTime clock b) 0 0xd0 0xdd d
      { d with state := { d.state with decodeState := .gotCkA } } where
  ne := by decide
  fresh_first := by simp [Driver.mtkParse, hfresh.state.1]
  fresh_other b hb := by simp [Driver.mtkParse, hfresh.state.1, hb]
  half_other b hb := by
    simp only [Driver.mtkParse, if_neg hb]
    exact congrArg _ hfresh

/-- **MTK.** A packet behind bytes without the two symbols is accepted if and only if these end in
an even number of first ones. -/
theorem packetAccepted_iff {l : List UInt8} (hl : ¬ [0xd0, 0xdd] <:+: l) (p : Packet) {d : Driver}
    (hfresh : d.Fresh) :
    PacketAccepted unixTime clock p l d ↔ Even (trailing (· = 0xd0) l) := by
  have hhunts := mtk_hunts unixTime clock hfresh
  obtain ⟨-, hsound, hzero⟩ := hfresh.state
  have hlength := p.length_eq
  constructor
  · intro haccepted
    have hreceived := haccepted.received
    have hbytes : p.bytes.dropLast = 0xd0 :: (0xdd :: (p.contents ++ [p.checksum.1])) := by
      rw [p.bytes_eq, List.dropLast_concat]
      rfl
    rw [hbytes] at hreceived
    refine hhunts.even_of_depth (mtk_deepens unixTime clock) hsound hzero hl
      (0xdd :: (p.contents ++ [p.checksum.1])) ?_
    simp only [Driver.depth, hreceived.state, hreceived.count]
    simp
    omega
  · intro heven
    refine ⟨?_, ?_⟩
    · obtain ⟨e, -, hparse⟩ := parse_packet unixTime clock p hfresh
      unfold Driver.parseAll at hparse ⊢
      rw [hhunts.feed_append_of_even hl heven, hparse, List.length_append, p.length_bytes,
        show l.length + 37 - 1 = l.length + 36 from rfl, ← List.replicate_append_replicate,
        List.append_assoc]
    · unfold Driver.parseAll
      rw [hhunts.feed_append_of_even hl heven]
      exact (parse_start unixTime clock p hfresh).2

end

end Mtk

/-! ### Both decoders -/

/-- **When a frame behind other bytes is accepted.** The two sync bytes are not found in these, nor
across the boundary, since no frame begins with the second of them. The frame is accepted at its
last byte if and only if the bytes end in an even number of first sync bytes in a row and it fits
into the buffer; an MTK packet always does. -/
theorem resynchronises_iff (conv : Conversions) (unixTime : UInt32 → UInt32 → UInt64)
    (clock : Nat → UInt64) (l : List UInt8) {d : Driver} (hfresh : d.Fresh)
    (hstores : ∀ store ∈ d.stores, store.inBounds) {m : Mtk.Driver} (hfresh' : m.Fresh) :
    (¬ [0xb5, 0x62] <:+: l → ∀ f : Frame,
      FrameAccepted conv clock f l d ↔
        Even (trailing (· = 0xb5) l) ∧ f.payload.length ≤ longestPayload) ∧
    (¬ [0xd0, 0xdd] <:+: l → ∀ p : Mtk.Packet,
      Mtk.PacketAccepted unixTime clock p l m ↔ Even (trailing (· = 0xd0) l)) :=
  ⟨fun hl f => frameAccepted_iff conv clock hl f hfresh hstores,
    fun hl p => Mtk.packetAccepted_iff unixTime clock hl p hfresh'⟩

/-- The MTK driver when the app starts. -/
def Mtk.Driver.start : Mtk.Driver where
  state :=
    { ckA := 0
      ckB := 0
      decodeState := .uninit
      printErrors := false
      rxCount := 0
      lastMessageTimestamp := 0 }
  rxBuffer := .replicate Mtk.bufferSize 0
  position := Gps.Driver.start.position
  clockReads := 0

/-- A packet from midnight of the first of January 2012. -/
def newYearPacket : Mtk.Packet where
  contents := [32, 1, 0, 0, 0, 2, 0, 0, 0, 3, 0, 0, 0, 4, 0, 0, 0, 5, 0, 0, 0, 6, 3,
    0x80, 0x27, 0, 0, 0, 0, 0, 0, 7, 0]
  length_eq := rfl

/-- Each decoder behind two first sync bytes of both kinds. -/
theorem resynchronises_pairs :
    FrameAccepted .whole (fun _ => 0) svsiFrame [0xd0, 0xd0, 0xb5, 0xb5] .start ∧
      Mtk.PacketAccepted (fun _ _ => 1325376000000000) (fun _ => 0) newYearPacket
        [0xb5, 0xb5, 0xd0, 0xd0] .start := by
  have hubx := (resynchronises_iff .whole (fun _ _ => 1325376000000000) (fun _ => 0)
    [0xd0, 0xd0, 0xb5, 0xb5] start_fresh start_stores (m := .start) rfl).1
  have hmtk := (resynchronises_iff .whole (fun _ _ => 1325376000000000) (fun _ => 0)
    [0xb5, 0xb5, 0xd0, 0xd0] start_fresh start_stores (m := .start) rfl).2
  exact ⟨(hubx (by decide) svsiFrame).mpr ⟨by decide, by decide⟩,
    (hmtk (by decide) newYearPacket).mpr (by decide)⟩

/-- A single first sync byte takes the first byte of the frame with it, in both decoders. -/
theorem frame_behind_sync_byte_lost :
    (¬ ∀ (conv : Conversions) (clock : Nat → UInt64) (l : List UInt8) (d : Driver), d.Fresh →
      (∀ store ∈ d.stores, store.inBounds) → ¬ [0xb5, 0x62] <:+: l → ∀ f : Frame,
        f.payload.length ≤ longestPayload → FrameAccepted conv clock f l d) ∧
    ¬ ∀ (unixTime : UInt32 → UInt32 → UInt64) (clock : Nat → UInt64) (l : List UInt8)
      (m : Mtk.Driver), m.Fresh → ¬ [0xd0, 0xdd] <:+: l → ∀ p : Mtk.Packet,
        Mtk.PacketAccepted unixTime clock p l m := by
  constructor
  · intro hall
    have haccepted := hall .whole (fun _ => 0) [0xb5] .start start_fresh start_stores (by decide)
      svsiFrame (by decide)
    obtain ⟨heven, -⟩ := (frameAccepted_iff .whole (fun _ => 0) (by decide) svsiFrame start_fresh
      start_stores).mp haccepted
    exact absurd heven (by decide)
  · intro hall
    have haccepted := hall (fun _ _ => 1325376000000000) (fun _ => 0) [0xd0] .start rfl
      (by decide) newYearPacket
    have heven := (Mtk.packetAccepted_iff _ _ (by decide) newYearPacket
      (d := .start) rfl).mp haccepted
    exact absurd heven (by decide)

end Px4Firmware.Gps
