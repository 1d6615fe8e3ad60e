import Px4Firmware.Mavlink.Framing

/-!
# Px4Firmware.Mavlink.FrameStream

**MAVLink over a byte stream.** What is sent is received, in order and with ascending sequence
numbers, once the receiver is between two frames (`roundtrip`); whatever comes in, what is decoded
are whole frames that lie in it one behind the other (`frames_of_stream`); and a frame of which a
burst has changed up to two neighbouring bytes is not decoded (`burst_rejected`).
-/

namespace Px4Firmware.Mavlink.Wire

open Lib

/-! ### Packets -/

/-- What a message is about. -/
structure Packet where
  seq : UInt8
  sysid : UInt8
  compid : UInt8
  msgid : UInt8
  payload : List UInt8
  short : payload.length ≤ 255
deriving DecidableEq

/-- The length that a packet announces. -/
def Packet.len (p : Packet) : UInt8 := UInt8.ofNat p.payload.length

/-- What is between the start sign and the checksum. -/
def Packet.core (p : Packet) : List UInt8 :=
  [p.len, p.seq, p.sysid, p.compid, p.msgid] ++ p.payload

/-- The packet of a message. -/
def Message.packet (msg : Message) : Packet where
  seq := msg.seq
  sysid := msg.sysid
  compid := msg.compid
  msgid := msg.msgid
  payload := msg.payload.firsts msg.len.toNat
  short := by
    rw [Buffer.length_firsts]
    exact Nat.le_of_lt_succ msg.len.toNat_lt

section

variable (messageCrc : UInt8 → UInt8)

/-- What comes after the start sign. -/
def Packet.content (p : Packet) : List UInt8 :=
  p.core ++ [ckA (coreChecksum messageCrc p.core), ckB (coreChecksum messageCrc p.core)]

/-- The bytes of a packet. -/
def Packet.wire (p : Packet) : List UInt8 := mavlinkStx :: p.content messageCrc

/-- The bytes of a stream one after the other. -/
def collectAll : Option (List UInt8) → List UInt8 → Option (List UInt8) × List (List UInt8)
  | collected, [] => (collected, [])
  | collected, c :: cs =>
      let (collected, frame) := collect messageCrc c collected
      let (collected, frames) := collectAll collected cs
      (collected, frame.toList ++ frames)

end

section

variable {messageCrc : UInt8 → UInt8} {ch : Channel} {collected : Option (List UInt8)}

theorem Packet.len_toNat (p : Packet) : p.len.toNat = p.payload.length := by
  have hshort := p.short
  rw [Packet.len, UInt8.toNat_ofNat']
  exact Nat.mod_eq_of_lt (by omega)

/-- A message with the bytes of a packet is about it. -/
theorem Message.packet_of_bytes {msg : Message} {p : Packet}
    (h : msg.toSendBuffer = p.wire messageCrc) : msg.packet = p := by
  have hlen : msg.len = p.len := by
    have hsecond := congrArg (fun bytes => bytes.getD 1 0) h
    exact hsecond
  have hpayload : msg.payload.firsts msg.len.toNat = p.payload := by
    have hdrop := congrArg (fun bytes => (bytes.drop 6).take msg.len.toNat) h
    have hfirsts : ((msg.toSendBuffer).drop 6).take msg.len.toNat
        = msg.payload.firsts msg.len.toNat := by
      show (msg.payload.firsts (msg.len.toNat + 2)).take msg.len.toNat = _
      rw [Buffer.firsts_succ, Buffer.firsts_succ, List.append_assoc]
      exact List.take_left' Buffer.length_firsts
    have hrest : ((p.wire messageCrc).drop 6).take msg.len.toNat = p.payload := by
      show (p.payload ++ _).take msg.len.toNat = _
      rw [hlen]
      exact List.take_left' p.len_toNat.symm
    exact hfirsts.symm.trans (hdrop.trans hrest)
  have hat : ∀ i, msg.toSendBuffer.getD i 0 = (p.wire messageCrc).getD i 0 := by
    intro i
    rw [h]
  obtain ⟨seq, sysid, compid, msgid, payload, short⟩ := p
  have hseq : msg.seq = seq := hat 2
  have hsysid : msg.sysid = sysid := hat 3
  have hcompid : msg.compid = compid := hat 4
  have hmsgid : msg.msgid = msgid := hat 5
  simp only [Message.packet, hseq, hsysid, hcompid, hmsgid, Packet.mk.injEq, true_and]
  exact hpayload

theorem collectAll_append (cs ds : List UInt8) :
    collectAll messageCrc collected (cs ++ ds) =
      ((collectAll messageCrc (collectAll messageCrc collected cs).1 ds).1,
        (collectAll messageCrc collected cs).2
          ++ (collectAll messageCrc (collectAll messageCrc collected cs).1 ds).2) := by
  induction cs generalizing collected with
  | nil => simp [collectAll]
  | cons c cs ih => simp [collectAll, ih]

/-- **The parser of a channel is the collector**, for a stream. -/
theorem Channel.Has.parseAll (h : ch.Has messageCrc collected) (cs : List UInt8) :
    (ch.parseAll messageCrc cs).1.Has messageCrc (collectAll messageCrc collected cs).1 ∧
      (ch.parseAll messageCrc cs).2.map Message.toSendBuffer
        = (collectAll messageCrc collected cs).2.map (mavlinkStx :: ·) := by
  induction cs generalizing ch collected with
  | nil => exact ⟨h, rfl⟩
  | cons c cs ih =>
      obtain ⟨hhas, hmessage⟩ := h.parseChar c
      obtain ⟨hhas', hmessages⟩ := ih hhas
      refine ⟨hhas', ?_⟩
      have hfirst : (ch.parseChar messageCrc c).2.1.toList.map Message.toSendBuffer
          = (collect messageCrc c collected).2.toList.map (mavlinkStx :: ·) := by
        rw [← Option.toList_map, hmessage, Option.toList_map]
      simp only [Channel.parseAll, collectAll, List.map_append, hfirst, hmessages]

/-! ### What is sent is received -/

/-- The bytes before the checksum are collected. -/
theorem collectAll_core {len : UInt8} {rest more : List UInt8}
    (hroom : rest.length + more.length ≤ len.toNat + 4) :
    collectAll messageCrc (some (len :: rest)) more = (some (len :: rest ++ more), []) := by
  induction more generalizing rest with
  | nil => simp [collectAll]
  | cons c more ih =>
      rw [List.length_cons] at hroom
      have hnext : (rest ++ [c]).length + more.length ≤ len.toNat + 4 := by
        simp
        omega
      rw [collectAll, collect_core (by omega)]
      simp only [List.cons_append, ih hnext, Option.toList_none, List.nil_append]
      simp

/-- The rest of a frame, for any bytes in the place of the checksum. -/
theorem collectAll_checksum (messageCrc : UInt8 → UInt8) {len : UInt8} {rest : List UInt8}
    (a b : UInt8) (hlength : rest.length = len.toNat + 4) :
    collectAll messageCrc none (mavlinkStx :: len :: rest ++ [a, b]) =
      if a = ckA (coreChecksum messageCrc (len :: rest)) then
        if b = ckB (coreChecksum messageCrc (len :: rest)) then
          (none, [len :: rest ++ [a, b]])
        else (startSign b, [])
      else ((collect messageCrc b (startSign a)).1, []) := by
  have hstart : collectAll messageCrc none (mavlinkStx :: len :: rest)
      = (some (len :: rest), []) := by
    simp only [collectAll, collect, startSign, if_true, Option.toList_none, List.nil_append]
    rw [collectAll_core (by rw [List.length_nil, Nat.zero_add, hlength])]
    rfl
  rw [collectAll_append, hstart]
  by_cases ha : a = ckA (coreChecksum messageCrc (len :: rest))
  · rw [if_pos ha]
    simp only [collectAll, collect_ckA hlength, if_pos ha, collect_ckB hlength]
    by_cases hb : b = ckB (coreChecksum messageCrc (len :: rest))
    · simp [if_pos hb]
    · simp [if_neg hb]
  · rw [if_neg ha]
    simp only [collectAll, collect_ckA hlength, if_neg ha]
    rw [startSign]
    split <;> simp [collect]

/-- A frame is collected. -/
theorem collectAll_wire (p : Packet) :
    collectAll messageCrc none (p.wire messageCrc) = (none, [p.content messageCrc]) := by
  have hlength : ([p.seq, p.sysid, p.compid, p.msgid] ++ p.payload).length = p.len.toNat + 4 := by
    rw [p.len_toNat]
    simp
  have hchecksum := collectAll_checksum messageCrc (ckA (coreChecksum messageCrc p.core))
    (ckB (coreChecksum messageCrc p.core)) hlength
  exact hchecksum.trans ((if_pos rfl).trans (if_pos rfl))

/-- Bytes without a start sign between two frames. -/
theorem collectAll_noise {noise : List UInt8} (hnoise : ∀ c ∈ noise, c ≠ mavlinkStx) :
    collectAll messageCrc none noise = (none, []) := by
  induction noise with
  | nil => rfl
  | cons c noise ih =>
      have hc : startSign c = none := if_neg (hnoise c (.head _))
      simp only [collectAll, collect, hc, ih fun d hd => hnoise d (.tail _ hd)]
      rfl

/-- How many bytes a frame still has, at most. -/
def remaining : Option (List UInt8) → Nat
  | none => 0
  | some [] => 262
  | some (len :: rest) => len.toNat + 6 - (len :: rest).length + 1

/-- A byte that is no start sign brings the end of a frame nearer. -/
theorem remaining_collect (messageCrc : UInt8 → UInt8) (collected : Option (List UInt8)) {c : UInt8}
    (hc : c ≠ mavlinkStx) :
    remaining (collect messageCrc c collected).1 ≤ remaining collected - 1 := by
  have hstart : startSign c = none := if_neg hc
  match collected with
  | none => simp [collect, hstart, remaining]
  | some [] =>
      have hlt : c.toNat < 256 := c.toNat_lt
      simp [collect, remaining]
      omega
  | some (len :: rest) =>
      have hcore : mavlinkCoreHeaderLen = 5 := rfl
      rw [collect]
      simp only [hstart, hcore, List.length_cons]
      split
      · simp only [List.cons_append, remaining, List.length_cons, List.length_append,
          List.length_nil]
        omega
      · split
        · split
          · simp only [List.cons_append, remaining, List.length_cons, List.length_append,
              List.length_nil]
            omega
          · exact Nat.zero_le _
        · split <;> exact Nat.zero_le _

theorem remaining_le : remaining collected ≤ 262 := by
  match collected with
  | none => exact Nat.zero_le _
  | some [] => exact Nat.le_refl _
  | some (len :: rest) =>
      have hlt : len.toNat < 256 := len.toNat_lt
      simp only [remaining, List.length_cons]
      omega

/-- After enough bytes without a start sign, the collector is between two frames. -/
theorem collectAll_quiet {quiet : List UInt8} (hquiet : ∀ c ∈ quiet, c ≠ mavlinkStx)
    (hlong : remaining collected ≤ quiet.length) :
    (collectAll messageCrc collected quiet).1 = none := by
  induction quiet generalizing collected with
  | nil =>
      match collected with
      | none => rfl
      | some [] => exact absurd hlong (by decide)
      | some (len :: rest) => exact absurd hlong (Nat.not_succ_le_zero _)
  | cons c quiet ih =>
      have hnearer := remaining_collect messageCrc collected (hquiet c (.head _))
      have hleft : remaining (collect messageCrc c collected).1 ≤ quiet.length := by
        rw [List.length_cons] at hlong
        omega
      exact ih (fun d hd => hquiet d (.tail _ hd)) hleft

/-- What can be sent: a message that is finalised and put into a send buffer, or a packet that is
written to the port at once; in both cases with the table's entry for it. -/
inductive Sending
  | finalize (msg : Message) (systemId componentId length : UInt8)
  | direct (sysid compid msgid : UInt8) (packet : Buffer UInt8) (length : UInt8)

/-- The bytes that are sent, and the status of the channel then. -/
def Sending.send (messageCrc : UInt8 → UInt8) (status : Status) : Sending → List UInt8 × Status
  | .finalize msg systemId componentId length =>
      let (msg, status, _) :=
        finalizeMessageChan msg status systemId componentId length (messageCrc msg.msgid)
      (msg.toSendBuffer, status)
  | .direct sysid compid msgid packet length =>
      finalizeMessageChanSend status sysid compid msgid packet length (messageCrc msgid)

/-- What is sent, with a sequence number. -/
def Sending.about (seq : UInt8) : Sending → Packet
  | .finalize msg systemId componentId length => {
      seq := seq
      sysid := systemId
      compid := componentId
      msgid := msg.msgid
      payload := msg.payload.firsts length.toNat
      short := by
        rw [Buffer.length_firsts]
        exact Nat.le_of_lt_succ length.toNat_lt }
  | .direct sysid compid msgid packet length => {
      seq := seq
      sysid := sysid
      compid := compid
      msgid := msgid
      payload := packet.firsts length.toNat
      short := by
        rw [Buffer.length_firsts]
        exact Nat.le_of_lt_succ length.toNat_lt }

theorem Packet.core_of_firsts {p : Packet} {b : Buffer UInt8} {length : UInt8}
    (h : p.payload = b.firsts length.toNat) :
    p.core = [length, p.seq, p.sysid, p.compid, p.msgid] ++ b.firsts length.toNat := by
  have hlen : p.len = length := by
    rw [Packet.len, h, Buffer.length_firsts, UInt8.ofNat_toNat]
  rw [Packet.core, hlen, h]

/-- **The two ways of sending agree**: both send the frame of the packet, and number it. -/
theorem Sending.send_eq (status : Status) (x : Sending) :
    x.send messageCrc status = ((x.about status.currentTxSeq).wire messageCrc,
      { status with currentTxSeq := status.currentTxSeq + 1 }) := by
  cases x with
  | finalize msg systemId componentId length =>
      have hcore := Packet.core_of_firsts
        (p := about status.currentTxSeq (.finalize msg systemId componentId length)) rfl
      rw [Packet.wire, Packet.content, hcore]
      simp only [send, finalizeMessageChan, Message.toSendBuffer, Message.header,
        Buffer.firsts_write]
      simp [about, coreChecksum, mavlinkCoreHeaderLen]
  | direct sysid compid msgid packet length =>
      have hcore := Packet.core_of_firsts
        (p := about status.currentTxSeq (.direct sysid compid msgid packet length)) rfl
      have happend : ∀ bytes bytes' : List UInt8,
          crcAccumulateBuffer (crcCalculate bytes) bytes' = crcCalculate (bytes ++ bytes') := by
        intro bytes bytes'
        simp only [crcCalculate, crcAccumulateBuffer, List.foldl_append]
      rw [Packet.wire, Packet.content, hcore]
      simp only [send, finalizeMessageChanSend, happend]
      simp [about, coreChecksum, mavlinkCoreHeaderLen]

/-- What is sent one after the other, with bytes from elsewhere before each frame. -/
def sendAll (messageCrc : UInt8 → UInt8) : Status → List (List UInt8 × Sending) → List UInt8
  | _, [] => []
  | status, (noise, x) :: xs =>
      noise ++ (x.send messageCrc status).1 ++ sendAll messageCrc (x.send messageCrc status).2 xs

/-- What that is about: the sequence numbers ascend. -/
def aboutAll : UInt8 → List (List UInt8 × Sending) → List Packet
  | _, [] => []
  | seq, (_, x) :: xs => x.about seq :: aboutAll (seq + 1) xs

theorem collectAll_sendAll (status : Status) (xs : List (List UInt8 × Sending))
    (hnoise : ∀ x ∈ xs, ∀ c ∈ x.1, c ≠ mavlinkStx) :
    collectAll messageCrc none (sendAll messageCrc status xs)
      = (none, (aboutAll status.currentTxSeq xs).map (Packet.content messageCrc)) := by
  induction xs generalizing status with
  | nil => rfl
  | cons x xs ih =>
      obtain ⟨noise, x⟩ := x
      have hrest := ih { status with currentTxSeq := status.currentTxSeq + 1 }
        fun y hy => hnoise y (.tail _ hy)
      rw [sendAll, Sending.send_eq, collectAll_append, collectAll_append,
        collectAll_noise (hnoise (noise, x) (.head _)), collectAll_wire, hrest]
      rfl

/-- A channel at its start. -/
def Channel.Fresh (ch : Channel) : Prop := ch.status.parseState = .uninit

theorem Channel.Fresh.has (h : ch.Fresh) : ch.Has messageCrc none := by
  rw [Channel.Has, h]
  exact .uninit _

theorem parseAll_append (cs ds : List UInt8) :
    ch.parseAll messageCrc (cs ++ ds) =
      (((ch.parseAll messageCrc cs).1.parseAll messageCrc ds).1,
        (ch.parseAll messageCrc cs).2 ++ ((ch.parseAll messageCrc cs).1.parseAll messageCrc ds).2)
    := by
  induction cs generalizing ch with
  | nil => simp [Channel.parseAll]
  | cons c cs ih => simp [Channel.parseAll, ih]

/-- Messages with the bytes of packets are about them. -/
theorem packets_of_bytes {msgs : List Message} {ps : List Packet}
    (h : msgs.map Message.toSendBuffer = ps.map (Packet.wire messageCrc)) :
    msgs.map Message.packet = ps := by
  induction msgs generalizing ps with
  | nil =>
      cases ps with
      | nil => rfl
      | cons p ps => cases h
  | cons msg msgs ih =>
      cases ps with
      | nil => cases h
      | cons p ps =>
          obtain ⟨hfirst, hrest⟩ := List.cons.inj h
          rw [List.map_cons, Message.packet_of_bytes hfirst, ih hrest]

/-- **The round trip.** Whatever a channel has received since its start: after 262 bytes without a
start sign, or at its start, it decodes exactly what is sent, and each message can be sent on with
the bytes that were received. -/
theorem roundtrip (hfresh : ch.Fresh) (before quiet : List UInt8)
    (hquiet : ∀ c ∈ quiet, c ≠ mavlinkStx) (hlong : before = [] ∨ 262 ≤ quiet.length)
    (status : Status) (xs : List (List UInt8 × Sending))
    (hnoise : ∀ x ∈ xs, ∀ c ∈ x.1, c ≠ mavlinkStx) :
    ∃ decoded,
      (ch.parseAll messageCrc (before ++ quiet ++ sendAll messageCrc status xs)).2
        = (ch.parseAll messageCrc (before ++ quiet)).2 ++ decoded ∧
      decoded.map Message.packet = aboutAll status.currentTxSeq xs ∧
      decoded.map Message.toSendBuffer
        = (aboutAll status.currentTxSeq xs).map (Packet.wire messageCrc) := by
  have hbetween : (ch.parseAll messageCrc (before ++ quiet)).1.Has messageCrc none := by
    have hhas := (Channel.Has.parseAll (hfresh.has : ch.Has messageCrc none) (before ++ quiet)).1
    rw [collectAll_append] at hhas
    have hnone : (collectAll messageCrc (collectAll messageCrc none before).1 quiet).1 = none := by
      rcases hlong with rfl | hlong
      · exact congrArg Prod.fst (collectAll_noise hquiet)
      · exact collectAll_quiet hquiet (Nat.le_trans remaining_le hlong)
    exact hnone ▸ hhas
  have hbytes := (hbetween.parseAll (sendAll messageCrc status xs)).2
  rw [collectAll_sendAll status xs hnoise, List.map_map] at hbytes
  refine ⟨_, by rw [parseAll_append], packets_of_bytes hbytes, hbytes⟩

/-- The memory of a channel before anything is received. -/
def freshChannel : Channel where
  rxmsg := {
    checksum := 0
    magic := 0
    len := 0
    seq := 0
    sysid := 0
    compid := 0
    msgid := 0
    payload := .fresh fun _ => 0 }
  status := {
    msgReceived := 0
    bufferOverrun := 0
    parseError := 0
    parseState := .uninit
    packetIdx := 0
    currentRxSeq := 0
    currentTxSeq := 0
    packetRxSuccessCount := 0
    packetRxDropCount := 0 }

theorem freshChannel_fresh : freshChannel.Fresh := rfl

/-- A noisy line, and then two heartbeats. -/
theorem roundtrip_heartbeats :
    ∃ decoded,
      (freshChannel.parseAll (fun _ => 50) ([] ++ [1, 2] ++ sendAll (fun _ => 50)
        freshChannel.status [([3], .direct 1 50 0 (.fresh fun _ => 254) 9),
          ([], .finalize freshChannel.rxmsg 1 50 9)])).2
        = (freshChannel.parseAll (fun _ => 50) ([] ++ [1, 2])).2 ++ decoded ∧
      decoded.map Message.packet = aboutAll 0 [([3], .direct 1 50 0 (.fresh fun _ => 254) 9),
        ([], .finalize freshChannel.rxmsg 1 50 9)] ∧
      decoded.map Message.toSendBuffer
        = (aboutAll 0 [([3], .direct 1 50 0 (.fresh fun _ => 254) 9),
          ([], .finalize freshChannel.rxmsg 1 50 9)]).map (Packet.wire fun _ => 50) :=
  roundtrip freshChannel_fresh [] [1, 2] (by simp [mavlinkStx]) (.inl rfl) _ _
    (by simp [mavlinkStx])

/-! ### What is received has been sent -/

/-- The frames of the packets lie in the stream, one behind the other, among bytes that belong to
none. -/
inductive Frames (messageCrc : UInt8 → UInt8) : List UInt8 → List Packet → Prop
  | nil : Frames messageCrc [] []
  | skip {stream : List UInt8} {ps : List Packet} (h : Frames messageCrc stream ps) (c : UInt8) :
      Frames messageCrc (stream ++ [c]) ps
  | frame {stream : List UInt8} {ps : List Packet} (h : Frames messageCrc stream ps) (p : Packet) :
      Frames messageCrc (stream ++ p.wire messageCrc) (ps ++ [p])

theorem Frames.skips {stream : List UInt8} {ps : List Packet} (h : Frames messageCrc stream ps)
    (cs : List UInt8) : Frames messageCrc (stream ++ cs) ps := by
  induction cs generalizing stream with
  | nil => rwa [List.append_nil]
  | cons c cs ih =>
      have hrest := ih (h.skip c)
      rwa [List.append_assoc] at hrest

/-- The collected bytes are the beginning of a frame. -/
inductive Begun (messageCrc : UInt8 → UInt8) : List UInt8 → Prop
  | start : Begun messageCrc []
  | core {len : UInt8} {rest : List UInt8} (hroom : rest.length ≤ len.toNat + 4) :
      Begun messageCrc (len :: rest)
  | ckA {len : UInt8} {rest : List UInt8} (hlength : rest.length = len.toNat + 4) :
      Begun messageCrc (len :: rest ++ [ckA (coreChecksum messageCrc (len :: rest))])

/-- The stream so far: the frames that have been decoded, and the one that has begun. -/
inductive Sound (messageCrc : UInt8 → UInt8) (stream : List UInt8) (ps : List Packet) :
    Option (List UInt8) → Prop
  | between (h : Frames messageCrc stream ps) : Sound messageCrc stream ps none
  | within {before bytes : List UInt8} (hstream : stream = before ++ mavlinkStx :: bytes)
      (h : Frames messageCrc before ps) (hbegun : Begun messageCrc bytes) :
      Sound messageCrc stream ps (some bytes)

section

variable {stream : List UInt8} {ps : List Packet} {c : UInt8}

theorem Sound.frames (h : Sound messageCrc stream ps collected) :
    Frames messageCrc stream ps := by
  cases h with
  | between h => exact h
  | within hstream h _ =>
      rw [hstream]
      exact h.skips _

/-- A byte that belongs to no frame, or starts one. -/
theorem Sound.start (h : Frames messageCrc stream ps) :
    Sound messageCrc (stream ++ [c]) ps (startSign c) := by
  rw [startSign]
  split
  · rename_i hc
    rw [hc]
    exact .within rfl h .start
  · exact .between (h.skip c)

/-- The bytes of a header and a payload are those of a packet. -/
theorem exists_packet {len : UInt8} {rest : List UInt8} (hlength : rest.length = len.toNat + 4) :
    ∃ p : Packet, p.core = len :: rest := by
  have hlen : len.toNat < 256 := len.toNat_lt
  match rest with
  | seq :: sysid :: compid :: msgid :: payload =>
      simp only [List.length_cons] at hlength
      refine ⟨⟨seq, sysid, compid, msgid, payload, by omega⟩, ?_⟩
      have hpayload : payload.length = len.toNat := by omega
      simp [Packet.core, Packet.len, hpayload]
  | [] => simp at hlength
  | [_] => simp at hlength
  | [_, _] => simp at hlength
  | [_, _, _] => simp at hlength

/-- One more byte: a frame that is decoded is that of a packet. -/
theorem Sound.step (h : Sound messageCrc stream ps collected) (c : UInt8) :
    ∃ ps', (collect messageCrc c collected).2.toList = ps'.map (Packet.content messageCrc) ∧
      Sound messageCrc (stream ++ [c]) (ps ++ ps') (collect messageCrc c collected).1 := by
  have hframes := h.frames
  have hquiet : ∀ collected', Sound messageCrc (stream ++ [c]) ps collected' →
      ∃ ps' : List Packet, [] = ps'.map (Packet.content messageCrc) ∧
        Sound messageCrc (stream ++ [c]) (ps ++ ps') collected' := by
    intro collected' h'
    exact ⟨[], rfl, by rwa [List.append_nil]⟩
  cases h with
  | between h => exact hquiet _ (.start h)
  | @within before bytes hstream h hbegun =>
      have hnext : stream ++ [c] = before ++ mavlinkStx :: (bytes ++ [c]) := by
        rw [hstream, List.append_assoc]
        rfl
      cases hbegun with
      | start => exact hquiet _ (.within hnext h (.core (Nat.zero_le _)))
      | @core len rest hroom =>
          rcases Nat.lt_or_eq_of_le hroom with hlt | hlength
          · have hroom' : (rest ++ [c]).length ≤ len.toNat + 4 := by
              rw [List.length_append]
              exact hlt
            rw [collect_core hlt]
            exact hquiet _ (.within hnext h (.core hroom'))
          · rw [collect_ckA hlength]
            split
            · rename_i hc
              subst hc
              exact hquiet _ (.within hnext h (.ckA hlength))
            · exact hquiet _ (.start hframes)
      | @ckA len rest hlength =>
          rw [collect_ckB hlength]
          split
          · rename_i hc
            obtain ⟨p, hp⟩ := exists_packet hlength
            have hcontent : len :: rest ++ [Wire.ckA (coreChecksum messageCrc (len :: rest))] ++ [c]
                = p.content messageCrc := by
              rw [Packet.content, hp, hc, List.append_assoc]
              rfl
            rw [hcontent] at hnext ⊢
            refine ⟨[p], rfl, .between ?_⟩
            rw [hnext]
            exact h.frame p
          · exact hquiet _ (.start hframes)

/-- A stream: what is decoded are packets whose frames lie in it. -/
theorem Sound.run (h : Sound messageCrc stream ps collected) (cs : List UInt8) :
    ∃ ps', (collectAll messageCrc collected cs).2 = ps'.map (Packet.content messageCrc) ∧
      Sound messageCrc (stream ++ cs) (ps ++ ps') (collectAll messageCrc collected cs).1 := by
  induction cs generalizing stream ps collected with
  | nil => exact ⟨[], rfl, by simpa [collectAll] using h⟩
  | cons c cs ih =>
      obtain ⟨ps₁, hfirst, hstep⟩ := h.step c
      obtain ⟨ps₂, hrest, hsound⟩ := ih hstep
      refine ⟨ps₁ ++ ps₂, ?_, ?_⟩
      · rw [collectAll]
        simp only [hfirst, hrest, List.map_append]
      · simpa [collectAll] using hsound

end

/-- A message that is decoded is counted. -/
theorem parseChar_count (ch : Channel) (c : UInt8) :
    (ch.parseChar messageCrc c).1.status.packetRxSuccessCount
      = ch.status.packetRxSuccessCount
        + UInt16.ofNat (ch.parseChar messageCrc c).2.1.toList.length := by
  have hcases : ∀ ch : Channel, (ch.parseCases messageCrc c).status.packetRxSuccessCount
      = ch.status.packetRxSuccessCount := by
    intro ch
    have hwrong : ∀ ch : Channel, (ch.wrongChecksum c).status.packetRxSuccessCount
        = ch.status.packetRxSuccessCount := by
      intro ch
      rw [Channel.wrongChecksum]
      split <;> rfl
    rw [Channel.parseCases]
    split
    · split <;> rfl
    · split <;> rfl
    · split <;> rfl
    · rfl
    · rfl
    · rfl
    · rfl
    · rfl
    · simp only
      split
      · exact hwrong _
      · rfl
    · split
      · exact hwrong _
      · rfl
  have hsame := hcases { ch with status := { ch.status with msgReceived := 0 } }
  simp only [Channel.parseChar, Channel.count]
  split
  · simp [hsame]
  · simp [hsame]

theorem parseAll_count (cs : List UInt8) :
    (ch.parseAll messageCrc cs).1.status.packetRxSuccessCount
      = ch.status.packetRxSuccessCount + UInt16.ofNat (ch.parseAll messageCrc cs).2.length := by
  induction cs generalizing ch with
  | nil => simp [Channel.parseAll]
  | cons c cs ih =>
      rw [Channel.parseAll]
      simp only [ih, parseChar_count, List.length_append, UInt16.ofNat_add, UInt16.add_assoc]

/-- **Nothing else is decoded.** Of the bytes that a channel receives from its start on, what is
decoded are packets whose frames, with the right checksum, lie in the stream one behind the other;
each can be sent on with these bytes, and they are counted. -/
theorem frames_of_stream (hfresh : ch.Fresh) (stream : List UInt8) :
    Frames messageCrc stream ((ch.parseAll messageCrc stream).2.map Message.packet) ∧
      (ch.parseAll messageCrc stream).2.map Message.toSendBuffer
        = (ch.parseAll messageCrc stream).2.map (fun msg => msg.packet.wire messageCrc) ∧
      (ch.parseAll messageCrc stream).1.status.packetRxSuccessCount
        = ch.status.packetRxSuccessCount
          + UInt16.ofNat (ch.parseAll messageCrc stream).2.length := by
  have hsound : Sound messageCrc [] [] none := .between .nil
  obtain ⟨ps, hps, hframes⟩ := hsound.run stream
  have hbytes := (Channel.Has.parseAll (hfresh.has : ch.Has messageCrc none) stream).2
  rw [hps, List.map_map] at hbytes
  have hpackets := packets_of_bytes hbytes
  refine ⟨?_, ?_, parseAll_count stream⟩
  · rw [hpackets]
    exact hframes.frames
  · rw [hbytes, ← hpackets, List.map_map]
    rfl

/-- A packet of three bytes. -/
def threeBytes : Packet where
  seq := 0
  sysid := 1
  compid := 1
  msgid := 7
  payload := [1, 2, 3]
  short := by decide

/-- The next packet, of one byte. -/
def oneByte : Packet where
  seq := 1
  sysid := 1
  compid := 1
  msgid := 8
  payload := [4]
  short := by decide

/-- Noise, a frame, the same frame with another first byte of its payload, noise, and a second
frame. -/
def noisyStream : List UInt8 :=
  [17, 0, 42] ++ threeBytes.wire (fun _ => 50) ++
    (threeBytes.wire fun _ => 50).set 6 9 ++ [0, 3] ++ oneByte.wire (fun _ => 50)

/-- The two good frames are decoded. -/
theorem frames_of_stream_noisy :
    (freshChannel.parseAll (fun _ => 50) noisyStream).2.map Message.packet
        = [threeBytes, oneByte] ∧
      Frames (fun _ => 50) noisyStream [threeBytes, oneByte] ∧
      (freshChannel.parseAll (fun _ => 50) noisyStream).2.map Message.toSendBuffer
        = [threeBytes.wire fun _ => 50, oneByte.wire fun _ => 50] ∧
      (freshChannel.parseAll (fun _ => 50) noisyStream).1.status.packetRxSuccessCount = 2 := by
  have hpackets : (freshChannel.parseAll (fun _ => 50) noisyStream).2.map Message.packet
      = [threeBytes, oneByte] := by decide +kernel
  obtain ⟨hframes, hbytes, hcount⟩ :=
    @frames_of_stream (fun _ => 50) freshChannel freshChannel_fresh noisyStream
  have hlength := congrArg List.length hpackets
  rw [List.length_map] at hlength
  rw [hpackets] at hframes
  have hwires := congrArg (List.map fun p : Packet => p.wire fun _ => 50) hpackets
  rw [List.map_map] at hwires
  refine ⟨hpackets, hframes, hbytes.trans hwires, ?_⟩
  rw [hcount, hlength]
  rfl

/-! ### Bursts -/

/-- The divisor of the checksum, with its bits reflected. -/
def x25Poly : Nat := 0x8408

/-- What a byte that has been added to the low byte of the state makes of it. -/
def foldLow (tmp : UInt8) : UInt16 :=
  let tmp := tmp ^^^ (tmp <<< 4)
  (tmp.toUInt16 <<< 8) ^^^ (tmp.toUInt16 <<< 3) ^^^ (tmp.toUInt16 >>> 4)

theorem foldLow_eq : ∀ i < 256, (foldLow (UInt8.ofNat i)).toNat = Crc.shifts x25Poly 8 i := by
  decide +kernel

theorem crcAccumulate_eq (data : UInt8) (crcAccum : UInt16) :
    (crcAccumulate data crcAccum).toNat = Crc.byte x25Poly crcAccum.toNat data := by
  rw [Crc.byte_eq_table x25Poly foldLow_eq]
  have hlow : data ^^^ (crcAccum &&& 0xff).toUInt8
      = UInt8.ofNat ((crcAccum.toNat ^^^ data.toNat) &&& 0xff) := by
    have hdata : data.toNat % 2 ^ 8 = data.toNat := Nat.mod_eq_of_lt data.toNat_lt
    have hmask : ∀ x : Nat, x &&& 0xff = x % 2 ^ 8 := fun x => Nat.and_two_pow_sub_one_eq_mod x 8
    refine UInt8.toNat_inj.mp ?_
    rw [hmask, Nat.xor_mod_two_pow, hdata, UInt8.toNat_xor, UInt16.toNat_toUInt8, UInt16.toNat_and,
      UInt8.toNat_ofNat', Nat.xor_mod_two_pow, hdata, Nat.mod_mod, Nat.xor_comm]
    have hconst : UInt16.toNat 255 = 0xff := rfl
    rw [hconst, hmask, Nat.mod_mod]
  have hsplit : crcAccumulate data crcAccum
      = (crcAccum >>> 8) ^^^ foldLow (data ^^^ (crcAccum &&& 0xff).toUInt8) := by
    simp only [crcAccumulate, foldLow, UInt16.xor_assoc]
  rw [hsplit, hlow, UInt16.toNat_xor, Nat.xor_comm]
  congr 1

/-- The checksum of a frame is the remainder of its bytes and the table's entry. -/
theorem coreChecksum_eq (core : List UInt8) :
    (coreChecksum messageCrc core).toNat
      = Crc.bytes x25Poly 0xffff
          (core ++ [messageCrc (core.getD mavlinkCoreHeaderLen.pred 0)]) := by
  have hbytes : ∀ (bytes : List UInt8) (crcAccum : UInt16),
      (crcAccumulateBuffer crcAccum bytes).toNat = Crc.bytes x25Poly crcAccum.toNat bytes := by
    intro bytes
    induction bytes with
    | nil => exact fun _ => rfl
    | cons b bytes ih =>
        intro crcAccum
        show (crcAccumulateBuffer (crcAccumulate b crcAccum) bytes).toNat = _
        rw [ih, crcAccumulate_eq]
        rfl
  have hlast : ∀ (bytes : List UInt8) (b : UInt8),
      Crc.bytes x25Poly 0xffff (bytes ++ [b])
        = Crc.byte x25Poly (Crc.bytes x25Poly 0xffff bytes) b := by
    intro bytes b
    simp only [Crc.bytes, List.foldl_append, List.foldl_cons, List.foldl_nil]
  rw [coreChecksum, crcAccumulate_eq, crcCalculate, hbytes, hlast]
  rfl

/-- The two bytes of a checksum determine it. -/
theorem checksum_ext {x y : UInt16} (ha : ckA x = ckA y) (hb : ckB x = ckB y) : x = y := by
  have hlow : ∀ z : UInt16, (ckA z).toNat = z.toNat % 256 := by
    intro z
    have hmask : z.toNat &&& 0xff = z.toNat % 2 ^ 8 := Nat.and_two_pow_sub_one_eq_mod z.toNat 8
    show (z.toNat &&& 0xff) % 2 ^ 8 = _
    rw [hmask, Nat.mod_mod]
    rfl
  have hhigh : ∀ z : UInt16, (ckB z).toNat = z.toNat / 256 := by
    intro z
    have hz : z.toNat < 65536 := z.toNat_lt
    show (z.toNat >>> 8) % 2 ^ 8 = _
    rw [Nat.shiftRight_eq_div_pow]
    omega
  have hlow' := congrArg UInt8.toNat ha
  have hhigh' := congrArg UInt8.toNat hb
  rw [hlow, hlow] at hlow'
  rw [hhigh, hhigh] at hhigh'
  refine UInt16.toNat_inj.mp ?_
  omega

/-- **A burst is noticed.** If up to two neighbouring bytes of a frame have been changed, behind the
length and not the message's kind, nothing is decoded. If the checksum has no start sign in it, the
next frame is received again. -/
theorem burst_rejected (h : ch.Has messageCrc none) (p : Packet)
    {before burst burst' after : List UInt8}
    (hcore : p.core = p.len :: before ++ burst ++ after) (hchanged : burst' ≠ burst)
    (hlength : burst'.length = burst.length) (hshort : burst.length ≤ 2)
    (hkind : (p.len :: before ++ burst' ++ after).getD 4 0 = p.msgid) :
    let checksum := [ckA (coreChecksum messageCrc p.core), ckB (coreChecksum messageCrc p.core)]
    let r := ch.parseAll messageCrc
      (mavlinkStx :: p.len :: before ++ burst' ++ after ++ checksum)
    r.2 = [] ∧ (mavlinkStx ∉ checksum → r.1.Has messageCrc none) := by
  intro checksum r
  have hrest : (before ++ burst' ++ after).length = p.len.toNat + 4 := by
    have hsize := congrArg List.length hcore
    simp only [Packet.core, List.length_append, List.length_cons, List.length_nil] at hsize
    rw [p.len_toNat, List.length_append, List.length_append, hlength]
    omega
  have hbytes : mavlinkStx :: p.len :: before ++ burst' ++ after ++ checksum
      = mavlinkStx :: p.len :: (before ++ burst' ++ after) ++ checksum := by
    simp
  -- The remainders differ, as the bursts do.
  have hdiffer : coreChecksum messageCrc (p.len :: (before ++ burst' ++ after))
      ≠ coreChecksum messageCrc p.core := by
    intro hsame
    have hextra : p.core.getD 4 0 = p.msgid := rfl
    have hcore' : p.len :: (before ++ burst' ++ after) = p.len :: before ++ burst' ++ after := by
      simp
    have hremainders := congrArg UInt16.toNat hsame
    rw [coreChecksum_eq, coreChecksum_eq] at hremainders
    rw [hcore'] at hremainders
    simp only [mavlinkCoreHeaderLen, Nat.pred_succ, hkind, hextra] at hremainders
    rw [hcore, List.append_assoc _ after, List.append_assoc _ after] at hremainders
    exact hchanged (Crc.eq_of_bytes_eq (w := 15) (by decide) (by decide) _ hlength
      (by omega) (by decide) (by decide) hremainders)
  have hcollect := collectAll_checksum messageCrc (ckA (coreChecksum messageCrc p.core))
    (ckB (coreChecksum messageCrc p.core)) hrest
  have hresult : collectAll messageCrc none
      (mavlinkStx :: p.len :: (before ++ burst' ++ after) ++ checksum)
        = (if ckA (coreChecksum messageCrc p.core)
              = ckA (coreChecksum messageCrc (p.len :: (before ++ burst' ++ after))) then
            startSign (ckB (coreChecksum messageCrc p.core))
          else (collect messageCrc (ckB (coreChecksum messageCrc p.core))
            (startSign (ckA (coreChecksum messageCrc p.core)))).1, []) := by
    rw [hcollect]
    split
    · rename_i ha
      rw [if_neg fun hb => hdiffer (checksum_ext ha hb).symm]
    · rfl
  obtain ⟨hhas, hmessages⟩ :=
    h.parseAll (mavlinkStx :: p.len :: before ++ burst' ++ after ++ checksum)
  rw [hbytes, hresult] at hmessages hhas
  constructor
  · show (ch.parseAll messageCrc _).2 = []
    rw [hbytes]
    exact List.map_eq_nil_iff.mp hmessages
  · intro hquiet
    have hnone : ∀ c ∈ checksum, startSign c = none := by
      intro c hc
      refine if_neg fun hstx => hquiet ?_
      rwa [← hstx]
    have ha := hnone (ckA (coreChecksum messageCrc p.core)) (.head _)
    have hb := hnone (ckB (coreChecksum messageCrc p.core)) (.tail _ (.head _))
    show (ch.parseAll messageCrc _).1.Has messageCrc none
    rw [hbytes]
    simpa [ha, hb, collect] using hhas

/-- Two bytes of it are changed. -/
theorem burst_rejected_three :
    let checksum := [ckA (coreChecksum (fun _ => 50) threeBytes.core),
      ckB (coreChecksum (fun _ => 50) threeBytes.core)]
    let r := freshChannel.parseAll (fun _ => 50)
      (mavlinkStx :: threeBytes.len :: [0, 1, 1, 7, 1] ++ [9, 9] ++ [] ++ checksum)
    r.2 = [] ∧ (mavlinkStx ∉ checksum → r.1.Has (fun _ => 50) none) :=
  have hcore : threeBytes.core = threeBytes.len :: [0, 1, 1, 7, 1] ++ [2, 3] ++ [] := rfl
  burst_rejected freshChannel_fresh.has threeBytes hcore (by decide) rfl (by decide) rfl

end

end Px4Firmware.Mavlink.Wire
