import Px4Firmware.Mavlink.Wire

/-!
# Px4Firmware.Mavlink.Framing

**MAVLink frames.** The parser of a channel is a collector (`collect`): it waits for a start sign,
collects the bytes of a frame as long as they say, and compares the checksum. It has no other state
that matters (`Tracks.parseChar`).
-/

namespace Px4Firmware.Mavlink.Wire

open Lib

section

variable (messageCrc : UInt8 → UInt8)

/-! ### The collector -/

/-- The checksum of what is between the start sign and the checksum. -/
def coreChecksum (core : List UInt8) : UInt16 :=
  crcAccumulate (messageCrc (core.getD mavlinkCoreHeaderLen.pred 0)) (crcCalculate core)

/-- A byte outside of a frame: a frame starts with it, or none does. -/
def startSign (c : UInt8) : Option (List UInt8) := if c = mavlinkStx then some [] else none

/-- A byte in a frame, of which the first bytes after the start sign have been collected: the frame
as far as it goes then, and its bytes if it is complete. -/
def collect (c : UInt8) : Option (List UInt8) → Option (List UInt8) × Option (List UInt8)
  | none => (startSign c, none)
  | some [] => (some [c], none)
  | some (len :: rest) =>
      let bytes := len :: rest
      let core := len.toNat + mavlinkCoreHeaderLen
      if bytes.length < core then
        (some (bytes ++ [c]), none)
      else if bytes.length = core then
        if c = ckA (coreChecksum messageCrc bytes) then (some (bytes ++ [c]), none)
        else (startSign c, none)
      else
        if c = ckB (coreChecksum messageCrc (bytes.take core)) then (none, some (bytes ++ [c]))
        else (startSign c, none)

/-- What is between the start sign and the payload. -/
def Message.core (msg : Message) : List UInt8 :=
  [msg.len, msg.seq, msg.sysid, msg.compid, msg.msgid]

/-- What a parser has of a frame in each of its states. -/
inductive Tracks (msg : Message) : ParseState → UInt8 → Option (List UInt8) → Prop
  | uninit (idx : UInt8) : Tracks msg .uninit idx none
  | idle (idx : UInt8) : Tracks msg .idle idx none
  | gotStx (idx : UInt8) (hmagic : msg.magic = mavlinkStx)
      (hchecksum : msg.checksum = crcCalculate []) : Tracks msg .gotStx idx (some [])
  | gotLength (hmagic : msg.magic = mavlinkStx)
      (hchecksum : msg.checksum = crcCalculate [msg.len]) :
      Tracks msg .gotLength 0 (some [msg.len])
  | gotSeq (hmagic : msg.magic = mavlinkStx)
      (hchecksum : msg.checksum = crcCalculate [msg.len, msg.seq]) :
      Tracks msg .gotSeq 0 (some [msg.len, msg.seq])
  | gotSysid (hmagic : msg.magic = mavlinkStx)
      (hchecksum : msg.checksum = crcCalculate [msg.len, msg.seq, msg.sysid]) :
      Tracks msg .gotSysid 0 (some [msg.len, msg.seq, msg.sysid])
  | gotCompid (hmagic : msg.magic = mavlinkStx)
      (hchecksum : msg.checksum = crcCalculate [msg.len, msg.seq, msg.sysid, msg.compid]) :
      Tracks msg .gotCompid 0 (some [msg.len, msg.seq, msg.sysid, msg.compid])
  | gotMsgid {idx : UInt8} (hmagic : msg.magic = mavlinkStx) (hidx : idx < msg.len)
      (hchecksum : msg.checksum = crcCalculate (msg.core ++ msg.payload.firsts idx.toNat)) :
      Tracks msg .gotMsgid idx (some (msg.core ++ msg.payload.firsts idx.toNat))
  | gotPayload {idx : UInt8} (hmagic : msg.magic = mavlinkStx) (hidx : idx = msg.len)
      (hchecksum : msg.checksum = crcCalculate (msg.core ++ msg.payload.firsts msg.len.toNat)) :
      Tracks msg .gotPayload idx (some (msg.core ++ msg.payload.firsts msg.len.toNat))
  | gotCrc1 {idx : UInt8} (hmagic : msg.magic = mavlinkStx) (hidx : idx = msg.len)
      (hchecksum : msg.checksum = coreChecksum messageCrc
        (msg.core ++ msg.payload.firsts msg.len.toNat)) :
      Tracks msg .gotCrc1 idx (some (msg.core ++ msg.payload.firsts (msg.len.toNat + 1)))

/-- What a channel has of a frame. -/
def Channel.Has (ch : Channel) (collected : Option (List UInt8)) : Prop :=
  Tracks messageCrc ch.rxmsg ch.status.parseState ch.status.packetIdx collected

end

section

variable {messageCrc : UInt8 → UInt8} {ch : Channel} {collected : Option (List UInt8)} {c : UInt8}

theorem crcCalculate_snoc (bytes : List UInt8) (c : UInt8) :
    crcCalculate (bytes ++ [c]) = crcAccumulate c (crcCalculate bytes) := by
  simp [crcCalculate, crcAccumulateBuffer]

/-- A byte before the checksum. -/
theorem collect_core {len : UInt8} {rest : List UInt8}
    (hmore : rest.length < len.toNat + 4) :
    collect messageCrc c (some (len :: rest)) = (some (len :: rest ++ [c]), none) := by
  have hcore : (len :: rest).length < len.toNat + mavlinkCoreHeaderLen := Nat.succ_lt_succ hmore
  rw [collect, if_pos hcore]

/-- The first byte of the checksum. -/
theorem collect_ckA {len : UInt8} {rest : List UInt8} (hlength : rest.length = len.toNat + 4) :
    collect messageCrc c (some (len :: rest)) =
      if c = ckA (coreChecksum messageCrc (len :: rest)) then (some (len :: rest ++ [c]), none)
      else (startSign c, none) := by
  have hcore : (len :: rest).length = len.toNat + mavlinkCoreHeaderLen := by
    rw [List.length_cons, hlength]
    rfl
  rw [collect, if_neg (Nat.not_lt_of_ge (Nat.le_of_eq hcore.symm)), if_pos hcore]

/-- The last byte of the checksum. -/
theorem collect_ckB {len a : UInt8} {rest : List UInt8} (hlength : rest.length = len.toNat + 4) :
    collect messageCrc c (some (len :: rest ++ [a])) =
      if c = ckB (coreChecksum messageCrc (len :: rest)) then
        (none, some (len :: rest ++ [a] ++ [c]))
      else (startSign c, none) := by
  have hcore : (len :: (rest ++ [a])).length = len.toNat + mavlinkCoreHeaderLen + 1 := by
    rw [List.length_cons, List.length_append, hlength]
    rfl
  have htake : (len :: (rest ++ [a])).take (len.toNat + mavlinkCoreHeaderLen) = len :: rest := by
    have hlen : len.toNat + mavlinkCoreHeaderLen = (len :: rest).length := by
      rw [List.length_cons, hlength]
      rfl
    rw [hlen, ← List.cons_append, List.take_left]
  rw [List.cons_append, collect, if_neg (by omega), if_neg (by omega), htake]

/-- What a message has before its checksum. -/
theorem Message.length_body (msg : Message) (n : Nat) :
    (msg.core.tail ++ msg.payload.firsts n).length = n + 4 := by
  simp [Message.core]

/-- A frame that is given up. -/
theorem wrongChecksum_has (hmagic : ch.rxmsg.magic = mavlinkStx) :
    (ch.wrongChecksum c).Has messageCrc (startSign c) := by
  rw [Channel.wrongChecksum, startSign]
  split
  · exact .gotStx _ hmagic rfl
  · exact .idle _

@[simp] theorem wrongChecksum_msgReceived : (ch.wrongChecksum c).status.msgReceived = 0 := by
  rw [Channel.wrongChecksum]
  split <;> rfl

/-- A byte that does not complete a message. -/
theorem parseChar_of_quiet {ch' : Channel}
    (hcases :
      Channel.parseCases messageCrc { ch with status := { ch.status with msgReceived := 0 } } c
      = ch') (hquiet : ch'.status.msgReceived = 0) :
    (ch.parseChar messageCrc c).1
        = { ch' with status := { ch'.status with parseError := 0 } } ∧
      (ch.parseChar messageCrc c).2.1 = none := by
  have hnot : ¬ ch'.status.msgReceived = 1 := by
    rw [hquiet]
    decide
  simp [Channel.parseChar, Channel.count, hcases, hnot]

/-- What the parser does with a byte is what the collector does. -/
def Follows (messageCrc : UInt8 → UInt8) (ch : Channel) (c : UInt8)
    (collected : Option (List UInt8)) : Prop :=
  (ch.parseChar messageCrc c).1.Has messageCrc (collect messageCrc c collected).1 ∧
    (ch.parseChar messageCrc c).2.1.map Message.toSendBuffer
      = (collect messageCrc c collected).2.map (mavlinkStx :: ·)

/-- A byte that does not complete a frame. -/
theorem Follows.of_quiet {ch' : Channel} {collected' : Option (List UInt8)}
    (hcases : Channel.parseCases messageCrc
      { ch with status := { ch.status with msgReceived := 0 } } c = ch')
    (hquiet : ch'.status.msgReceived = 0)
    (hcollect : collect messageCrc c collected = (collected', none))
    (hhas : ch'.Has messageCrc collected') : Follows messageCrc ch c collected := by
  obtain ⟨hch, hnone⟩ := parseChar_of_quiet hcases hquiet
  rw [Follows, hch, hnone, hcollect]
  exact ⟨hhas, rfl⟩

theorem Follows.of_idle (hstate : ch.status.parseState = .uninit ∨ ch.status.parseState = .idle) :
    Follows messageCrc ch c none := by
  have hcases : Channel.parseCases messageCrc
      { ch with status := { ch.status with msgReceived := 0 } } c =
        if c = mavlinkStx then
          { ch with
            rxmsg := { ch.rxmsg with len := 0, magic := c }.startChecksum
            status := { ch.status with msgReceived := 0, parseState := .gotStx } }
        else
          { ch with status := { ch.status with msgReceived := 0 } } := by
    rcases hstate with hstate | hstate <;> simp only [Channel.parseCases, hstate]
  by_cases hc : c = mavlinkStx
  · rw [if_pos hc] at hcases
    refine .of_quiet hcases rfl rfl ?_
    rw [startSign, if_pos hc]
    exact .gotStx _ hc rfl
  · rw [if_neg hc] at hcases
    refine .of_quiet hcases rfl rfl ?_
    rw [startSign, if_neg hc]
    rcases hstate with hstate | hstate
    · simp only [Channel.Has, hstate]
      exact .uninit _
    · simp only [Channel.Has, hstate]
      exact .idle _

theorem updateChecksum_eq {msg : Message} {bytes : List UInt8}
    (h : msg.checksum = crcCalculate bytes) :
    crcAccumulate c msg.checksum = crcCalculate (bytes ++ [c]) := by
  rw [h, crcCalculate_snoc]

/-- The last byte of the header. -/
theorem Follows.of_gotCompid (hstate : ch.status.parseState = .gotCompid)
    (hmagic : ch.rxmsg.magic = mavlinkStx) (hidx : ch.status.packetIdx = 0)
    (hchecksum : ch.rxmsg.checksum
      = crcCalculate [ch.rxmsg.len, ch.rxmsg.seq, ch.rxmsg.sysid, ch.rxmsg.compid]) :
    Follows messageCrc ch c
      (some [ch.rxmsg.len, ch.rxmsg.seq, ch.rxmsg.sysid, ch.rxmsg.compid]) := by
  have hcases : Channel.parseCases messageCrc
      { ch with status := { ch.status with msgReceived := 0 } } c =
        { ch with
          rxmsg := { ch.rxmsg with msgid := c }.updateChecksum c
          status := { ch.status with
            msgReceived := 0
            parseState := if ch.rxmsg.len = 0 then .gotPayload else .gotMsgid } } := by
    simp only [Channel.parseCases, hstate]
  have hchecksum' := updateChecksum_eq (c := c) hchecksum
  refine .of_quiet hcases rfl (collect_core (by simp)) ?_
  show Tracks messageCrc ({ ch.rxmsg with msgid := c }.updateChecksum c)
    (if ch.rxmsg.len = 0 then .gotPayload else .gotMsgid) ch.status.packetIdx
    (some (({ ch.rxmsg with msgid := c } : Message).core ++
          ch.rxmsg.payload.firsts (UInt8.toNat 0)))
  rw [hidx]
  by_cases hlen : ch.rxmsg.len = 0
  · -- There is no payload.
    rw [if_pos hlen, ← hlen]
    refine .gotPayload hmagic rfl ?_
    show _ = crcCalculate (({ ch.rxmsg with msgid := c } : Message).core
      ++ ch.rxmsg.payload.firsts ch.rxmsg.len.toNat)
    rw [hlen]
    exact hchecksum'
  · rw [if_neg hlen]
    exact .gotMsgid hmagic (UInt8.pos_iff_ne_zero.mpr hlen) hchecksum'

/-- A byte of the payload. -/
theorem Follows.of_gotMsgid (hstate : ch.status.parseState = .gotMsgid)
    (hmagic : ch.rxmsg.magic = mavlinkStx) (hidx : ch.status.packetIdx < ch.rxmsg.len)
    (hchecksum : ch.rxmsg.checksum = crcCalculate
      (ch.rxmsg.core ++ ch.rxmsg.payload.firsts ch.status.packetIdx.toNat)) :
    Follows messageCrc ch c
      (some (ch.rxmsg.core ++ ch.rxmsg.payload.firsts ch.status.packetIdx.toNat)) := by
  have hlt : ch.status.packetIdx.toNat < ch.rxmsg.len.toNat := hidx
  have hlen : ch.rxmsg.len.toNat < 256 := ch.rxmsg.len.toNat_lt
  have hnext : (ch.status.packetIdx + 1).toNat = ch.status.packetIdx.toNat + 1 := by
    rw [UInt8.toNat_add]
    exact Nat.mod_eq_of_lt (by rw [UInt8.toNat_one]; omega)
  have hcases : Channel.parseCases messageCrc
      { ch with status := { ch.status with msgReceived := 0 } } c =
        { ch with
          rxmsg := { ch.rxmsg with
            payload := ch.rxmsg.payload.write ch.status.packetIdx.toNat c }.updateChecksum c
          status := { ch.status with
            msgReceived := 0
            packetIdx := ch.status.packetIdx + 1
            parseState := if ch.status.packetIdx + 1 = ch.rxmsg.len then .gotPayload
              else .gotMsgid } } := by
    simp only [Channel.parseCases, hstate]
  have hbytes : ch.rxmsg.core ++ (ch.rxmsg.payload.write ch.status.packetIdx.toNat c).firsts
      (ch.status.packetIdx + 1).toNat
        = ch.rxmsg.core ++ ch.rxmsg.payload.firsts ch.status.packetIdx.toNat ++ [c] := by
    rw [hnext, Buffer.firsts_write, List.append_assoc]
  have hchecksum' := updateChecksum_eq (c := c) hchecksum
  rw [← hbytes] at hchecksum'
  have hlength := ch.rxmsg.length_body ch.status.packetIdx.toNat
  refine .of_quiet hcases rfl
    (collect_core (Nat.lt_of_le_of_lt (Nat.le_of_eq hlength) (by omega))) ?_
  show Tracks _ _ (if ch.status.packetIdx + 1 = ch.rxmsg.len then .gotPayload else .gotMsgid)
    (ch.status.packetIdx + 1)
    (some (ch.rxmsg.core ++ ch.rxmsg.payload.firsts ch.status.packetIdx.toNat ++ [c]))
  rw [← hbytes]
  by_cases hlast : ch.status.packetIdx + 1 = ch.rxmsg.len
  · rw [hlast] at hchecksum' ⊢
    rw [if_pos rfl]
    exact .gotPayload hmagic rfl hchecksum'
  · have hmore : ch.status.packetIdx + 1 < ch.rxmsg.len := by
      refine UInt8.lt_of_le_of_ne ?_ hlast
      rw [UInt8.le_iff_toNat_le]
      omega
    rw [if_neg hlast]
    exact .gotMsgid hmagic hmore hchecksum'

/-- The first byte of the checksum. -/
theorem Follows.of_gotPayload (hstate : ch.status.parseState = .gotPayload)
    (hmagic : ch.rxmsg.magic = mavlinkStx) (hidx : ch.status.packetIdx = ch.rxmsg.len)
    (hchecksum : ch.rxmsg.checksum = crcCalculate
      (ch.rxmsg.core ++ ch.rxmsg.payload.firsts ch.rxmsg.len.toNat)) :
    Follows messageCrc ch c
      (some (ch.rxmsg.core ++ ch.rxmsg.payload.firsts ch.rxmsg.len.toNat)) := by
  have hsum : crcAccumulate (messageCrc ch.rxmsg.msgid) ch.rxmsg.checksum = coreChecksum messageCrc
      (ch.rxmsg.core ++ ch.rxmsg.payload.firsts ch.rxmsg.len.toNat) := by
    rw [hchecksum]
    rfl
  have hcollect : collect messageCrc c
      (some (ch.rxmsg.core ++ ch.rxmsg.payload.firsts ch.rxmsg.len.toNat)) =
        if c = ckA (crcAccumulate (messageCrc ch.rxmsg.msgid) ch.rxmsg.checksum) then
          (some (ch.rxmsg.core ++ ch.rxmsg.payload.firsts ch.rxmsg.len.toNat ++ [c]), none)
        else (startSign c, none) := by
    rw [hsum]
    exact collect_ckA (ch.rxmsg.length_body _)
  by_cases hc : c = ckA (crcAccumulate (messageCrc ch.rxmsg.msgid) ch.rxmsg.checksum)
  · have hcases : Channel.parseCases messageCrc
        { ch with status := { ch.status with msgReceived := 0 } } c =
          { ch with
            rxmsg := { ch.rxmsg.updateChecksum (messageCrc ch.rxmsg.msgid) with
              payload := ch.rxmsg.payload.write ch.rxmsg.len.toNat c }
            status := { ch.status with msgReceived := 0, parseState := .gotCrc1 } } := by
      simp only [Channel.parseCases, hstate, Message.updateChecksum, hidx]
      rw [if_neg (not_not_intro hc)]
    rw [if_pos hc, List.append_assoc, ← Buffer.firsts_write] at hcollect
    refine .of_quiet hcases rfl hcollect (.gotCrc1 hmagic hidx ?_)
    show crcAccumulate (messageCrc ch.rxmsg.msgid) ch.rxmsg.checksum = coreChecksum messageCrc
      (ch.rxmsg.core ++ (ch.rxmsg.payload.write ch.rxmsg.len.toNat c).firsts ch.rxmsg.len.toNat)
    rw [hsum, Buffer.firsts_write_of_le (Nat.le_refl _)]
  · have hcases : Channel.parseCases messageCrc
        { ch with status := { ch.status with msgReceived := 0 } } c =
          Channel.wrongChecksum
            { ch with
              rxmsg := ch.rxmsg.updateChecksum (messageCrc ch.rxmsg.msgid)
              status := { ch.status with msgReceived := 0 } } c := by
      simp only [Channel.parseCases, hstate, Message.updateChecksum]
      rw [if_pos hc]
    rw [if_neg hc] at hcollect
    exact .of_quiet hcases wrongChecksum_msgReceived hcollect (wrongChecksum_has hmagic)

/-- The last byte of the checksum. -/
theorem Follows.of_gotCrc1 (hstate : ch.status.parseState = .gotCrc1)
    (hmagic : ch.rxmsg.magic = mavlinkStx) (hidx : ch.status.packetIdx = ch.rxmsg.len)
    (hchecksum : ch.rxmsg.checksum = coreChecksum messageCrc
      (ch.rxmsg.core ++ ch.rxmsg.payload.firsts ch.rxmsg.len.toNat)) :
    Follows messageCrc ch c
      (some (ch.rxmsg.core ++ ch.rxmsg.payload.firsts (ch.rxmsg.len.toNat + 1))) := by
  have hcollect : collect messageCrc c
      (some (ch.rxmsg.core ++ ch.rxmsg.payload.firsts (ch.rxmsg.len.toNat + 1))) =
        if c = ckB ch.rxmsg.checksum then
          (none, some (ch.rxmsg.core ++ ch.rxmsg.payload.firsts (ch.rxmsg.len.toNat + 1) ++ [c]))
        else (startSign c, none) := by
    rw [hchecksum, Buffer.firsts_succ, ← List.append_assoc]
    exact collect_ckB (ch.rxmsg.length_body _)
  by_cases hc : c = ckB ch.rxmsg.checksum
  · have hcases : Channel.parseCases messageCrc
        { ch with status := { ch.status with msgReceived := 0 } } c =
          { ch with
            rxmsg := { ch.rxmsg with
              payload := ch.rxmsg.payload.write (ch.rxmsg.len.toNat + 1) c }
            status := { ch.status with msgReceived := 1, parseState := .idle } } := by
      simp only [Channel.parseCases, hstate, hidx]
      rw [if_neg (not_not_intro hc)]
    rw [if_pos hc, List.append_assoc, ← Buffer.firsts_write] at hcollect
    rw [Follows, hcollect, Channel.parseChar, hcases]
    refine ⟨.idle _, ?_⟩
    simp [Channel.count, Message.toSendBuffer, Message.header, Message.core, hmagic]
  · have hcases : Channel.parseCases messageCrc
        { ch with status := { ch.status with msgReceived := 0 } } c =
          Channel.wrongChecksum { ch with status := { ch.status with msgReceived := 0 } } c := by
      simp only [Channel.parseCases, hstate]
      rw [if_pos hc]
    rw [if_neg hc] at hcollect
    exact .of_quiet hcases wrongChecksum_msgReceived hcollect (wrongChecksum_has hmagic)

/-- **The parser is the collector.** -/
theorem Channel.Has.parseChar (h : ch.Has messageCrc collected) (c : UInt8) :
    Follows messageCrc ch c collected := by
  obtain ⟨msg, received, overrun, error, state, idx, rxSeq, txSeq, success, drop⟩ := ch
  cases h with
  | uninit => exact .of_idle (.inl rfl)
  | idle => exact .of_idle (.inr rfl)
  | gotStx idx hmagic hchecksum =>
      exact .of_quiet rfl rfl rfl (.gotLength hmagic (updateChecksum_eq hchecksum))
  | gotLength hmagic hchecksum =>
      exact .of_quiet rfl rfl (collect_core (by simp))
        (.gotSeq hmagic (updateChecksum_eq hchecksum))
  | gotSeq hmagic hchecksum =>
      exact .of_quiet rfl rfl (collect_core (by simp))
        (.gotSysid hmagic (updateChecksum_eq hchecksum))
  | gotSysid hmagic hchecksum =>
      exact .of_quiet rfl rfl (collect_core (by simp))
        (.gotCompid hmagic (updateChecksum_eq hchecksum))
  | gotCompid hmagic hchecksum => exact .of_gotCompid rfl hmagic rfl hchecksum
  | gotMsgid hmagic hidx hchecksum => exact .of_gotMsgid rfl hmagic hidx hchecksum
  | gotPayload hmagic hidx hchecksum => exact .of_gotPayload rfl hmagic hidx hchecksum
  | gotCrc1 hmagic hidx hchecksum => exact .of_gotCrc1 rfl hmagic hidx hchecksum

end

end Px4Firmware.Mavlink.Wire
