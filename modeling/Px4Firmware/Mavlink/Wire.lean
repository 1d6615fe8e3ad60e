import Px4Firmware.Lib.Buffer
import Px4Firmware.Lib.Crc

/-!
# Px4Firmware.Mavlink.Wire

MAVLink messages on the wire (`mavlink_helpers.h`, `checksum.h` and `mavlink_types.h` of MAVLink
1.0): how a message is finalised and sent, and `mavlink_parse_char`, which takes one byte at a time.

`MAVLINK_CRC_EXTRA` is set and `MAVLINK_CHECK_MESSAGE_LENGTH` is not, as in the dialects of the
firmware. The table `MAVLINK_MESSAGE_CRCS`, which each dialect has its own of, is a parameter.
-/

namespace Px4Firmware.Mavlink.Wire

open Lib

/-- `MAVLINK_STX`. -/
def mavlinkStx : UInt8 := 254

/-- `MAVLINK_CORE_HEADER_LEN`. -/
def mavlinkCoreHeaderLen : Nat := 5

/-! ### The checksum -/

/-- `X25_INIT_CRC`. -/
def x25InitCrc : UInt16 := 0xffff

/-- `crc_accumulate`. -/
def crcAccumulate (data : UInt8) (crcAccum : UInt16) : UInt16 :=
  let tmp := data ^^^ (crcAccum &&& 0xff).toUInt8
  let tmp := tmp ^^^ (tmp <<< 4)
  (crcAccum >>> 8) ^^^ (tmp.toUInt16 <<< 8) ^^^ (tmp.toUInt16 <<< 3) ^^^ (tmp.toUInt16 >>> 4)

/-- `crc_accumulate_buffer`. -/
def crcAccumulateBuffer (crcAccum : UInt16) (buffer : List UInt8) : UInt16 :=
  buffer.foldl (fun crcAccum data => crcAccumulate data crcAccum) crcAccum

/-- `crc_calculate`. -/
def crcCalculate (buffer : List UInt8) : UInt16 := crcAccumulateBuffer x25InitCrc buffer

/-- The byte of a checksum that is sent first. -/
def ckA (checksum : UInt16) : UInt8 := (checksum &&& 0xff).toUInt8

/-- The byte of a checksum that is sent last. -/
def ckB (checksum : UInt16) : UInt8 := (checksum >>> 8).toUInt8

/-! ### Messages -/

/-- `mavlink_message_t`. The checksum on the wire is in the payload, behind its last byte. -/
structure Message where
  checksum : UInt16
  magic : UInt8
  len : UInt8
  seq : UInt8
  sysid : UInt8
  compid : UInt8
  msgid : UInt8
  payload : Buffer UInt8

/-- `mavlink_parse_state_t`. -/
inductive ParseState
  | uninit
  | idle
  | gotStx
  | gotSeq
  | gotLength
  | gotSysid
  | gotCompid
  | gotMsgid
  | gotPayload
  | gotCrc1
  deriving DecidableEq

/-- `mavlink_status_t`. -/
structure Status where
  msgReceived : UInt8
  bufferOverrun : UInt8
  parseError : UInt8
  parseState : ParseState
  packetIdx : UInt8
  currentRxSeq : UInt8
  currentTxSeq : UInt8
  packetRxSuccessCount : UInt16
  packetRxDropCount : UInt16

/-- What is kept for a channel: `m_mavlink_buffer` and `m_mavlink_status`. -/
structure Channel where
  rxmsg : Message
  status : Status

/-! ### Sending -/

section

variable (messageCrc : UInt8 → UInt8)

/-- What is sent of a message before its payload. -/
def Message.header (msg : Message) : List UInt8 :=
  [msg.magic, msg.len, msg.seq, msg.sysid, msg.compid, msg.msgid]

/-- `mavlink_msg_to_send_buffer`: the memory from `magic` on. -/
def Message.toSendBuffer (msg : Message) : List UInt8 :=
  msg.header ++ msg.payload.firsts (msg.len.toNat + 2)

/-- `mavlink_finalize_message_chan`: the message, the status of the channel, and the length of what
is to be sent. -/
def finalizeMessageChan (msg : Message) (status : Status) (systemId componentId length : UInt8)
    (crcExtra : UInt8) : Message × Status × Nat :=
  let msg := { msg with
    magic := mavlinkStx
    len := length
    sysid := systemId
    compid := componentId
    seq := status.currentTxSeq }
  let checksum := crcCalculate
    ([msg.len, msg.seq, msg.sysid, msg.compid, msg.msgid] ++ msg.payload.firsts length.toNat)
  let checksum := crcAccumulate crcExtra checksum
  ({ msg with
      payload := (msg.payload.write length.toNat (ckA checksum)).write (length.toNat + 1)
        (ckB checksum) },
    { status with currentTxSeq := status.currentTxSeq + 1 },
    length.toNat + 8)

/-- `_mav_finalize_message_chan_send`: what is written to the port, and the status. -/
def finalizeMessageChanSend (status : Status) (sysid compid msgid : UInt8) (packet : Buffer UInt8)
    (length crcExtra : UInt8) : List UInt8 × Status :=
  let buf := [mavlinkStx, length, status.currentTxSeq, sysid, compid, msgid]
  let checksum := crcCalculate (buf.drop 1)
  let checksum := crcAccumulateBuffer checksum (packet.firsts length.toNat)
  let checksum := crcAccumulate crcExtra checksum
  (buf ++ packet.firsts length.toNat ++ [ckA checksum, ckB checksum],
    { status with currentTxSeq := status.currentTxSeq + 1 })

/-! ### Receiving -/

/-- `mavlink_start_checksum`. -/
def Message.startChecksum (msg : Message) : Message := { msg with checksum := x25InitCrc }

/-- `mavlink_update_checksum`. -/
def Message.updateChecksum (msg : Message) (c : UInt8) : Message :=
  { msg with checksum := crcAccumulate c msg.checksum }

/-- A checksum byte is wrong: the frame is given up, and a start sign starts another one. -/
def Channel.wrongChecksum (ch : Channel) (c : UInt8) : Channel :=
  let status := { ch.status with
    parseError := ch.status.parseError + 1
    msgReceived := 0
    parseState := .idle }
  if c = mavlinkStx then
    { ch with
      rxmsg := { ch.rxmsg with len := 0 }.startChecksum
      status := { status with parseState := .gotStx } }
  else
    { ch with status := status }

/-- The cases of `mavlink_parse_char`. -/
def Channel.parseCases (ch : Channel) (c : UInt8) : Channel :=
  match ch.status.parseState with
  | .uninit | .idle =>
      if c = mavlinkStx then
        { ch with
          rxmsg := { ch.rxmsg with len := 0, magic := c }.startChecksum
          status := { ch.status with parseState := .gotStx } }
      else
        ch
  | .gotStx =>
      -- A payload can have any length.
      if ch.status.msgReceived ≠ 0 then
        { ch with
          status := { ch.status with
            bufferOverrun := ch.status.bufferOverrun + 1
            parseError := ch.status.parseError + 1
            msgReceived := 0
            parseState := .idle } }
      else
        { ch with
          rxmsg := { ch.rxmsg with len := c }.updateChecksum c
          status := { ch.status with packetIdx := 0, parseState := .gotLength } }
  | .gotLength =>
      { ch with
        rxmsg := { ch.rxmsg with seq := c }.updateChecksum c
        status := { ch.status with parseState := .gotSeq } }
  | .gotSeq =>
      { ch with
        rxmsg := { ch.rxmsg with sysid := c }.updateChecksum c
        status := { ch.status with parseState := .gotSysid } }
  | .gotSysid =>
      { ch with
        rxmsg := { ch.rxmsg with compid := c }.updateChecksum c
        status := { ch.status with parseState := .gotCompid } }
  | .gotCompid =>
      { ch with
        rxmsg := { ch.rxmsg with msgid := c }.updateChecksum c
        status := { ch.status with
          parseState := if ch.rxmsg.len = 0 then .gotPayload else .gotMsgid } }
  | .gotMsgid =>
      { ch with
        rxmsg := { ch.rxmsg with
          payload := ch.rxmsg.payload.write ch.status.packetIdx.toNat c }.updateChecksum c
        status := { ch.status with
          packetIdx := ch.status.packetIdx + 1
          parseState :=
            if ch.status.packetIdx + 1 = ch.rxmsg.len then .gotPayload else .gotMsgid } }
  | .gotPayload =>
      let ch := { ch with rxmsg := ch.rxmsg.updateChecksum (messageCrc ch.rxmsg.msgid) }
      if c ≠ ckA ch.rxmsg.checksum then
        ch.wrongChecksum c
      else
        { ch with
          rxmsg := { ch.rxmsg with
            payload := ch.rxmsg.payload.write ch.status.packetIdx.toNat c }
          status := { ch.status with parseState := .gotCrc1 } }
  | .gotCrc1 =>
      if c ≠ ckB ch.rxmsg.checksum then
        ch.wrongChecksum c
      else
        { ch with
          rxmsg := { ch.rxmsg with
            payload := ch.rxmsg.payload.write (ch.status.packetIdx.toNat + 1) c }
          status := { ch.status with msgReceived := 1, parseState := .idle } }

/-- What the caller is told of the status. -/
structure RxStatus where
  currentRxSeq : UInt8
  packetRxSuccessCount : UInt16
  packetRxDropCount : UInt16

/-- A message that has been decoded is counted. -/
def Channel.count (ch : Channel) : Channel :=
  if ch.status.msgReceived = 1 then
    { ch with
      status := { ch.status with
        currentRxSeq := ch.rxmsg.seq
        packetRxDropCount :=
          if ch.status.packetRxSuccessCount = 0 then 0 else ch.status.packetRxDropCount
        packetRxSuccessCount := ch.status.packetRxSuccessCount + 1 } }
  else
    ch

/-- `mavlink_parse_char`: the channel, the message if one has been decoded, and what the caller is
told of the status. -/
def Channel.parseChar (ch : Channel) (c : UInt8) : Channel × Option Message × RxStatus :=
  let ch := { ch with status := { ch.status with msgReceived := 0 } }
  let ch := (ch.parseCases messageCrc c).count
  let rxStatus := {
    currentRxSeq := ch.status.currentRxSeq + 1
    packetRxSuccessCount := ch.status.packetRxSuccessCount
    packetRxDropCount := ch.status.parseError.toUInt16 }
  ({ ch with status := { ch.status with parseError := 0 } },
    if ch.status.msgReceived = 1 then some ch.rxmsg else none, rxStatus)

/-- The bytes of a stream one after the other: the messages that are decoded. -/
def Channel.parseAll : Channel → List UInt8 → Channel × List Message
  | ch, [] => (ch, [])
  | ch, c :: cs =>
      let (ch, msg, _) := ch.parseChar messageCrc c
      let (ch, msgs) := parseAll ch cs
      (ch, msg.toList ++ msgs)

end

end Px4Firmware.Mavlink.Wire
