import Px4Firmware.Waypoints.Storage

/-!
# Px4Firmware.Waypoints.Handler

The waypoint manager of `mavlink/waypoints.c`: what it sends, when it goes on to the
next waypoint (`checkWaypointsReached`), the message handler with one definition per
message kind, and the event loop with the protocol timeout.

`MAVLINK_WPM_TEXT_FEEDBACK` is 0 and `MAVLINK_WPM_NO_PRINTF` is defined, so the texts
sent are those of the second. Comparisons that C makes after promotion to `int` are
made on numbers: `size - 1` is -1 for an empty list.
-/

namespace Px4Firmware.Waypoints

open Px4Firmware.Lib

section

variable {F : Type} (env : Env F)

/-! ### What is sent -/

/-- `mavlink_wpm_send_waypoint_ack`. -/
def sendWaypointAck (type : UInt8) : Exec F Unit := do
  let w ← getWpm
  sendMessage env (.missionAck w.currentPartnerSysid w.currentPartnerCompid type)

/-- `mavlink_wpm_send_waypoint_current`. -/
def sendWaypointCurrent (seq : UInt16) : Exec F Unit := do
  if seq < (← getWpm).size then
    let cur ← readWaypoint seq.toNat
    sendMessage env (.missionCurrent cur.seq)

/-- `mavlink_wpm_send_setpoint`. -/
def sendSetpoint (seq : UInt16) : Exec F Unit := do
  if seq < (← getWpm).size then
    let cur ← readWaypoint seq.toNat
    send (.currentWaypointChanged cur.seq cur.param1 cur.param2 cur.param3 cur.param4
      cur.x cur.y cur.z cur.frame cur.command)
    let now ← getSystemTimestamp env
    modifyWpm fun w => { w with timestampLastSendSetpoint := now }

/-- `mavlink_wpm_send_waypoint_count`. -/
def sendWaypointCount (count : UInt16) : Exec F Unit := do
  let w ← getWpm
  sendMessage env (.missionCount w.currentPartnerSysid w.currentPartnerCompid count)

/-- `mavlink_wpm_send_waypoint`. The waypoint is addressed to the partner in place. -/
def sendWaypoint (seq : UInt16) : Exec F Unit := do
  let w ← getWpm
  if seq < w.size then
    modifyWaypoint seq.toNat fun wp =>
      { wp with
        targetSystem := w.currentPartnerSysid
        targetComponent := w.currentPartnerCompid }
    sendMessage env (.missionItem (← readWaypoint seq.toNat))

/-- `mavlink_wpm_send_waypoint_request`. -/
def sendWaypointRequest (seq : UInt16) : Exec F Unit := do
  let w ← getWpm
  if seq < w.maxSize then
    sendMessage env (.missionRequest w.currentPartnerSysid w.currentPartnerCompid seq)

/-- `mavlink_wpm_send_waypoint_reached`. -/
def sendWaypointReached (seq : UInt16) : Exec F Unit :=
  sendMessage env (.missionItemReached seq)

/-! ### Going on to the next waypoint -/

/-- `mavlink_wpm_distance_to_point_global_wgs84`. The altitude is not used. -/
def distanceToPointGlobalWgs84 (seq : UInt16) (lat lon _alt : F) : Exec F F := do
  if seq < (← getWpm).size then
    let cur ← readWaypoint seq.toNat
    return env.ops.globalDistance cur.x cur.y lat lon
  else
    return env.ops.minusOne

/-- `mavlink_wpm_distance_to_point_local`. -/
def distanceToPointLocal (seq : UInt16) (x y z : F) : Exec F F := do
  if seq < (← getWpm).size then
    let cur ← readWaypoint seq.toNat
    return env.ops.localDistance cur.x cur.y cur.z x y z
  else
    return env.ops.minusOne

/-- `MAV_FRAME_GLOBAL`. -/
def mavFrameGlobal : UInt8 := 0

/-- `MAV_FRAME_LOCAL_NED`. -/
def mavFrameLocalNed : UInt8 := 1

/-- `MAV_FRAME_GLOBAL_RELATIVE_ALT`. -/
def mavFrameGlobalRelativeAlt : UInt8 := 3

/-- `MAV_FRAME_LOCAL_ENU`. -/
def mavFrameLocalEnu : UInt8 := 4

/-- The distance to a waypoint in the coordinate frame of that waypoint. -/
def distanceInFrame (frame : UInt8) (seq : UInt16) (globalPos : GlobalPosition F)
    (localPos : LocalPosition F) : Exec F F :=
  if frame = mavFrameGlobal then
    distanceToPointGlobalWgs84 env seq (env.ops.ofInt32 globalPos.lat)
      (env.ops.ofInt32 globalPos.lon) globalPos.alt
  else if frame = mavFrameGlobalRelativeAlt then
    distanceToPointGlobalWgs84 env seq (env.ops.ofInt32 globalPos.lat)
      (env.ops.ofInt32 globalPos.lon) globalPos.relativeAlt
  else if frame = mavFrameLocalEnu ∨ frame = mavFrameLocalNed then
    distanceToPointLocal env seq localPos.x localPos.y localPos.z
  else
    return env.ops.minusOne

/-- The first part of `check_waypoints_reached`: is the position inside the orbit of the
active waypoint? -/
def updatePosReached (globalPos : GlobalPosition F) (localPos : LocalPosition F) :
    Exec F Unit := do
  let w ← getWpm
  if w.currentActiveWpId < w.size then
    let item ← readWaypoint w.currentActiveWpId.toNat
    let dist ← distanceInFrame env item.frame w.currentActiveWpId globalPos localPos
    if env.ops.le env.ops.zero dist && env.ops.le dist item.param2 then
      modifyWpm fun w => { w with posReached := true }

/-- The waypoint after the active one: after the last waypoint the second. -/
def nextActiveWpId (w : WpmStorage F) : UInt16 :=
  if (w.currentActiveWpId.toNat : Int) = (w.size.toNat : Int) - 1 ∧ w.size > 1 then
    1
  else if w.currentActiveWpId + 1 < w.size then
    w.currentActiveWpId + 1
  else
    w.currentActiveWpId

/-- The active waypoint was held long enough and continues automatically. -/
def advanceWaypoint : Exec F Unit := do
  modifyWaypoint (← getWpm).currentActiveWpId.toNat fun wp => { wp with current := 0 }
  modifyWpm fun w => { w with currentActiveWpId := nextActiveWpId w }
  modifyWpm fun w => { w with timestampFirstinsideOrbit := 0 }
  sendWaypointCurrent env (← getWpm).currentActiveWpId
  sendSetpoint env (← getWpm).currentActiveWpId
  modifyWaypoint (← getWpm).currentActiveWpId.toNat fun wp => { wp with current := 1 }
  modifyWpm fun w => { w with posReached := false, yawReached := false }

/-- The active waypoint is reached for the first time. -/
def announceReached (now : UInt64) (seq : UInt16) : Exec F Unit := do
  if (← getWpm).timestampFirstinsideOrbit = 0 then
    sendWaypointReached env seq
    modifyWpm fun w => { w with timestampFirstinsideOrbit := now }

/-- The second part of `check_waypoints_reached`: the active waypoint was reached. -/
def continueMission (now : UInt64) : Exec F Unit := do
  let w ← getWpm
  if w.currentActiveWpId < w.size then
    let cur ← readWaypoint w.currentActiveWpId.toNat
    announceReached env now cur.seq
    if env.ops.heldFor (now - (← getWpm).timestampFirstinsideOrbit) cur.param2 then
      if cur.autocontinue ≠ 0 then
        advanceWaypoint env

/-- `check_waypoints_reached`. -/
def checkWaypointsReached (now : UInt64) (globalPos : GlobalPosition F)
    (localPos : LocalPosition F) : Exec F Unit := do
  updatePosReached env globalPos localPos
  let w ← getWpm
  if w.posReached && !w.idle then
    continueMission env now
  else
    modifyWpm fun w => { w with timestampLastoutsideOrbit := now }

/-- `mavlink_waypoint_eventloop`. -/
def mavlinkWaypointEventloop (now : UInt64) (globalPos : GlobalPosition F)
    (localPos : LocalPosition F) : Exec F Unit := do
  let w ← getWpm
  if now - w.timestampLastaction > w.timeout.toUInt64 ∧ w.currentState ≠ .idle then
    sendGcsString "Operation timeout switching -> IDLE"
    modifyWpm fun w =>
      { w with
        currentState := .idle
        currentCount := 0
        currentPartnerSysid := 0
        currentPartnerCompid := 0
        currentWpId := 65535 }
    if (← getWpm).size = 0 then
      modifyWpm fun w => { w with currentActiveWpId := 65535 }
  checkWaypointsReached env now globalPos localPos

/-! ### The message kinds -/

/-- `wpm->timestamp_lastaction = now`. -/
def setLastaction (now : UInt64) : Exec F Unit :=
  modifyWpm fun w => { w with timestampLastaction := now }

/-- The case `MAVLINK_MSG_ID_MISSION_ACK` of the handler. -/
def handleMissionAck (now : UInt64) (sender : Station) (targetSystem : UInt8) :
    Exec F Unit := do
  let w ← getWpm
  if sender = w.partner ∧ targetSystem = env.sysid then
    setLastaction now
    if w.currentState = .sendlist ∨ w.currentState = .sendlistSendwps then
      if (w.currentWpId.toNat : Int) = (w.size.toNat : Int) - 1 then
        sendGcsString "Got last WP ACK state -> IDLE"
        modifyWpm fun w => { w with currentState := .idle, currentWpId := 0 }
  else
    sendGcsString "REJ. WP CMD: curr partner id mismatch"

/-- Make `seq` the active waypoint, the only one marked as current. -/
def setCurrent (seq : UInt16) : Exec F Unit := do
  modifyWpm fun w => { w with currentActiveWpId := seq }
  (List.range (← getWpm).size.toNat).forM fun i =>
    modifyWaypoint i fun wp => { wp with current := if i = seq.toNat then 1 else 0 }
  sendGcsString "NEW WP SET"
  modifyWpm fun w => { w with yawReached := false, posReached := false }
  sendWaypointCurrent env seq
  sendSetpoint env seq
  modifyWpm fun w => { w with timestampFirstinsideOrbit := 0 }

/-- The case `MAVLINK_MSG_ID_MISSION_SET_CURRENT` of the handler. -/
def handleMissionSetCurrent (now : UInt64) (targetSystem : UInt8) (seq : UInt16) :
    Exec F Unit := do
  if targetSystem = env.sysid then
    setLastaction now
    let w ← getWpm
    if w.currentState = .idle then
      if seq < w.size then
        setCurrent env seq
      else
        sendGcsString "IGN WP CURR CMD: Not in list"
    else
      sendGcsString "IGN WP CURR CMD: Busy"
  else
    sendGcsString "REJ. WP CMD: target id mismatch"

/-- The case `MAVLINK_MSG_ID_MISSION_REQUEST_LIST` of the handler. -/
def handleMissionRequestList (now : UInt64) (sender : Station) (targetSystem : UInt8) :
    Exec F Unit := do
  if targetSystem = env.sysid then
    setLastaction now
    let w ← getWpm
    if w.currentState = .idle ∨ w.currentState = .sendlist then
      if w.size > 0 then
        modifyWpm fun w =>
          { w with
            currentState := .sendlist
            currentWpId := 0
            currentPartnerSysid := sender.sysid
            currentPartnerCompid := sender.compid }
      modifyWpm fun w => { w with currentCount := w.size }
      sendWaypointCount env (← getWpm).currentCount

/-- Is `seq` the waypoint that may be requested next? -/
def requestable (w : WpmStorage F) (seq : UInt16) : Prop :=
  (w.currentState = .sendlist ∧ seq = 0) ∨
    (w.currentState = .sendlistSendwps ∧
      (seq = w.currentWpId ∨ seq.toNat = w.currentWpId.toNat + 1) ∧ seq < w.size)

instance (w : WpmStorage F) (seq : UInt16) : Decidable (requestable w seq) := by
  unfold requestable; infer_instance

/-- A requested waypoint is sent. -/
def serveRequest (seq : UInt16) : Exec F Unit := do
  let w ← getWpm
  sendGcsStringIf (w.currentState = .sendlist) "GOT WP REQ, state -> SEND"
  sendGcsStringIf (w.currentState = .sendlistSendwps ∧ seq.toNat = w.currentWpId.toNat + 1)
    "GOT 2nd WP REQ"
  sendGcsStringIf (w.currentState = .sendlistSendwps ∧ seq = w.currentWpId) "GOT 2nd WP REQ"
  modifyWpm fun w => { w with currentState := .sendlistSendwps, currentWpId := seq }
  sendWaypoint env seq

/-- The text with which a request from the partner is refused, if any. -/
def requestRefusal (w : WpmStorage F) (seq : UInt16) : Option String :=
  match w.currentState with
  | .sendlist => if seq ≠ 0 then some "REJ. WP CMD: First id != 0" else none
  | .sendlistSendwps =>
      if seq ≠ w.currentWpId ∧ seq.toNat ≠ w.currentWpId.toNat + 1 then
        some "REJ. WP CMD: Req. WP was unexpected"
      else if seq ≥ w.size then
        some "REJ. WP CMD: Req. WP not in list"
      else
        none
  | _ => some "REJ. WP CMD: Busy"

/-- The case `MAVLINK_MSG_ID_MISSION_REQUEST` of the handler. -/
def handleMissionRequest (now : UInt64) (sender : Station) (targetSystem : UInt8)
    (seq : UInt16) : Exec F Unit := do
  let w ← getWpm
  if sender = w.partner ∧ targetSystem = env.sysid then
    setLastaction now
    if requestable w seq then
      serveRequest env seq
    else
      match requestRefusal w seq with
      | some text => sendGcsString text
      | none => return ()
  else if targetSystem = env.sysid ∧ sender ≠ w.partner then
    sendGcsString "REJ. WP CMD: Busy"
  else
    sendGcsString "REJ. WP CMD: target id mismatch"

/-- May a count open a transfer now? -/
def countable (w : WpmStorage F) : Prop :=
  w.currentState = .idle ∨ (w.currentState = .getlist ∧ w.currentWpId = 0)

instance (w : WpmStorage F) : Decidable (countable w) := by unfold countable; infer_instance

/-- A transfer of `count` waypoints is opened. -/
def openTransfer (sender : Station) (count : UInt16) : Exec F Unit := do
  let w ← getWpm
  sendGcsStringIf (w.currentState = .idle) "WP CMD OK: state -> GETLIST"
  sendGcsStringIf (w.currentState = .getlist) "WP CMD OK AGAIN"
  modifyWpm fun w =>
    { w with
      currentState := .getlist
      currentWpId := 0
      currentPartnerSysid := sender.sysid
      currentPartnerCompid := sender.compid
      currentCount := count }
  sendGcsString "CLR RCV BUF: READY"
  modifyWpm fun w => { w with rcvSize := 0 }
  sendWaypointRequest env (← getWpm).currentWpId

/-- The case `MAVLINK_MSG_ID_MISSION_COUNT` of the handler. -/
def handleMissionCount (now : UInt64) (sender : Station) (targetSystem : UInt8)
    (count : UInt16) : Exec F Unit := do
  if targetSystem = env.sysid then
    setLastaction now
    let w ← getWpm
    if countable w then
      if count > 0 then
        openTransfer env sender count
      else
        sendGcsString "COUNT 0"
        modifyWpm fun w =>
          { w with
            rcvSize := 0
            currentActiveWpId := 65535
            yawReached := false
            posReached := false }
    else
      sendGcsString "REJ. WP CMD: Busy"
  else
    sendGcsString "REJ. WP CMD: target id mismatch"

/-- Is `item` the waypoint that is to be received next? -/
def receivable (w : WpmStorage F) (item : MissionItem F) : Prop :=
  (w.currentState = .getlist ∧ item.seq = 0) ∨
    (w.currentState = .getlistGetwps ∧ item.seq = w.currentWpId ∧ item.seq < w.currentCount)

instance (w : WpmStorage F) (item : MissionItem F) : Decidable (receivable w item) := by
  unfold receivable; infer_instance

/-- The index of the first waypoint from `i` on, among the next `n`, that is marked as
current; `i + n` when there is none. -/
def firstCurrent (i : Nat) : Nat → Exec F Nat
  | 0 => return i
  | n + 1 => do
      if (← readWaypoint i).current = 1 then return i else firstCurrent (i + 1) n

/-- The text that announces a complete transfer. -/
def gotAllWps : String := "GOT ALL WPS"

/-- The active waypoint, cut to the size of the receive buffer. -/
def limitActiveWpId (w : WpmStorage F) : UInt16 :=
  if (w.currentActiveWpId.toNat : Int) > (w.rcvSize.toNat : Int) - 1 then
    w.rcvSize - 1
  else
    w.currentActiveWpId

/-- Make the waypoint that is marked as current the active one. -/
def selectCurrent : Exec F Unit := do
  let size := (← getWpm).size.toNat
  let i ← firstCurrent 0 size
  if i ≠ size then
    modifyWpm fun w =>
      { w with currentActiveWpId := UInt16.ofNat i, yawReached := false, posReached := false }
    sendWaypointCurrent env (← getWpm).currentActiveWpId
    sendSetpoint env (← getWpm).currentActiveWpId
    modifyWpm fun w => { w with timestampFirstinsideOrbit := 0 }
  else
    modifyWpm fun w =>
      { w with
        currentActiveWpId := 65535
        yawReached := false
        posReached := false
        timestampFirstinsideOrbit := 0 }

/-- All waypoints of the transfer are received: it is acknowledged and the receive
buffer becomes the active list. -/
def switchWaypoints : Exec F Unit := do
  sendGcsString gotAllWps
  sendWaypointAck env 0
  modifyWpm fun w => { w with currentActiveWpId := limitActiveWpId w }
  (List.range (← getWpm).currentCount.toNat).forM fun i => do
    writeWaypoint i (← readRcvWaypoint i)
  modifyWpm fun w => { w with size := w.currentCount }
  selectCurrent env
  modifyWpm fun w => { w with currentState := .idle }

/-- A waypoint is stored in the receive buffer, and the next one is requested. -/
def receiveItem (item : MissionItem F) : Exec F Unit := do
  modifyWpm fun w => { w with currentState := .getlistGetwps }
  writeRcvWaypoint item.seq.toNat item
  modifyWpm fun w => { w with currentWpId := item.seq + 1 }
  let w ← getWpm
  if w.currentWpId = w.currentCount ∧ w.currentState = .getlistGetwps then
    switchWaypoints env
  else
    sendWaypointRequest env w.currentWpId

/-- The case `MAVLINK_MSG_ID_MISSION_ITEM` of the handler. -/
def handleMissionItem (now : UInt64) (item : MissionItem F) : Exec F Unit := do
  sendGcsString "GOT WP"
  if item.targetSystem = env.sysid ∧ item.targetComponent = mavlinkWpmCompId then
    setLastaction now
    let w ← getWpm
    if receivable w item then
      receiveItem env item
    else if w.currentState = .idle then
      sendWaypointAck env 0
    else if w.currentState = .getlistGetwps ∧ item.seq ≠ w.currentWpId then
      sendWaypointRequest env w.currentWpId

/-- The case `MAVLINK_MSG_ID_MISSION_CLEAR_ALL` of the handler. -/
def handleMissionClearAll (now : UInt64) (targetSystem : UInt8) : Exec F Unit := do
  if targetSystem = env.sysid ∧ (← getWpm).currentState = .idle then
    setLastaction now
    modifyWpm fun w =>
      { w with
        size := 0
        currentActiveWpId := 65535
        yawReached := false
        posReached := false }

/-- The switch over the message kinds. -/
def handlePayload (now : UInt64) (msg : Message F) : Exec F Unit :=
  match msg.payload with
  | .missionAck targetSystem _ _ => handleMissionAck env now msg.sender targetSystem
  | .missionSetCurrent targetSystem _ seq => handleMissionSetCurrent env now targetSystem seq
  | .missionRequestList targetSystem _ =>
      handleMissionRequestList env now msg.sender targetSystem
  | .missionRequest targetSystem _ seq =>
      handleMissionRequest env now msg.sender targetSystem seq
  | .missionCount targetSystem _ count =>
      handleMissionCount env now msg.sender targetSystem count
  | .missionItem item => handleMissionItem env now item
  | .missionClearAll targetSystem _ => handleMissionClearAll env now targetSystem
  | _ => return ()

/-- `mavlink_wpm_message_handler`. -/
def mavlinkWpmMessageHandler (msg : Message F) (globalPos : GlobalPosition F)
    (localPos : LocalPosition F) : Exec F Unit := do
  let now ← getSystemTimestamp env
  handlePayload env now msg
  checkWaypointsReached env now globalPos localPos

/-- What the manager is called for: a message, or a tick of its event loop. -/
inductive Event (F : Type)
  | message (msg : Message F) (globalPos : GlobalPosition F) (localPos : LocalPosition F)
  | tick (now : UInt64) (globalPos : GlobalPosition F) (localPos : LocalPosition F)

/-- Process one event. -/
def process : Event F → Exec F Unit
  | .message msg globalPos localPos => mavlinkWpmMessageHandler env msg globalPos localPos
  | .tick now globalPos localPos => mavlinkWaypointEventloop env now globalPos localPos

end

end Px4Firmware.Waypoints
