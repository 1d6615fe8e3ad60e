import Px4Firmware.Lib.Hoare

/-!
# Px4Firmware.Waypoints.Storage

The data of the waypoint manager (`mavlink/waypoints.h`): the two waypoint arrays,
the state of the transfer protocol, the messages it receives and what it sends.

The manager runs in the monad `Exec`: a state monad over `Vehicle` with one
exception, an access to an array element that does not exist. Both arrays are
vectors of the declared length, so every access goes through `readWaypoint` and its
relatives, which raise the exception. Everything sent is appended to `Vehicle.sent`
in order; console output is left out.

The floating-point type `F` and its arithmetic are parameters (`FloatOps`): the
manager stores and copies these numbers, and uses them only to decide whether a
waypoint is reached.
-/

namespace Px4Firmware.Waypoints

open Px4Firmware.Lib

/-- The `float` and `double` arithmetic behind the waypoint-reached check. -/
structure FloatOps (F : Type) where
  zero : F
  minusOne : F
  le : F → F → Bool
  ofInt32 : Int32 → F
  /-- The distance on the WGS84 sphere between a waypoint's `x`, `y` and a position. -/
  globalDistance : F → F → F → F → F
  /-- The distance between a waypoint's `x`, `y`, `z` and a position. -/
  localDistance : F → F → F → F → F → F → F
  /-- Is a time at least `param2 * 1000`? -/
  heldFor : UInt64 → F → Bool

/-- `mavlink_mission_item_t`. -/
structure MissionItem (F : Type) where
  param1 : F
  param2 : F
  param3 : F
  param4 : F
  x : F
  y : F
  z : F
  seq : UInt16
  command : UInt16
  targetSystem : UInt8
  targetComponent : UInt8
  frame : UInt8
  current : UInt8
  autocontinue : UInt8
  deriving DecidableEq

/-- `enum MAVLINK_WPM_STATES`. -/
inductive WpmState
  | idle
  | sendlist
  | sendlistSendwps
  | getlist
  | getlistGetwps
  | getlistGotall
  deriving Repr, DecidableEq

/-- `MAVLINK_WPM_MAX_WP_COUNT`. -/
abbrev maxWpCount : Nat := 15

/-- A communication partner. -/
structure Station where
  sysid : UInt8
  compid : UInt8
  deriving Repr, DecidableEq

/-- `struct mavlink_wpm_storage`. -/
structure WpmStorage (F : Type) where
  waypoints : Vector (MissionItem F) maxWpCount
  rcvWaypoints : Vector (MissionItem F) maxWpCount
  size : UInt16
  maxSize : UInt16
  rcvSize : UInt16
  currentState : WpmState
  currentWpId : UInt16
  currentActiveWpId : UInt16
  currentCount : UInt16
  currentPartnerSysid : UInt8
  currentPartnerCompid : UInt8
  timestampLastaction : UInt64
  timestampLastSendSetpoint : UInt64
  timestampFirstinsideOrbit : UInt64
  timestampLastoutsideOrbit : UInt64
  timeout : UInt32
  delaySetpoint : UInt32
  yawReached : Bool
  posReached : Bool
  idle : Bool

/-- The partner of the current transfer. -/
def WpmStorage.partner {F : Type} (w : WpmStorage F) : Station :=
  ⟨w.currentPartnerSysid, w.currentPartnerCompid⟩

/-- The decoded payload of a MAVLink message. The kinds the manager does not react
to are `other`, by their message id. -/
inductive Payload (F : Type)
  | missionAck (targetSystem targetComponent type : UInt8)
  | missionSetCurrent (targetSystem targetComponent : UInt8) (seq : UInt16)
  | missionRequestList (targetSystem targetComponent : UInt8)
  | missionRequest (targetSystem targetComponent : UInt8) (seq : UInt16)
  | missionCount (targetSystem targetComponent : UInt8) (count : UInt16)
  | missionItem (item : MissionItem F)
  | missionClearAll (targetSystem targetComponent : UInt8)
  | missionCurrent (seq : UInt16)
  | missionItemReached (seq : UInt16)
  | other (msgid : UInt8)
  deriving DecidableEq

/-- `mavlink_message_t`. -/
structure Message (F : Type) where
  sysid : UInt8
  compid : UInt8
  payload : Payload F
  deriving DecidableEq

/-- The station a message comes from. -/
def Message.sender {F : Type} (m : Message F) : Station := ⟨m.sysid, m.compid⟩

/-- What leaves the manager: a message, a text for the ground station, or a new
setpoint (`mavlink_missionlib_current_waypoint_changed`). -/
inductive Output (F : Type)
  | message (m : Message F)
  | gcsString (text : String)
  | currentWaypointChanged (index : UInt16) (param1 param2 param3 param4 x y z : F)
      (frame : UInt8) (command : UInt16)
  deriving DecidableEq

/-- The fields of `struct vehicle_global_position_s` the manager reads. -/
structure GlobalPosition (F : Type) where
  lat : Int32
  lon : Int32
  alt : F
  relativeAlt : F

/-- The fields of `struct vehicle_local_position_s` the manager reads. -/
structure LocalPosition (F : Type) where
  x : F
  y : F
  z : F

/-- The manager: its storage, what it has sent, and how often it has read the clock. -/
structure Vehicle (F : Type) where
  wpm : WpmStorage F
  sent : List (Output F)
  clockReads : Nat

/-- An access to an element that an array does not have. -/
inductive Fault
  | outOfBounds (index : Nat)

/-- A computation of the manager. -/
abbrev Exec (F : Type) := EStateM Fault (Vehicle F)

/-- What the manager runs against: the arithmetic, the id of the vehicle
(`mavlink_system.sysid`) and the successive readings of the clock. -/
structure Env (F : Type) where
  ops : FloatOps F
  sysid : UInt8
  clock : Nat → UInt64

/-- `mavlink_wpm_comp_id`, which is `MAV_COMP_ID_MISSIONPLANNER`. -/
def mavlinkWpmCompId : UInt8 := 190

/-- `mavlink_wpm_init`. Both arrays, the receive count, and the index and count of
the current transfer are left as they are. -/
def mavlinkWpmInit {F : Type} (state : WpmStorage F) : WpmStorage F :=
  { state with
    size := 0
    maxSize := 15
    currentState := .idle
    currentPartnerSysid := 0
    currentPartnerCompid := 0
    timestampLastaction := 0
    timestampLastSendSetpoint := 0
    timeout := 5000000
    delaySetpoint := 1000000
    idle := false
    currentActiveWpId := 65535
    yawReached := false
    posReached := false
    timestampLastoutsideOrbit := 0
    timestampFirstinsideOrbit := 0 }

/-! ### Primitive effects -/

section

variable {F : Type}

/-- The storage. -/
def getWpm : Exec F (WpmStorage F) := do return (← get).wpm

/-- Change the storage. -/
def modifyWpm (f : WpmStorage F → WpmStorage F) : Exec F Unit :=
  modify fun v => { v with wpm := f v.wpm }

/-- Append to what was sent. -/
def send (o : Output F) : Exec F Unit := modify fun v => { v with sent := v.sent ++ [o] }

/-- `mavlink_missionlib_send_gcs_string`. -/
def sendGcsString (text : String) : Exec F Unit := send (.gcsString text)

/-- A text that is sent under a condition. -/
def sendGcsStringIf (c : Prop) [Decidable c] (text : String) : Exec F Unit := do
  if c then
    sendGcsString text

/-- `mavlink_missionlib_get_system_timestamp`. -/
def getSystemTimestamp (env : Env F) : Exec F UInt64 :=
  modifyGet fun v => (env.clock v.clockReads, { v with clockReads := v.clockReads + 1 })

/-- Encode and send a message. -/
def sendMessage (env : Env F) (payload : Payload F) : Exec F Unit :=
  send (.message { sysid := env.sysid, compid := mavlinkWpmCompId, payload := payload })

/-- `wpm->waypoints[i]`, read. -/
def readWaypoint (i : Nat) : Exec F (MissionItem F) := do
  let w ← getWpm
  if h : i < maxWpCount then return w.waypoints[i] else throw (.outOfBounds i)

/-- `wpm->rcv_waypoints[i]`, read. -/
def readRcvWaypoint (i : Nat) : Exec F (MissionItem F) := do
  let w ← getWpm
  if h : i < maxWpCount then return w.rcvWaypoints[i] else throw (.outOfBounds i)

/-- `wpm->waypoints[i] = item`. -/
def writeWaypoint (i : Nat) (item : MissionItem F) : Exec F Unit :=
  if h : i < maxWpCount then
    modifyWpm fun w => { w with waypoints := w.waypoints.set i item h }
  else
    throw (.outOfBounds i)

/-- `wpm->rcv_waypoints[i] = item`. -/
def writeRcvWaypoint (i : Nat) (item : MissionItem F) : Exec F Unit :=
  if h : i < maxWpCount then
    modifyWpm fun w => { w with rcvWaypoints := w.rcvWaypoints.set i item h }
  else
    throw (.outOfBounds i)

/-- Change `wpm->waypoints[i]` in place. -/
def modifyWaypoint (i : Nat) (f : MissionItem F → MissionItem F) : Exec F Unit := do
  writeWaypoint i (f (← readWaypoint i))

end

end Px4Firmware.Waypoints
