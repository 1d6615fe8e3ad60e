import Px4Firmware.Commander.Status
import Px4Firmware.Lib.Purge

/-!
# Px4Firmware.Mavlink.Addressing

**Commands for another system.** The MAVLink app turns COMMAND_LONG and SET_MODE messages into
publications of `vehicle_command`. A COMMAND_LONG is taken up only if it is addressed to this
system; a SET_MODE is taken up in any case.

The model has what the publications depend on: the system and component ids, which the app reads
from parameters once a second, and the parameters, which a PARAM_SET changes. `foreign_ignored_iff`
says that a run treats messages for other systems as if they were not there exactly when none of
them is a SET_MODE.
-/

namespace Px4Firmware.Mavlink

open Px4Firmware.Lib Px4Firmware.Commander

/-! ### Messages -/

/-- `mavlink_command_long_t`. -/
structure CommandLong where
  param1 : CFloat
  param2 : CFloat
  param3 : CFloat
  param4 : CFloat
  param5 : CFloat
  param6 : CFloat
  param7 : CFloat
  command : UInt16
  targetSystem : UInt8
  targetComponent : UInt8
  confirmation : UInt8

/-- `mavlink_set_mode_t`. -/
structure SetMode where
  customMode : UInt32
  targetSystem : UInt8
  baseMode : UInt8

/-- `mavlink_param_set_t`; the value is the word that is stored. -/
structure ParamSet where
  paramValue : Int32
  targetSystem : UInt8
  targetComponent : UInt8
  paramId : String

/-- What a message says. The other messages concern neither commands nor parameters; some of them
have a target. -/
inductive Payload
  | commandLong (msg : CommandLong)
  | setMode (msg : SetMode)
  | paramSet (msg : ParamSet)
  | other (targetSystem : Option UInt8)

/-- `mavlink_message_t`: the sender, and what it says. -/
structure Message where
  sysid : UInt8
  compid : UInt8
  payload : Payload

/-- The system that a message is for. -/
def Message.targetSystem (msg : Message) : Option UInt8 :=
  match msg.payload with
  | .commandLong long => some long.targetSystem
  | .setMode mode => some mode.targetSystem
  | .paramSet set => some set.targetSystem
  | .other target => target

/-! ### The app -/

/-- The ids in `mavlink_system`. -/
structure MavlinkSystem where
  sysid : UInt8
  compid : UInt8

/-- The parameters `MAV_SYS_ID` and `MAV_COMP_ID`. -/
structure MavlinkParams where
  systemId : Int32
  componentId : Int32

/-- The app: its ids, the parameters, its statics for commands, and the commands it has
published. -/
structure Link where
  system : MavlinkSystem
  params : MavlinkParams
  cmdPub : Int
  vcmd : VehicleCommand
  threadShouldExit : Bool
  published : List VehicleCommand

/-- A handle of `orb_advertise`, which is the address of a node. -/
def Handle : Type := { n : Int // 0 < n }

/-- `MAV_COMP_ID_ALL`. -/
def mavCompIdAll : UInt8 := 0

/-- `MAV_CMD_DO_SET_MODE`. -/
def mavCmdDoSetMode : UInt16 := 176

/-- `MAV_CMD_PREFLIGHT_STORAGE`. -/
def mavCmdPreflightStorage : UInt16 := 245

/-- `MAV_CMD_PREFLIGHT_REBOOT_SHUTDOWN`. -/
def mavCmdPreflightRebootShutdown : UInt16 := 246

/-- `mavlink_update_system`: ids out of range are not taken over. -/
def Link.updateSystem (m : Link) : Link :=
  let systemId := m.params.systemId.toInt
  let componentId := m.params.componentId.toInt
  { m with system :=
    { sysid := if 0 < systemId ∧ systemId < 255 then .ofNat systemId.toNat else m.system.sysid
      compid :=
        if 0 < componentId ∧ componentId < 255 then .ofNat componentId.toNat
        else m.system.compid } }

/-- Is this target this component, or all of this system? -/
def MavlinkSystem.isTarget (system : MavlinkSystem) (targetSystem targetComponent : UInt8) : Bool :=
  targetSystem = system.sysid &&
    (targetComponent = system.compid || targetComponent = mavCompIdAll)

/-- The command that a COMMAND_LONG is copied to. -/
def CommandLong.toCommand (long : CommandLong) (msg : Message) : VehicleCommand where
  param1 := long.param1
  param2 := long.param2
  param3 := long.param3
  param4 := long.param4
  param5 := long.param5
  param6 := long.param6
  param7 := long.param7
  command := long.command
  targetSystem := long.targetSystem
  targetComponent := long.targetComponent
  sourceSystem := msg.sysid
  sourceComponent := msg.compid
  confirmation := long.confirmation

/-- The command that a SET_MODE is copied to. -/
def SetMode.toCommand (newMode : SetMode) (msg : Message) : VehicleCommand where
  param1 := .ofNat newMode.baseMode.toNat
  param2 := .ofNat newMode.customMode.toNat
  param3 := .ofNat 0
  param4 := .ofNat 0
  param5 := .ofNat 0
  param6 := .ofNat 0
  param7 := .ofNat 0
  command := mavCmdDoSetMode
  targetSystem := newMode.targetSystem
  targetComponent := mavCompIdAll
  sourceSystem := msg.sysid
  sourceComponent := msg.compid
  confirmation := 1

/-- `orb_publish` of the command. -/
def Link.orbPublish (m : Link) : Link := { m with published := m.published ++ [m.vcmd] }

/-- `orb_advertise` of the command, which publishes it. -/
def Link.orbAdvertise (handle : Handle) (m : Link) : Link :=
  { m.orbPublish with cmdPub := handle.val }

section

variable (handle : Handle)

/-- `handleMessage`, COMMAND_LONG. The first command is published twice. -/
def Link.commandLong (m : Link) (msg : Message) (long : CommandLong) : Link :=
  if m.system.isTarget long.targetSystem long.targetComponent then
    if long.command = mavCmdPreflightRebootShutdown ∧ long.param1.toInt = 3 then
      { m with threadShouldExit := true }
    else
      let m := { m with vcmd := long.toCommand msg }
      let m := if m.cmdPub ≤ 0 then m.orbAdvertise handle else m
      m.orbPublish
  else
    m

/-- `handleMessage`, SET_MODE. -/
def Link.setMode (m : Link) (msg : Message) (newMode : SetMode) : Link :=
  let m := { m with vcmd := newMode.toCommand msg }
  if m.cmdPub ≤ 0 then m.orbAdvertise handle else m.orbPublish

/-- `handleMessage`. -/
def Link.handleMessage (m : Link) (msg : Message) : Link :=
  match msg.payload with
  | .commandLong long => m.commandLong handle msg long
  | .setMode newMode => m.setMode handle msg newMode
  | _ => m

/-- `mavlink_pm_message_handler`, as far as it changes the parameters; `loaded` are those that
loading the parameter file results in. -/
def Link.pmMessageHandler (m : Link) (msg : Message) (loaded : MavlinkParams) : Link :=
  match msg.payload with
  | .paramSet set =>
      if m.system.isTarget set.targetSystem set.targetComponent then
        if set.paramId = "MAV_SYS_ID" then
          { m with params := { m.params with systemId := set.paramValue } }
        else if set.paramId = "MAV_COMP_ID" then
          { m with params := { m.params with componentId := set.paramValue } }
        else
          m
      else
        m
  | .commandLong long =>
      if m.system.isTarget long.targetSystem long.targetComponent ∧
          long.command = mavCmdPreflightStorage ∧ long.param1.toInt = 0 then
        { m with params := loaded }
      else
        m
  | _ => m

/-- What happens in the app: a message is received, the ids are updated, or another app changes the
parameters. -/
inductive Event
  | message (msg : Message) (loaded : MavlinkParams)
  | updateSystem
  | paramChange (params : MavlinkParams)

/-- The next state. A message is handled by one handler after the other. -/
def Link.next (m : Link) : Event → Link
  | .message msg loaded => (m.handleMessage handle msg).pmMessageHandler msg loaded
  | .updateSystem => m.updateSystem
  | .paramChange params => { m with params := params }

/-! ### The law and its condition -/

/-- Is the event a message for another system? -/
def Link.isForeign (m : Link) : Event → Bool
  | .message msg _ => msg.targetSystem.any fun target => target ≠ m.system.sysid
  | _ => false

/-- Is it a SET_MODE? -/
def Event.isSetMode : Event → Bool
  | message ⟨_, _, .setMode _⟩ _ => true
  | _ => false

/-- The law for a run: no message for another system publishes a command, and without these messages
the same commands are published. -/
def ForeignIgnored (m : Link) (es : List Event) : Prop :=
  Along (Link.next handle)
      (fun m e => m.isForeign e = true → (m.next handle e).published = m.published) m es ∧
    (es.foldl (Link.next handle) m).published =
      ((purge (Link.next handle) Link.isForeign m es).foldl (Link.next handle) m).published

/-- The condition: no SET_MODE for another system. -/
def NoForeignSetMode (m : Link) (es : List Event) : Prop :=
  Along (Link.next handle) (fun m e => m.isForeign e = true → e.isSetMode = false) m es

/-! ### One message -/

theorem isTarget_of_ne {system : MavlinkSystem} {target : UInt8} (h : target ≠ system.sysid)
    (component : UInt8) : system.isTarget target component = false := by
  simp [MavlinkSystem.isTarget, h]

/-- A message for another system that is not a SET_MODE changes nothing. -/
theorem next_foreign {m : Link} {e : Event} (hforeign : m.isForeign e = true)
    (hmode : e.isSetMode = false) : m.next handle e = m := by
  cases e with
  | updateSystem => cases hforeign
  | paramChange params => cases hforeign
  | message msg loaded =>
      obtain ⟨sysid, compid, payload⟩ := msg
      cases payload with
      | setMode newMode => cases hmode
      | other target => rfl
      | commandLong long =>
          have hne : long.targetSystem ≠ m.system.sysid := by
            simpa [Link.isForeign, Message.targetSystem] using hforeign
          have htarget := isTarget_of_ne hne long.targetComponent
          simp [Link.next, Link.handleMessage, Link.commandLong,
            Link.pmMessageHandler, htarget]
      | paramSet set =>
          have hne : set.targetSystem ≠ m.system.sysid := by
            simpa [Link.isForeign, Message.targetSystem] using hforeign
          have htarget := isTarget_of_ne hne set.targetComponent
          simp [Link.next, Link.handleMessage, Link.pmMessageHandler, htarget]

/-- A SET_MODE publishes a command, whomever it is for. -/
theorem next_setMode_published (m : Link) {e : Event} (hmode : e.isSetMode = true) :
    ∃ cmd, (m.next handle e).published = m.published ++ [cmd] := by
  cases e with
  | updateSystem => cases hmode
  | paramChange params => cases hmode
  | message msg loaded =>
      obtain ⟨sysid, compid, payload⟩ := msg
      cases payload with
      | setMode newMode =>
          refine ⟨newMode.toCommand ⟨sysid, compid, .setMode newMode⟩, ?_⟩
          show (if m.cmdPub ≤ 0 then _ else _ : Link).published = _
          split <;> rfl
      | commandLong long => cases hmode
      | paramSet set => cases hmode
      | other target => cases hmode

/-! ### Runs -/

theorem NoForeignSetMode.silent {m : Link} {es : List Event} (h : NoForeignSetMode handle m es) :
    Along (Link.next handle) (fun m e => m.isForeign e = true → m.next handle e = m) m es := by
  refine Along.mono ?_ h
  intro m e hcareful hforeign
  exact next_foreign handle hforeign (hcareful hforeign)

/-- Two runs without such messages that differ in messages for other systems only publish the same
commands. -/
theorem published_eq_of_purge_eq {m : Link} {es fs : List Event}
    (hes : NoForeignSetMode handle m es) (hfs : NoForeignSetMode handle m fs)
    (h : purge (Link.next handle) Link.isForeign m es =
      purge (Link.next handle) Link.isForeign m fs) :
    (es.foldl (Link.next handle) m).published = (fs.foldl (Link.next handle) m).published := by
  rw [foldl_eq_of_purge_eq hes.silent hfs.silent h]

/-- **Messages for other systems are ignored** by a run exactly when none of them is a SET_MODE. -/
theorem foreign_ignored_iff (m : Link) (es : List Event) :
    ForeignIgnored handle m es ↔ NoForeignSetMode handle m es := by
  constructor
  · rintro ⟨hquiet, -⟩
    refine hquiet.mono ?_
    intro m e hpublished hforeign
    refine Bool.eq_false_iff.mpr fun hmode => ?_
    obtain ⟨cmd, hcmd⟩ := next_setMode_published handle m hmode
    rw [hpublished hforeign] at hcmd
    exact absurd hcmd (by simp)
  · intro h
    refine ⟨?_, by rw [foldl_purge h.silent]⟩
    exact h.silent.mono fun _ _ hsilent hforeign => by rw [hsilent hforeign]

end

/-- The app when it starts: as system 100, component 50. -/
def startLink : Link where
  system := { sysid := 100, compid := 50 }
  params := { systemId := 100, componentId := 50 }
  cmdPub := -1
  vcmd :=
    { param1 := .finite 0, param2 := .finite 0, param3 := .finite 0, param4 := .finite 0
      param5 := .finite 0, param6 := .finite 0, param7 := .finite 0
      command := 0, targetSystem := 0, targetComponent := 0
      sourceSystem := 0, sourceComponent := 0, confirmation := 0 }
  threadShouldExit := false
  published := []

/-- A SET_MODE that arms system 1, sent by a ground station. -/
def foreignSetMode : Event :=
  .message
    { sysid := 255
      compid := 0
      payload := .setMode { customMode := 0, targetSystem := 1, baseMode := 0x80 } }
    { systemId := 100, componentId := 50 }

/-- System 100 takes it up. -/
theorem foreign_setMode_published :
    ¬ ∀ handle es, ForeignIgnored handle startLink es := by
  intro hignored
  obtain ⟨⟨hquiet, -⟩, -⟩ := hignored ⟨1, by decide⟩ [foreignSetMode]
  have hpublished := congrArg List.length (hquiet rfl)
  exact absurd hpublished (by decide)

end Px4Firmware.Mavlink
