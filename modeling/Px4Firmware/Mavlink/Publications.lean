import Px4Firmware.Mavlink.Addressing
import Px4Firmware.Uorb.Node

/-!
# Px4Firmware.Mavlink.Publications

**One publication for each command.** `orb_advertise` publishes the data it is given, so that the
first command needs no `orb_publish`. The branch for SET_MODE has an `else` there; the one for
COMMAND_LONG has not, and publishes again what it has advertised the topic with.

Publications are observed where they arrive: each is a generation of the node of the topic, with its
data. `published_once_iff` says for which runs from the start of the app these are the commands
taken up, each once and in their order: those that take up no command before a SET_MODE.
-/

namespace Px4Firmware.Mavlink

open Px4Firmware.Commander Px4Firmware.Uorb

/-! ### The node of the topic -/

/-- What writing to the topic depends on: a thread that writes, memory for the data of the node, and
`struct vehicle_command_s` as bytes. -/
structure Topic where
  ctx : Ctx
  metadata : OrbMetadata
  layout : VehicleCommand → TopicData metadata
  thread : ctx.interruptContext = false
  memory : ctx.alloc .data = true

namespace Topic

/-- The generations of a node, with their data, when these commands are published one after the
other. -/
def generations (topic : Topic) : OrbDevNode → List VehicleCommand →
    List (UInt32 × Option (List UInt8))
  | _, [] => []
  | node, cmd :: cmds =>
      let node := (node.write topic.ctx (topic.layout cmd).val).2
      (node.generation, node.data) :: topic.generations node cmds

/-- Commands that are published once each: one generation after the other has their data. -/
def numbered (topic : Topic) : UInt32 → List VehicleCommand → List (UInt32 × Option (List UInt8))
  | _, [] => []
  | generation, cmd :: cmds =>
      (generation + 1, some (topic.layout cmd).val) :: topic.numbered (generation + 1) cmds

theorem allocate_data (topic : Topic) (node : OrbDevNode) :
    (node.allocate topic.ctx).data ≠ none := by
  unfold OrbDevNode.allocate
  cases hdata : node.data with
  | some data => simp [hdata]
  | none => simp [topic.thread, topic.memory]

/-- A publication is a new generation with the data. -/
theorem write_new (topic : Topic) {node : OrbDevNode} (hnode : node.metadata = topic.metadata)
    (cmd : VehicleCommand) :
    (node.write topic.ctx (topic.layout cmd).val).2.metadata = topic.metadata ∧
      (node.write topic.ctx (topic.layout cmd).val).2.data = some (topic.layout cmd).val ∧
      (node.write topic.ctx (topic.layout cmd).val).2.generation = node.generation + 1 := by
  have hsame := OrbDevNode.allocate_same topic.ctx node
  have hsize : (node.allocate topic.ctx).metadata.oSize = (topic.layout cmd).val.length := by
    rw [hsame.metadata, hnode, (topic.layout cmd).property]
  unfold OrbDevNode.write
  rw [if_neg (topic.allocate_data node), if_neg (not_not_intro hsize)]
  exact ⟨hsame.metadata.trans hnode, rfl, congrArg (· + 1) hsame.generation⟩

theorem generations_eq (topic : Topic) {node : OrbDevNode}
    (hnode : node.metadata = topic.metadata) (cmds : List VehicleCommand) :
    topic.generations node cmds = topic.numbered node.generation cmds := by
  induction cmds generalizing node with
  | nil => rfl
  | cons cmd cmds ih =>
      obtain ⟨hmetadata, hdata, hgeneration⟩ := topic.write_new hnode cmd
      simp only [generations, numbered]
      rw [ih hmetadata, hdata, hgeneration]

@[simp] theorem length_numbered (topic : Topic) (generation : UInt32)
    (cmds : List VehicleCommand) : (topic.numbered generation cmds).length = cmds.length := by
  induction cmds generalizing generation with
  | nil => rfl
  | cons cmd cmds ih => simp [numbered, ih]

end Topic

/-! ### The commands of a run -/

/-- The command that a message is taken up as: that of a SET_MODE, and that of a COMMAND_LONG for
this vehicle unless it shuts down the link. -/
def Link.command (m : Link) : Event → Option VehicleCommand
  | .message msg _ =>
      match msg.payload with
      | .commandLong long =>
          if m.system.isTarget long.targetSystem long.targetComponent ∧
              ¬ (long.command = mavCmdPreflightRebootShutdown ∧ long.param1.toInt = 3) then
            some (long.toCommand msg)
          else
            none
      | .setMode newMode => some (newMode.toCommand msg)
      | _ => none
  | _ => none

section

variable (handle : Handle)

/-- The commands that a run takes up. -/
def Link.commands : Link → List Event → List VehicleCommand
  | _, [] => []
  | m, e :: es => (m.command e).toList ++ (m.next handle e).commands es

/-- The law for a run from the start of the app: the generations of a new node are the commands
taken up, each once and in their order. -/
def PublishedOnce (topic : Topic) (m : Link) (es : List Event) : Prop :=
  topic.generations (.new topic.metadata) (es.foldl (Link.next handle) m).published =
    topic.numbered 0 (m.commands handle es)

/-- The condition: the first command that is taken up, if any, is that of a SET_MODE. -/
def Link.SetModeFirst : Link → List Event → Prop
  | _, [] => True
  | m, e :: es =>
      match m.command e with
      | some _ => e.isSetMode = true
      | none => (m.next handle e).SetModeFirst es

/-! ### One event -/

theorem pmMessageHandler_quiet (m : Link) (msg : Message) (loaded : MavlinkParams) :
    (m.pmMessageHandler msg loaded).published = m.published ∧
      (m.pmMessageHandler msg loaded).cmdPub = m.cmdPub := by
  unfold Link.pmMessageHandler
  repeat' split
  all_goals exact ⟨rfl, rfl⟩

/-- An event that no command comes from publishes none. -/
theorem next_of_command_none {m : Link} {e : Event} (h : m.command e = none) :
    (m.next handle e).published = m.published ∧ (m.next handle e).cmdPub = m.cmdPub := by
  cases e with
  | updateSystem => exact ⟨rfl, rfl⟩
  | paramChange params => exact ⟨rfl, rfl⟩
  | message msg loaded =>
      obtain ⟨hpublished, hpub⟩ := pmMessageHandler_quiet (m.handleMessage handle msg) msg loaded
      rw [Link.next, hpublished, hpub]
      obtain ⟨sysid, compid, payload⟩ := msg
      cases payload with
      | other target => exact ⟨rfl, rfl⟩
      | setMode newMode => cases h
      | paramSet set => exact ⟨rfl, rfl⟩
      | commandLong long =>
          have hnone : m.system.isTarget long.targetSystem long.targetComponent = true →
              long.command = mavCmdPreflightRebootShutdown ∧ long.param1.toInt = 3 := by
            simpa [Link.command] using h
          simp only [Link.handleMessage, Link.commandLong]
          by_cases htarget : m.system.isTarget long.targetSystem long.targetComponent = true
          · rw [if_pos htarget, if_pos (hnone htarget)]
            exact ⟨rfl, rfl⟩
          · rw [if_neg htarget]
            exact ⟨rfl, rfl⟩

/-- The command of a SET_MODE is published once, and the topic is advertised then. -/
theorem setMode_publishes (m : Link) (msg : Message) (newMode : SetMode) :
    (m.setMode handle msg newMode).published = m.published ++ [newMode.toCommand msg] ∧
      0 < (m.setMode handle msg newMode).cmdPub := by
  simp only [Link.setMode]
  by_cases hadvertised : m.cmdPub ≤ 0
  · rw [if_pos hadvertised]
    exact ⟨rfl, handle.property⟩
  · rw [if_neg hadvertised]
    exact ⟨rfl, Int.not_le.mp hadvertised⟩

/-- That of a COMMAND_LONG is published twice when the topic is not advertised yet. -/
theorem commandLong_publishes {m : Link} (msg : Message) {long : CommandLong}
    (htarget : m.system.isTarget long.targetSystem long.targetComponent = true)
    (hlink : ¬ (long.command = mavCmdPreflightRebootShutdown ∧ long.param1.toInt = 3)) :
    (m.commandLong handle msg long).published = m.published ++
        (if m.cmdPub ≤ 0 then [long.toCommand msg, long.toCommand msg]
        else [long.toCommand msg]) ∧
      0 < (m.commandLong handle msg long).cmdPub := by
  simp only [Link.commandLong, if_pos htarget, if_neg hlink]
  by_cases hadvertised : m.cmdPub ≤ 0
  · rw [if_pos hadvertised, if_pos hadvertised]
    exact ⟨by simp [Link.orbPublish, Link.orbAdvertise], handle.property⟩
  · rw [if_neg hadvertised, if_neg hadvertised]
    exact ⟨rfl, Int.not_le.mp hadvertised⟩

/-- A command is published once, or twice if it is the first one and that of a COMMAND_LONG. In any
case the topic is advertised then. -/
theorem next_of_command_some {m : Link} {e : Event} {cmd : VehicleCommand}
    (h : m.command e = some cmd) :
    (m.next handle e).published = m.published ++
        (if m.cmdPub ≤ 0 ∧ e.isSetMode = false then [cmd, cmd] else [cmd]) ∧
      0 < (m.next handle e).cmdPub := by
  cases e with
  | updateSystem => cases h
  | paramChange params => cases h
  | message msg loaded =>
      obtain ⟨hpublished, hpub⟩ := pmMessageHandler_quiet (m.handleMessage handle msg) msg loaded
      rw [Link.next, hpublished, hpub]
      obtain ⟨sysid, compid, payload⟩ := msg
      cases payload with
      | other target => cases h
      | paramSet set => cases h
      | setMode newMode =>
          obtain rfl : newMode.toCommand _ = cmd := Option.some.inj h
          simp only [Event.isSetMode, Bool.true_eq_false, and_false, if_false]
          exact setMode_publishes handle m _ newMode
      | commandLong long =>
          simp only [Link.command, Option.ite_none_right_eq_some, Option.some.injEq] at h
          obtain ⟨⟨htarget, hlink⟩, rfl⟩ := h
          simp only [Event.isSetMode, and_true]
          exact commandLong_publishes handle _ htarget hlink

/-! ### Runs -/

/-- With the topic advertised, a run publishes each command once. -/
theorem published_of_advertised {m : Link} (h : 0 < m.cmdPub) (es : List Event) :
    (es.foldl (Link.next handle) m).published = m.published ++ m.commands handle es := by
  induction es generalizing m with
  | nil => simp [Link.commands]
  | cons e es ih =>
      rw [List.foldl_cons, Link.commands]
      cases hcommand : m.command e with
      | none =>
          obtain ⟨hpublished, hpub⟩ := next_of_command_none handle hcommand
          rw [ih (hpub ▸ h), hpublished]
          rfl
      | some cmd =>
          obtain ⟨hpublished, hpub⟩ := next_of_command_some handle hcommand
          have hnot : ¬ m.cmdPub ≤ 0 := Int.not_le.mpr h
          rw [if_neg fun hadvertised => hnot hadvertised.1] at hpublished
          rw [ih hpub, hpublished, List.append_assoc]
          rfl

/-- Before the topic is advertised, it does so if a SET_MODE advertises it. -/
theorem published_of_setModeFirst {m : Link} (h : m.cmdPub ≤ 0) {es : List Event}
    (hfirst : m.SetModeFirst handle es) :
    (es.foldl (Link.next handle) m).published = m.published ++ m.commands handle es := by
  induction es generalizing m with
  | nil => simp [Link.commands]
  | cons e es ih =>
      rw [List.foldl_cons, Link.commands]
      rw [Link.SetModeFirst] at hfirst
      cases hcommand : m.command e with
      | none =>
          obtain ⟨hpublished, hpub⟩ := next_of_command_none handle hcommand
          simp only [hcommand] at hfirst
          rw [ih (hpub ▸ h) hfirst, hpublished]
          rfl
      | some cmd =>
          obtain ⟨hpublished, hpub⟩ := next_of_command_some handle hcommand
          simp only [hcommand] at hfirst
          rw [published_of_advertised handle hpub, hpublished]
          simp [hfirst]

/-- Otherwise there is one publication too many. -/
theorem length_of_not_setModeFirst {m : Link} (h : m.cmdPub ≤ 0) {es : List Event}
    (hfirst : ¬ m.SetModeFirst handle es) :
    (es.foldl (Link.next handle) m).published.length =
      m.published.length + (m.commands handle es).length + 1 := by
  induction es generalizing m with
  | nil => exact absurd trivial hfirst
  | cons e es ih =>
      rw [List.foldl_cons, Link.commands]
      rw [Link.SetModeFirst] at hfirst
      cases hcommand : m.command e with
      | none =>
          obtain ⟨hpublished, hpub⟩ := next_of_command_none handle hcommand
          simp only [hcommand] at hfirst
          rw [ih (hpub ▸ h) hfirst, hpublished]
          rfl
      | some cmd =>
          obtain ⟨hpublished, hpub⟩ := next_of_command_some handle hcommand
          simp only [hcommand, Bool.not_eq_true] at hfirst
          rw [published_of_advertised handle hpub, hpublished]
          simp only [h, hfirst, and_self, if_true, List.length_append, List.length_cons,
            List.length_nil, Option.toList_some]
          omega

/-- **Each command is published once** in a run from the start exactly when the first one taken up
is that of a SET_MODE, or there is none. -/
theorem published_once_iff (topic : Topic) (es : List Event) :
    PublishedOnce handle topic startLink es ↔ startLink.SetModeFirst handle es := by
  have hstart : startLink.cmdPub ≤ 0 := by decide
  rw [PublishedOnce, topic.generations_eq rfl]
  constructor
  · intro hsame
    by_contra hfirst
    have hlength := congrArg List.length hsame
    rw [topic.length_numbered, topic.length_numbered,
      length_of_not_setModeFirst handle hstart hfirst] at hlength
    simp [startLink] at hlength
  · intro hfirst
    rw [published_of_setModeFirst handle hstart hfirst]
    rfl

end

/-- A ground station asks for a gyro calibration. -/
def firstCommandLong : Event :=
  .message
    { sysid := 255
      compid := 0
      payload := .commandLong
        { param1 := .ofNat 1, param2 := .ofNat 0, param3 := .ofNat 0, param4 := .ofNat 0
          param5 := .ofNat 0, param6 := .ofNat 0, param7 := .ofNat 0
          command := 241, targetSystem := 100, targetComponent := 50, confirmation := 0 } }
    { systemId := 100, componentId := 50 }

/-- The topic, with one byte of each structure. -/
def commandTopic : Topic where
  ctx :=
    { pid := 1
      interruptContext := false
      now := 0
      alloc _ := true
      fresh _ := 0 }
  metadata := { oName := "vehicle_command", oSize := 1 }
  layout cmd := ⟨[cmd.command.toUInt8], rfl⟩
  thread := rfl
  memory := rfl

/-- It is published twice. -/
theorem first_commandLong_published_twice :
    ¬ ∀ handle topic es, PublishedOnce handle topic startLink es := by
  intro honce
  have hsame := congrArg List.length (honce ⟨1, by decide⟩ commandTopic [firstCommandLong])
  exact absurd hsame (by decide)

end Px4Firmware.Mavlink
