import Px4Firmware.Lib.Bytes

/-!
# Px4Firmware.Px4io.State

The PX4IO module firmware: the state that its parts share (`px4io/px4io.h`), the handler of FMU
command frames (`px4io/comms.c`), the safety button (`px4io/safety.c`) and the mixer
(`px4io/mixer.c`).

The button and the mixer run in timer interrupts, to completion. The frame handler runs in the
main loop and can be interrupted between any two of its statements, so it is given twice:
`commsHandleFrame` is the function, and `frameStatements` are its statements one by one, each with
at most one access to the shared state. `uninterrupted_frame` says that they are the same when
nothing comes in between.

The counters of the source are `unsigned` and never exceed 11; they are natural numbers here. The
received channel values are the list of the first `rc_channels` elements of the array, and the
rest of the array, which is not read, is left out.
-/

namespace Px4Firmware.Px4io

open Px4Firmware.Lib

/-! ### The data -/

/-- `PX4IO_OUTPUT_CHANNELS`. -/
abbrev outputChannels : Nat := 8

/-- `PX4IO_INPUT_CHANNELS`. -/
abbrev inputChannels : Nat := 12

/-- `PX4IO_RELAY_CHANNELS`. -/
abbrev relayChannels : Nat := 2

/-- `ARM_COUNTER_THRESHOLD`. -/
def armCounterThreshold : Nat := 10

/-- `MIXER_INPUT_DROP_LIMIT`. -/
def mixerInputDropLimit : Nat := 10

/-- `FMU_INPUT_DROP_LIMIT`. -/
def fmuInputDropLimit : Nat := 10

/-- `struct px4io_command`, without the magic number, which nothing checks. -/
structure Command where
  servoCommand : Vector UInt16 outputChannels
  relayState : Vector Bool relayChannels
  armOk : Bool

/-- `sizeof(struct px4io_command)`. The structure is packed. -/
def sizeofCommand : Nat := 2 + 2 * outputChannels + relayChannels + 1

/-- The 16-bit value at an offset. -/
def wordAt (buffer : List UInt8) (offset : Nat) : UInt16 :=
  UInt16.ofNat (ofDigits ((buffer.drop offset).take 2))

/-- The bool at an offset. -/
def boolAt (buffer : List UInt8) (offset : Nat) : Bool := buffer.getD offset 0 ≠ 0

/-- The frame as a command, if it has the length of one. -/
def toCommand (buffer : List UInt8) : Option Command :=
  if buffer.length = sizeofCommand then
    some
      { servoCommand := .ofFn fun i => wordAt buffer (2 + 2 * i)
        relayState := .ofFn fun i => boolAt buffer (2 + 2 * outputChannels + i)
        armOk := boolAt buffer (2 + 2 * outputChannels + relayChannels) }
  else
    none

/-- A message of the RC input queue: the channel values, at most as many as `mq_msgsize` has room
for. The one sender of the queue (`drv_ppm_input.c`) sends whole channels. -/
structure RcMessage where
  channels : List UInt16
  fits : channels.length ≤ inputChannels

/-- What leaves the module: the calls of the servo driver and the safety LED. -/
inductive Output
  | servoSet (i : Fin outputChannels) (value : UInt16)
  | servoArm
  | servoDisarm
  | safetyLed (on : Bool)
  deriving DecidableEq

/-- `struct sys_state_s`, the static variables of the three files, the queue and the outputs. -/
structure SysState where
  armed : Bool
  armOk : Bool
  rcChannelData : List UInt16
  fmuChannelData : Vector UInt16 outputChannels
  relays : Vector Bool relayChannels
  mixerUseFmu : Bool
  fmuReportDue : Bool
  fmuDataReceived : Bool
  armCounter : Nat
  safetyLedState : Bool
  mixerInputDrops : Nat
  fmuInputDrops : Nat
  mixerServosArmed : Bool
  mixers : Vector UInt16 outputChannels
  inputQueue : List RcMessage
  output : List Output

/-- The state after a reset. -/
def reset : SysState where
  armed := false
  armOk := false
  rcChannelData := []
  fmuChannelData := .replicate outputChannels 0
  relays := .replicate relayChannels false
  mixerUseFmu := false
  fmuReportDue := false
  fmuDataReceived := false
  armCounter := 0
  safetyLedState := false
  mixerInputDrops := 0
  fmuInputDrops := 0
  mixerServosArmed := false
  mixers := .replicate outputChannels 0
  inputQueue := []
  output := []

namespace SysState

/-- Append to the outputs. -/
def emit (o : Output) (s : SysState) : SysState := { s with output := s.output ++ [o] }

/-- A message is put into the RC input queue. -/
def rcInput (message : RcMessage) (s : SysState) : SysState :=
  { s with inputQueue := s.inputQueue ++ [message] }

end SysState

/-! ### FMU command frames -/

/-- `comms_handle_frame`. -/
def commsHandleFrame (buffer : List UInt8) (s : SysState) : SysState :=
  match toCommand buffer with
  | none => s
  | some cmd =>
      let s := { s with
        fmuChannelData := cmd.servoCommand
        armOk := cmd.armOk
        mixerUseFmu := true
        fmuDataReceived := true }
      let s := if !s.armOk && s.armed then { s with armed := false } else s
      { s with relays := cmd.relayState }

/-- A statement of `comms_handle_frame`. The condition of its `if` is two statements, one for each
access. -/
inductive Statement
  | fetchServo (i : Fin outputChannels)
  | setArmOk
  | setMixerUseFmu
  | setFmuDataReceived
  | testArmOk
  | testArmed
  | disarm
  | setRelay (i : Fin relayChannels)
  deriving DecidableEq

/-- The statements of `comms_handle_frame` for a command. -/
def frameStatements : List Statement :=
  (List.finRange outputChannels).map .fetchServo ++
    [.setArmOk, .setMixerUseFmu, .setFmuDataReceived, .testArmOk] ++
    (List.finRange relayChannels).map .setRelay

/-- Execute one statement: the state, and the statements that it adds before the others. -/
def Statement.exec (cmd : Command) (s : SysState) : Statement → SysState × List Statement
  | fetchServo i =>
      ({ s with fmuChannelData := s.fmuChannelData.set i cmd.servoCommand[i] }, [])
  | setArmOk => ({ s with armOk := cmd.armOk }, [])
  | setMixerUseFmu => ({ s with mixerUseFmu := true }, [])
  | setFmuDataReceived => ({ s with fmuDataReceived := true }, [])
  | testArmOk => (s, if s.armOk then [] else [testArmed])
  | testArmed => (s, if s.armed then [disarm] else [])
  | disarm => ({ s with armed := false }, [])
  | setRelay i => ({ s with relays := s.relays.set i cmd.relayState[i] }, [])

/-! ### The safety button -/

/-- The first part of `safety_check_button`: debounce the button and change the arming if it has
been held for long enough. -/
def debounceButton (pressed : Bool) (s : SysState) : SysState :=
  if pressed && s.armOk then
    if s.armCounter < armCounterThreshold then
      { s with armCounter := s.armCounter + 1 }
    else if s.armCounter = armCounterThreshold then
      { s with armed := !s.armed, armCounter := s.armCounter + 1, fmuReportDue := true }
    else
      s
  else
    { s with armCounter := 0 }

/-- `safety_check_button`, with the level of `BUTTON_SAFETY`. -/
def safetyCheckButton (pressed : Bool) (s : SysState) : SysState :=
  let s := debounceButton pressed s
  let s := { s with safetyLedState := if s.armed then !s.safetyLedState else true }
  s.emit (.safetyLed s.safetyLedState)

/-! ### The mixer -/

/-- `mixer_get_rc_input`. A message without channels has length zero, as if there were none. -/
def mixerGetRcInput (s : SysState) : SysState :=
  let received := (s.inputQueue.head?.map RcMessage.channels).getD []
  let s := { s with inputQueue := s.inputQueue.tail }
  if received ≠ [] then
    { s with rcChannelData := received, mixerInputDrops := 0, fmuReportDue := true }
  else if s.mixerInputDrops < mixerInputDropLimit then
    let s := { s with mixerInputDrops := s.mixerInputDrops + 1 }
    if s.mixerInputDrops = mixerInputDropLimit then
      { s with rcChannelData := [], fmuReportDue := true }
    else
      s
  else
    s

/-- The control values that a tick uses. -/
inductive ControlInput
  | fmu (values : Vector UInt16 outputChannels)
  | rc (values : List UInt16)
  | none
  deriving DecidableEq

/-- `control_values`, as many as `control_count`. -/
def ControlInput.values : ControlInput → List UInt16
  | fmu values => values.toList
  | rc values => values
  | none => []

/-- The second part of `mixer_tick`: decide which set of inputs is used. -/
def selectInput (s : SysState) : ControlInput × SysState :=
  if s.mixerUseFmu then
    if !s.fmuDataReceived then
      let s := { s with fmuInputDrops := s.fmuInputDrops + 1 }
      if fmuInputDropLimit ≤ s.fmuInputDrops then
        (.fmu s.fmuChannelData, { s with mixerUseFmu := false })
      else
        (.fmu s.fmuChannelData, s)
    else
      (.fmu s.fmuChannelData, { s with fmuInputDrops := 0, fmuDataReceived := false })
  else if 0 < s.rcChannelData.length then
    (.rc s.rcChannelData, s)
  else
    (.none, s)

/-- `mixer_update`. -/
def mixerUpdate (mixer : Fin outputChannels) (inputs : List UInt16) (s : SysState) : SysState :=
  if h : (mixer : Nat) < inputs.length then
    { s with mixers := s.mixers.set mixer inputs[mixer.val] }
  else
    { s with mixers := s.mixers.set mixer 0 }

/-- The third part of `mixer_tick`: a round of its loop. -/
def tickleMixer (inputs : List UInt16) (s : SysState) (i : Fin outputChannels) : SysState :=
  let s := mixerUpdate i inputs s
  if s.armed then s.emit (.servoSet i s.mixers[i]) else s

/-- The last part of `mixer_tick`: decide whether the servos are armed. -/
def armServos (controlled : Bool) (s : SysState) : SysState :=
  let shouldArm := s.armed && controlled
  if shouldArm && !s.mixerServosArmed then
    { s.emit .servoArm with mixerServosArmed := true }
  else if !shouldArm && s.mixerServosArmed then
    { s.emit .servoDisarm with mixerServosArmed := false }
  else
    s

/-- `mixer_tick`: the control input that is used, and the state. -/
def mixerTick (s : SysState) : ControlInput × SysState :=
  let s := mixerGetRcInput s
  let (input, s) := selectInput s
  let controlled := 0 < input.values.length
  let s :=
    if controlled then (List.finRange outputChannels).foldl (tickleMixer input.values) s else s
  (input, armServos controlled s)

end Px4Firmware.Px4io
