import Px4Firmware.Lib.Transition
import Px4Firmware.Px4io.State

/-!
# Px4Firmware.Px4io.Driver

The driver for the IO board on the FMU (`px4io/driver/px4io.cpp`): the command that it keeps, the
requests that change it, the task that sends it, and the link to the IO board.

The command lives in the memory of the driver object, of which the constructor sets the magic number
only. What `_rc` does with the channels of a report is left out.
-/

namespace Px4Firmware.Px4io

open Px4Firmware.Lib

/-- `struct px4io_command` in memory: its bools are bytes. -/
structure NextCommand where
  f2iMagic : UInt16
  servoCommand : Vector UInt16 outputChannels
  relayState : Vector UInt8 relayChannels
  armOk : UInt8

/-- `F2I_MAGIC`. -/
def f2iMagic : UInt16 := 0x636d

/-- A 16-bit value in memory. -/
def wordBytes (w : UInt16) : List UInt8 := digits 2 w.toNat

/-- The bytes of the command. -/
def NextCommand.bytes (c : NextCommand) : List UInt8 :=
  wordBytes c.f2iMagic ++ (c.servoCommand.toList.flatMap wordBytes ++
    (c.relayState.toList ++ [c.armOk]))

/-- `sizeof(struct px4io_report)`. -/
def sizeofReport : Nat := 2 + 2 * inputChannels + 1 + 1

/-- `class PX4IO`. `updating` tells that the task is past `poll` in its loop. -/
structure Driver where
  nextCommand : NextCommand
  rcChannelCount : Nat
  armed : Bool
  sendNeeded : Bool
  updating : Bool

/-- `PX4IO::PX4IO`, in memory with these contents. -/
def Driver.new (memory : NextCommand) : Driver where
  nextCommand := { memory with f2iMagic := f2iMagic }
  rcChannelCount := 0
  armed := false
  sendNeeded := false
  updating := false

/-- The errors of the driver. -/
inductive Px4ioError
  | eio
  | erange
  | enotty

/-- The commands of `ioctl`. -/
inductive Ioctl
  | arm
  | disarm
  | set (channel : Nat) (arg : UInt32)
  | get (channel : Nat)
  | other

/-- What a poll of the serial port ends with: the frames that are complete when the bytes that are
there have been received. -/
inductive PollResult
  | error
  | timeout
  | received (frames : List (List UInt8))

namespace Driver

/-- `PX4IO::write`. -/
def write (buffer : List UInt8) (d : Driver) : Except Px4ioError Nat × Driver :=
  let channels := buffer.length / 2
  if outputChannels < channels then (.error .eio, d)
  else
    let servoCommand := .ofFn fun i =>
      if i < channels then wordAt buffer (2 * i) else d.nextCommand.servoCommand.get i
    (.ok (channels * 2),
      { d with nextCommand := { d.nextCommand with servoCommand := servoCommand } })

/-- `PX4IO::ioctl`. The value of a channel is truncated to 16 bits. -/
def ioctl (d : Driver) : Ioctl → Except Px4ioError Unit × Driver
  | .arm => (.ok (), { d with nextCommand := { d.nextCommand with armOk := 1 } })
  | .disarm => (.ok (), { d with nextCommand := { d.nextCommand with armOk := 0 } })
  | .set channel arg =>
      if channel < outputChannels then
        let servoCommand := d.nextCommand.servoCommand.setIfInBounds channel arg.toUInt16
        (.ok (), { d with nextCommand := { d.nextCommand with servoCommand := servoCommand } })
      else (.error .enotty, d)
  | .get channel =>
      if channel < inputChannels then
        if d.rcChannelCount ≤ channel then (.error .erange, d) else (.ok (), d)
      else (.error .enotty, d)
  | .other => (.error .enotty, d)

/-- `PX4IO::rx_callback`. -/
def rxCallback (d : Driver) (buffer : List UInt8) : Driver :=
  if buffer.length ≠ sizeofReport then d
  else { d with armed := boolAt buffer (2 + 2 * inputChannels), sendNeeded := true }

/-- `PX4IO::task_main`, from `poll` to the update. -/
def poll (result : PollResult) (d : Driver) : Driver :=
  match result with
  | .error => d
  | .timeout => { d with sendNeeded := true, updating := true }
  | .received frames => { frames.foldl rxCallback d with updating := true }

/-- `PX4IO::task_main`, the update: the frame that `io_send` sends. -/
def update (d : Driver) : Option (List UInt8) × Driver :=
  if d.sendNeeded then
    (some d.nextCommand.bytes, { d with sendNeeded := false, updating := false })
  else (none, { d with updating := false })

end Driver

/-! ### The driver and the IO board -/

/-- The driver, the frames under way, and the IO board. -/
structure Boards where
  driver : Driver
  link : List (List UInt8)
  io : SysState

/-- What happens next: a request, a part of the loop of the driver's task, the handling of a frame
on the IO board, or something else there. -/
inductive Boards.Event
  | write (buffer : List UInt8)
  | ioctl (command : Ioctl)
  | poll (result : PollResult)
  | update
  | handle
  | button (pressed : Bool)
  | rcInput (message : RcMessage)
  | mixer

/-- The next state. -/
def Boards.next (b : Boards) : Event → Option Boards
  | .write buffer => some { b with driver := (b.driver.write buffer).2 }
  | .ioctl command => some { b with driver := (b.driver.ioctl command).2 }
  | .poll result =>
      if b.driver.updating then none else some { b with driver := b.driver.poll result }
  | .update =>
      if b.driver.updating then
        let (frame, driver) := b.driver.update
        some { b with driver := driver, link := b.link ++ frame.toList }
      else none
  | .handle =>
      match b.link with
      | [] => none
      | frame :: link => some { b with link := link, io := commsHandleFrame frame b.io }
  | .button pressed => some { b with io := safetyCheckButton pressed b.io }
  | .rcInput message => some { b with io := b.io.rcInput message }
  | .mixer => some { b with io := (mixerTick b.io).2 }

/-- The two boards after their start, with the driver in this memory. -/
def Boards.start (memory : NextCommand) : Boards where
  driver := .new memory
  link := []
  io := reset

/-- The two boards as a transition system. -/
def boards (memory : NextCommand) : LTS Boards Boards.Event where
  init b := b = .start memory
  step b e b' := b.next e = some b'

end Px4Firmware.Px4io
