import Px4Firmware.Lib.Hoare

/-!
# Px4Firmware.Uploader.Protocol

The firmware uploader of the PX4IO driver (`px4io/driver/uploader.cpp`): the conversation with the
bootloader of the IO board over a serial port.

What the board answers is a list of what the polls of the port give, a byte or a timeout; when the
list has come to its end, every poll times out. Everything that passes over the port is appended to
`Px4ioUploader.log` in order. The results of the writes to the port are not looked at by the source,
and a write is taken to go through.

A function of the source returns `OK` or an error code. Here it ends normally or throws the code,
which is not zero. An assertion that fails does not return at all.
-/

namespace Px4Firmware.Uploader

/-- A value of `errno` after a failure. -/
abbrev Errno := { n : Nat // 0 < n }

/-- What a function returns instead of `OK`, which is zero. -/
abbrev ErrorCode := { ret : Int // ret ≠ 0 }

/-- `-errno`. -/
def Errno.neg (errno : Errno) : ErrorCode :=
  ⟨-(errno.val : Int), Int.neg_ne_zero.mpr (Int.natCast_ne_zero.mpr (Nat.ne_of_gt errno.property))⟩

/-- `-ENOENT`. -/
def enoent : ErrorCode := ⟨-2, by decide⟩

/-- `-EIO`. -/
def eio : ErrorCode := ⟨-5, by decide⟩

/-- `-EINVAL`. -/
def einval : ErrorCode := ⟨-22, by decide⟩

/-- `-ETIMEDOUT`. -/
def etimedout : ErrorCode := ⟨-110, by decide⟩

/-- Why a function does not end normally. `fuel` is no behaviour of the source: the loops over the
firmware file are given more fuel than they need. -/
inductive Stop
  | failed (ret : ErrorCode)
  | assertion
  | fuel
deriving DecidableEq

/-- What passes over the port: a byte that is sent, a byte that is received, a poll that times
out. -/
inductive Io
  | tx (c : UInt8)
  | rx (c : UInt8)
  | timeout
deriving DecidableEq

/-- What a `read` of the firmware file does: it gives at least one byte and at most one more than
`more`, as long as there are any, or it fails. -/
inductive Read
  | gives (more : Nat)
  | fails (errno : Errno)

/-- The surroundings: whether the port can be opened, the files that can, and the reads of a file,
in order. -/
structure Env where
  openPort : Option Errno
  file : String → Option (List UInt8)
  read : Nat → Read

/-- The uploader with its two files: the port, and the firmware with what is left of it from the
position on. -/
structure Px4ioUploader where
  input : List (Option UInt8)
  log : List Io
  firmware : List UInt8
  rest : List UInt8
  reads : Nat

/-- A function of the uploader. -/
abbrev Exec := EStateM Stop Px4ioUploader

/-- Return an error code. -/
def fail {α : Type} (ret : ErrorCode) : Exec α := throw (.failed ret)

/-- `ASSERT`. -/
def assert (c : Prop) [Decidable c] : Exec Unit := do
  if ¬ c then
    throw .assertion

/-! ### The protocol -/

/-- `PROTO_OK`. -/
def protoOk : UInt8 := 0x10

/-- `PROTO_INSYNC`. -/
def protoInsync : UInt8 := 0x12

/-- `PROTO_EOC`. -/
def protoEoc : UInt8 := 0x20

/-- `PROTO_GET_SYNC`. -/
def protoGetSync : UInt8 := 0x21

/-- `PROTO_CHIP_ERASE`. -/
def protoChipErase : UInt8 := 0x23

/-- `PROTO_CHIP_VERIFY`. -/
def protoChipVerify : UInt8 := 0x24

/-- `PROTO_PROG_MULTI`. -/
def protoProgMulti : UInt8 := 0x27

/-- `PROTO_READ_MULTI`. -/
def protoReadMulti : UInt8 := 0x28

/-- `PROTO_REBOOT`. -/
def protoReboot : UInt8 := 0x30

/-- `PROG_MULTI_MAX`. -/
def progMultiMax : Nat := 60

/-! ### The port -/

/-- `recv`, for one byte. -/
def recv : Exec UInt8 := do
  match (← get).input with
  | some c :: input =>
      modify fun s => { s with input := input, log := s.log ++ [.rx c] }
      return c
  | none :: input =>
      modify fun s => { s with input := input, log := s.log ++ [.timeout] }
      fail etimedout
  | [] =>
      modify fun s => { s with log := s.log ++ [.timeout] }
      fail etimedout

/-- The loop of `drain`: what is received until a poll times out, and what comes after it. -/
def drainLoop : List (Option UInt8) → List UInt8 × List (Option UInt8)
  | some c :: input =>
      let (discarded, input) := drainLoop input
      (c :: discarded, input)
  | none :: input => ([], input)
  | [] => ([], [])

/-- `drain`. -/
def drain : Exec Unit :=
  modify fun s =>
    let (discarded, input) := drainLoop s.input
    { s with input := input, log := s.log ++ (discarded.map .rx ++ [.timeout]) }

/-- `send`, for one byte. -/
def send (c : UInt8) : Exec Unit := modify fun s => { s with log := s.log ++ [.tx c] }

/-- `send`, for a buffer. -/
def sendBytes (p : List UInt8) : Exec Unit := p.forM send

/-- `get_sync`. -/
def getSync : Exec Unit := do
  let c₀ ← recv
  let c₁ ← recv
  if c₀ ≠ protoInsync ∨ c₁ ≠ protoOk then
    fail eio

/-- `sync`. The zeros complete a program operation that may be pending. -/
def sync : Exec Unit := do
  drain
  sendBytes (List.replicate (progMultiMax + 6) 0)
  send protoGetSync
  send protoEoc
  getSync

/-- `erase`. -/
def erase : Exec Unit := do
  send protoChipErase
  send protoEoc
  getSync

/-- `reboot`. -/
def reboot : Exec Unit := do
  send protoReboot
  send protoEoc

/-! ### The firmware file -/

/-- `lseek(_fw_fd, 0, SEEK_SET)`. -/
def rewind : Exec Unit := modify fun s => { s with rest := s.firmware }

/-- How many bytes a `read` into the buffer gives at most. -/
def readSize (more : Nat) : Nat := min (more + 1) progMultiMax

section

variable (env : Env)

/-- `read(_fw_fd, file_buf, sizeof(file_buf))`: the bytes that are read. At the end of the file
there are none. -/
def readFirmware : Exec (List UInt8) := do
  let s ← get
  set { s with reads := s.reads + 1 }
  match env.read s.reads with
  | .gives more =>
      let count := readSize more
      modify fun s => { s with rest := s.rest.drop count }
      return s.rest.take count
  | .fails errno => fail errno.neg

/-- The loop of `program` and of `verify`: the file is read to its end, and every chunk is dealt
with. -/
def forChunks (body : List UInt8 → Exec Unit) : Nat → Exec Unit
  | 0 => throw .fuel
  | fuel + 1 => do
      let fileBuf ← readFirmware env
      if fileBuf ≠ [] then
        assert (fileBuf.length % 4 = 0)
        body fileBuf
        forChunks body fuel

/-- A chunk of `program`. -/
def programChunk (fileBuf : List UInt8) : Exec Unit := do
  send protoProgMulti
  send (UInt8.ofNat fileBuf.length)
  sendBytes fileBuf
  send protoEoc
  getSync

/-- `program`. -/
def program : Exec Unit := do
  rewind
  forChunks env programChunk ((← get).firmware.length + 1)

/-- The comparison in `verify` of what the board sends with what was read from the file. -/
def compareBytes : List UInt8 → Exec Unit
  | [] => pure ()
  | b :: fileBuf => do
      let c ← recv
      if c ≠ b then
        fail einval
      else
        compareBytes fileBuf

/-- A chunk of `verify`. -/
def verifyChunk (fileBuf : List UInt8) : Exec Unit := do
  send protoReadMulti
  send (UInt8.ofNat fileBuf.length)
  send protoEoc
  compareBytes fileBuf
  getSync

/-- `verify`. -/
def verify : Exec Unit := do
  rewind
  send protoChipVerify
  send protoEoc
  getSync
  forChunks env verifyChunk ((← get).firmware.length + 1)

/-- Open the port. -/
def openPort : Exec Unit :=
  match env.openPort with
  | none => pure ()
  | some errno => fail errno.neg

/-- Open the first of the files that can be opened. -/
def openFirmware (filenames : List String) : Exec Unit :=
  match filenames.findSome? env.file with
  | none => fail enoent
  | some firmware => modify fun s => { s with firmware := firmware, rest := firmware }

/-- Look for the bootloader. -/
def findBootloader : Exec Unit :=
  tryCatch sync fun
    | .failed _ => fail eio
    | stop => throw stop

/-- `upload`. The loop over the retries runs once, so an error in it is the result. -/
def upload (filenames : List String) : Exec Unit := do
  openPort env
  findBootloader
  openFirmware env filenames
  erase
  program env
  verify env
  reboot

/-- What a run of `upload` returns, if it returns. -/
def returned {α : Type} : EStateM.Result Stop Px4ioUploader α → Option Int
  | .ok _ _ => some 0
  | .error (.failed ret) _ => some ret.val
  | .error _ _ => none

end

end Px4Firmware.Uploader
