import Px4Firmware.Lib.Bytes

/-!
# Px4Firmware.HxStream.Basic

The serial framing of `systemlib/hx_stream.c`: `hxStreamSend` wraps a message and
its CRC between two frame boundary octets and escapes every byte in between that
could be mistaken for one; `hxStreamRx` takes one byte at a time and hands a
message to the callback when a frame boundary closes a frame whose CRC matches.

One `HxStream` carries both directions, as `struct hx_stream` does. Two arrays of
the source are lists here:

* `buf` is the part of `buf[]` below `frame_bytes`. The rest of the array is
  stale and never read, so `frame_bytes` is `buf.length`; `fits` says that it stays
  within the array.
* `line` is what happened on the file descriptor: each byte handed to
  `write(fd, &c, 1)`, with whether that call wrote it. Which calls succeed is the
  choice of the environment, `wr`, indexed by the number of earlier calls.

The CRC is computed by a function outside this file and is a parameter, and so is
the byte order of the machine, which fixes how the CRC word overlays its bytes.
-/

namespace Px4Firmware.Hx

open Px4Firmware.Lib

/-- The largest message (`HX_STREAM_MAX_FRAME`). -/
def hxStreamMaxFrame : Nat := 64

/-- Frame Boundary Octet. -/
def fbo : UInt8 := 0x7e

/-- Control Escape Octet. -/
def ceo : UInt8 := 0x7c

/-- `struct hx_stream`, without the descriptor, the callback and its argument. -/
structure HxStream where
  /-- `buf[0 .. frame_bytes)`. -/
  buf : List UInt8
  escaped : Bool
  txerror : Bool
  /-- Counts of the frames received and of the frames found bad. -/
  pcRxFrames : Nat
  pcRxErrors : Nat
  /-- Every byte passed to `write`, with whether it was written. -/
  line : List (UInt8 × Bool)
  fits : buf.length ≤ hxStreamMaxFrame + 4

/-- What the two ends of the line have in common: the CRC function and the byte
order its result is stored in. -/
structure Codec where
  crc32 : List UInt8 → UInt32
  endian : Endian

/-- The bytes of `u.b[0 .. 4)` after `u.w = crc32(data)`. -/
def Codec.crcBytes (k : Codec) (data : List UInt8) : List UInt8 :=
  k.endian.bytes32 (k.crc32 data)

@[simp] theorem Codec.crcBytes_length (k : Codec) (data : List UInt8) :
    (k.crcBytes data).length = 4 := by
  simp [Codec.crcBytes]

namespace HxStream

/-- The state `hx_stream_init` leaves (`memset` to zero). -/
def hxStreamInit : HxStream :=
  { buf := [], escaped := false, txerror := false, pcRxFrames := 0, pcRxErrors := 0,
    line := [], fits := by decide }

/-- The bytes that went out on the line. -/
def written (s : HxStream) : List UInt8 := (s.line.filter (·.2)).map (·.1)

/-! ### The transmitter -/

/-- Write one byte; a failed write is only remembered. -/
def hxTxRaw (wr : Nat → Bool) (s : HxStream) (c : UInt8) : HxStream :=
  { s with
    line := s.line ++ [(c, wr s.line.length)]
    txerror := s.txerror || !wr s.line.length }

/-- Write one payload byte, escaping the two magic octets. -/
def hxTxByte (wr : Nat → Bool) (s : HxStream) (c : UInt8) : HxStream :=
  if c = fbo ∨ c = ceo then hxTxRaw wr (hxTxRaw wr s ceo) (c ^^^ 0x20)
  else hxTxRaw wr s c

/-- Send one message. The result is `-1` on every path. -/
def hxStreamSend (k : Codec) (wr : Nat → Bool) (s : HxStream) (data : List UInt8) :
    Int × HxStream :=
  if data.length > hxStreamMaxFrame then (-1, s)
  else
    let s := hxTxRaw wr s fbo
    let s := data.foldl (hxTxByte wr) s
    let s := (k.crcBytes data).foldl (hxTxByte wr) s
    let s := hxTxRaw wr s fbo
    if s.txerror then (-1, { s with txerror := false }) else (-1, s)

/-- Send a list of messages one after the other. -/
def hxStreamSendAll (k : Codec) (wr : Nat → Bool) (s : HxStream) (ms : List (List UInt8)) :
    HxStream :=
  ms.foldl (fun s m => (hxStreamSend k wr s m).2) s

/-! ### The receiver -/

/-- Reset for the next frame (`frame_bytes = 0`, `escaped = false`). -/
def reset (s : HxStream) : HxStream :=
  { s with buf := [], escaped := false, fits := Nat.zero_le _ }

/-- A frame boundary was received. The second component is the data the callback
is invoked with; the function returns 1 exactly when there is one. -/
def hxRxFrame (k : Codec) (s : HxStream) : HxStream × Option (List UInt8) :=
  let length := s.buf.length
  if length < 4 then
    if length > 1 then ({ reset s with pcRxErrors := s.pcRxErrors + 1 }, none)
    else (reset s, none)
  else if k.crcBytes (s.buf.take (length - 4)) = s.buf.drop (length - 4) then
    ({ reset s with pcRxFrames := s.pcRxFrames + 1 }, some (s.buf.take (length - 4)))
  else ({ reset s with pcRxErrors := s.pcRxErrors + 1 }, none)

/-- Append a byte to the frame; bytes past the end of `buf[]` are dropped. -/
def save (s : HxStream) (c : UInt8) : HxStream :=
  if h : s.buf.length < hxStreamMaxFrame + 4 then
    { s with buf := s.buf ++ [c], fits := by rw [List.length_append]; exact h }
  else s

/-- Handle one received byte. -/
def hxStreamRx (k : Codec) (s : HxStream) (c : UInt8) : HxStream × Option (List UInt8) :=
  if c = fbo then hxRxFrame k s
  else if s.escaped then (save { s with escaped := false } (c ^^^ 0x20), none)
  else if c = ceo then ({ s with escaped := true }, none)
  else (save s c, none)

/-- Feed bytes to the receiver one by one, collecting what the callback is given. -/
def hxStreamRxAll (k : Codec) : HxStream → List UInt8 → HxStream × List (List UInt8)
  | s, [] => (s, [])
  | s, c :: cs =>
      let r := hxStreamRx k s c
      let rest := hxStreamRxAll k r.1 cs
      (rest.1, r.2.toList ++ rest.2)

end HxStream

end Px4Firmware.Hx
