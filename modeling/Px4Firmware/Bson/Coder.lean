import Px4Firmware.Lib.Bytes
import Px4Firmware.Lib.Hoare

/-!
# Px4Firmware.Bson.Coder

The BSON encoder and decoder of `systemlib/bson/tinybson.c`.

A decoder reads a file, of which the bytes that are left are kept; a read that cannot be complete
fails. An encoder writes a file, of which the bytes that are there are kept; whether a write is
complete is up to the file. `CODER_KILL` sets the file descriptor to -1, which is `none` in a
decoder and `false` in an encoder, and `CODER_CHECK` fails from then on.
-/

namespace Px4Firmware.Bson

open Px4Firmware.Lib

/-! ### Nodes -/

/-- `BSON_EOO`. -/
def bsonEoo : UInt8 := 0

/-- `BSON_DOUBLE`. -/
def bsonDouble : UInt8 := 1

/-- `BSON_STRING`. -/
def bsonString : UInt8 := 2

/-- `BSON_BINDATA`. -/
def bsonBindata : UInt8 := 5

/-- `BSON_UNDEFINED`. -/
def bsonUndefined : UInt8 := 6

/-- `BSON_INT`. -/
def bsonInt : UInt8 := 16

/-- `BSON_BIN_BINARY`. -/
def bsonBinBinary : UInt8 := 0

/-- `BSON_MAXNAME`. -/
def bsonMaxname : Nat := 32

/-- `struct bson_node_s`. The type is the byte that was read. -/
structure Node where
  name : List UInt8
  type : UInt8
  subtype : UInt8
  i : UInt32
  d : UInt64
deriving DecidableEq

/-! ### Reading -/

section

variable (e : Endian)

/-- `read` of so many bytes, if there are as many. -/
def readBytes (n : Nat) (stream : List UInt8) : Option (List UInt8 × List UInt8) :=
  if n ≤ stream.length then some (stream.take n, stream.drop n) else none

/-- `read_int8`. -/
def readInt8 : List UInt8 → Option (UInt8 × List UInt8)
  | [] => none
  | b :: stream => some (b, stream)

/-- `read_int32`. -/
def readInt32 (stream : List UInt8) : Option (UInt32 × List UInt8) :=
  (readBytes 4 stream).map fun r => (e.word32 r.1, r.2)

/-- `read_double`. -/
def readDouble (stream : List UInt8) : Option (UInt64 × List UInt8) :=
  (readBytes 8 stream).map fun r => (e.word64 r.1, r.2)

/-- The loop of `bson_decoder_next` that reads a name, with room for so many bytes. -/
def readName : Nat → List UInt8 → Option (List UInt8 × List UInt8)
  | 0, _ => none
  | room + 1, stream => do
      let (b, stream) ← readInt8 stream
      if b = 0 then
        return ([], stream)
      else
        let (name, stream) ← readName room stream
        return (b :: name, stream)

/-! ### The decoder -/

/-- `struct bson_decoder_s`, without the callback and its data. -/
structure Decoder where
  fd : Option (List UInt8)
  nesting : Nat
  node : Node
  pending : UInt32

/-- `CODER_KILL`. -/
def Decoder.kill (decoder : Decoder) : Decoder := { decoder with fd := none }

/-- A new decoder. -/
def Decoder.new (stream : List UInt8) : Decoder where
  fd := some stream
  nesting := 1
  node := { name := [], type := bsonUndefined, subtype := 0, i := 0, d := 0 }
  pending := 0

/-- `bson_decoder_init`: the document size is read and discarded. -/
def bsonDecoderInit (stream : List UInt8) : Int × Decoder :=
  let decoder := Decoder.new stream
  match readInt32 e stream with
  | some (_, stream) => (0, { decoder with fd := some stream })
  | none => (-1, decoder.kill)

/-- The loop of `bson_decoder_next` that discards pending bytes. `pending` is signed. -/
def discardPending (pending : UInt32) (stream : List UInt8) : Option (List UInt8) :=
  if pending.toNat < 0x80000000 then (readBytes pending.toNat stream).map Prod.snd else some stream

/-- The value of a node, after its type and its name: the node, the pending count and what is
left. -/
def readValue (node : Node) (stream : List UInt8) : Option (Node × UInt32 × List UInt8) :=
  if node.type = bsonInt then do
    let (i, stream) ← readInt32 e stream
    return ({ node with i := i }, 0, stream)
  else if node.type = bsonDouble then do
    let (d, stream) ← readDouble e stream
    return ({ node with d := d }, 0, stream)
  else if node.type = bsonString then do
    let (pending, stream) ← readInt32 e stream
    return (node, pending, stream)
  else if node.type = bsonBindata then do
    let (pending, stream) ← readInt32 e stream
    let (subtype, stream) ← readInt8 stream
    return ({ node with subtype := subtype }, pending, stream)
  else
    -- other types are not supported
    none

/-- What `bson_decoder_next` reads. `BSON_EOO` has neither name nor value. -/
def readNode (decoder : Decoder) (stream : List UInt8) :
    Option (Node × UInt32 × List UInt8) := do
  let stream ← discardPending decoder.pending stream
  let (type, stream) ← readInt8 stream
  if type = bsonEoo then
    return ({ decoder.node with type := type }, 0, stream)
  else
    let (name, stream) ← readName bsonMaxname stream
    readValue e { decoder.node with type := type, name := name } stream

/-- The nesting level after the previous node. -/
def popNesting (decoder : Decoder) : Nat :=
  if decoder.node.type = bsonEoo then decoder.nesting - 1 else decoder.nesting

/-- `bson_decoder_next`, with the callback and its data. -/
def bsonDecoderNext {σ : Type} (callback : Decoder → σ → Int × Decoder × σ) (decoder : Decoder)
    (priv : σ) : Int × Decoder × σ :=
  match decoder.fd with
  | none => (-1, decoder, priv)
  | some stream =>
      let decoder := { decoder with nesting := popNesting decoder }
      if decoder.node.type = bsonEoo ∧ decoder.nesting = 0 then
        (0, decoder.kill, priv)
      else
        match readNode e decoder stream with
        | none => (-1, decoder.kill, priv)
        | some (node, pending, stream) =>
            callback { decoder with fd := some stream, node := node, pending := pending } priv

/-- `bson_decoder_data_pending`. -/
def bsonDecoderDataPending (decoder : Decoder) : Nat := decoder.pending.toNat

/-- `bson_decoder_copy_data`: the data, unless there is an error. Nothing is copied if nothing is
pending. -/
def bsonDecoderCopyData (decoder : Decoder) : Option (List UInt8) × Decoder :=
  match decoder.fd with
  | none => (none, decoder)
  | some stream =>
      if decoder.pending = 0 then
        (some [], decoder)
      else
        match readBytes decoder.pending.toNat stream with
        | none => (none, decoder.kill)
        | some (data, stream) => (some data, { decoder with fd := some stream, pending := 0 })

end

/-! ### The encoder -/

/-- `struct bson_encoder_s`, with what is in the file. -/
structure Encoder where
  fd : Bool
  written : List UInt8

/-- A function of the encoder. It throws where the source returns -1. -/
abbrev Encode := EStateM Unit Encoder Unit

section

variable (e : Endian) (accept : List UInt8 → List UInt8 → Bool)

/-- `write`, which is complete if the file accepts it. -/
def writeBytes (bytes : List UInt8) : Encode := do
  if accept (← get).written bytes then
    modify fun encoder => { encoder with written := encoder.written ++ bytes }
  else
    throw ()

/-- `write_int8`. -/
def writeInt8 (b : UInt8) : Encode := writeBytes accept [b]

/-- `write_int32`. -/
def writeInt32 (i : UInt32) : Encode := writeBytes accept (e.bytes32 i)

/-- `write_double`. -/
def writeDouble (d : UInt64) : Encode := writeBytes accept (e.bytes64 d)

/-- `write_name`, with the terminator. -/
def writeName (name : List UInt8) : Encode :=
  if bsonMaxname < name.length then throw () else writeBytes accept (name ++ [0])

/-- `CODER_CHECK`. -/
def coderCheck : Encode := do
  if (← get).fd then pure () else throw ()

/-- `CODER_KILL` after an error. -/
def orKill (x : Encode) : Encode :=
  tryCatch x fun _ => do
    modify fun encoder => { encoder with fd := false }
    throw ()

/-- `bson_encoder_init`. -/
def bsonEncoderInit : Encode := orKill (writeInt32 e accept 0)

/-- `bson_encoder_fini`. -/
def bsonEncoderFini : Encode := do
  coderCheck
  orKill (writeInt8 accept bsonEoo)

/-- `bson_encoder_append_int`. -/
def bsonEncoderAppendInt (name : List UInt8) (value : UInt32) : Encode := do
  coderCheck
  orKill do
    writeInt8 accept bsonInt
    writeName accept name
    writeInt32 e accept value

/-- `bson_encoder_append_double`. -/
def bsonEncoderAppendDouble (name : List UInt8) (value : UInt64) : Encode := do
  coderCheck
  orKill do
    writeInt8 accept bsonDouble
    writeName accept name
    writeDouble e accept value

/-- `bson_encoder_append_string`. The type that it writes is that of a double, and the characters
are taken from the name and from what lies behind it in memory. -/
def bsonEncoderAppendString (name : List UInt8) (behind : Nat → UInt8) (string : List UInt8) :
    Encode := do
  coderCheck
  let len := string.length
  orKill do
    writeInt8 accept bsonDouble
    writeName accept name
    writeInt32 e accept (UInt32.ofNat len)
    writeBytes accept ((name ++ 0 :: (List.range (len + 1)).map behind).take (len + 1))

/-- `bson_encoder_append_binary`. -/
def bsonEncoderAppendBinary (name : List UInt8) (subtype : UInt8) (size : Nat)
    (data : List UInt8) : Encode := do
  coderCheck
  orKill do
    writeInt8 accept bsonBindata
    writeName accept name
    writeInt32 e accept (UInt32.ofNat size)
    writeInt8 accept subtype
    writeBytes accept (data.take size)

end

end Px4Firmware.Bson
