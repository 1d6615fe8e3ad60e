import Px4Firmware.Bson.Coder
import Px4Firmware.Param.Store

/-!
# Px4Firmware.Param.File

Writing the modified parameters to a file and reading them back: `param_export`, the import
callback and `param_import` and `param_load` of `systemlib/param/param.c`.

The callback is cut before it sets the parameter, so that what a node asks for (`NodeAction`)
does not depend on the store, apart from the calls of `malloc` so far. The loop of
`param_import_internal` takes fuel; `importLoop_ends` says how much is enough.
-/

namespace Px4Firmware.Param

open Px4Firmware.Lib
open Px4Firmware.Bson

section

variable (env : Env)

/-! ### Export -/

/-- The BSON node that `param_export` appends for an entry. -/
def appendParam (param : ParamT) (s : Store) : Encode :=
  let name := (paramName env param).getD []
  match paramType env param with
  | .int32 =>
      let i := env.endian.word32 ((paramGet env param true s).getD [])
      bsonEncoderAppendInt env.endian env.write name i
  | .float =>
      let f := env.endian.word32 ((paramGet env param true s).getD [])
      bsonEncoderAppendDouble env.endian env.write name (env.widen f)
  | .struct size =>
      bsonEncoderAppendBinary env.endian env.write name bsonBinBinary size
        ((paramGetValuePtr env param s).getD [])
  | .unknown => throw ()

/-- The loop of `param_export` over the entries that are left, with those that are done. -/
def exportLoop (onlyUnsaved : Bool) (s : Store) :
    List ParamWbuf → List ParamWbuf → Encoder → Bool × Store × Encoder
  | done, [], encoder => (true, s.setArray done, encoder)
  | done, w :: rest, encoder =>
      if onlyUnsaved && !w.unsaved then
        exportLoop onlyUnsaved s (done ++ [w]) rest encoder
      else
        let w := { w with unsaved := false }
        let t := s.setArray (done ++ w :: rest)
        match appendParam env w.param t encoder with
        | .ok _ encoder => exportLoop onlyUnsaved s (done ++ [w]) rest encoder
        | .error _ encoder => (false, t, encoder)

/-- `param_export`: the result, the store, and what is in the file. -/
def paramExport (onlyUnsaved : Bool) (s : Store) : Int × Store × List UInt8 :=
  let encoder := after (bsonEncoderInit env.endian env.write) { fd := true, written := [] }
  let (exported, s, encoder) := match s.values with
    | none => (true, s, encoder)
    | some values => exportLoop env onlyUnsaved s [] values encoder
  if exported then
    let fini := bsonEncoderFini env.write
    (if ends fini encoder then 0 else -1, s, (after fini encoder).written)
  else
    (-1, s, encoder.written)

/-! ### Import -/

/-- What `param_import_callback` finds in a node: the end of the document, a node to ignore, a
node to reject, or a parameter to set and the value to set it to. -/
inductive NodeAction
  | finish
  | ignore
  | reject
  | set (param : ParamT) (val : List UInt8)

/-- The data of a `BSON_BINDATA` node in `param_import_callback`. -/
def importBindata (param : ParamT) (decoder : Decoder) (mallocs : Nat) :
    NodeAction × Decoder × Nat :=
  if decoder.node.subtype ≠ bsonBinBinary then
    (.reject, decoder, mallocs)
  else if bsonDecoderDataPending decoder ≠ paramSize env param then
    (.reject, decoder, mallocs)
  else
    match env.malloc mallocs with
    | none => (.reject, decoder, mallocs + 1)
    | some _ =>
        match bsonDecoderCopyData decoder with
        | (none, decoder) => (.reject, decoder, mallocs + 1)
        | (some data, decoder) => (.set param data, decoder, mallocs + 1)

/-- `param_import_callback` up to `param_set_internal`. -/
def importNode (decoder : Decoder) (mallocs : Nat) : NodeAction × Decoder × Nat :=
  if decoder.node.type = bsonEoo then
    (.finish, decoder, mallocs)
  else
    let param := paramFind env decoder.node.name
    if param = paramInvalid then
      (.ignore, decoder, mallocs)
    else if decoder.node.type = bsonInt then
      if paramType env param ≠ .int32 then (.reject, decoder, mallocs)
      else (.set param (env.endian.bytes32 decoder.node.i), decoder, mallocs)
    else if decoder.node.type = bsonDouble then
      if paramType env param ≠ .float then (.reject, decoder, mallocs)
      else (.set param (env.endian.bytes32 (env.narrow decoder.node.d)), decoder, mallocs)
    else if decoder.node.type = bsonBindata then
      importBindata env param decoder mallocs
    else
      (.reject, decoder, mallocs)

/-- `param_import_callback`. -/
def paramImportCallback (markSaved : Bool) (decoder : Decoder) (s : Store) :
    Int × Decoder × Store :=
  let (action, decoder, mallocs) := importNode env decoder s.mallocs
  let s := { s with mallocs := mallocs }
  match action with
  | .finish => (0, decoder, s)
  | .ignore => (1, decoder, s)
  | .reject => (-1, decoder, s)
  | .set param val =>
      let (result, s) := paramSetInternal env param val markSaved s
      (if result = 0 then 1 else -1, decoder, s)

/-- The loop of `param_import_internal`. -/
def importLoop {σ : Type} (callback : Decoder → σ → Int × Decoder × σ) :
    Nat → Decoder → σ → Option (Int × σ)
  | 0, _, _ => none
  | fuel + 1, decoder, priv =>
      let (result, decoder, priv) := bsonDecoderNext env.endian callback decoder priv
      if 0 < result then importLoop callback fuel decoder priv else some (result, priv)

/-- `param_import_internal`, on a file with these bytes, for a callback. -/
def importInternal {σ : Type} (callback : Decoder → σ → Int × Decoder × σ) (stream : List UInt8)
    (priv : σ) : Option (Int × σ) :=
  match bsonDecoderInit env.endian stream with
  | (0, decoder) => importLoop env callback (stream.length + 1) decoder priv
  | (_, _) => some (-1, priv)

/-- `param_import`. -/
def paramImport (stream : List UInt8) (s : Store) : Option (Int × Store) :=
  importInternal env (paramImportCallback env false) stream s

/-- `param_load`. -/
def paramLoad (stream : List UInt8) (s : Store) : Option (Int × Store) :=
  importInternal env (paramImportCallback env true) stream (paramResetAll s)

end

end Px4Firmware.Param
