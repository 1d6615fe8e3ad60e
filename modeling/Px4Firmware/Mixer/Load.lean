import Px4Firmware.Mixer.Basic
import Px4Firmware.Mixer.Scan

/-!
# Px4Firmware.Mixer.Load

The loader of `mixer_group.cpp`: `mixer_parse_*`, `mixer_load_*` and `MixerGroup::load_from_file`.

The information of a simple mixer is allocated with `malloc`, which does not initialise it. What the
blocks of memory hold that are allocated, in order, is a parameter.
-/

namespace Px4Firmware.Mixer

/-- `"M: %u"`. -/
def simpleFormat : List Directive := [.literal 0x4d, .literal colon, .integer]

/-- `"O: %d %d %d %d %d"`. -/
def outputFormat : List Directive :=
  [.literal 0x4f, .literal colon, .integer, .integer, .integer, .integer, .integer]

/-- `"S: %u %u %d %d %d %d %d"`. -/
def controlFormat : List Directive :=
  [.literal 0x53, .literal colon, .integer, .integer, .integer, .integer, .integer, .integer,
    .integer]

/-- `"R: %s %d %d %d %d"`. -/
def multirotorFormat : List Directive :=
  [.literal 0x52, .literal colon, .string, .integer, .integer, .integer, .integer]

section

variable {F : Type} [Arithmetic F]

/-- `s / 10000.0f`, for an `int` that has been scanned. -/
def scaled (s : UInt32) : F := (s.toInt32.toInt : F) / 10000.0

/-- The scaler that both parsers fill in. -/
def scannedScaler (s₀ s₁ s₂ s₃ s₄ : UInt32) : Scaler F where
  negativeScale := scaled s₀
  positiveScale := scaled s₁
  offset := scaled s₂
  minOutput := scaled s₃
  maxOutput := scaled s₄

/-- `mixer_parse_output_scaler`. -/
def mixerParseOutputScaler (buf : List UInt8) : Option (Scaler F) :=
  match sscanf outputFormat buf with
  | [.integer s₀, .integer s₁, .integer s₂, .integer s₃, .integer s₄] =>
      some (scannedScaler s₀ s₁ s₂ s₃ s₄)
  | _ => none

/-- `mixer_parse_control_scaler`. -/
def mixerParseControlScaler (buf : List UInt8) : Option (Control F) :=
  match sscanf controlFormat buf with
  | [.integer u₀, .integer u₁, .integer s₀, .integer s₁, .integer s₂, .integer s₃, .integer s₄] =>
      some { controlGroup := u₀.toUInt8, controlIndex := u₁.toUInt8,
             scaler := scannedScaler s₀ s₁ s₂ s₃ s₄ }
  | _ => none

/-- The loop over the inputs in `mixer_load_simple`, from the input `i` on. -/
def loadControls : Nat → Nat → SimpleInfo F → List UInt8 → Option (SimpleInfo F × List UInt8)
  | 0, _, mixinfo, input => some (mixinfo, input)
  | inputs + 1, i, mixinfo, input => do
      let (buf, input) ← mixerGetline input []
      let control ← mixerParseControlScaler buf
      let mixinfo := { mixinfo with
        controls := fun j => if j = i then control else mixinfo.controls j }
      loadControls inputs (i + 1) mixinfo input

/-- `mixer_load_simple`, with the memory that has been allocated. -/
def mixerLoadSimple (mixinfo : SimpleInfo F) (input : List UInt8) (inputs : UInt32) :
    Option (AnyMixer F × List UInt8) := do
  let (buf, input) ← mixerGetline input []
  let outputScaler ← mixerParseOutputScaler buf
  let mixinfo := { mixinfo with outputScaler := outputScaler }
  let (mixinfo, input) ← loadControls inputs.toNat 0 mixinfo input
  return (.simple (some mixinfo), input)

/-- The names of the geometries. -/
def geometryOf (geomname : List UInt8) : Option Geometry :=
  if geomname = [0x34, 0x2b] then some .quadPlus
  else if geomname = [0x34, 0x78] then some .quadX
  else if geomname = [0x36, 0x2b] then some .hexPlus
  else if geomname = [0x36, 0x78] then some .hexX
  else if geomname = [0x38, 0x2b] then some .octaPlus
  else if geomname = [0x38, 0x78] then some .octaX
  else none

/-- `mixer_load_multirotor`. What a name of more than seven characters overwrites is left out. -/
def mixerLoadMultirotor (buf : List UInt8) : Option (AnyMixer F) :=
  match sscanf multirotorFormat buf with
  | [.string geomname, .integer s₀, .integer s₁, .integer s₂, .integer s₃] =>
      (geometryOf geomname).map fun geometry =>
        .multirotor (multirotorMixer geometry (scaled s₀) (scaled s₁) (scaled s₂) (scaled s₃))
  | _ => none

/-- What `mixer_load` returns: zero, -1, or one and the mixer, with what is left of the file and the
number of blocks that have been allocated. -/
inductive Loaded (F : Type)
  | endOfFile
  | error
  | mixer (mixer : AnyMixer F) (input : List UInt8) (allocated : Nat)

variable (heap : Nat → SimpleInfo F)

/-- `mixer_load`. -/
def mixerLoad (input : List UInt8) (allocated : Nat) : Loaded F :=
  match mixerGetline input [] with
  | none => .endOfFile
  | some (buf, input) =>
      if buf.head? = some 0x5a then
        .mixer .null input allocated
      else
        match sscanf simpleFormat buf with
        | [.integer inputs] =>
            match mixerLoadSimple (heap allocated) input inputs with
            | none => .error
            | some (mixer, input) => .mixer mixer input (allocated + 1)
        | _ =>
            if buf.head? = some 0x52 then
              match mixerLoadMultirotor buf with
              | none => .error
              | some mixer => .mixer mixer input allocated
            else
              .error

/-- The loop of `MixerGroup::load_from_file`: what it returns, and the group. It ends when there is
enough fuel. -/
def loadLoop : Nat → List UInt8 → Nat → List (AnyMixer F) → Option (Int × List (AnyMixer F))
  | 0, _, _, _ => none
  | fuel + 1, input, allocated, group =>
      match mixerLoad heap input allocated with
      | .error => some (-1, group)
      | .endOfFile => some (0, group)
      | .mixer mixer input allocated => loadLoop fuel input allocated (group ++ [mixer])

/-- `MixerGroup::load_from_file`, for a file that can be opened or not. -/
def loadFromFile (file : Option (List UInt8)) (group : List (AnyMixer F)) :
    Option (Int × List (AnyMixer F)) :=
  match group, file with
  | [], some input => loadLoop heap (input.length + 1) input 0 []
  | group, _ => some (-1, group)

end

end Px4Firmware.Mixer
