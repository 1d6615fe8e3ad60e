import Px4Firmware.Lib.Buffer

/-!
# Px4Firmware.Mixer.Basic

The mixers of `systemlib/mixer`: `mixer.cpp`, `mixer_multirotor.cpp` and `MixerGroup::mix` of
`mixer_group.cpp`.

The arithmetic of floats is a parameter, and so are the control values that the callback gives. The
outputs are written through a pointer with no regard to what is there: a `Buffer`. An index counts
from the start of the group's outputs, where the source hands a pointer to the mixer's own outputs.
-/

namespace Px4Firmware.Mixer

open Px4Firmware.Lib

/-- The numbers of the processor, with the operations that the mixers use. -/
class Arithmetic (F : Type) extends
    Add F, Mul F, Div F, Neg F, OfScientific F, IntCast F, LT F where
  decLt : DecidableLT F

instance Arithmetic.decidableLT {F : Type} [Arithmetic F] : DecidableLT F := Arithmetic.decLt

/-- Fractions, for computations that come out even. -/
instance : Arithmetic Rat where
  decLt := inferInstance

/-- `mixer_scaler_s`. -/
structure Scaler (F : Type) where
  negativeScale : F
  positiveScale : F
  offset : F
  minOutput : F
  maxOutput : F
deriving DecidableEq

/-- `mixer_control_s`. -/
structure Control (F : Type) where
  controlGroup : UInt8
  controlIndex : UInt8
  scaler : Scaler F
deriving DecidableEq

/-- `mixer_simple_s`: `controls` is the memory behind the header, whatever has been allocated. -/
structure SimpleInfo (F : Type) where
  controlCount : UInt8
  outputScaler : Scaler F
  controls : Nat → Control F

/-- `MultirotorMixer::Geometry`. -/
inductive Geometry
  | quadX | quadPlus | hexX | hexPlus | octaX | octaPlus
deriving DecidableEq

/-- `MultirotorMixer::Rotor`. -/
structure Rotor (F : Type) where
  rollScale : F
  pitchScale : F
  yawScale : F

/-- The members of a `MultirotorMixer`. The number of the rotors and the table of the rotors are
those of the geometry. -/
structure Multirotor (F : Type) where
  geometry : Geometry
  rollScale : F
  pitchScale : F
  yawScale : F
  deadband : F
deriving DecidableEq

/-- A `Mixer`, of one of the three kinds. The information of a simple mixer is a pointer that can be
null. -/
inductive AnyMixer (F : Type)
  | null
  | simple (info : Option (SimpleInfo F))
  | multirotor (m : Multirotor F)

theorem AnyMixer.multirotor_or {F : Type} (mixer : AnyMixer F) :
    (∃ m, mixer = .multirotor m) ∨ ∀ m, mixer ≠ .multirotor m := by
  cases mixer with
  | multirotor m => exact .inl ⟨m, rfl⟩
  | null => exact .inr nofun
  | simple info => exact .inr nofun

section

variable {F : Type} [Arithmetic F]

/-! ### The tables of the rotors -/

/-- `_config_index`. -/
def configIndex : Geometry → List (Rotor F)
  | .quadX =>
      [⟨-0.707107, 0.707107, -1.00⟩, ⟨0.707107, -0.707107, -1.00⟩, ⟨0.707107, 0.707107, 1.00⟩,
        ⟨-0.707107, -0.707107, 1.00⟩]
  | .quadPlus =>
      [⟨-1.000000, 0.000000, -1.00⟩, ⟨1.000000, 0.000000, -1.00⟩, ⟨0.000000, 1.000000, 1.00⟩,
        ⟨-0.000000, -1.000000, 1.00⟩]
  | .hexX =>
      [⟨-1.000000, 0.000000, 1.00⟩, ⟨1.000000, 0.000000, -1.00⟩, ⟨0.500000, 0.866025, 1.00⟩,
        ⟨-0.500000, -0.866025, -1.00⟩, ⟨-0.500000, 0.866025, -1.00⟩, ⟨0.500000, -0.866025, 1.00⟩]
  | .hexPlus =>
      [⟨0.000000, 1.000000, 1.00⟩, ⟨-0.000000, -1.000000, -1.00⟩, ⟨0.866025, -0.500000, 1.00⟩,
        ⟨-0.866025, 0.500000, -1.00⟩, ⟨0.866025, 0.500000, -1.00⟩, ⟨-0.866025, -0.500000, 1.00⟩]
  | .octaX =>
      [⟨-0.382683, 0.923880, 1.00⟩, ⟨0.382683, -0.923880, 1.00⟩, ⟨-0.923880, 0.382683, -1.00⟩,
        ⟨-0.382683, -0.923880, -1.00⟩, ⟨0.382683, 0.923880, -1.00⟩, ⟨0.923880, -0.382683, -1.00⟩,
        ⟨0.923880, 0.382683, 1.00⟩, ⟨-0.923880, -0.382683, 1.00⟩]
  | .octaPlus =>
      [⟨0.000000, 1.000000, 1.00⟩, ⟨-0.000000, -1.000000, 1.00⟩, ⟨-0.707107, 0.707107, -1.00⟩,
        ⟨-0.707107, -0.707107, -1.00⟩, ⟨0.707107, 0.707107, -1.00⟩, ⟨0.707107, -0.707107, -1.00⟩,
        ⟨1.000000, 0.000000, 1.00⟩, ⟨-1.000000, 0.000000, 1.00⟩]

/-- `_config_rotor_count`. -/
def configRotorCount : Geometry → Nat
  | .quadX => 4
  | .quadPlus => 4
  | .hexX => 6
  | .hexPlus => 6
  | .octaX => 8
  | .octaPlus => 8

/-- The counts are those of the tables, so the loops over the rotors stay within them. -/
@[simp] theorem length_configIndex (geometry : Geometry) :
    (configIndex geometry : List (Rotor F)).length = configRotorCount geometry := by
  cases geometry <;> rfl

/-- The constructor of `MultirotorMixer`. -/
def multirotorMixer (geometry : Geometry) (rollScale pitchScale yawScale deadband : F) :
    Multirotor F where
  geometry := geometry
  rollScale := rollScale
  pitchScale := pitchScale
  yawScale := yawScale
  deadband := -1.0 + deadband

/-! ### Mixing -/

/-- `Mixer::scale`. -/
def scale (scaler : Scaler F) (input : F) : F :=
  let output :=
    if input < 0.0 then
      input * scaler.negativeScale + scaler.offset
    else
      input * scaler.positiveScale + scaler.offset
  if scaler.maxOutput < output then
    scaler.maxOutput
  else if output < scaler.minOutput then
    scaler.minOutput
  else
    output

variable (control : UInt8 → UInt8 → F)

/-- `NullMixer::mix`. -/
def nullMix (index space : Nat) (outputs : Buffer F) : Nat × Buffer F :=
  if 0 < space then
    (1, outputs.write index 0.0)
  else
    (0, outputs)

/-- The sum over the controls from `i` on in `SimpleMixer::mix`. -/
def sumControls (info : SimpleInfo F) : Nat → Nat → F → F
  | 0, _, sum => sum
  | count + 1, i, sum =>
      let c := info.controls i
      let input := control c.controlGroup c.controlIndex
      sumControls info count (i + 1) (sum + scale c.scaler input)

/-- `SimpleMixer::mix`. -/
def simpleMix (info : Option (SimpleInfo F)) (index space : Nat) (outputs : Buffer F) :
    Nat × Buffer F :=
  match info with
  | none => (0, outputs)
  | some info =>
      if space < 1 then
        (0, outputs)
      else
        let sum := sumControls control info info.controlCount.toNat 0 0.0
        (1, outputs.write index (scale info.outputScaler sum))

/-- The initial pass over the rotors: the largest output so far and the outputs. -/
def mixPass (roll pitch yaw thrust : F) : List (Rotor F) → Nat → F → Buffer F → F × Buffer F
  | [], _, max, outputs => (max, outputs)
  | rotor :: rotors, index, max, outputs =>
      let tmp := roll * rotor.rollScale + pitch * rotor.pitchScale + yaw * rotor.yawScale + thrust
      let max := if max < tmp then tmp else max
      mixPass roll pitch yaw thrust rotors (index + 1) max (outputs.write index tmp)

/-- A round of the loop that scales the outputs. -/
def rescale (fixupScale : F) (i : Nat) (outputs : Buffer F) : Buffer F :=
  outputs.write i (-1.0 + outputs.value i * fixupScale)

/-- A round of the loop that keeps the outputs out of the deadband. -/
def clip (deadband : F) (i : Nat) (outputs : Buffer F) : Buffer F :=
  if outputs.value i < deadband then
    outputs.write i deadband
  else
    outputs

/-- `MultirotorMixer::mix`. -/
def multirotorMix (m : Multirotor F) (index _space : Nat) (outputs : Buffer F) : Nat × Buffer F :=
  let roll := control 0 0 * m.rollScale
  let pitch := control 0 1 * m.pitchScale
  let yaw := control 0 2 * m.yawScale
  let thrust := control 0 3
  let rotorCount := configRotorCount m.geometry
  let (max, outputs) := mixPass roll pitch yaw thrust (configIndex m.geometry) index 0.0 outputs
  let fixupScale := if 1.0 < max then 2.0 / max else 2.0
  let outputs := outputs.forRange (rescale fixupScale) rotorCount index
  let outputs := outputs.forRange (clip m.deadband) rotorCount index
  (0, outputs)

/-- `Mixer::mix`. -/
def mix : AnyMixer F → Nat → Nat → Buffer F → Nat × Buffer F
  | .null => nullMix
  | .simple info => simpleMix control info
  | .multirotor m => multirotorMix control m

/-- The loop of `MixerGroup::mix`. -/
def mixFrom (space : Nat) : List (AnyMixer F) → Nat → Buffer F → Nat × Buffer F
  | [], index, outputs => (index, outputs)
  | mixer :: rest, index, outputs =>
      if index < space then
        let (count, outputs) := mix control mixer index (space - index) outputs
        mixFrom space rest (index + count) outputs
      else
        (index, outputs)

/-- `MixerGroup::mix`. -/
def groupMix (mixers : List (AnyMixer F)) (space : Nat) (outputs : Buffer F) : Nat × Buffer F :=
  mixFrom control space mixers 0 outputs

end

end Px4Firmware.Mixer
