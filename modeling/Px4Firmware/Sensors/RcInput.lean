import Px4Firmware.Lib.CFloat

/-!
# Px4Firmware.Sensors.RcInput

The sensors application between the receiver and the manual control topic (`sensors.cpp`).
`parametersUpdate` takes over the parameters, and derives the mapping of the channels from them;
`ppmPoll` scales the channels of a frame and publishes the sticks. Floats are exact rational numbers
here.
-/

namespace Px4Firmware.Sensors

open Px4Firmware.Lib

/-! ### Parameters and channels -/

/-- The control functions (`RC_CHANNELS_FUNCTION`). -/
inductive RcFunction
  | throttle
  | roll
  | pitch
  | yaw
  | override
  deriving DecidableEq

/-- The calibration of a channel: `RC_MIN`, `RC_TRIM`, `RC_MAX`, `RC_REV` and `RC_DZ`. -/
structure Calibration where
  min : Rat
  trim : Rat
  max : Rat
  rev : Rat
  dz : Rat

/-- The parameters: the calibrations, the `RC_MAP` and the `RC_SCALE` ones. That of the mode switch
is `RC_MAP_MODE_SW`. -/
structure Parameters where
  channels : Fin 8 → Calibration
  rcMap : RcFunction → Int32
  rcScaleRoll : Rat
  rcScalePitch : Rat
  rcScaleYaw : Rat

/-- An entry of `chan`. -/
structure Channel where
  mid : UInt16
  scalingFactor : Rat
  raw : UInt16
  scaled : Rat

/-- `rc_channels_s`. -/
structure RcChannels where
  timestamp : UInt64
  chan : Fin 12 → Channel
  chanCount : UInt8
  function : RcFunction → UInt8

/-- The application, with its copies of the parameters. -/
structure SensorsApp where
  ppmLastValid : UInt64
  rc : RcChannels
  parameters : Parameters

/-! ### `parameters_update` -/

/-- A quotient. One by zero is infinite or not a number. -/
def quotient (x y : Rat) : Option Rat := if y = 0 then none else some (x / y)

/-- What an update derives for a channel. The blowups in the factor are made zeros. -/
def updateChannel (c : Calibration) (chan : Channel) : Channel :=
  { chan with
    scalingFactor := ((quotient 1 ((c.max - c.min) / 2)).map (· * c.rev)).getD 0
    mid := UInt16.ofNat (CFloat.clamp 0 4294967295 (CFloat.truncate c.trim)).toNat }

/-- The entry of `function` for a parameter. -/
def functionEntry (rcMap : Int32) : UInt8 := UInt8.ofNat ((rcMap.toInt - 1) % 256).toNat

/-- `Sensors::parameters_update`, with the parameters as they are stored. The mapping is derived
before the parameters it is derived from are fetched. -/
def parametersUpdate (store : Parameters) (s : SensorsApp) : SensorsApp :=
  { s with
    rc := { s.rc with
      chan := fun i =>
        if h : i.val < 8 then updateChannel (store.channels ⟨i.val, h⟩) (s.rc.chan i)
        else s.rc.chan i
      -- These are still the parameters of the update before.
      function := fun f => functionEntry (s.parameters.rcMap f) }
    parameters := store }

/-! ### `ppm_poll` -/

/-- A frame, as the decoder has left it: `ppm_last_valid_decode`, `ppm_decoded_channels` and
`ppm_buffer`. -/
structure PpmFrame where
  lastValidDecode : UInt64
  decodedChannels : Nat
  buffer : Fin 12 → UInt16

/-- The scaling around the mid point, with the dead zone. -/
def scaleRaw (c : Calibration) (raw : UInt16) : Option Rat :=
  let ppm : Rat := raw.toNat
  if c.trim + c.dz < ppm then quotient (ppm - c.trim) (c.max - c.trim)
  else if ppm < c.trim - c.dz then (quotient (c.trim - ppm) (c.trim - c.min)).map (- ·)
  else some 0

/-- The reversal. That of the throttle is not one around the mid point. -/
def reverseScaled (c : Calibration) (throttle : Bool) (scaled : Rat) : Rat :=
  if throttle then
    if CFloat.truncate c.rev = -1 then 1 + -1 * scaled else scaled
  else scaled * c.rev

/-- `scaled`. Any blowups are made zeros. -/
def scaleChannel (c : Calibration) (throttle : Bool) (raw : UInt16) : Rat :=
  ((scaleRaw c raw).map (reverseScaled c throttle)).getD 0

/-- `channel_limit`. -/
def channelLimit (frame : PpmFrame) : Nat := Nat.min frame.decodedChannels 8

theorem lt_of_lt_channelLimit {frame : PpmFrame} {i : Fin 12} (h : i.val < channelLimit frame) :
    i.val < 8 :=
  Nat.lt_of_lt_of_le h (Nat.min_le_right _ _)

/-- The loop over the channels. -/
def pollChannels (frame : PpmFrame) (p : Parameters) (rc : RcChannels) (i : Fin 12) : Channel :=
  if h : i.val < channelLimit frame then
    let c := p.channels ⟨i.val, lt_of_lt_channelLimit h⟩
    let throttle := decide (i.val = (rc.function .throttle).toNat)
    { rc.chan i with
      raw := frame.buffer i
      scaled := scaleChannel c throttle (frame.buffer i) }
  else rc.chan i

/-- `_rc.chan[_rc.function[f]].scaled`. An entry behind the end of the array is an error. -/
def RcChannels.scaled (rc : RcChannels) (f : RcFunction) : Except UInt8 Rat :=
  if h : (rc.function f).toNat < 12 then .ok (rc.chan ⟨(rc.function f).toNat, h⟩).scaled
  else .error (rc.function f)

/-- `manual_control_setpoint_s`. -/
structure ManualControl where
  timestamp : UInt64
  roll : Rat
  pitch : Rat
  yaw : Rat
  throttle : Rat
  overrideModeSwitch : Rat

/-- A value limited to a range, from below first. -/
def limit (low high x : Rat) : Rat :=
  let x := if x < low then low else x
  if high < x then high else x

/-- The sticks. Each scale is either not NaN or not infinite, so that each is applied. -/
def manualControl (p : Parameters) (rc : RcChannels) : Except UInt8 ManualControl := do
  let roll ← rc.scaled .roll
  let pitch ← rc.scaled .pitch
  let yaw ← rc.scaled .yaw
  let throttle ← rc.scaled .throttle
  let override ← rc.scaled .override
  return {
    timestamp := rc.timestamp
    roll := limit (-1) 1 roll * p.rcScaleRoll
    pitch := limit (-1) 1 (-1 * pitch) * p.rcScalePitch
    -- The scale is applied before the limit, too.
    yaw := limit (-1) 1 (yaw * p.rcScaleYaw) * p.rcScaleYaw
    throttle := limit 0 1 throttle
    overrideModeSwitch := limit (-1) 1 override }

/-- `Sensors::ppm_poll`: what it publishes, if the frame is new and has four channels at least. -/
def ppmPoll (frame : PpmFrame) (s : SensorsApp) :
    Except UInt8 (Option ManualControl) × SensorsApp :=
  if s.ppmLastValid = frame.lastValidDecode then (.ok none, s)
  else if frame.decodedChannels < 4 then (.ok none, s)
  else
    let rc := { s.rc with
      chan := pollChannels frame s.parameters s.rc
      chanCount := UInt8.ofNat frame.decodedChannels
      timestamp := frame.lastValidDecode }
    ((manualControl s.parameters rc).map some, { s with ppmLastValid := frame.lastValidDecode, rc })

end Px4Firmware.Sensors
