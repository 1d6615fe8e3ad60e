import Mathlib.Algebra.Order.Field.Rat
import Mathlib.Logic.Function.Basic
import Mathlib.Tactic.NormNum
import Px4Firmware.Lib.DeadZone
import Px4Firmware.Sensors.RcMapping

/-!
# Px4Firmware.Sensors.StickScaling

**The sticks**, in exact arithmetic. A channel is scaled by its calibration (`Span.position`), and
the sticks are the scaled channels, cut off at the ends and with a gain each.

The yaw gets its gain twice: before it is cut off, and after. `stick_scaling_iff` says when that
makes no difference.
-/

namespace Px4Firmware.Sensors

open Px4Firmware.Lib

/-! ### A channel -/

/-- A calibration that makes sense. -/
structure Calibration.Valid (c : Calibration) : Prop where
  min_lt : c.min < c.trim
  lt_max : c.trim < c.max
  dz_nonneg : 0 ≤ c.dz
  dz_lt : c.dz < Min.min (c.trim - c.min) (c.max - c.trim)
  rev : c.rev = 1 ∨ c.rev = -1

/-- Its span. -/
def Calibration.span (c : Calibration) (h : c.Valid) : Span Rat where
  low := c.min
  mid := c.trim
  high := c.max
  width := c.dz
  low_lt := h.min_lt
  lt_high := h.lt_max
  width_nonneg := h.dz_nonneg
  width_lt_low := (lt_min_iff.1 h.dz_lt).1
  width_lt_high := (lt_min_iff.1 h.dz_lt).2

section

variable {c : Calibration} (h : c.Valid) (raw : UInt16)

/-- No division by zero. -/
theorem scaleRaw_eq : scaleRaw c raw = some ((c.span h).position raw.toNat) := by
  have hhigh : c.max - c.trim ≠ 0 := (sub_pos.2 h.lt_max).ne'
  have hlow : c.trim - c.min ≠ 0 := (sub_pos.2 h.min_lt).ne'
  by_cases habove : c.trim + c.dz < (raw.toNat : Rat)
  · have hposition := Span.position_of_above (s := c.span h) habove
    rw [scaleRaw, if_pos habove, quotient, if_neg hhigh, hposition]
    rfl
  by_cases hbelow : (raw.toNat : Rat) < c.trim - c.dz
  · have hposition := Span.position_of_below (s := c.span h) hbelow
    rw [scaleRaw, if_neg habove, if_pos hbelow, quotient, if_neg hlow, hposition]
    rfl
  · have hposition := Span.position_of_inside (s := c.span h) (not_lt.1 hbelow) (not_lt.1 habove)
    rw [scaleRaw, if_neg habove, if_neg hbelow, hposition]

theorem scaleChannel_false : scaleChannel c false raw = (c.span h).position raw.toNat * c.rev := by
  rw [scaleChannel, scaleRaw_eq h]
  rfl

theorem scaleChannel_true : scaleChannel c true raw =
    if c.rev = -1 then 1 - (c.span h).position raw.toNat else (c.span h).position raw.toNat := by
  -- The source compares the parameter as an integer.
  have htruncate : CFloat.truncate c.rev = -1 ↔ c.rev = -1 := by
    rcases h.rev with hrev | hrev <;> rw [hrev] <;> decide
  rw [scaleChannel, scaleRaw_eq h]
  simp only [Option.map_some, Option.getD_some, reverseScaled, if_true, htruncate]
  rw [neg_one_mul, ← sub_eq_add_neg]

end

/-- The law of a channel, given what each value in the range is scaled to. -/
structure ChannelLaw (c : Calibration) (scaled : UInt16 → Rat) : Prop where
  range : ∀ v : UInt16, c.min ≤ v.toNat → v.toNat ≤ c.max → -1 ≤ scaled v ∧ scaled v ≤ 1
  zero_iff : ∀ v : UInt16, c.min ≤ v.toNat → v.toNat ≤ c.max →
    (scaled v = 0 ↔ c.trim - c.dz ≤ v.toNat ∧ v.toNat ≤ c.trim + c.dz)
  low : ∀ v : UInt16, (v.toNat : Rat) = c.min → scaled v = -c.rev
  high : ∀ v : UInt16, (v.toNat : Rat) = c.max → scaled v = c.rev
  /-- The other way round, when the channel is reversed. -/
  mono : ∀ v w : UInt16, c.min ≤ v.toNat → v ≤ w → w.toNat ≤ c.max →
    if c.rev = 1 then scaled v ≤ scaled w else scaled w ≤ scaled v

theorem channelLaw_scaleChannel {c : Calibration} (h : c.Valid) :
    ChannelLaw c (scaleChannel c false) where
  range v hlow hhigh := by
    obtain ⟨hge, hle⟩ := Span.position_mem (s := c.span h) hlow hhigh
    rw [scaleChannel_false h]
    rcases h.rev with hrev | hrev <;> rw [hrev] <;> constructor <;> linarith
  zero_iff v _ _ := by
    have hrev : c.rev ≠ 0 := by rcases h.rev with hrev | hrev <;> rw [hrev] <;> norm_num
    rw [scaleChannel_false h, mul_eq_zero_iff_right hrev, Span.position_eq_zero_iff]
    rfl
  low v hv := by
    have hposition : (c.span h).position c.min = -1 := Span.position_low
    rw [scaleChannel_false h, hv, hposition, neg_one_mul]
  high v hv := by
    have hposition : (c.span h).position c.max = 1 := Span.position_high
    rw [scaleChannel_false h, hv, hposition, one_mul]
  mono v w _ hvw _ := by
    have hmono : (c.span h).position v.toNat ≤ (c.span h).position w.toNat :=
      Span.position_mono (by exact_mod_cast UInt16.le_iff_toNat_le.1 hvw)
    rw [scaleChannel_false h, scaleChannel_false h]
    rcases h.rev with hrev | hrev
    · rw [if_pos hrev, hrev]
      linarith
    · rw [if_neg (by rw [hrev]; norm_num), hrev]
      linarith

/-! ### The sticks -/

/-- The law of the sticks, given the channels they are read from. -/
structure SticksLaw (p : Parameters) (rc : RcChannels) (control : ManualControl) : Prop where
  roll : ∃ x, rc.scaled .roll = .ok x ∧ control.roll = limited x * p.rcScaleRoll
  pitch : ∃ x, rc.scaled .pitch = .ok x ∧ control.pitch = limited (-x) * p.rcScalePitch
  yaw : ∃ x, rc.scaled .yaw = .ok x ∧ control.yaw = limited x * p.rcScaleYaw
  throttle : 0 ≤ control.throttle ∧ control.throttle ≤ 1

/-- The frame with another value for a channel. -/
def PpmFrame.withRaw (frame : PpmFrame) (i : Fin 12) (v : UInt16) : PpmFrame :=
  { frame with buffer := Function.update frame.buffer i v }

/-- The law of a poll: the channels of the frame but that of the throttle are scaled as they should
be; and if all mappings name channels, the sticks are published, as they should be. -/
structure StickScaling (frame : PpmFrame) (s : SensorsApp) : Prop where
  channels : ∀ (i : Fin 12) (h : i.val < channelLimit frame),
    i.val ≠ (s.rc.function .throttle).toNat →
      ChannelLaw (s.parameters.channels ⟨i.val, lt_of_lt_channelLimit h⟩)
        fun v => ((ppmPoll (frame.withRaw i v) s).2.rc.chan i).scaled
  sticks : Mapped s → ∃ control, (ppmPoll frame s).1 = .ok (some control) ∧
    SticksLaw s.parameters (ppmPoll frame s).2.rc control

/-- Where the channel of a function is, by its calibration if it is in the frame. -/
def stick (frame : PpmFrame) (s : SensorsApp) (valid : ∀ i, (s.parameters.channels i).Valid)
    (i : Fin 12) : Rat :=
  if h : i.val < channelLimit frame then
    let c := s.parameters.channels ⟨i.val, lt_of_lt_channelLimit h⟩
    let position := (c.span (valid _)).position (frame.buffer i).toNat
    if i.val = (s.rc.function .throttle).toNat then
      if c.rev = -1 then 1 - position else position
    else position * c.rev
  else (s.rc.chan i).scaled

/-- The condition, if all mappings name channels. The gain of the yaw is zero or one, or its stick
is in the middle, or it is at an end or behind, and not moved inside by the gain. -/
def YawSafe (frame : PpmFrame) (s : SensorsApp)
    (valid : ∀ i, (s.parameters.channels i).Valid) : Prop :=
  ∀ h : Mapped s,
    let yaw := stick frame s valid ⟨(s.rc.function .yaw).toNat, h .yaw⟩
    let gain := s.parameters.rcScaleYaw
    gain = 0 ∨ yaw = 0 ∨ gain = 1 ∨ 1 ≤ |yaw| ∧ 1 ≤ gain * |yaw|

theorem limit_eq_limited (x : Rat) : limit (-1) 1 x = limited x := by
  rcases lt_or_ge x (-1) with hlow | hlow
  · rw [limited_of_le_neg_one hlow.le]
    simp [limit, hlow]
  rcases lt_or_ge 1 x with hhigh | hhigh
  · rw [limited_of_one_le hhigh.le]
    simp [limit, not_lt.2 hlow, hhigh]
  · rw [limited_of_abs_le (abs_le.2 ⟨hlow, hhigh⟩)]
    simp [limit, not_lt.2 hlow, not_lt.2 hhigh]

theorem limit_mem (x : Rat) : 0 ≤ limit 0 1 x ∧ limit 0 1 x ≤ 1 := by
  simp only [limit]
  split_ifs <;> constructor <;> linarith

/-- What the loop leaves for a channel. -/
theorem scaled_pollChannels (frame : PpmFrame) (s : SensorsApp)
    (valid : ∀ i, (s.parameters.channels i).Valid) (i : Fin 12) :
    (pollChannels frame s.parameters s.rc i).scaled = stick frame s valid i := by
  by_cases hi : i.val < channelLimit frame
  · simp only [pollChannels, stick, dif_pos hi]
    by_cases hthrottle : i.val = (s.rc.function .throttle).toNat
    · rw [if_pos hthrottle, decide_eq_true hthrottle, scaleChannel_true (valid _)]
    · rw [if_neg hthrottle, decide_eq_false hthrottle, scaleChannel_false (valid _)]
  · simp only [pollChannels, stick, dif_neg hi]

/-- The channels after a frame that is accepted. -/
def polled (frame : PpmFrame) (s : SensorsApp) : RcChannels :=
  { s.rc with
    chan := pollChannels frame s.parameters s.rc
    chanCount := UInt8.ofNat frame.decodedChannels
    timestamp := frame.lastValidDecode }

section

variable {frame : PpmFrame} {s : SensorsApp}

theorem ppmPoll_eq (hnew : s.ppmLastValid ≠ frame.lastValidDecode)
    (hchannels : 4 ≤ frame.decodedChannels) :
    ppmPoll frame s = ((manualControl s.parameters (polled frame s)).map some,
      { s with ppmLastValid := frame.lastValidDecode, rc := polled frame s }) := by
  rw [ppmPoll, if_neg hnew, if_neg (Nat.not_lt.2 hchannels)]
  rfl

theorem scaled_polled (frame : PpmFrame) (valid : ∀ i, (s.parameters.channels i).Valid)
    (h : Mapped s) (f : RcFunction) :
    (polled frame s).scaled f = .ok (stick frame s valid ⟨(s.rc.function f).toNat, h f⟩) := by
  rw [← scaled_pollChannels]
  have hf : ((polled frame s).function f).toNat < 12 := h f
  exact scaled_of_lt hf

theorem channels_law (valid : ∀ i, (s.parameters.channels i).Valid)
    (hnew : s.ppmLastValid ≠ frame.lastValidDecode) (hchannels : 4 ≤ frame.decodedChannels)
    (i : Fin 12) (h : i.val < channelLimit frame)
    (hthrottle : i.val ≠ (s.rc.function .throttle).toNat) :
    ChannelLaw (s.parameters.channels ⟨i.val, lt_of_lt_channelLimit h⟩)
      fun v => ((ppmPoll (frame.withRaw i v) s).2.rc.chan i).scaled := by
  have hscaled v : ((ppmPoll (frame.withRaw i v) s).2.rc.chan i).scaled =
      scaleChannel (s.parameters.channels ⟨i.val, lt_of_lt_channelLimit h⟩) false v := by
    -- The number of channels does not depend on their values.
    have hlimit : i.val < channelLimit (frame.withRaw i v) := h
    have hraw : (frame.withRaw i v).buffer i = v := Function.update_self ..
    have hpoll : ppmPoll (frame.withRaw i v) s = _ := ppmPoll_eq hnew hchannels
    rw [hpoll]
    simp only [polled, pollChannels, dif_pos hlimit, decide_eq_false hthrottle, hraw]
  simp only [hscaled]
  exact channelLaw_scaleChannel (valid _)

/-- The sticks are as they should be exactly if the gain of the yaw makes no difference before it is
cut off. -/
theorem sticks_law_iff (valid : ∀ i, (s.parameters.channels i).Valid) (h : Mapped s)
    (hnew : s.ppmLastValid ≠ frame.lastValidDecode) (hchannels : 4 ≤ frame.decodedChannels) :
    (∃ control, (ppmPoll frame s).1 = .ok (some control) ∧
        SticksLaw s.parameters (ppmPoll frame s).2.rc control) ↔
      let yaw := stick frame s valid ⟨(s.rc.function .yaw).toNat, h .yaw⟩
      let gain := s.parameters.rcScaleYaw
      limited (yaw * gain) * gain = limited yaw * gain := by
  have hscaled := scaled_polled frame valid h
  rw [ppmPoll_eq hnew hchannels]
  simp only [manualControl, hscaled]
  constructor
  · rintro ⟨control, hcontrol, hlaw⟩
    cases hcontrol
    obtain ⟨yaw, hyaw, heq⟩ := hlaw.yaw
    rw [hscaled] at hyaw
    cases hyaw
    rw [← limit_eq_limited (_ * _)]
    exact heq
  · intro heq
    -- Only the yaw needs the hypothesis.
    refine ⟨_, rfl, ⟨_, hscaled _, ?_⟩, ⟨_, hscaled _, ?_⟩, ⟨_, hscaled _, ?_⟩, limit_mem _⟩
    · dsimp only
      rw [limit_eq_limited]
    · dsimp only
      rw [limit_eq_limited, neg_one_mul]
    · dsimp only
      rw [limit_eq_limited]
      exact heq

end

/-- **The sticks.** With calibrations that make sense, a frame that is accepted is scaled and
published as it should be exactly if the gain of the yaw, which is applied twice, makes no
difference the first time. -/
theorem stick_scaling_iff (frame : PpmFrame) (s : SensorsApp)
    (valid : ∀ i, (s.parameters.channels i).Valid)
    (hnew : s.ppmLastValid ≠ frame.lastValidDecode) (hchannels : 4 ≤ frame.decodedChannels) :
    StickScaling frame s ↔ YawSafe frame s valid := by
  have hgain (h : Mapped s) : (let yaw := stick frame s valid ⟨(s.rc.function .yaw).toNat, h .yaw⟩
      let gain := s.parameters.rcScaleYaw
      limited (yaw * gain) * gain = limited yaw * gain) ↔ _ :=
    mul_eq_mul_right_iff.trans (or_comm.trans (or_congr_right limited_mul_eq_iff))
  constructor
  · intro hlaw h
    exact (hgain h).1 ((sticks_law_iff valid h hnew hchannels).1 (hlaw.sticks h))
  · intro hsafe
    exact ⟨channels_law valid hnew hchannels,
      fun h => (sticks_law_iff valid h hnew hchannels).2 ((hgain h).2 (hsafe h))⟩

theorem started_valid (i : Fin 8) : (started.parameters.channels i).Valid where
  min_lt := show (1000 : Rat) < 1500 by norm_num
  lt_max := show (1500 : Rat) < 2000 by norm_num
  dz_nonneg := show (0 : Rat) ≤ 30 by norm_num
  dz_lt := show (30 : Rat) < Min.min (1500 - 1000) (2000 - 1500) by norm_num
  rev := .inl rfl

theorem started_mapped : Mapped started := fun f => by cases f <;> decide

/-- The roll to the left, the pitch forward, three quarters of throttle, and the yaw at its end. -/
def fullYaw : PpmFrame :=
  ⟨1, 5, fun i => [1300, 1700, 1750, 2000].getD i.val 1500⟩

/-- With the yaw at its end all is as it should be, wherever the other sticks are. -/
theorem stick_scaling_fullYaw : StickScaling fullYaw started := by
  have hyaw : stick fullYaw started started_valid
      ⟨(started.rc.function .yaw).toNat, started_mapped .yaw⟩ = 1 := by
    decide +kernel
  have hgain : started.parameters.rcScaleYaw = 3 := by decide +kernel
  refine (stick_scaling_iff fullYaw started started_valid (by decide) (by decide)).2 fun _ => ?_
  right; right; right
  rw [hyaw, hgain]
  norm_num

/-- With the yaw half way to its end and the default gain, twice what it should be is published. -/
theorem yaw_scaled_twice : ¬StickScaling ⟨1, 5, fun _ => 1750⟩ started := by
  intro hlaw
  have hgain := (sticks_law_iff started_valid started_mapped (by decide) (by decide)).1
    (hlaw.sticks started_mapped)
  exact absurd hgain (by decide +kernel)

end Px4Firmware.Sensors
