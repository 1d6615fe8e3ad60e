/-!
# Px4Firmware.Drivers.PwmServo

**The PWM outputs of the FMU**: the servo layer (`up_pwm_servo.c`), with the tables of its timers
and channels, and the requests that come through the driver (`FMUServo::ioctl`).

The servo layer keeps one less than the value it is given, and gives that back. The driver never
asks for it: it takes the channel of a read from the number of the first write request, and so asks
for a channel that does not exist. The loops over the timers go to a fixed maximum, which is more
than there are.

`servo_requests_iff` says which values are read back, that no write changes what is read from
another channel, and which requests stay within the tables.
-/

namespace Px4Firmware.Drivers.FmuServo

/-- `FMUServo::Mode`. -/
inductive Mode
  | twoPwm
  | fourPwm
  | none
  deriving DecidableEq

/-! ### The tables -/

/-- `struct pwm_servo_timer`. -/
structure PwmServoTimer where
  base : UInt32
  clockRegister : UInt32
  clockBit : UInt32
  clockFreq : UInt32

/-- `struct pwm_servo_channel`. -/
structure PwmServoChannel where
  gpio : UInt32
  timerIndex : UInt8
  timerChannel : UInt8
  defaultValue : UInt16

/-- `pwm_timers`. -/
def pwmTimers : List PwmServoTimer := [⟨0x40000000, 0x40023840, 1, 84000000⟩]

/-- `pwm_channels`. -/
def pwmChannels : List PwmServoChannel :=
  [⟨0x81800, 0, 1, 1000⟩, ⟨0x81801, 0, 2, 1000⟩, ⟨0x81802, 0, 3, 1000⟩, ⟨0x81803, 0, 4, 1000⟩]

/-- What lies behind the tables. -/
structure Behind where
  timers : Nat → PwmServoTimer
  channels : Nat → PwmServoChannel

/-- `PWM_SERVO_MAX_TIMERS`. -/
def pwmServoMaxTimers : Nat := 2

/-- `PWM_SERVO_MAX_CHANNELS`. -/
def pwmServoMaxChannels : UInt32 := 8

/-- An access to an entry of a table. -/
inductive Access
  | timer (i : Nat)
  | channel (i : Nat)
  deriving DecidableEq

/-- The entry exists. -/
def Access.InTable : Access → Prop
  | .timer i => i < pwmTimers.length
  | .channel i => i < pwmChannels.length

/-- The registers by their addresses, and the accesses to the tables so far. -/
structure Pwm where
  memory : UInt32 → UInt32
  accesses : List Access

namespace Pwm

def write (s : Pwm) (address value : UInt32) : Pwm :=
  { s with memory := fun a => if a = address then value else s.memory a }

/-- `|=` for a register. -/
def setBits (s : Pwm) (address bits : UInt32) : Pwm :=
  s.write address (s.memory address ||| bits)

variable (behind : Behind)

/-- `pwm_timers[i]`. -/
def timer (s : Pwm) (i : Nat) : PwmServoTimer × Pwm :=
  (pwmTimers.getD i (behind.timers i), { s with accesses := s.accesses ++ [.timer i] })

/-- `pwm_channels[i]`. -/
def channel (s : Pwm) (i : Nat) : PwmServoChannel × Pwm :=
  (pwmChannels.getD i (behind.channels i), { s with accesses := s.accesses ++ [.channel i] })

end Pwm

/-! ### The servo layer -/

/-- The offset of the compare register of a channel of a timer. -/
def ccrOffset : UInt8 → Option UInt32
  | 1 => some 0x34
  | 2 => some 0x38
  | 3 => some 0x3c
  | 4 => some 0x40
  | _ => none

section

variable (behind : Behind)

/-- `pwm_timer_init`. -/
def pwmTimerInit (i : Nat) (s : Pwm) : Pwm :=
  let (timer, s) := s.timer behind i
  let s := s.setBits timer.clockRegister timer.clockBit
  let s := [0x00, 0x04, 0x08, 0x0c, 0x20, 0x18, 0x1c, 0x20, 0x48].foldl
    (fun s offset => s.write (timer.base + offset) 0) s
  let s := s.write (timer.base + 0x28) (timer.clockFreq / 1000000 - 1)
  let s := s.write (timer.base + 0x2c) (1000000 / 50 - 1)
  s.write (timer.base + 0x14) 1

/-- `pwm_timer_set_rate`. -/
def pwmTimerSetRate (rate : UInt32) (i : Nat) (s : Pwm) : Pwm :=
  let (timer, s) := s.timer behind i
  (s.write (timer.base + 0x2c) (1000000 / rate)).write (timer.base + 0x14) 1

/-- `pwm_channel_init`, without the configuration of the pin. -/
def pwmChannelInit (i : Nat) (s : Pwm) : Pwm :=
  let (channel, s) := s.channel behind i
  let (timer, s) := s.timer behind channel.timerIndex.toNat
  let enable (mode modeShift ccr enableShift : UInt32) : Pwm :=
    ((s.setBits (timer.base + mode) (6 <<< modeShift)).write (timer.base + ccr)
      channel.defaultValue.toUInt32).setBits (timer.base + 0x20) (1 <<< enableShift)
  match channel.timerChannel with
  | 1 => enable 0x18 4 0x34 0
  | 2 => enable 0x18 12 0x38 4
  | 3 => enable 0x1c 4 0x3c 8
  | 4 => enable 0x1c 12 0x40 12
  | _ => s

/-- `up_pwm_servo_set`. -/
def upPwmServoSet (channel : UInt32) (value : UInt16) (s : Pwm) : Int × Pwm :=
  if pwmServoMaxChannels ≤ channel then (-1, s)
  else
    let (entry, s) := s.channel behind channel.toNat
    let (timer, s) := s.timer behind entry.timerIndex.toNat
    if timer.base = 0 ∨ entry.gpio = 0 then (-1, s)
    else
      let value := if 0 < value then value - 1 else value
      match ccrOffset entry.timerChannel with
      | some offset => (0, s.write (timer.base + offset) value.toUInt32)
      | none => (-1, s)

/-- `up_pwm_servo_get`. -/
def upPwmServoGet (channel : UInt32) (s : Pwm) : UInt16 × Pwm :=
  if pwmServoMaxChannels ≤ channel then (0, s)
  else
    let (entry, s) := s.channel behind channel.toNat
    let (timer, s) := s.timer behind entry.timerIndex.toNat
    if timer.base = 0 ∨ entry.gpio = 0 then (0, s)
    else
      match ccrOffset entry.timerChannel with
      | some offset => ((s.memory (timer.base + offset)).toUInt16, s)
      | none => (0, s)

/-- A loop over the timers, from the timer `i` on. -/
def forTimers (body : Nat → Pwm → Pwm) : Nat → Nat → Pwm → Pwm
  | 0, _, s => s
  | count + 1, i, s =>
      let (timer, s) := s.timer behind i
      forTimers body count (i + 1) (if timer.base ≠ 0 then body i s else s)

/-- The loop over the channels in `up_pwm_servo_init`, from the channel `i` on. -/
def initChannels (channelMask : UInt32) : Nat → Nat → Pwm → Pwm
  | 0, _, s => s
  | count + 1, i, s =>
      if channelMask.toNat.testBit i then
        let (channel, s) := s.channel behind i
        initChannels channelMask count (i + 1)
          (if channel.gpio ≠ 0 then pwmChannelInit behind i s else s)
      else initChannels channelMask count (i + 1) s

/-- `up_pwm_servo_init`. -/
def upPwmServoInit (channelMask : UInt32) (s : Pwm) : Pwm :=
  initChannels behind channelMask pwmServoMaxChannels.toNat 0
    (forTimers behind (pwmTimerInit behind) pwmServoMaxTimers 0 s)

/-- `ERANGE`. -/
def erange : Int := 34

/-- `up_pwm_servo_set_rate`. -/
def upPwmServoSetRate (rate : UInt32) (s : Pwm) : Int × Pwm :=
  if rate < 50 ∨ 400 < rate then (-erange, s)
  else (0, forTimers behind (pwmTimerSetRate behind rate) pwmServoMaxTimers 0 s)

/-- `up_pwm_servo_arm`. -/
def upPwmServoArm (armed : Bool) (s : Pwm) : Pwm :=
  forTimers behind (fun i s =>
    let (timer, s) := s.timer behind i
    s.write timer.base (if armed then 1 else 0)) pwmServoMaxTimers 0 s

/-! ### The requests -/

/-- `_IOC`. -/
def ioc (type nr : UInt32) : UInt32 := type ||| nr

/-- `_PWM_SERVO_BASE`. -/
def pwmServoBase : UInt32 := 0x2700

/-- `PWM_SERVO_ARM`. -/
def pwmServoArm : UInt32 := ioc pwmServoBase 0

/-- `PWM_SERVO_DISARM`. -/
def pwmServoDisarm : UInt32 := ioc pwmServoBase 1

/-- `PWM_SERVO_SET`. -/
def pwmServoSet (servo : UInt32) : UInt32 := ioc pwmServoBase (0x20 + servo)

/-- `PWM_SERVO_GET`. -/
def pwmServoGet (servo : UInt32) : UInt32 := ioc pwmServoBase (0x40 + servo)

/-- `EINVAL`. -/
def einval : Int := 22

/-- `ENOTTY`. -/
def enotty : Int := 25

/-- What a request returns, what it stores through the pointer, and the registers. -/
structure Outcome where
  ret : Int
  position : Option UInt16
  pwm : Pwm

/-- `FMUServo::ioctl`, for the requests of the PWM outputs. -/
def servoIoctl (mode : Mode) (cmd arg : UInt32) (s : Pwm) : Outcome :=
  if cmd = pwmServoArm then ⟨0, none, upPwmServoArm behind true s⟩
  else if cmd = pwmServoDisarm then ⟨0, none, upPwmServoArm behind false s⟩
  else if (cmd = pwmServoSet 2 ∨ cmd = pwmServoSet 3) ∧ mode ≠ .fourPwm then ⟨-einval, none, s⟩
  else if cmd = pwmServoSet 2 ∨ cmd = pwmServoSet 3 ∨ cmd = pwmServoSet 0 ∨ cmd = pwmServoSet 1 then
    if arg < 2100 then
      let channel := cmd - pwmServoSet 0
      ⟨0, none, (upPwmServoSet behind channel arg.toUInt16 s).2⟩
    else ⟨-einval, none, s⟩
  else if (cmd = pwmServoGet 2 ∨ cmd = pwmServoGet 3) ∧ mode ≠ .fourPwm then ⟨-einval, none, s⟩
  else if cmd = pwmServoGet 2 ∨ cmd = pwmServoGet 3 ∨ cmd = pwmServoGet 0 ∨ cmd = pwmServoGet 1 then
    let channel := cmd - pwmServoSet 0
    let (position, s) := upPwmServoGet behind channel s
    ⟨0, some position, s⟩
  else ⟨-enotty, none, s⟩

/-- How many channels the mode has, as `MIXERIOCGETOUTPUTCOUNT` says. -/
def outputCount (mode : Mode) : UInt32 := if mode = .fourPwm then 4 else 2

/-- Write requests for channels, one after the other. -/
def servoSets (mode : Mode) (sets : List (UInt32 × UInt32)) (s : Pwm) : Pwm :=
  sets.foldl (fun s set => (servoIoctl behind mode (pwmServoSet set.1) set.2 s).pwm) s

/-- A request of any number, a change of the rate, or an arming update of the main loop. -/
inductive ServoRequest
  | ioctl (cmd arg : UInt32)
  | setRate (rate : UInt32)
  | arm (armed : Bool)

def perform (mode : Mode) (s : Pwm) : ServoRequest → Pwm
  | .ioctl cmd arg => (servoIoctl behind mode cmd arg s).pwm
  | .setRate rate => (upPwmServoSetRate behind rate s).2
  | .arm armed => upPwmServoArm behind armed s

/-- The request does not loop over the timers. -/
def ServoRequest.WithinTables : ServoRequest → Prop
  | .ioctl cmd _ => cmd ≠ pwmServoArm ∧ cmd ≠ pwmServoDisarm
  | .setRate rate => rate < 50 ∨ 400 < rate
  | .arm _ => False

end

/-! ### The servo layer keeps the channels apart -/

section

variable {behind : Behind} {s : Pwm} {channel other : UInt32}

/-- The compare register of a channel. -/
def ccr (channel : UInt32) : UInt32 := 0x40000034 + 4 * channel

/-- The accesses to the entry of a channel and to that of its timer. -/
def Pwm.access (s : Pwm) (channel : UInt32) : Pwm :=
  { s with accesses := s.accesses ++ [Access.channel channel.toNat, Access.timer 0] }

theorem lt_four (h : channel < 4) : channel = 0 ∨ channel = 1 ∨ channel = 2 ∨ channel = 3 := by
  have hlt : channel.toNat < 4 := h
  simp only [← UInt32.toNat_inj]
  simp
  omega

/-- A write goes to the compare register of the channel. -/
theorem upPwmServoSet_eq (h : channel < 4) (value : UInt16) :
    upPwmServoSet behind channel value s = (0, (s.access channel).write (ccr channel)
      (if 0 < value then value - 1 else value).toUInt32) := by
  rcases lt_four h with rfl | rfl | rfl | rfl <;>
    simp [upPwmServoSet, Pwm.channel, Pwm.timer, Pwm.access, pwmServoMaxChannels, pwmChannels,
      pwmTimers, ccrOffset, ccr]

/-- A read comes from there. -/
theorem upPwmServoGet_eq (h : channel < 4) :
    upPwmServoGet behind channel s =
      ((s.memory (ccr channel)).toUInt16, s.access channel) := by
  rcases lt_four h with rfl | rfl | rfl | rfl <;>
    simp [upPwmServoGet, Pwm.channel, Pwm.timer, Pwm.access, pwmServoMaxChannels, pwmChannels,
      pwmTimers, ccrOffset, ccr]

theorem ccr_injective (h : channel < 4) (h' : other < 4) (hne : channel ≠ other) :
    ccr channel ≠ ccr other := by
  rcases lt_four h with rfl | rfl | rfl | rfl <;> rcases lt_four h' with rfl | rfl | rfl | rfl <;>
    first | exact absurd rfl hne | decide

/-- **The servo layer** gives back one less than it was given, unless that is zero, and a write
leaves the other channels alone. -/
theorem upPwmServoGet_set (h : channel < 4) (h' : other < 4) (value : UInt16) :
    (upPwmServoGet behind other (upPwmServoSet behind channel value s).2).1 =
      if other = channel then (if 0 < value then value - 1 else value)
      else (upPwmServoGet behind other s).1 := by
  rw [upPwmServoSet_eq h, upPwmServoGet_eq h', upPwmServoGet_eq h']
  by_cases hsame : other = channel
  · subst hsame
    simp [Pwm.write]
  · simp [Pwm.write, Pwm.access, hsame, ccr_injective h' h hsame]

end

/-! ### The requests -/

section

variable {behind : Behind} {mode : Mode} {s : Pwm} {channel : UInt32}

theorem outputCount_le (mode : Mode) : outputCount mode ≤ 4 := by
  cases mode <;> decide

/-- There is one mode only in which the third channel and the fourth one are outputs. -/
theorem fourPwm_of_le (h : channel < outputCount mode) (hle : 2 ≤ channel) : mode = .fourPwm := by
  unfold outputCount at h
  split at h
  next hmode => exact hmode
  next => exact absurd h (UInt32.not_lt.2 hle)

/-- The channels of a mode. -/
theorem channel_cases (h : channel < outputCount mode) :
    channel = 0 ∨ channel = 1 ∨ (channel = 2 ∨ channel = 3) ∧ mode = .fourPwm := by
  rcases lt_four (UInt32.lt_of_lt_of_le h (outputCount_le mode)) with rfl | rfl | rfl | rfl
  · exact .inl rfl
  · exact .inr (.inl rfl)
  · exact .inr (.inr ⟨.inl rfl, fourPwm_of_le h (by decide)⟩)
  · exact .inr (.inr ⟨.inr rfl, fourPwm_of_le h (by decide)⟩)

/-- **A read request** asks for a channel that does not exist, and gets zero. -/
theorem servoIoctl_get (h : channel < outputCount mode) (arg : UInt32) :
    servoIoctl behind mode (pwmServoGet channel) arg s = ⟨0, some 0, s⟩ := by
  rcases channel_cases h with rfl | rfl | ⟨rfl | rfl, rfl⟩
  · rfl
  · rfl
  · rfl
  · rfl

/-- **A write request** sets the channel, if the value is accepted. -/
theorem servoIoctl_set (h : channel < outputCount mode) (arg : UInt32) :
    servoIoctl behind mode (pwmServoSet channel) arg s =
      if arg < 2100 then ⟨0, none, (upPwmServoSet behind channel arg.toUInt16 s).2⟩
      else ⟨-einval, none, s⟩ := by
  rcases channel_cases h with rfl | rfl | ⟨rfl | rfl, rfl⟩
  · rfl
  · rfl
  · rfl
  · rfl

/-! ### The accesses -/

/-- A loop over the timers accesses the entries of all of them. -/
theorem forTimers_accesses {body : Nat → Pwm → Pwm}
    (hbody : ∀ i s, ∃ n, (body i s).accesses = s.accesses ++ List.replicate n (.timer i))
    (count i : Nat) (s : Pwm) :
    ∃ added, (forTimers behind body count i s).accesses = s.accesses ++ added ∧
      ∀ a, a ∈ added ↔ ∃ j, i ≤ j ∧ j < i + count ∧ a = .timer j := by
  induction count generalizing i s with
  | zero =>
      refine ⟨[], (List.append_nil _).symm, fun a => ?_⟩
      simp
      omega
  | succ count ih =>
      unfold forTimers
      dsimp only
      obtain ⟨n, hn⟩ : ∃ n, (if (s.timer behind i).1.base ≠ 0 then body i (s.timer behind i).2
          else (s.timer behind i).2).accesses =
            s.accesses ++ .timer i :: List.replicate n (.timer i) := by
        split
        · obtain ⟨n, hn⟩ := hbody i (s.timer behind i).2
          refine ⟨n, ?_⟩
          rw [hn, Pwm.timer, List.append_assoc]
          rfl
        · exact ⟨0, rfl⟩
      obtain ⟨added, hadded, hmem⟩ := ih (i + 1) (if (s.timer behind i).1.base ≠ 0 then
        body i (s.timer behind i).2 else (s.timer behind i).2)
      refine ⟨.timer i :: List.replicate n (.timer i) ++ added, ?_, fun a => ?_⟩
      · rw [hadded, hn, List.append_assoc]
      · simp only [List.cons_append, List.mem_cons, List.mem_append, List.mem_replicate, hmem]
        constructor
        · rintro (rfl | ⟨-, rfl⟩ | ⟨j, hge, hlt, rfl⟩)
          · exact ⟨i, Nat.le_refl i, by omega, rfl⟩
          · exact ⟨i, Nat.le_refl i, by omega, rfl⟩
          · exact ⟨j, by omega, by omega, rfl⟩
        · rintro ⟨j, hge, hlt, rfl⟩
          rcases Nat.eq_or_lt_of_le hge with rfl | hgt
          · exact .inl rfl
          · exact .inr (.inr ⟨j, hgt, by omega, rfl⟩)

/-- So the loops of the servo layer leave the table. -/
theorem forTimers_leaves {body : Nat → Pwm → Pwm}
    (hbody : ∀ i s, ∃ n, (body i s).accesses = s.accesses ++ List.replicate n (.timer i))
    (s : Pwm) :
    ∃ added, (forTimers behind body pwmServoMaxTimers 0 s).accesses = s.accesses ++ added ∧
      ¬ ∀ a ∈ added, a.InTable := by
  obtain ⟨added, hadded, hmem⟩ :=
    @forTimers_accesses behind body hbody pwmServoMaxTimers 0 s
  refine ⟨added, hadded, fun h => ?_⟩
  have hout : 1 < pwmTimers.length := h (.timer 1) ((hmem _).2 ⟨1, by decide, by decide, rfl⟩)
  exact absurd hout (by decide)

theorem upPwmServoArm_leaves (armed : Bool) (s : Pwm) :
    ∃ added, (upPwmServoArm behind armed s).accesses = s.accesses ++ added ∧
      ¬ ∀ a ∈ added, a.InTable :=
  forTimers_leaves (fun _ _ => ⟨1, rfl⟩) s

/-- The other requests stay within the tables. -/
theorem servoIoctl_accesses {cmd : UInt32} (harm : cmd ≠ pwmServoArm)
    (hdisarm : cmd ≠ pwmServoDisarm) (arg : UInt32) :
    ∃ added, (servoIoctl behind mode cmd arg s).pwm.accesses = s.accesses ++ added ∧
      ∀ a ∈ added, a.InTable := by
  have hnothing : ∃ added, s.accesses = s.accesses ++ added ∧ ∀ a ∈ added, a.InTable :=
    ⟨[], (List.append_nil _).symm, fun a ha => absurd ha List.not_mem_nil⟩
  unfold servoIoctl
  rw [if_neg harm, if_neg hdisarm]
  split
  next => exact hnothing
  next =>
    split
    next hset =>
      split
      next =>
        have hchannel : cmd - pwmServoSet 0 < 4 := by
          rcases hset with rfl | rfl | rfl | rfl <;> decide
        dsimp only
        rw [upPwmServoSet_eq hchannel]
        refine ⟨[.channel (cmd - pwmServoSet 0).toNat, .timer 0], rfl, fun a ha => ?_⟩
        rcases List.mem_cons.1 ha with rfl | ha
        · exact hchannel
        · rw [List.mem_singleton.1 ha]
          exact Nat.zero_lt_one
      next => exact hnothing
    next =>
      split
      next => exact hnothing
      next =>
        split
        next hget =>
          have hchannel : pwmServoMaxChannels ≤ cmd - pwmServoSet 0 := by
            rcases hget with rfl | rfl | rfl | rfl <;> decide
          dsimp only
          unfold upPwmServoGet
          rw [if_pos hchannel]
          exact hnothing
        next => exact hnothing

/-- **A request** stays within the tables exactly when it does not loop over the timers. -/
theorem perform_accesses (s : Pwm) (request : ServoRequest) :
    ∃ added, (perform behind mode s request).accesses = s.accesses ++ added ∧
      ((∀ a ∈ added, a.InTable) ↔ request.WithinTables) := by
  cases request with
  | ioctl cmd arg =>
      by_cases harm : cmd = pwmServoArm
      · subst harm
        obtain ⟨added, hadded, hout⟩ := @upPwmServoArm_leaves behind true s
        exact ⟨added, hadded, fun h => absurd h hout, fun h => absurd rfl h.1⟩
      · by_cases hdisarm : cmd = pwmServoDisarm
        · subst hdisarm
          obtain ⟨added, hadded, hout⟩ := @upPwmServoArm_leaves behind false s
          exact ⟨added, hadded, fun h => absurd h hout, fun h => absurd rfl h.2⟩
        · obtain ⟨added, hadded, hin⟩ := @servoIoctl_accesses behind mode s cmd harm hdisarm arg
          exact ⟨added, hadded, fun _ => ⟨harm, hdisarm⟩, fun _ => hin⟩
  | setRate rate =>
      unfold perform upPwmServoSetRate ServoRequest.WithinTables
      dsimp only
      split
      next hrate =>
        exact ⟨[], (List.append_nil _).symm, fun _ => hrate,
          fun _ a ha => absurd ha List.not_mem_nil⟩
      next hrate =>
        obtain ⟨added, hadded, hout⟩ :=
          @forTimers_leaves behind (pwmTimerSetRate behind rate) (fun _ _ => ⟨1, rfl⟩) s
        exact ⟨added, hadded, fun h => absurd h hout, fun h => absurd h hrate⟩
  | arm armed =>
      obtain ⟨added, hadded, hout⟩ := @upPwmServoArm_leaves behind armed s
      exact ⟨added, hadded, fun h => absurd h hout, fun h => absurd h id⟩

/-- The initialisation of the channels that exist stays within the tables. -/
theorem initChannels_accesses {channelMask : UInt32} (hmask : channelMask.toNat < 16)
    (count i : Nat) (s : Pwm) :
    ∃ added, (initChannels behind channelMask count i s).accesses = s.accesses ++ added ∧
      ∀ a ∈ added, a.InTable := by
  induction count generalizing i s with
  | zero => exact ⟨[], (List.append_nil _).symm, fun a ha => absurd ha List.not_mem_nil⟩
  | succ count ih =>
      unfold initChannels
      split
      next hbit =>
        have hi : i < 4 := by
          refine Nat.lt_of_not_le fun hge => ?_
          have hpow : 2 ^ 4 ≤ 2 ^ i := Nat.pow_le_pow_right (by decide) hge
          rw [Nat.testBit_lt_two_pow (by omega)] at hbit
          cases hbit
        have hentry : (if (s.channel behind i).1.gpio ≠ 0 then
            pwmChannelInit behind i (s.channel behind i).2 else (s.channel behind i).2).accesses =
              s.accesses ++ [.channel i] ++ [.channel i] ++ [.timer 0] := by
          obtain rfl | rfl | rfl | rfl : i = 0 ∨ i = 1 ∨ i = 2 ∨ i = 3 := by omega
          all_goals rfl
        obtain ⟨added, hadded, hin⟩ := ih (i + 1) (if (s.channel behind i).1.gpio ≠ 0 then
          pwmChannelInit behind i (s.channel behind i).2 else (s.channel behind i).2)
        refine ⟨[.channel i, .channel i, .timer 0] ++ added, ?_, fun a ha => ?_⟩
        · rw [hadded, hentry]
          simp only [List.append_assoc, List.cons_append, List.nil_append]
        · rcases List.mem_append.1 ha with ha | ha
          · simp only [List.mem_cons, List.not_mem_nil, or_false] at ha
            rcases ha with rfl | rfl | rfl
            · exact hi
            · exact hi
            · exact Nat.zero_lt_one
          · exact hin a ha
      next => exact ih (i + 1) s

/-- **The initialisation** of channels that exist leaves the tables, too, in its loop over the
timers. -/
theorem upPwmServoInit_accesses {channelMask : UInt32} (hmask : channelMask.toNat < 16) (s : Pwm) :
    ∃ timers channels, (upPwmServoInit behind channelMask s).accesses =
        s.accesses ++ timers ++ channels ∧
      (¬ ∀ a ∈ timers, a.InTable) ∧ ∀ a ∈ channels, a.InTable := by
  obtain ⟨timers, htimers, hout⟩ :=
    @forTimers_leaves behind (pwmTimerInit behind) (fun _ _ => ⟨1, rfl⟩) s
  obtain ⟨channels, hchannels, hin⟩ := @initChannels_accesses behind channelMask hmask
    pwmServoMaxChannels.toNat 0 (forTimers behind (pwmTimerInit behind) pwmServoMaxTimers 0 s)
  exact ⟨timers, channels, by rw [upPwmServoInit, hchannels, htimers], hout, hin⟩

/-- Over any requests. -/
theorem accesses_iff (requests : List ServoRequest) (s : Pwm) :
    (∀ a ∈ (requests.foldl (perform behind mode) s).accesses, a.InTable) ↔
      (∀ a ∈ s.accesses, a.InTable) ∧ ∀ request ∈ requests, request.WithinTables := by
  induction requests generalizing s with
  | nil => simp
  | cons request requests ih =>
      obtain ⟨added, hadded, hiff⟩ := @perform_accesses behind mode s request
      rw [List.foldl_cons, ih, hadded, List.forall_mem_append, hiff, List.forall_mem_cons,
        and_assoc]

/-- **The requests.** In any mode, with anything behind the tables: what is read back after a value
has been accepted, with any writes to other channels in between, is that value exactly when it is
zero; a write never changes what is read from another channel, through the requests or in the servo
layer; and any number of requests stay within the tables exactly when none of them arms, disarms, or
sets a rate in range. -/
theorem servo_requests_iff (behind : Behind) (mode : Mode) :
    (∀ (s : Pwm) (channel arg pointer : UInt32) (sets : List (UInt32 × UInt32)),
      channel < outputCount mode →
      (servoIoctl behind mode (pwmServoSet channel) arg s).ret = 0 →
      (∀ set ∈ sets, set.1 < outputCount mode ∧ set.1 ≠ channel) →
      ((servoIoctl behind mode (pwmServoGet channel) pointer (servoSets behind mode sets
          (servoIoctl behind mode (pwmServoSet channel) arg s).pwm)).position.map UInt16.toNat =
        some arg.toNat ↔ arg = 0)) ∧
    (∀ (s : Pwm) (channel other arg pointer : UInt32),
      channel < outputCount mode → other < outputCount mode → other ≠ channel →
      (servoIoctl behind mode (pwmServoGet other) pointer
          (servoIoctl behind mode (pwmServoSet channel) arg s).pwm).position =
        (servoIoctl behind mode (pwmServoGet other) pointer s).position ∧
      (upPwmServoGet behind other (servoIoctl behind mode (pwmServoSet channel) arg s).pwm).1 =
        (upPwmServoGet behind other s).1) ∧
    ∀ (memory : UInt32 → UInt32) (requests : List ServoRequest),
      (∀ a ∈ (requests.foldl (perform behind mode) ⟨memory, []⟩).accesses, a.InTable) ↔
        ∀ request ∈ requests, request.WithinTables := by
  refine ⟨?_, ?_, ?_⟩
  · intro s channel arg pointer sets hchannel haccepted _
    rw [servoIoctl_get hchannel]
    simp [← UInt32.toNat_inj, eq_comm]
  · intro s channel other arg pointer hchannel hother hne
    refine ⟨by rw [servoIoctl_get hother, servoIoctl_get hother], ?_⟩
    rw [servoIoctl_set hchannel]
    split
    next =>
      have hlt := UInt32.lt_of_lt_of_le hchannel (outputCount_le mode)
      have hlt' := UInt32.lt_of_lt_of_le hother (outputCount_le mode)
      exact (upPwmServoGet_set hlt hlt' arg.toUInt16).trans (if_neg hne)
    next => rfl
  · intro memory requests
    rw [accesses_iff]
    simp

end

/-! ### Values that are read back, and values that are not -/

/-- Zeros behind the tables. -/
def nothingBehind : Behind where
  timers _ := ⟨0, 0, 0, 0⟩
  channels _ := ⟨0, 0, 0, 0⟩

/-- Zero is read back, with a write to another channel in between. -/
theorem zero_read_back :
    (servoIoctl nothingBehind .fourPwm (pwmServoGet 0) 0
      (servoSets nothingBehind .fourPwm [(1, 1500)]
        (servoIoctl nothingBehind .fourPwm (pwmServoSet 0) 0 ⟨fun _ => 0, []⟩).pwm)).position.map
          UInt16.toNat = some 0 := by
  refine ((servo_requests_iff nothingBehind .fourPwm).1 _ 0 0 0 [(1, 1500)] (by decide) (by decide)
    ?_).2 rfl
  intro set hset
  rw [List.mem_singleton.1 hset]
  decide

/-- 1500 is written to the first channel, and zero is read. -/
theorem not_read_back : ¬ ∀ (mode : Mode) (s : Pwm) (channel arg pointer : UInt32),
    channel < outputCount mode →
    (servoIoctl nothingBehind mode (pwmServoSet channel) arg s).ret = 0 →
    (servoIoctl nothingBehind mode (pwmServoGet channel) pointer
      (servoIoctl nothingBehind mode (pwmServoSet channel) arg s).pwm).position =
        some arg.toUInt16 := by
  intro h
  have hread := h .fourPwm ⟨fun _ => 0, []⟩ 0 1500 0 (by decide) (by decide)
  exact absurd hread (by decide)

end Px4Firmware.Drivers.FmuServo
