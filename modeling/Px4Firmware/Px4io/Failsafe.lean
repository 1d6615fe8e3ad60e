import Mathlib.Data.List.GetD
import Px4Firmware.Px4io.Interlock

/-!
# Px4Firmware.Px4io.Failsafe

**The failsafe of the mixer.** Here every frame is handled before the next tick. A tick uses the
values of the FMU as long as its latest frame is recent, otherwise the latest values of the RC input
if they are recent, and otherwise no values (`failsafe`).

The module keeps two counters and two flags for that, in two contexts. What they stand for is the
age of the latest input: `Latest` counts it without a limit, and `InputsInv` says what the counters
and flags are at each age.
-/

namespace Px4Firmware.Px4io

open Px4Firmware.Lib

/-! ### The system -/

/-- What the module is called with: a frame, a sample of the button, a message of the RC input, or
a tick of the mixer. -/
inductive Call
  | frame (buffer : List UInt8)
  | button (pressed : Bool)
  | rcInput (message : RcMessage)
  | tick

/-- The next state. -/
def SysState.next (s : SysState) : Call → SysState
  | .frame buffer => commsHandleFrame buffer s
  | .button pressed => safetyCheckButton pressed s
  | .rcInput message => s.rcInput message
  | .tick => (mixerTick s).2

/-- The module, when no call interrupts another. -/
def px4ioCalls : LTS SysState Call where
  init s := s = reset
  step s call t := t = s.next call

/-- One call is a run of the module. -/
theorem run_of_call (s : SysState) (cmd : Command) (call : Call) :
    ∃ es cmd', px4io.Run ⟨s, cmd, []⟩ es ⟨s.next call, cmd', []⟩ := by
  cases call with
  | frame buffer =>
      cases hcmd : toCommand buffer with
      | none =>
          refine ⟨[.frame buffer], cmd, .cons ?_ (.nil _)⟩
          simp only [px4io, Io.next, SysState.next, commsHandleFrame, hcmd]
      | some cmd' =>
          obtain ⟨n, hrun⟩ := uninterrupted_frame hcmd s
          refine ⟨.frame buffer :: List.replicate n .statement, cmd', .cons ?_ hrun⟩
          simp only [px4io, Io.next, hcmd]
  | button pressed => exact ⟨[.button pressed], cmd, .cons rfl (.nil _)⟩
  | rcInput message => exact ⟨[.rcInput message], cmd, .cons rfl (.nil _)⟩
  | tick => exact ⟨[.mixer], cmd, .cons rfl (.nil _)⟩

/-- A run of whole calls is a run of the module, so what holds there holds here. -/
theorem run_of_calls {s t : SysState} {calls : List Call} (h : px4ioCalls.Run s calls t)
    (cmd : Command) : ∃ es cmd', px4io.Run ⟨s, cmd, []⟩ es ⟨t, cmd', []⟩ := by
  induction h generalizing cmd with
  | nil s => exact ⟨[], cmd, .nil _⟩
  | @cons s t u call calls hstep _ ih =>
      obtain ⟨es, cmd', hcall⟩ := run_of_call s cmd call
      rw [← show t = s.next call from hstep] at hcall
      obtain ⟨es', cmd'', hrest⟩ := ih cmd'
      exact ⟨es ++ es', cmd'', hcall.append hrest⟩

/-! ### The latest input and its age -/

/-- The latest value of an input, if there was one, and its age in ticks. -/
abbrev Latest (α : Type) := Option (α × Nat)

namespace Latest

variable {α : Type}

/-- One tick later. -/
def tick (latest : Latest α) : Latest α := latest.map fun (value, age) => (value, age + 1)

/-- The value, if it is not older than the limit. -/
def within (limit : Nat) : Latest α → Option α
  | some (value, age) => if age ≤ limit then some value else none
  | none => none

theorem within_of_le {limit age : Nat} (h : age ≤ limit) (value : α) :
    within limit (some (value, age)) = some value := if_pos h

theorem within_of_lt {limit age : Nat} (h : limit < age) (value : α) :
    within limit (some (value, age)) = none := if_neg (Nat.not_le_of_lt h)

/-- A tick makes the value older, and keeps it. -/
theorem forall_tick {latest : Latest α} {P : α → Prop}
    (h : ∀ value age, latest = some (value, age) → P value) :
    ∀ value age, latest.tick = some (value, age) → P value := by
  intro value age htick
  obtain ⟨⟨v, n⟩, hlatest, hpair⟩ := Option.map_eq_some_iff.mp htick
  cases hpair
  exact h value n hlatest

theorem within_eq_some {limit : Nat} {latest : Latest α} {value : α} :
    latest.within limit = some value ↔ ∃ age, latest = some (value, age) ∧ age ≤ limit := by
  cases latest with
  | none => simp [within]
  | some pair =>
      obtain ⟨v, age⟩ := pair
      simp only [within]
      by_cases hage : age ≤ limit
      · rw [if_pos hage]
        constructor
        · intro h
          cases h
          exact ⟨age, rfl, hage⟩
        · intro h
          obtain ⟨_, h, -⟩ := h
          cases h
          rfl
      · rw [if_neg hage]
        constructor
        · intro h
          cases h
        · intro h
          obtain ⟨_, h, h'⟩ := h
          cases h
          exact absurd h' hage

end Latest

/-- The inputs up to now: the latest frame with the ticks since, and the latest message with a
channel with the ticks since the tick that took it. -/
structure Inputs where
  fmu : Latest (Vector UInt16 outputChannels)
  rc : Latest (List UInt16)

/-- The channels that the next tick takes from the queue. -/
def SysState.pending (s : SysState) : List UInt16 :=
  (s.inputQueue.head?.map RcMessage.channels).getD []

/-- Watch the inputs. -/
def Inputs.watch (inputs : Inputs) (s : SysState) (call : Call) (_ : SysState) : Inputs :=
  match call with
  | .frame buffer =>
      match toCommand buffer with
      | some cmd => { inputs with fmu := some (cmd.servoCommand, 0) }
      | none => inputs
  | .tick =>
      { fmu := inputs.fmu.tick
        rc := if s.pending ≠ [] then some (s.pending, 0) else inputs.rc.tick }
  | _ => inputs

/-- The module with its inputs. -/
def px4ioInputs : LTS (SysState × Inputs) Call :=
  px4ioCalls.observe { fmu := none, rc := none } Inputs.watch

/-! ### The counters and flags at each age -/

/-- What the mixer knows about the FMU when its latest frame is this old. -/
structure FmuInv (s : SysState) (fmu : Latest (Vector UInt16 outputChannels)) : Prop where
  useFmu : s.mixerUseFmu = (fmu.within fmuInputDropLimit).isSome
  values : ∀ values age, fmu = some (values, age) → s.fmuChannelData = values
  -- The first tick after a frame consumes the flag; the counter starts with the second one.
  received : ∀ values age, fmu = some (values, age) → age ≤ fmuInputDropLimit →
    s.fmuDataReceived = decide (age = 0) ∧ (0 < age → s.fmuInputDrops + 1 = age)

/-- What the mixer knows about the RC input when its latest message is this old. -/
structure RcInv (s : SysState) (rc : Latest (List UInt16)) : Prop where
  values : s.rcChannelData = (rc.within (mixerInputDropLimit - 1)).getD []
  channels : ∀ values age, rc = some (values, age) → values ≠ []
  drops : ∀ values age, rc = some (values, age) → age < mixerInputDropLimit →
    s.mixerInputDrops = age

/-- The failsafe's invariant. -/
structure InputsInv (s : SysState) (inputs : Inputs) : Prop where
  fmu : FmuInv s inputs.fmu
  rc : RcInv s inputs.rc

/-! ### One tick -/

/-- What the choice of the input looks at, as far as it comes from the FMU. -/
def SysState.fmuPart (s : SysState) : Vector UInt16 outputChannels × Bool × Bool × Nat :=
  (s.fmuChannelData, s.mixerUseFmu, s.fmuDataReceived, s.fmuInputDrops)

/-- What the choice of the input looks at, as far as it comes from the RC input. -/
def SysState.rcPart (s : SysState) : List UInt16 × Nat := (s.rcChannelData, s.mixerInputDrops)

/-- The button has nothing to do with the inputs. -/
theorem safetyCheckButton_parts (pressed : Bool) (s : SysState) :
    (safetyCheckButton pressed s).fmuPart = s.fmuPart ∧
      (safetyCheckButton pressed s).rcPart = s.rcPart := by
  unfold safetyCheckButton debounceButton
  dsimp only
  split_ifs <;> exact ⟨rfl, rfl⟩

theorem FmuInv.congr {s t : SysState} {fmu : Latest (Vector UInt16 outputChannels)}
    (h : FmuInv s fmu) (heq : t.fmuPart = s.fmuPart) : FmuInv t fmu := by
  simp only [SysState.fmuPart, Prod.mk.injEq] at heq
  obtain ⟨hdata, huse, hreceived, hdrops⟩ := heq
  refine ⟨huse.trans h.useFmu, fun values age hfmu => hdata.trans (h.values values age hfmu), ?_⟩
  rw [hreceived, hdrops]
  exact h.received

theorem RcInv.congr {s t : SysState} {rc : Latest (List UInt16)} (h : RcInv s rc)
    (heq : t.rcPart = s.rcPart) : RcInv t rc := by
  simp only [SysState.rcPart, Prod.mk.injEq] at heq
  obtain ⟨hdata, hdrops⟩ := heq
  refine ⟨hdata.trans h.values, h.channels, ?_⟩
  rw [hdrops]
  exact h.drops

theorem mixerGetRcInput_fmuPart (s : SysState) : (mixerGetRcInput s).fmuPart = s.fmuPart := by
  unfold mixerGetRcInput
  dsimp only
  split_ifs <;> rfl

theorem selectInput_rcPart (s : SysState) : (selectInput s).2.rcPart = s.rcPart := by
  unfold selectInput
  dsimp only
  split_ifs <;> rfl

theorem selectInput_unused {s : SysState} (h : s.mixerUseFmu = false) : (selectInput s).2 = s := by
  unfold selectInput
  dsimp only
  rw [if_neg (by rw [h]; exact Bool.false_ne_true)]
  split_ifs <;> rfl

/-- The first tick after a frame. -/
theorem selectInput_received {s : SysState} (huse : s.mixerUseFmu = true)
    (hreceived : s.fmuDataReceived = true) :
    (selectInput s).2 = { s with fmuInputDrops := 0, fmuDataReceived := false } := by
  unfold selectInput
  dsimp only
  rw [if_pos huse, if_neg (by rw [hreceived]; exact Bool.false_ne_true)]

/-- A later tick. -/
theorem selectInput_missed {s : SysState} (huse : s.mixerUseFmu = true)
    (hmissed : s.fmuDataReceived = false) :
    (selectInput s).2 = { s with
      fmuInputDrops := s.fmuInputDrops + 1
      mixerUseFmu := decide (s.fmuInputDrops + 1 < fmuInputDropLimit) } := by
  unfold selectInput
  dsimp only
  rw [if_pos huse, if_pos (by rw [hmissed]; rfl)]
  by_cases hlimit : fmuInputDropLimit ≤ s.fmuInputDrops + 1
  · rw [if_pos hlimit, decide_eq_false (Nat.not_lt_of_le hlimit)]
  · rw [if_neg hlimit, decide_eq_true (Nat.lt_of_not_le hlimit), ← huse]

/-- A tick that takes a message with a channel. -/
theorem mixerGetRcInput_taken {s : SysState} (h : s.pending ≠ []) :
    (mixerGetRcInput s).rcPart = (s.pending, 0) := by
  unfold mixerGetRcInput
  dsimp only
  rw [show (s.inputQueue.head?.map RcMessage.channels).getD [] = s.pending from rfl, if_pos h]
  rfl

/-- A tick without one, while the values are kept. -/
theorem mixerGetRcInput_counted {s : SysState} (h : s.pending = [])
    (hdrops : s.mixerInputDrops < mixerInputDropLimit) :
    (mixerGetRcInput s).rcPart =
      (if s.mixerInputDrops + 1 = mixerInputDropLimit then [] else s.rcChannelData,
        s.mixerInputDrops + 1) := by
  unfold mixerGetRcInput
  dsimp only
  rw [show (s.inputQueue.head?.map RcMessage.channels).getD [] = s.pending from rfl,
    if_neg (not_not_intro h), if_pos hdrops]
  split_ifs <;> rfl

/-- A tick without one never brings values back. -/
theorem mixerGetRcInput_gone {s : SysState} (h : s.pending = []) (hgone : s.rcChannelData = []) :
    (mixerGetRcInput s).rcChannelData = [] := by
  unfold mixerGetRcInput
  dsimp only
  rw [show (s.inputQueue.head?.map RcMessage.channels).getD [] = s.pending from rfl,
    if_neg (not_not_intro h)]
  split_ifs
  · rfl
  · exact hgone
  · exact hgone

/-- The RC input's part of a tick that takes no message. -/
theorem RcInv.silent {s : SysState} {rc : Latest (List UInt16)} (h : RcInv s rc)
    (hsilent : s.pending = []) : RcInv (mixerGetRcInput s) rc.tick := by
  have hchannels : ∀ values age, rc.tick = some (values, age) → values ≠ [] :=
    Latest.forall_tick h.channels
  have hvalues := h.values
  cases rc with
  | none =>
      refine ⟨mixerGetRcInput_gone hsilent hvalues, hchannels, ?_⟩
      intro values age heq
      cases heq
  | some pair =>
      obtain ⟨v, n⟩ := pair
      by_cases hage : n < mixerInputDropLimit
      · -- The counter is the age: it reaches the limit in this tick or later.
        have hcount := h.drops v n rfl hage
        have hpart := mixerGetRcInput_counted hsilent (by omega)
        simp only [SysState.rcPart, Prod.mk.injEq] at hpart
        obtain ⟨hdata, hdrops⟩ := hpart
        rw [Latest.within_of_le (by omega)] at hvalues
        refine ⟨hdata.trans ?_, hchannels, ?_⟩
        · by_cases hlast : n + 1 = mixerInputDropLimit
          · rw [if_pos (by omega), Latest.tick, Option.map_some, Latest.within_of_lt (by omega)]
            rfl
          · rw [if_neg (by omega), Latest.tick, Option.map_some, Latest.within_of_le (by omega)]
            exact hvalues
        · intro values age heq _
          cases heq
          rw [hdrops, hcount]
      · -- The values are gone already.
        have hold : mixerInputDropLimit - 1 < n := by
          unfold mixerInputDropLimit at hage ⊢
          omega
        rw [Latest.within_of_lt hold] at hvalues
        refine ⟨?_, hchannels, ?_⟩
        · rw [Latest.tick, Option.map_some, Latest.within_of_lt (Nat.lt_succ_of_lt hold)]
          exact mixerGetRcInput_gone hsilent hvalues
        · intro values age heq hlt
          cases heq
          omega

/-- The RC input's part of a tick. -/
theorem RcInv.mixerGetRcInput {s : SysState} {rc : Latest (List UInt16)} (h : RcInv s rc) :
    RcInv (mixerGetRcInput s) (if s.pending ≠ [] then some (s.pending, 0) else rc.tick) := by
  by_cases hpending : s.pending = []
  · rw [if_neg (not_not_intro hpending)]
    exact h.silent hpending
  · rw [if_pos hpending]
    have hpart := mixerGetRcInput_taken hpending
    simp only [SysState.rcPart, Prod.mk.injEq] at hpart
    obtain ⟨hdata, hdrops⟩ := hpart
    refine ⟨hdata, ?_, ?_⟩
    · intro values age heq
      cases heq
      exact hpending
    · intro values age heq _
      cases heq
      exact hdrops

/-- The FMU's part of a tick. -/
theorem FmuInv.selectInput {s : SysState} {fmu : Latest (Vector UInt16 outputChannels)}
    (h : FmuInv s fmu) : FmuInv (selectInput s).2 fmu.tick := by
  obtain ⟨huse, hvalues, hreceived⟩ := h
  cases fmu with
  | none =>
      rw [selectInput_unused huse]
      exact ⟨huse, hvalues, hreceived⟩
  | some pair =>
      obtain ⟨v, n⟩ := pair
      have hdata : ∀ values age, Latest.tick (some (v, n)) = some (values, age) →
          s.fmuChannelData = values := Latest.forall_tick hvalues
      by_cases hage : n ≤ fmuInputDropLimit
      · rw [Latest.within_of_le hage] at huse
        obtain ⟨hflag, hcount⟩ := hreceived v n rfl hage
        rcases Nat.eq_zero_or_pos n with hzero | hpos
        -- The first tick after the frame takes the flag back.
        · subst hzero
          rw [selectInput_received huse hflag]
          refine ⟨huse, hdata, ?_⟩
          intro values age heq _
          cases heq
          exact ⟨rfl, fun _ => rfl⟩
        -- No frame since: the tick is counted, and one too many ends the use.
        · have hdrops := hcount hpos
          rw [decide_eq_false (Nat.ne_of_gt hpos)] at hflag
          rw [selectInput_missed huse hflag]
          refine ⟨?_, hdata, ?_⟩
          · rw [Latest.tick, Option.map_some]
            by_cases hlast : n = fmuInputDropLimit
            · rw [Latest.within_of_lt (by omega), decide_eq_false (by omega)]
              rfl
            · rw [Latest.within_of_le (by omega), decide_eq_true (by omega)]
              rfl
          · intro values age heq hle
            cases heq
            refine ⟨?_, fun _ => congrArg (· + 1) hdrops⟩
            rw [decide_eq_false (Nat.succ_ne_zero n)]
            exact hflag
      -- The use has ended before.
      · rw [Latest.within_of_lt (by omega)] at huse
        rw [selectInput_unused huse]
        refine ⟨?_, hdata, ?_⟩
        · rw [Latest.tick, Option.map_some, Latest.within_of_lt (by omega)]
          exact huse
        · intro values age heq hle
          cases heq
          omega

/-- The control input, from what is recent. -/
def chooseInput (fmu : Option (Vector UInt16 outputChannels)) (rc : Option (List UInt16)) :
    ControlInput :=
  match fmu, rc with
  | some values, _ => .fmu values
  | none, some values => .rc values
  | none, none => .none

theorem selectInput_eq {s : SysState} {fmu : Latest (Vector UInt16 outputChannels)}
    {rc : Latest (List UInt16)} (hfmu : FmuInv s fmu) (hrc : RcInv s rc) :
    (selectInput s).1 =
      chooseInput (fmu.within fmuInputDropLimit) (rc.within (mixerInputDropLimit - 1)) := by
  have huse := hfmu.useFmu
  have hdata := hrc.values
  unfold selectInput
  dsimp only
  cases hrecent : fmu.within fmuInputDropLimit with
  | some values =>
      rw [hrecent] at huse
      obtain ⟨age, heq, -⟩ := Latest.within_eq_some.mp hrecent
      rw [show s.mixerUseFmu = true from huse, hfmu.values values age heq]
      simp only [chooseInput]
      split_ifs <;> rfl
  | none =>
      rw [hrecent] at huse
      rw [show s.mixerUseFmu = false from huse]
      cases hrecent' : rc.within (mixerInputDropLimit - 1) with
      | some values =>
          rw [hrecent'] at hdata
          obtain ⟨age, heq, -⟩ := Latest.within_eq_some.mp hrecent'
          have hpos := List.length_pos_iff.mpr (hrc.channels values age heq)
          rw [show s.rcChannelData = values from hdata, if_neg (by simp), if_pos hpos]
          rfl
      | none =>
          rw [hrecent'] at hdata
          rw [show s.rcChannelData = [] from hdata]
          rfl

/-! ### The servos -/

/-- The values that the mixers give the servos: the inputs, and zero where there is none. -/
def servoValues (inputs : List UInt16) : Vector UInt16 outputChannels :=
  .ofFn fun i => inputs.getD i 0

theorem servoValues_get (inputs : List UInt16) (i : Fin outputChannels) :
    (servoValues inputs).get i = inputs.getD i 0 :=
  Vector.getElem_ofFn i.isLt

theorem tickleMixer_eq (inputs : List UInt16) (s : SysState) (i : Fin outputChannels) :
    tickleMixer inputs s i = { s with
      mixers := s.mixers.set i ((servoValues inputs).get i) i.isLt
      output := s.output ++
        if s.armed then [.servoSet i ((servoValues inputs).get i)] else [] } := by
  have hupdate : mixerUpdate i inputs s =
      { s with mixers := s.mixers.set i ((servoValues inputs).get i) i.isLt } := by
    unfold mixerUpdate
    rw [servoValues_get]
    by_cases h : (i : Nat) < inputs.length
    · rw [dif_pos h, List.getD_eq_getElem _ _ h]
    · rw [dif_neg h, List.getD_eq_default _ _ (Nat.le_of_not_lt h)]
  unfold tickleMixer
  dsimp only
  rw [hupdate]
  dsimp only
  cases harmed : s.armed with
  | true =>
      rw [if_pos rfl, if_pos rfl]
      unfold SysState.emit
      simp
  | false => simp

/-- The loop over the mixers. -/
theorem foldl_tickleMixer (inputs : List UInt16) (l : List (Fin outputChannels)) (s : SysState) :
    l.foldl (tickleMixer inputs) s = { s with
      mixers := l.foldl
        (fun v (i : Fin outputChannels) => v.set i ((servoValues inputs).get i) i.isLt) s.mixers
      output := s.output ++
        if s.armed then l.map fun i => .servoSet i ((servoValues inputs).get i) else [] } := by
  induction l generalizing s with
  | nil => simp
  | cons i l ih =>
      rw [List.foldl_cons, tickleMixer_eq, ih, List.foldl_cons]
      cases harmed : s.armed <;> simp

/-- The state before the servos are armed or disarmed. -/
def tickled (s : SysState) : SysState :=
  let (input, t) := selectInput (mixerGetRcInput s)
  { t with
    mixers := if 0 < input.values.length then servoValues input.values else t.mixers
    output := t.output ++
      if 0 < input.values.length ∧ t.armed = true then
        (List.finRange outputChannels).map fun i => .servoSet i ((servoValues input.values).get i)
      else [] }

theorem mixerTick_eq (s : SysState) :
    mixerTick s =
      ((selectInput (mixerGetRcInput s)).1,
        armServos (0 < (selectInput (mixerGetRcInput s)).1.values.length) (tickled s)) := by
  unfold mixerTick tickled
  dsimp only
  by_cases hcontrolled : 0 < (selectInput (mixerGetRcInput s)).1.values.length
  · rw [if_pos hcontrolled, if_pos hcontrolled, foldl_tickleMixer, foldl_set_finRange]
    simp only [hcontrolled, true_and]
  · rw [if_neg hcontrolled, if_neg hcontrolled, if_neg fun h => hcontrolled h.1, List.append_nil]

/-- Without values there is no control input. -/
theorem selectInput_values (s : SysState) :
    0 < (selectInput s).1.values.length ↔ (selectInput s).1 ≠ .none := by
  unfold selectInput
  dsimp only
  split_ifs with huse _ _ hrc <;>
    simp_all [ControlInput.values, List.length_pos_iff]

/-- What the first two parts of a tick leave alone. -/
def SysState.servoPart (s : SysState) : Bool × List Output := (s.armed, s.output)

theorem selectInput_servoPart (s : SysState) :
    (selectInput (mixerGetRcInput s)).2.servoPart = s.servoPart := by
  have hrc : (mixerGetRcInput s).servoPart = s.servoPart := by
    unfold mixerGetRcInput
    dsimp only
    split_ifs <;> rfl
  rw [← hrc]
  unfold selectInput
  dsimp only
  split_ifs <;> rfl

/-- `armServos` writes the state of the servos, and calls the driver when it changes. -/
theorem armServos_spec (controlled : Bool) (s : SysState) :
    (armServos controlled s).mixerServosArmed = (s.armed && controlled) ∧
      ∃ calls, (armServos controlled s).output = s.output ++ calls ∧
        ∀ o ∈ calls, o = .servoArm ∨ o = .servoDisarm := by
  unfold armServos
  dsimp only
  cases harm : s.armed && controlled <;> cases hwas : s.mixerServosArmed
  · exact ⟨hwas, [], (List.append_nil _).symm, by simp⟩
  · exact ⟨rfl, [.servoDisarm], rfl, by simp⟩
  · exact ⟨rfl, [.servoArm], rfl, by simp⟩
  · exact ⟨hwas, [], (List.append_nil _).symm, by simp⟩

/-- The values that a tick sets: each servo's, once. -/
theorem mem_servoSets {inputs : List UInt16} {i : Fin outputChannels} {value : UInt16} :
    .servoSet i value ∈ (List.finRange outputChannels).map
        (fun i => Output.servoSet i ((servoValues inputs).get i)) ↔ value = inputs.getD i 0 := by
  rw [List.mem_map]
  constructor
  · intro hmem
    obtain ⟨j, -, hj⟩ := hmem
    cases hj
    exact servoValues_get _ i
  · intro hvalue
    refine ⟨i, List.mem_finRange i, ?_⟩
    rw [servoValues_get, hvalue]

/-- **The servos in a tick.** They are armed after it exactly when the module is armed and there is
a control input, and their values are set exactly in this case. -/
theorem mixerTick_servos (s : SysState) :
    ((mixerTick s).2.mixerServosArmed = true ↔
        (mixerTick s).2.armed = true ∧ (mixerTick s).1 ≠ .none) ∧
      ∃ calls, (mixerTick s).2.output = s.output ++ calls ∧
        ∀ (i : Fin outputChannels) value, .servoSet i value ∈ calls ↔
          s.armed = true ∧ (mixerTick s).1 ≠ .none ∧ value = (mixerTick s).1.values.getD i 0 := by
  have harmed : (mixerTick s).2.armed = s.armed := congrArg Prod.fst (mixerTick_arming s)
  rw [harmed, mixerTick_eq]
  dsimp only
  rw [← selectInput_values]
  have hpart := selectInput_servoPart s
  simp only [SysState.servoPart, Prod.mk.injEq] at hpart
  obtain ⟨hselect, houtput⟩ := hpart
  have htickled : (tickled s).armed = s.armed := hselect
  obtain ⟨hservos, calls, hcalls, hkind⟩ := armServos_spec
    (decide (0 < (selectInput (mixerGetRcInput s)).1.values.length)) (tickled s)
  have hset : (tickled s).output = s.output ++
      if 0 < (selectInput (mixerGetRcInput s)).1.values.length ∧ s.armed = true then
        (List.finRange outputChannels).map fun i =>
          .servoSet i ((servoValues (selectInput (mixerGetRcInput s)).1.values).get i)
      else [] := by
    unfold tickled
    dsimp only
    rw [houtput, hselect]
  refine ⟨?_, ?_⟩
  · rw [hservos, htickled, Bool.and_eq_true, decide_eq_true_eq]
  · rw [hset, List.append_assoc] at hcalls
    refine ⟨_, hcalls, ?_⟩
    intro i value
    have hnot : .servoSet i value ∉ calls := by
      intro hmem
      rcases hkind _ hmem with h | h <;> cases h
    rw [List.mem_append, or_iff_left hnot]
    by_cases h : 0 < (selectInput (mixerGetRcInput s)).1.values.length ∧ s.armed = true
    · rw [if_pos h, mem_servoSets]
      exact ⟨fun hvalue => ⟨h.2, h.1, hvalue⟩, fun hset => hset.2.2⟩
    · rw [if_neg h]
      constructor
      · intro hmem
        cases hmem
      · intro hset
        exact absurd ⟨hset.2.1, hset.1⟩ h

/-! ### The failsafe -/

theorem armServos_parts (controlled : Bool) (s : SysState) :
    (armServos controlled s).fmuPart = s.fmuPart ∧ (armServos controlled s).rcPart = s.rcPart := by
  unfold armServos
  dsimp only
  split_ifs <;> exact ⟨rfl, rfl⟩

theorem mixerTick_fmuPart (s : SysState) :
    (mixerTick s).2.fmuPart = (selectInput (mixerGetRcInput s)).2.fmuPart := by
  rw [mixerTick_eq]
  exact (armServos_parts _ (tickled s)).1

theorem mixerTick_rcPart (s : SysState) : (mixerTick s).2.rcPart = (mixerGetRcInput s).rcPart := by
  rw [← selectInput_rcPart (mixerGetRcInput s), mixerTick_eq]
  exact (armServos_parts _ (tickled s)).2

/-- A call that concerns neither input. -/
theorem InputsInv.congr {s t : SysState} {inputs : Inputs} (h : InputsInv s inputs)
    (hfmu : t.fmuPart = s.fmuPart) (hrc : t.rcPart = s.rcPart) : InputsInv t inputs :=
  ⟨h.fmu.congr hfmu, h.rc.congr hrc⟩

/-- A frame makes the FMU's values the latest ones. -/
theorem FmuInv.frame {buffer : List UInt8} {cmd : Command} (h : toCommand buffer = some cmd)
    (s : SysState) : FmuInv (commsHandleFrame buffer s) (some (cmd.servoCommand, 0)) := by
  have hpart : (commsHandleFrame buffer s).fmuPart =
      (cmd.servoCommand, true, true, s.fmuInputDrops) := by
    unfold commsHandleFrame
    rw [h]
    dsimp only
    split_ifs <;> rfl
  simp only [SysState.fmuPart, Prod.mk.injEq] at hpart
  obtain ⟨hdata, huse, hreceived, -⟩ := hpart
  refine ⟨huse, ?_, ?_⟩
  · intro values age heq
    cases heq
    exact hdata
  · intro values age heq _
    cases heq
    exact ⟨hreceived, fun hpos => absurd hpos (Nat.lt_irrefl 0)⟩

/-- **The step lemma.** -/
theorem InputsInv.next {s : SysState} {inputs : Inputs} (h : InputsInv s inputs) (call : Call) :
    InputsInv (s.next call) (inputs.watch s call (s.next call)) := by
  cases call with
  | frame buffer =>
      cases hcmd : toCommand buffer with
      | none =>
          simp only [SysState.next, commsHandleFrame, Inputs.watch, hcmd]
          exact h
      | some cmd =>
          simp only [SysState.next, Inputs.watch, hcmd]
          refine ⟨FmuInv.frame hcmd s, h.rc.congr ?_⟩
          unfold commsHandleFrame
          rw [hcmd]
          dsimp only
          split_ifs <;> rfl
  | button pressed =>
      obtain ⟨hfmu, hrc⟩ := safetyCheckButton_parts pressed s
      exact h.congr hfmu hrc
  | rcInput message => exact h.congr rfl rfl
  | tick =>
      have hfmu := (h.fmu.congr (mixerGetRcInput_fmuPart s)).selectInput
      exact ⟨hfmu.congr (mixerTick_fmuPart s), h.rc.mixerGetRcInput.congr (mixerTick_rcPart s)⟩

theorem InputsInv.reachable {p : SysState × Inputs} (h : px4ioInputs.Reachable p) :
    InputsInv p.1 p.2 := by
  refine h.invariant (I := fun p => InputsInv p.1 p.2) ?_ ?_
  · intro p hinit
    obtain ⟨hstate, hinputs⟩ := hinit
    rw [show p.1 = reset from hstate, hinputs]
    refine ⟨⟨rfl, ?_, ?_⟩, ⟨rfl, ?_, ?_⟩⟩
    all_goals
      intro values age heq
      cases heq
  · intro p call q hp hstep
    obtain ⟨hnext, hwatch⟩ := hstep
    rw [hwatch, show q.1 = p.1.next call from hnext]
    exact hp.next call

/-- **The failsafe.** In every run of frames, button samples, RC messages and ticks, the next tick
uses the latest values of the FMU exactly when the frame is at most ten ticks old; otherwise the
latest values of the RC input exactly when this tick or one of the nine before it took them from
the queue; otherwise none. It leaves the servos armed exactly when the module is armed and it used
a control input, and it sets the servos' values, from this input, only in this case. -/
theorem failsafe {s : SysState} {inputs : Inputs} (h : px4ioInputs.Reachable (s, inputs)) :
    let rc := (inputs.watch s .tick (s.next .tick)).rc
    let fmuRecent := ∃ values age, inputs.fmu = some (values, age) ∧ age ≤ fmuInputDropLimit
    let rcRecent := ∃ values age, rc = some (values, age) ∧ age < mixerInputDropLimit
    (∀ values, (mixerTick s).1 = .fmu values ↔
      ∃ age, inputs.fmu = some (values, age) ∧ age ≤ fmuInputDropLimit) ∧
    (∀ values, (mixerTick s).1 = .rc values ↔
      ¬fmuRecent ∧ ∃ age, rc = some (values, age) ∧ age < mixerInputDropLimit) ∧
    ((mixerTick s).1 = .none ↔ ¬fmuRecent ∧ ¬rcRecent) ∧
    ((mixerTick s).2.mixerServosArmed = true ↔
      (mixerTick s).2.armed = true ∧ (mixerTick s).1 ≠ .none) ∧
    ∃ calls, (mixerTick s).2.output = s.output ++ calls ∧
      ∀ (i : Fin outputChannels) value, .servoSet i value ∈ calls ↔
        s.armed = true ∧ (mixerTick s).1 ≠ .none ∧ value = (mixerTick s).1.values.getD i 0 := by
  intro rc fmuRecent rcRecent
  have hinv := InputsInv.reachable h
  have hinput : (mixerTick s).1 = chooseInput (inputs.fmu.within fmuInputDropLimit)
      (rc.within (mixerInputDropLimit - 1)) := by
    rw [mixerTick_eq]
    exact selectInput_eq (hinv.fmu.congr (mixerGetRcInput_fmuPart s)) hinv.rc.mixerGetRcInput
  have hfmu : fmuRecent ↔ (inputs.fmu.within fmuInputDropLimit).isSome := by
    simp only [Option.isSome_iff_exists, Latest.within_eq_some, fmuRecent]
  have hage : ∀ values, rc.within (mixerInputDropLimit - 1) = some values ↔
      ∃ age, rc = some (values, age) ∧ age < mixerInputDropLimit := by
    intro values
    rw [Latest.within_eq_some]
    have hpos : 0 < mixerInputDropLimit := by decide
    simp only [Nat.le_sub_one_iff_lt hpos]
  have hrc : rcRecent ↔ (rc.within (mixerInputDropLimit - 1)).isSome := by
    simp only [Option.isSome_iff_exists, hage, rcRecent]
  obtain ⟨hservos, hcalls⟩ := mixerTick_servos s
  refine ⟨?_, ?_, ?_, hservos, hcalls⟩
  · intro values
    rw [hinput, ← Latest.within_eq_some]
    cases hf : inputs.fmu.within fmuInputDropLimit <;>
      cases hr : rc.within (mixerInputDropLimit - 1) <;> simp [chooseInput]
  · intro values
    rw [hinput, hfmu, ← hage]
    cases hf : inputs.fmu.within fmuInputDropLimit <;>
      cases hr : rc.within (mixerInputDropLimit - 1) <;> simp [chooseInput]
  · rw [hinput, hfmu, hrc]
    cases hf : inputs.fmu.within fmuInputDropLimit <;>
      cases hr : rc.within (mixerInputDropLimit - 1) <;> simp [chooseInput]

/-- A frame, and ten ticks after it: the next tick still uses its values. -/
theorem failsafe_recent :
    ∃ s inputs, px4ioInputs.Reachable (s, inputs) ∧
      (mixerTick s).1 = .fmu (.replicate outputChannels 0) := by
  let next (p : SysState × Inputs) (call : Call) : Option (SysState × Inputs) :=
    some (p.1.next call, p.2.watch p.1 call (p.1.next call))
  have hnext : ∀ p call q, next p call = some q → px4ioInputs.step p call q := by
    intro p call q h
    cases h
    exact ⟨rfl, rfl⟩
  let start : SysState × Inputs := (reset, { fmu := none, rc := none })
  let calls : List Call := .frame (List.replicate 21 0) :: List.replicate 10 .tick
  obtain ⟨⟨s, inputs⟩, hp⟩ := Option.isSome_iff_exists.mp
    (show (calls.foldlM next start).isSome = true by decide)
  have hfmu : ∀ p ∈ calls.foldlM next start,
      p.2.fmu = some (.replicate outputChannels 0, 10) := by decide
  have hreach : px4ioInputs.Reachable (s, inputs) :=
    ⟨start, calls, ⟨rfl, rfl⟩, LTS.Run.of_foldlM hnext hp⟩
  exact ⟨s, inputs, hreach, ((failsafe hreach).1 _).mpr ⟨10, hfmu _ hp, Nat.le_refl _⟩⟩

end Px4Firmware.Px4io
