import Mathlib.Algebra.Order.Field.Rat
import Mathlib.Tactic.NormNum
import Mathlib.Tactic.Linarith
import Px4Firmware.Drivers.PwmServo
import Px4Firmware.Mixer.Group

/-!
# Px4Firmware.Drivers.ServoRange

**The pulses of the servos** (`FMUServo::task_main`), in exact arithmetic. In every iteration the
loop lets the mixers write their outputs, scales the outputs of all channels in place, and hands
them to the servos.

A channel that the mixers have not written is scaled once more. That is harmless for the first
update, which finds zeros, and never again (`servo_range_iff`).
-/

namespace Px4Firmware.Drivers.FmuServo

open Px4Firmware.Lib Px4Firmware.Mixer

/-! ### The loop -/

/-- `num_outputs`. -/
def numOutputs (mode : Mode) : Nat := if mode = .twoPwm then 2 else 4

/-- What an iteration meets: a failing `poll`, or an update of the controls (as the callback then
reads them) or not, the mixers at that time, and an update of the armed flag or not. -/
structure Iteration where
  pollError : Bool
  controls : Option (UInt8 → UInt8 → Rat)
  mixers : Option (List (AnyMixer Rat))
  armed : Option Bool

/-- What an iteration asks of the servos, and what it publishes. -/
inductive Call
  | set (channel : Nat) (value : Rat)
  | publish (outputs : Nat → Rat)
  | arm (armed : Bool)

/-- The loop over the actuators, from the channel `i` on. -/
def iterateActuators : Nat → Nat → (Nat → Rat) → (Nat → Rat) × List Call
  | 0, _, outputs => (outputs, [.publish outputs])
  | count + 1, i, outputs =>
      let value := 1500 + 600 * outputs i
      let (outputs, calls) :=
        iterateActuators count (i + 1) fun j => if j = i then value else outputs j
      (outputs, .set i value :: calls)

/-- A control update. -/
def update (mode : Mode) (outputs : Nat → Rat) (control : UInt8 → UInt8 → Rat) :
    Option (List (AnyMixer Rat)) → (Nat → Rat) × List Call
  | none => (outputs, [])
  | some mixers =>
      let (_, mixed) := groupMix control mixers (numOutputs mode) (Buffer.fresh outputs)
      iterateActuators (numOutputs mode) 0 mixed.value

/-- An iteration of the loop of `FMUServo::task_main`. -/
def iterate (mode : Mode) (outputs : Nat → Rat) (iteration : Iteration) :
    (Nat → Rat) × List Call :=
  if iteration.pollError then (outputs, [])
  else
    let (outputs, calls) := match iteration.controls with
      | some control => update mode outputs control iteration.mixers
      | none => (outputs, [])
    (outputs, calls ++ (iteration.armed.map Call.arm).toList)

/-- The calls of a run. -/
def calls (mode : Mode) : (Nat → Rat) → List Iteration → List Call
  | _, [] => []
  | outputs, iteration :: iterations =>
      let (outputs, first) := iterate mode outputs iteration
      first ++ calls mode outputs iterations

/-! ### The law -/

/-- Every pulse is from 900 to 2100. -/
def InRange (calls : List Call) : Prop :=
  ∀ channel value, .set channel value ∈ calls → 900 ≤ value ∧ value ≤ 2100

/-- The controls and the mixers of an iteration that mixes. -/
def Iteration.mixing (iteration : Iteration) :
    Option ((UInt8 → UInt8 → Rat) × List (AnyMixer Rat)) :=
  if iteration.pollError then none
  else iteration.controls.bind fun control => iteration.mixers.map fun mixers => (control, mixers)

/-- What the mixers of a group write for the channels is from -1 to 1. -/
def Normalised (mode : Mode) (control : UInt8 → UInt8 → Rat)
    (mixers : List (AnyMixer Rat)) : Prop :=
  ∀ memory, let (_, outputs) := groupMix control mixers (numOutputs mode) (Buffer.fresh memory)
    ∀ i < numOutputs mode, outputs.written i = true →
      -1 ≤ outputs.value i ∧ outputs.value i ≤ 1

/-- Every channel has a mixer: it is among the outputs that are counted, or among those of a
multirotor mixer that is reached. -/
def Drives (mode : Mode) (control : UInt8 → UInt8 → Rat) (mixers : List (AnyMixer Rat)) : Prop :=
  ∀ i < numOutputs mode, i < (countedOutputs control mixers).length ∨
    ∃ m start, Reached control (numOutputs mode) mixers 0 m start ∧ start ≤ i ∧
      i < start + configRotorCount m.geometry

/-! ### One iteration -/

theorem iterateActuators_spec (count i : Nat) (outputs : Nat → Rat) :
    (∀ j, (iterateActuators count i outputs).1 j =
        if i ≤ j ∧ j < i + count then 1500 + 600 * outputs j else outputs j) ∧
      ∀ j value, .set j value ∈ (iterateActuators count i outputs).2 ↔
        (i ≤ j ∧ j < i + count) ∧ value = 1500 + 600 * outputs j := by
  induction count generalizing i outputs with
  | zero =>
      refine ⟨fun j => (if_neg (by omega)).symm, fun j value => ?_⟩
      simp only [iterateActuators, List.mem_singleton, reduceCtorEq, false_iff]
      omega
  | succ count ih =>
      obtain ⟨houtputs, hcalls⟩ :=
        ih (i + 1) fun j => if j = i then 1500 + 600 * outputs i else outputs j
      unfold iterateActuators
      constructor
      · intro j
        refine (houtputs j).trans ?_
        by_cases hi : j = i
        · subst hi
          simp
        · simp only [if_neg hi]
          exact if_congr (by omega) rfl rfl
      · intro j value
        simp only [List.mem_cons, Call.set.injEq, hcalls]
        constructor
        · rintro (⟨rfl, rfl⟩ | ⟨hj, hvalue⟩)
          · exact ⟨by omega, rfl⟩
          · rw [if_neg (by omega)] at hvalue
            exact ⟨by omega, hvalue⟩
        · rintro ⟨hj, hvalue⟩
          by_cases hi : j = i
          · subst hi
            exact .inl ⟨rfl, hvalue⟩
          · exact .inr ⟨by omega, by rw [if_neg hi]; exact hvalue⟩

section

variable {mode : Mode} {control : UInt8 → UInt8 → Rat} {mixers : List (AnyMixer Rat)}
  {outputs : Nat → Rat}

/-- The outputs after the mixers. -/
def mixed (mode : Mode) (control : UInt8 → UInt8 → Rat) (mixers : List (AnyMixer Rat))
    (outputs : Nat → Rat) : Buffer Rat :=
  (groupMix control mixers (numOutputs mode) (Buffer.fresh outputs)).2

/-- **An update** scales what the mixers leave in the channels, and hands it to the servos. -/
theorem update_spec {j : Nat} :
    (j < numOutputs mode → (update mode outputs control (some mixers)).1 j =
        1500 + 600 * (mixed mode control mixers outputs).value j) ∧
      ∀ value, .set j value ∈ (update mode outputs control (some mixers)).2 ↔
        j < numOutputs mode ∧
          value = 1500 + 600 * (mixed mode control mixers outputs).value j := by
  obtain ⟨houtputs, hcalls⟩ := iterateActuators_spec (numOutputs mode) 0
    (mixed mode control mixers outputs).value
  constructor
  · intro hj
    exact (houtputs j).trans (if_pos (by omega))
  · intro value
    exact (hcalls j value).trans (and_congr_left' (by omega))

/-- Every channel has a mixer exactly when every channel is written. -/
theorem drives_iff (outputs : Nat → Rat) :
    Drives mode control mixers ↔
      ∀ i < numOutputs mode, (mixed mode control mixers outputs).written i = true := by
  refine forall₂_congr fun i hi => ?_
  have hwritten := @mixFrom_written Rat _ control (numOutputs mode) mixers 0 (Buffer.fresh outputs)
    i (Nat.zero_le _)
  rw [mixFrom_fst mixers (Buffer.fresh outputs) (Nat.zero_le _), Nat.zero_add] at hwritten
  rw [mixed, groupMix, hwritten]
  simp [Buffer.fresh, hi]

/-- What the mixers leave in a channel: a number in range, or what was there. -/
theorem mixed_value (hnormal : Normalised mode control mixers) (outputs : Nat → Rat) {i : Nat}
    (hi : i < numOutputs mode) :
    if (mixed mode control mixers outputs).written i = true then
      -1 ≤ (mixed mode control mixers outputs).value i ∧
        (mixed mode control mixers outputs).value i ≤ 1
    else (mixed mode control mixers outputs).value i = outputs i := by
  split_ifs with hwritten
  · exact hnormal outputs i hi hwritten
  · exact (mixFrom_value mixers (Buffer.fresh outputs) hwritten).2

/-- The outputs are pulses that are in range. -/
def Scaled (mode : Mode) (outputs : Nat → Rat) : Prop :=
  ∀ i < numOutputs mode, 900 ≤ outputs i ∧ outputs i ≤ 2100

theorem inRange_update :
    InRange (update mode outputs control (some mixers)).2 ↔
      Scaled mode (update mode outputs control (some mixers)).1 := by
  constructor
  · intro h i hi
    rw [update_spec.1 hi]
    exact h i _ ((update_spec.2 _).2 ⟨hi, rfl⟩)
  · intro h channel value hset
    obtain ⟨hchannel, rfl⟩ := (update_spec.2 value).1 hset
    rw [← update_spec.1 hchannel]
    exact h channel hchannel

/-- An update after another one is in range exactly when every channel has a mixer: what is scaled
twice is at least 1500 + 600 · 900. -/
theorem update_iff (hnormal : Normalised mode control mixers) (hscaled : Scaled mode outputs) :
    InRange (update mode outputs control (some mixers)).2 ↔ Drives mode control mixers := by
  rw [inRange_update, drives_iff outputs]
  refine forall₂_congr fun i hi => ?_
  have hvalue := mixed_value hnormal outputs hi
  rw [update_spec.1 hi]
  split_ifs at hvalue with hwritten
  · obtain ⟨hge, hle⟩ := hvalue
    exact ⟨fun _ => hwritten, fun _ => ⟨by linarith, by linarith⟩⟩
  · rw [hvalue]
    have hlarge := (hscaled i hi).1
    exact ⟨fun h => absurd h.2 (by linarith), fun h => absurd h hwritten⟩

/-- The first update is in range. -/
theorem update_zero (hnormal : Normalised mode control mixers) :
    InRange (update mode (fun _ => 0) control (some mixers)).2 := by
  rw [inRange_update]
  intro i hi
  have hvalue := mixed_value hnormal (fun _ => 0) hi
  rw [update_spec.1 hi]
  split_ifs at hvalue with hwritten
  · obtain ⟨hge, hle⟩ := hvalue
    exact ⟨by linarith, by linarith⟩
  · rw [hvalue]
    norm_num

/-- **An iteration** is an update, or leaves the outputs and sets nothing. -/
theorem iterate_cases (mode : Mode) (outputs : Nat → Rat) (iteration : Iteration) :
    (iteration.mixing = none ∧ (iterate mode outputs iteration).1 = outputs ∧
        InRange (iterate mode outputs iteration).2) ∨
      ∃ control mixers, iteration.mixing = some (control, mixers) ∧
        (iterate mode outputs iteration).1 = (update mode outputs control (some mixers)).1 ∧
        (InRange (iterate mode outputs iteration).2 ↔
          InRange (update mode outputs control (some mixers)).2) := by
  obtain ⟨pollError, controls, mixers, armed⟩ := iteration
  have harm : ∀ calls : List Call, InRange (calls ++ (armed.map Call.arm).toList) ↔
      InRange calls := by
    intro calls
    cases armed <;> simp [InRange]
  have hnothing : InRange [] := by simp [InRange]
  cases pollError with
  | true => exact .inl ⟨rfl, rfl, hnothing⟩
  | false =>
      cases controls with
      | none => exact .inl ⟨rfl, rfl, (harm []).2 hnothing⟩
      | some control =>
          cases mixers with
          | none => exact .inl ⟨rfl, rfl, (harm []).2 hnothing⟩
          | some mixers => exact .inr ⟨control, mixers, rfl, rfl, harm _⟩

/-! ### Over a run -/

theorem inRange_append (first rest : List Call) :
    InRange (first ++ rest) ↔ InRange first ∧ InRange rest := by
  constructor
  · intro h
    exact ⟨fun channel value hset => h channel value (List.mem_append_left _ hset),
      fun channel value hset => h channel value (List.mem_append_right _ hset)⟩
  · intro h channel value hset
    rcases List.mem_append.1 hset with hset | hset
    · exact h.1 channel value hset
    · exact h.2 channel value hset

/-- The iterations after an update. -/
theorem calls_iff (hscaled : Scaled mode outputs) (iterations : List Iteration)
    (hnormal : ∀ m ∈ iterations.filterMap Iteration.mixing, Normalised mode m.1 m.2) :
    InRange (calls mode outputs iterations) ↔
      ∀ m ∈ iterations.filterMap Iteration.mixing, Drives mode m.1 m.2 := by
  induction iterations generalizing outputs with
  | nil => simp [calls, InRange]
  | cons iteration iterations ih =>
      unfold calls
      rw [inRange_append]
      rcases iterate_cases mode outputs iteration with
        ⟨hmixing, hsame, hset⟩ | ⟨control, mixers, hmixing, hnext, hset⟩
      · rw [List.filterMap_cons_none hmixing] at hnormal ⊢
        rw [and_iff_right hset, hsame]
        exact ih hscaled hnormal
      · rw [List.filterMap_cons_some hmixing] at hnormal ⊢
        rw [List.forall_mem_cons] at hnormal ⊢
        rw [hset, hnext, update_iff hnormal.1 hscaled]
        refine and_congr_right fun hdrives => ih ?_ hnormal.2
        exact inRange_update.1 ((update_iff hnormal.1 hscaled).2 hdrives)

/-- **Every pulse is from 900 to 2100**, in any mode and over any iterations with mixers whose
outputs are from -1 to 1, exactly when in every update but the first every channel has a mixer. -/
theorem servo_range_iff (mode : Mode) (iterations : List Iteration)
    (hnormal : ∀ m ∈ iterations.filterMap Iteration.mixing, Normalised mode m.1 m.2) :
    InRange (calls mode (fun _ => 0) iterations) ↔
      ∀ m ∈ (iterations.filterMap Iteration.mixing).tail, Drives mode m.1 m.2 := by
  induction iterations with
  | nil => simp [calls, InRange]
  | cons iteration iterations ih =>
      unfold calls
      rw [inRange_append]
      rcases iterate_cases mode (fun _ => 0) iteration with
        ⟨hmixing, hsame, hset⟩ | ⟨control, mixers, hmixing, hnext, hset⟩
      · rw [List.filterMap_cons_none hmixing] at hnormal ⊢
        rw [and_iff_right hset, hsame]
        exact ih hnormal
      · rw [List.filterMap_cons_some hmixing] at hnormal ⊢
        rw [List.forall_mem_cons] at hnormal
        have hfirst := update_zero hnormal.1
        rw [hset, and_iff_right hfirst, hnext, List.tail_cons]
        exact calls_iff (inRange_update.1 hfirst) iterations hnormal.2

end

/-! ### Channels with and without mixers -/

/-- An iteration that mixes. -/
def mixes (mixers : List (AnyMixer Rat)) : Iteration where
  pollError := false
  controls := some fun _ _ => 0
  mixers := some mixers
  armed := none

theorem mixing_mixes (mixers : List (AnyMixer Rat)) :
    (mixes mixers).mixing = some (fun _ _ => 0, mixers) := rfl

/-- With two null mixers in the mode with two channels, all updates are in range. -/
theorem servo_range_null :
    InRange (calls .twoPwm (fun _ => 0) [mixes [.null, .null], mixes [.null, .null]]) := by
  refine (servo_range_iff .twoPwm _ ?_).2 ?_
  · intro m hm memory i hi _
    obtain rfl : m = (fun _ _ => 0, [.null, .null]) := by simpa [mixing_mixes] using hm
    obtain rfl | rfl : i = 0 ∨ i = 1 := by
      change i < 2 at hi
      omega
    · change (-1 : Rat) ≤ 0.0 ∧ (0.0 : Rat) ≤ 1
      norm_num
    · change (-1 : Rat) ≤ 0.0 ∧ (0.0 : Rat) ≤ 1
      norm_num
  · intro m hm i hi
    obtain rfl : m = (fun _ _ => 0, [.null, .null]) := by simpa [mixing_mixes] using hm
    exact .inl hi

/-- With a mixer for the first channel alone, the second update hands 901500 to the second
channel. -/
theorem not_servo_range : ¬ ∀ (mode : Mode) (iterations : List Iteration),
    (∀ m ∈ iterations.filterMap Iteration.mixing, Normalised mode m.1 m.2) →
      InRange (calls mode (fun _ => 0) iterations) := by
  intro h
  have hset : Call.set 1 (1500 + 600 * (1500 + 600 * 0)) ∈
      calls .twoPwm (fun _ => 0) [mixes [.null], mixes [.null]] :=
    -- the fifth call, after the two pulses and the publication of the first update
    .tail _ (.tail _ (.tail _ (.tail _ (.head _))))
  have hrange := (h .twoPwm _ ?_ 1 _ hset).2
  · norm_num at hrange
  · intro m hm memory i hi hwritten
    obtain rfl : m = (fun _ _ => 0, [.null]) := by simpa [mixing_mixes] using hm
    obtain rfl | rfl : i = 0 ∨ i = 1 := by
      change i < 2 at hi
      omega
    · change (-1 : Rat) ≤ 0.0 ∧ (0.0 : Rat) ≤ 1
      norm_num
    · cases hwritten

end Px4Firmware.Drivers.FmuServo
