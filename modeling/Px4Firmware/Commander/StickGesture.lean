import Px4Firmware.Commander.Debounce

/-!
# Px4Firmware.Commander.StickGesture

**The stick gestures of the main loop.** A gesture is held for so many RC samples in a row; the loop
counts the samples in each of the two positions. A sample in one position sets the counter of the
other to zero, but a sample elsewhere sets neither.

The law is that the loop arms and disarms only after 20 samples in a row, and that a sample
elsewhere makes the counters start again. `gestures_uninterrupted_iff` says which runs obey it:
those in which each sample elsewhere comes when both counters are at zero, that is after no sample
in the lower left position, and after a number of samples in the lower right position that is a
multiple of the 22 with which it arms.
-/

namespace Px4Firmware.Commander

open Px4Firmware.Lib

/-- The stick is in the lower left position. -/
def Stick.isLowerLeft (stick : Stick) : Bool := stick = .lowerLeft

/-- The stick is in the lower right position. -/
def Stick.isLowerRight (stick : Stick) : Bool := stick = .lowerRight

/-- The RC sample that an event has processed. -/
def LoopEvent.sample? : LoopEvent → Option Stick
  | iterate _ report => report.sample
  | call _ => none

/-- What the gestures of an event have called. -/
def LoopEvent.gesture : LoopEvent → Gesture
  | iterate _ report => report.gesture
  | call _ => .none

/-- So many samples must be in a row. -/
def gestureLength : Nat := 20

/-- With so many samples in a row the loop arms. -/
def armingLength : Nat := stickOnOffCounterLimit + 2

section

variable (clock : Nat → UInt64) (table : BatteryTable) (failsafeLowlevelTimeoutMs : UInt32)

/-- The main loop, with the samples that it has processed. -/
def sampledLoop : LTS (ThreadMain × List Stick) LoopEvent :=
  (mainLoop clock table failsafeLowlevelTimeoutMs).observe [] fun samples _ e _ =>
    samples ++ e.sample?.toList

end

/-- The law of a step: arming and disarming take 20 samples in a row before this one, and a sample
elsewhere makes both counters start again. -/
structure Uninterrupted (p : ThreadMain × List Stick) (e : LoopEvent)
    (q : ThreadMain × List Stick) : Prop where
  arm : e.gesture = .arm →
    e.sample? = some .lowerRight ∧ gestureLength ≤ trailing Stick.isLowerRight p.2
  disarm : e.gesture = .disarm →
    e.sample? = some .lowerLeft ∧ gestureLength ≤ trailing Stick.isLowerLeft p.2
  restart : e.sample? = some .elsewhere → q.1.sticks = ⟨0, 0⟩

/-- The condition on a step: a sample elsewhere comes after no sample in the lower left position,
and after a multiple of 22 samples in a row in the lower right position. -/
def AfterGestures (p : ThreadMain × List Stick) : LoopEvent → Prop
  | .iterate input _ => p.1.sample input = some .elsewhere →
      trailing Stick.isLowerLeft p.2 = 0 ∧ trailing Stick.isLowerRight p.2 % armingLength = 0
  | .call _ => True

/-! ### The counters -/

/-- What the counters say about the samples so far, if each sample elsewhere came after whole
gestures. -/
structure Counts (samples : List Stick) (sticks : StickCounters) : Prop where
  off : sticks.off.toNat = min 21 (trailing Stick.isLowerLeft samples)
  on : sticks.on.toNat = trailing Stick.isLowerRight samples % armingLength

theorem counts_nil : Counts [] ⟨0, 0⟩ := ⟨rfl, rfl⟩

/-- The last sample is in one position at most. -/
theorem trailing_eq_zero_or (samples : List Stick) :
    trailing Stick.isLowerLeft samples = 0 ∨ trailing Stick.isLowerRight samples = 0 := by
  induction samples using List.reverseRecOn with
  | nil => exact .inl rfl
  | append_singleton samples stick _ =>
      rw [trailing_concat, trailing_concat]
      cases stick with
      | lowerLeft => exact .inr rfl
      | lowerRight => exact .inl rfl
      | elsewhere => exact .inl rfl

variable {samples : List Stick} {sticks : StickCounters}

/-- The counters are at zero exactly after whole gestures. -/
theorem Counts.eq_zero_iff (h : Counts samples sticks) :
    sticks = ⟨0, 0⟩ ↔ trailing Stick.isLowerLeft samples = 0 ∧
      trailing Stick.isLowerRight samples % armingLength = 0 := by
  obtain ⟨hoff, hon⟩ := h
  constructor
  · rintro rfl
    exact ⟨by simpa using hoff.symm, hon.symm⟩
  · rintro ⟨hleft, hright⟩
    rw [hleft] at hoff
    rw [hright] at hon
    exact congrArg₂ StickCounters.mk (UInt16.toNat_inj.mp hoff) (UInt16.toNat_inj.mp hon)

/-- The next sample of a counter that has not reached its limit. -/
theorem toNat_add_one {n : UInt16} (h : ¬stickOnOffCounterLimit < n.toNat) :
    (n + 1).toNat = n.toNat + 1 := by
  have hlimit : ¬20 < n.toNat := h
  rw [UInt16.toNat_add]
  exact Nat.mod_eq_of_lt (by simp; omega)

/-- **One sample.** -/
theorem Counts.check (h : Counts samples sticks) (stick : Stick)
    (hcareful : stick = .elsewhere → trailing Stick.isLowerLeft samples = 0 ∧
      trailing Stick.isLowerRight samples % armingLength = 0) :
    Counts (samples ++ [stick]) (sticks.check stick).1 := by
  obtain ⟨hoff, hon⟩ := h
  have hexclusive := trailing_eq_zero_or samples
  have hlimit : stickOnOffCounterLimit = 20 := rfl
  have hlength : armingLength = 22 := rfl
  rw [hlength] at hon
  cases stick with
  | lowerLeft =>
      have hleft : trailing Stick.isLowerLeft (samples ++ [.lowerLeft]) =
          trailing Stick.isLowerLeft samples + 1 := by rw [trailing_concat]; rfl
      have hright : trailing Stick.isLowerRight (samples ++ [.lowerLeft]) = 0 := by
        rw [trailing_concat]
        rfl
      simp only [StickCounters.check]
      split
      · next hdue => exact ⟨by rw [hleft, hoff]; omega, by rw [hright]; rfl⟩
      · next hdue =>
        refine ⟨?_, by rw [hright]; rfl⟩
        rw [toNat_add_one hdue, hleft, hoff]
        omega
  | lowerRight =>
      have hleft : trailing Stick.isLowerLeft (samples ++ [.lowerRight]) = 0 := by
        rw [trailing_concat]
        rfl
      have hright : trailing Stick.isLowerRight (samples ++ [.lowerRight]) =
          trailing Stick.isLowerRight samples + 1 := by rw [trailing_concat]; rfl
      simp only [StickCounters.check]
      split
      · next hdue =>
        refine ⟨by rw [hleft, hoff]; omega, ?_⟩
        rw [hright, hlength]
        show 0 = _
        omega
      · next hdue =>
        refine ⟨by rw [hleft]; rfl, ?_⟩
        rw [toNat_add_one hdue, hright, hlength]
        omega
  | elsewhere =>
      obtain ⟨hleft, hright⟩ := hcareful rfl
      refine ⟨?_, ?_⟩
      · rw [trailing_concat]
        exact hoff.trans (by rw [hleft]; rfl)
      · rw [trailing_concat]
        exact (hlength ▸ hon).trans hright

/-- A gesture that is called has been held for 21 samples. -/
theorem Counts.gesture (h : Counts samples sticks) (stick : Stick) :
    ((sticks.check stick).2 = .arm →
        stick = .lowerRight ∧ gestureLength ≤ trailing Stick.isLowerRight samples) ∧
      ((sticks.check stick).2 = .disarm →
        stick = .lowerLeft ∧ gestureLength ≤ trailing Stick.isLowerLeft samples) := by
  obtain ⟨hoff, hon⟩ := h
  have hmod := Nat.mod_le (trailing Stick.isLowerRight samples) armingLength
  have hlimit : stickOnOffCounterLimit = 20 := rfl
  have hgesture : gestureLength = 20 := rfl
  cases stick with
  | lowerLeft =>
      dsimp only [StickCounters.check]
      split
      · exact ⟨fun hcall => (by cases hcall), fun _ => ⟨rfl, by omega⟩⟩
      · exact ⟨fun hcall => (by cases hcall), fun hcall => (by cases hcall)⟩
  | lowerRight =>
      dsimp only [StickCounters.check]
      split
      · exact ⟨fun _ => ⟨rfl, by omega⟩, fun hcall => (by cases hcall)⟩
      · exact ⟨fun hcall => (by cases hcall), fun hcall => (by cases hcall)⟩
  | elsewhere => exact ⟨fun hcall => (by cases hcall), fun hcall => (by cases hcall)⟩

/-! ### Runs -/

section

variable {clock : Nat → UInt64} {table : BatteryTable} {failsafeLowlevelTimeoutMs : UInt32}
  {p q : ThreadMain × List Stick} {e : LoopEvent}

/-- What an event does to the samples and the counters. -/
theorem sampledLoop_step (h : (sampledLoop clock table failsafeLowlevelTimeoutMs).step p e q) :
    q.2 = p.2 ++ e.sample?.toList ∧ (q.1.sticks, e.gesture) = p.1.sticks.next e.sample? := by
  refine ⟨h.2, ?_⟩
  have heffect := mainLoop_step clock h.1
  cases e with
  | iterate input report => exact heffect.sticks
  | call entry => exact Prod.ext heffect.sticks rfl

/-- The condition, said about the sample that the event reports. -/
theorem afterGestures_iff (h : (sampledLoop clock table failsafeLowlevelTimeoutMs).step p e q) :
    AfterGestures p e ↔ (e.sample? = some .elsewhere →
      trailing Stick.isLowerLeft p.2 = 0 ∧
        trailing Stick.isLowerRight p.2 % armingLength = 0) := by
  have heffect := mainLoop_step clock h.1
  cases e with
  | iterate input report =>
      show (_ → _) ↔ (report.sample = _ → _)
      rw [heffect.sample]
  | call entry => exact iff_of_true trivial fun hnone => absurd hnone (by simp [LoopEvent.sample?])

theorem counts_step (h : (sampledLoop clock table failsafeLowlevelTimeoutMs).step p e q)
    (hcareful : AfterGestures p e) (hcounts : Counts p.2 p.1.sticks) :
    Counts q.2 q.1.sticks := by
  obtain ⟨hsamples, hsticks⟩ := sampledLoop_step h
  have hafter := (afterGestures_iff h).mp hcareful
  rw [hsamples, show q.1.sticks = _ from congrArg Prod.fst hsticks]
  cases hsample : e.sample? with
  | none => simpa [StickCounters.next] using hcounts
  | some stick =>
      rw [hsample] at hafter
      exact hcounts.check stick fun helse => hafter (congrArg some helse)

theorem counts_reachable
    (h : ((sampledLoop clock table failsafeLowlevelTimeoutMs).restrict AfterGestures).Reachable p) :
    Counts p.2 p.1.sticks := by
  refine h.invariant (I := fun p => Counts p.2 p.1.sticks) ?_ ?_
  · rintro ⟨s, samples⟩ ⟨⟨app, startTime, -, rfl⟩, rfl⟩
    exact counts_nil
  · rintro p e q hcounts ⟨hcareful, hstep⟩
    exact counts_step hstep hcareful hcounts

/-- One step from a state that careful runs reach. -/
theorem uninterrupted_iff
    (h : (sampledLoop clock table failsafeLowlevelTimeoutMs).step p e q)
    (hcounts : Counts p.2 p.1.sticks) : Uninterrupted p e q ↔ AfterGestures p e := by
  obtain ⟨-, hsticks⟩ := sampledLoop_step h
  rw [afterGestures_iff h]
  constructor
  · intro hlaw helse
    have hzero := hlaw.restart helse
    rw [helse] at hsticks
    rw [show q.1.sticks = p.1.sticks from congrArg Prod.fst hsticks] at hzero
    exact hcounts.eq_zero_iff.mp hzero
  · intro hafter
    have hgesture : e.gesture = (p.1.sticks.next e.sample?).2 := congrArg Prod.snd hsticks
    cases hsample : e.sample? with
    | none =>
        rw [hsample] at hgesture
        exact ⟨fun h => (by cases hgesture.symm.trans h),
          fun h => (by cases hgesture.symm.trans h), fun h => (by cases hsample.symm.trans h)⟩
    | some stick =>
        rw [hsample] at hgesture hafter hsticks
        obtain ⟨harm, hdisarm⟩ := hcounts.gesture stick
        refine ⟨fun h => ?_, fun h => ?_, fun h => ?_⟩
        · obtain ⟨hstick, hle⟩ := harm (hgesture.symm.trans h)
          exact ⟨hsample.trans (congrArg some hstick), hle⟩
        · obtain ⟨hstick, hle⟩ := hdisarm (hgesture.symm.trans h)
          exact ⟨hsample.trans (congrArg some hstick), hle⟩
        · rw [hsample] at h
          cases h
          rw [show q.1.sticks = p.1.sticks from congrArg Prod.fst hsticks]
          exact hcounts.eq_zero_iff.mpr (hafter rfl)

end

section

variable (clock : Nat → UInt64) (table : BatteryTable) (failsafeLowlevelTimeoutMs : UInt32)

/-- **The runs that obey the law** are those in which each sample elsewhere comes after whole
gestures. -/
theorem gestures_uninterrupted_iff {p q : ThreadMain × List Stick} {events : List LoopEvent}
    (hinit : (sampledLoop clock table failsafeLowlevelTimeoutMs).init p) :
    ((sampledLoop clock table failsafeLowlevelTimeoutMs).obeying Uninterrupted).Run p events q ↔
      ((sampledLoop clock table failsafeLowlevelTimeoutMs).restrict AfterGestures).Run
        p events q := by
  refine LTS.run_obeying_iff (fun p e q hreach hstep => ?_) hinit
  exact uninterrupted_iff hstep (counts_reachable hreach)

end

/-! ### Two runs -/

section

variable {clock : Nat → UInt64} {table : BatteryTable} {failsafeLowlevelTimeoutMs : UInt32}
  {p q : ThreadMain × List Stick} {events : List LoopEvent}

/-- A run without samples elsewhere. -/
theorem careful_of_samples (h : (sampledLoop clock table failsafeLowlevelTimeoutMs).Run p events q)
    (hnone : ∀ e ∈ events, e.sample? ≠ some .elsewhere) :
    ((sampledLoop clock table failsafeLowlevelTimeoutMs).restrict AfterGestures).Run
      p events q := by
  induction h with
  | nil => exact .nil _
  | cons hstep _ ih =>
      rw [List.forall_mem_cons] at hnone
      have hcareful := (afterGestures_iff hstep).mpr fun helse => absurd helse hnone.1
      exact .cons ⟨hcareful, hstep⟩ (ih hnone.2)

/-- What the law says about an event that arms, from the events before it. -/
theorem obeying_arm
    (h : ((sampledLoop clock table failsafeLowlevelTimeoutMs).obeying Uninterrupted).Run p events q)
    {before after : List LoopEvent} {e : LoopEvent} (hsplit : events = before ++ e :: after)
    (harm : e.gesture = .arm) :
    gestureLength ≤ trailing Stick.isLowerRight (p.2 ++ before.filterMap LoopEvent.sample?) := by
  induction before generalizing p events with
  | nil =>
      subst hsplit
      cases h with
      | cons hstep _ =>
          rw [List.filterMap_nil, List.append_nil]
          exact (hstep.2.arm harm).2
  | cons e' before ih =>
      subst hsplit
      cases h with
      | cons hstep hrest =>
          have hnext := ih hrest rfl
          rw [(sampledLoop_step hstep.1).1, List.append_assoc] at hnext
          rw [List.filterMap_cons]
          cases hsample : e'.sample? with
          | none => simpa [hsample] using hnext
          | some stick => simpa [hsample] using hnext

end

/-- An iteration with a recent RC sample, at no throttle. -/
def rcInput (yaw : Rat) : LoopInput where
  spMan := some ⟨1, .finite yaw, .finite 0, .finite 0⟩
  spOffboard := none
  batteryVoltage := 12
  batteryVoltageValid := true
  times := ⟨0, 2, 0, 0, 0, 0, 0, 0, 0, 0, 0, 0⟩

/-- The gesture is held for 22 samples. -/
theorem held_gesture_uninterrupted :
    ∃ events q, ((sampledLoop (fun _ => 0) ownTable 0).obeying Uninterrupted).Run
      (loopStart, []) events q ∧ .arm ∈ events.map LoopEvent.gesture := by
  obtain ⟨⟨events, t⟩, hruns⟩ := Option.isSome_iff_exists.mp
    (show (iterations (fun _ => 0) ownTable 0 (List.replicate 22 (rcInput 1)) loopStart).isSome =
      true by decide +kernel)
  have hheld : ∀ r ∈ iterations (fun _ => 0) ownTable 0 (List.replicate 22 (rcInput 1)) loopStart,
      (∀ e ∈ r.1, e.sample? ≠ some .elsewhere) ∧ .arm ∈ r.1.map LoopEvent.gesture := by
    decide +kernel
  obtain ⟨samples, hrun⟩ := (run_iterations _ _ _ hruns).observe []
  have hcareful := careful_of_samples hrun (hheld _ hruns).1
  have hinit : (sampledLoop (fun _ => 0) ownTable 0).init (loopStart, []) :=
    ⟨init_loopStart ownTable 0, rfl⟩
  exact ⟨events, (t, samples), (gestures_uninterrupted_iff _ _ _ hinit).mpr hcareful,
    (hheld _ hruns).2⟩

/-- 21 samples in the lower right position, one elsewhere, and one more: the loop arms. -/
theorem interrupted_gesture_arms :
    ¬∀ (clock : Nat → UInt64) (table : BatteryTable) (failsafeLowlevelTimeoutMs : UInt32)
        (p q : ThreadMain × List Stick) (events : List LoopEvent),
      (sampledLoop clock table failsafeLowlevelTimeoutMs).init p →
      (sampledLoop clock table failsafeLowlevelTimeoutMs).Run p events q →
      ((sampledLoop clock table failsafeLowlevelTimeoutMs).obeying Uninterrupted).Run
        p events q := by
  intro hlaw
  let inputs := List.replicate 21 (rcInput 1) ++ [rcInput 0, rcInput 1]
  obtain ⟨⟨events, t⟩, hruns⟩ := Option.isSome_iff_exists.mp
    (show (iterations (fun _ => 0) ownTable 0 inputs loopStart).isSome = true by decide +kernel)
  have harms : ∀ r ∈ iterations (fun _ => 0) ownTable 0 inputs loopStart,
      (r.1.drop 22).map LoopEvent.gesture = [.arm] ∧
        trailing Stick.isLowerRight ((r.1.take 22).filterMap LoopEvent.sample?) = 0 := by
    decide +kernel
  obtain ⟨hlast, hshort⟩ := harms _ hruns
  obtain ⟨e, hdrop, hgesture⟩ := List.map_eq_singleton_iff.mp hlast
  obtain ⟨samples, hrun⟩ := (run_iterations _ _ _ hruns).observe []
  have hobeys := hlaw _ _ _ _ _ _ ⟨init_loopStart ownTable 0, rfl⟩ hrun
  have hsplit : events = events.take 22 ++ e :: [] := by
    rw [← hdrop, List.take_append_drop]
  have hlong := obeying_arm hobeys hsplit hgesture
  rw [List.nil_append, hshort] at hlong
  exact absurd hlong (by decide)

end Px4Firmware.Commander
