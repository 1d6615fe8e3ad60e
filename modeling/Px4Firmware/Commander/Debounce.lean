import Px4Firmware.Commander.MainLoop
import Px4Firmware.Lib.Stretch

/-!
# Px4Firmware.Commander.Debounce

**The battery emergency is debounced and called once.** The battery check of the main loop counts
readings below 15 % in a row, and after a warning readings below 10 % in a row (`Lib.Stretch`). In
every run of the main loop it calls `state_machine_emergency` at most once, and by an iteration
exactly if there were enough low readings in a row before, followed by enough critical readings in a
row (`emergency_debounced`).

`BatteryWatch.Watched` relates the counters and latches to all readings so far.
-/

namespace Px4Firmware.Commander

open Px4Firmware.Lib

/-- So many low readings in a row give the warning. -/
def lowStretch : Nat := lowVoltageBatteryCounterLimit + 2

/-- So many critical readings in a row after it give the emergency. -/
def criticalStretch : Nat := criticalVoltageBatteryCounterLimit + 2

namespace BatteryWatch

/-- Before the first reading. -/
def start : BatteryWatch := ⟨false, false, 0, 0⟩

/-- One more reading, with the calls so far. -/
def record (p : BatteryWatch × List Bool) (reading : BatteryReading) : BatteryWatch × List Bool :=
  ((p.1.check reading).1, p.2 ++ [(p.1.check reading).2])

/-- A sequence of readings: the counters and latches after them, and which of them have called
`state_machine_emergency`. -/
def run (readings : List BatteryReading) : BatteryWatch × List Bool :=
  readings.foldl record (start, [])

theorem run_concat (readings : List BatteryReading) (reading : BatteryReading) :
    run (readings ++ [reading]) =
      (((run readings).1.check reading).1,
        (run readings).2 ++ [((run readings).1.check reading).2]) := by
  rw [run, List.foldl_append]
  rfl

/-- What the counters and latches say about the readings so far: they count low readings; or a
warning was given, and they count critical readings; or the emergency was called. -/
inductive Watched (readings : List BatteryReading) (watch : BatteryWatch) : Prop
  | counting (hnone : ¬HasStretch BatteryReading.low lowStretch readings)
      (hwatch : watch = ⟨false, false, UInt8.ofNat (trailing BatteryReading.low readings), 0⟩)
  | warned (before since : List BatteryReading) (happend : readings = before ++ since)
      (hlow : Completes BatteryReading.low lowStretch before)
      (hnone : ¬HasStretch BatteryReading.critical criticalStretch since)
      (hlatched : watch.lowBatteryVoltageActionsDone = true)
      (hopen : watch.criticalBatteryVoltageActionsDone = false)
      (hcount : watch.criticalVoltageCounter =
        UInt16.ofNat (trailing BatteryReading.critical since))
  | called (before since : List BatteryReading) (happend : readings = before ++ since)
      (hlow : Completes BatteryReading.low lowStretch before)
      (hcritical : HasStretch BatteryReading.critical criticalStretch since)
      (hlatched : watch.lowBatteryVoltageActionsDone = true)
      (hdone : watch.criticalBatteryVoltageActionsDone = true)

/-- The emergency latch says whether both stretches have been seen. -/
theorem Watched.done_iff {readings : List BatteryReading} {watch : BatteryWatch}
    (h : Watched readings watch) :
    watch.criticalBatteryVoltageActionsDone = true ↔
      TwoStretches BatteryReading.low lowStretch BatteryReading.critical criticalStretch
        readings := by
  cases h with
  | counting hnone hwatch =>
      subst hwatch
      exact iff_of_false Bool.false_ne_true fun h => hnone h.hasStretch
  | warned before since happend hlow hnone _ hopen _ =>
      rw [happend, twoStretches_append_iff (by decide) hlow, hopen]
      exact iff_of_false Bool.false_ne_true hnone
  | called before since happend hlow hcritical _ hdone =>
      rw [happend, twoStretches_append_iff (by decide) hlow]
      exact iff_of_true hdone hcritical

/-- One more reading changes the latch of the emergency exactly if it calls it. -/
structure Checks (readings : List BatteryReading) (watch : BatteryWatch)
    (reading : BatteryReading) : Prop where
  watched : Watched (readings ++ [reading]) (watch.check reading).1
  latch : (watch.check reading).1.criticalBatteryVoltageActionsDone =
    (watch.criticalBatteryVoltageActionsDone || (watch.check reading).2)
  once : watch.criticalBatteryVoltageActionsDone = true → (watch.check reading).2 = false

variable {readings : List BatteryReading}

/-- A reading while low readings are counted. -/
theorem checks_counting (hnone : ¬HasStretch BatteryReading.low lowStretch readings)
    (reading : BatteryReading) :
    Checks readings ⟨false, false, UInt8.ofNat (trailing BatteryReading.low readings), 0⟩
      reading := by
  have hlt : trailing BatteryReading.low readings < 22 := trailing_lt_of_not_hasStretch hnone
  have hcounter : (UInt8.ofNat (trailing BatteryReading.low readings)).toNat =
      trailing BatteryReading.low readings :=
    UInt8.toNat_ofNat_of_lt' (Nat.lt_trans hlt (by decide))
  by_cases hlow : reading.low = true
  · have hcheck : check ⟨false, false, UInt8.ofNat (trailing BatteryReading.low readings), 0⟩
        reading = (⟨decide (20 < trailing BatteryReading.low readings), false,
          UInt8.ofNat (trailing BatteryReading.low readings + 1), 0⟩, false) := by
      simp [check, hlow, lowVoltageBatteryCounterLimit, hcounter, UInt8.ofNat_add]
    have htrailing : trailing BatteryReading.low (readings ++ [reading]) =
        trailing BatteryReading.low readings + 1 := by
      rw [trailing_concat, if_pos hlow]
    rw [← htrailing] at hcheck
    refine ⟨?_, by rw [hcheck]; rfl, fun h => absurd h Bool.false_ne_true⟩
    rw [hcheck]
    by_cases hdue : lowStretch ≤ trailing BatteryReading.low (readings ++ [reading])
    · refine .warned (readings ++ [reading]) [] (List.append_nil _).symm
        (completes_concat hnone hdue) (not_hasStretch_nil (by decide)) ?_ rfl rfl
      have : 22 ≤ trailing BatteryReading.low (readings ++ [reading]) := hdue
      exact decide_eq_true (by omega)
    · refine .counting (fun h => ?_) ?_
      · exact ((hasStretch_concat_iff (by decide) reading).mp h).elim hnone hdue
      · have : ¬22 ≤ trailing BatteryReading.low (readings ++ [reading]) := hdue
        rw [decide_eq_false (by omega)]
  · have hcheck : check ⟨false, false, UInt8.ofNat (trailing BatteryReading.low readings), 0⟩
        reading = (⟨false, false, 0, 0⟩, false) := by
      simp [check, hlow]
    have htrailing : trailing BatteryReading.low (readings ++ [reading]) = 0 := by
      rw [trailing_concat, if_neg hlow]
    refine ⟨?_, by rw [hcheck]; rfl, fun h => absurd h Bool.false_ne_true⟩
    rw [hcheck]
    refine .counting (fun h => ?_) (by rw [htrailing]; rfl)
    rcases (hasStretch_concat_iff (by decide) reading).mp h with h | h
    · exact hnone h
    · rw [htrailing] at h
      exact absurd h (by decide)

/-- A reading after the warning. -/
theorem checks_warned {watch : BatteryWatch} {before since : List BatteryReading}
    (happend : readings = before ++ since)
    (hlow : Completes BatteryReading.low lowStretch before)
    (hnone : ¬HasStretch BatteryReading.critical criticalStretch since)
    (hlatched : watch.lowBatteryVoltageActionsDone = true)
    (hopen : watch.criticalBatteryVoltageActionsDone = false)
    (hcount : watch.criticalVoltageCounter =
      UInt16.ofNat (trailing BatteryReading.critical since)) (reading : BatteryReading) :
    Checks readings watch reading := by
  have hlt : trailing BatteryReading.critical since < 4 := trailing_lt_of_not_hasStretch hnone
  have hcounter : watch.criticalVoltageCounter.toNat = trailing BatteryReading.critical since := by
    rw [hcount]
    exact UInt16.toNat_ofNat_of_lt' (Nat.lt_trans hlt (by decide))
  have hnext : readings ++ [reading] = before ++ (since ++ [reading]) := by
    rw [happend, List.append_assoc]
  by_cases hcritical : reading.critical = true
  · have htrailing : trailing BatteryReading.critical (since ++ [reading]) =
        trailing BatteryReading.critical since + 1 := by
      rw [trailing_concat, if_pos hcritical]
    have hcheck : watch.check reading =
        ({ watch with
            criticalBatteryVoltageActionsDone :=
              decide (2 < trailing BatteryReading.critical since)
            criticalVoltageCounter := watch.criticalVoltageCounter + 1 },
          decide (2 < trailing BatteryReading.critical since)) := by
      simp [check, hlatched, hopen, hcritical, criticalVoltageBatteryCounterLimit, hcounter]
    refine ⟨?_, by rw [hcheck, hopen]; rfl, fun h => absurd (hopen.symm.trans h) (by decide)⟩
    rw [hcheck]
    by_cases hdue : criticalStretch ≤ trailing BatteryReading.critical (since ++ [reading])
    · have : 4 ≤ trailing BatteryReading.critical (since ++ [reading]) := hdue
      exact .called before (since ++ [reading]) hnext hlow (hasStretch_of_le_trailing hdue)
        hlatched (decide_eq_true (by omega))
    · have : ¬4 ≤ trailing BatteryReading.critical (since ++ [reading]) := hdue
      refine .warned before (since ++ [reading]) hnext hlow (fun h => ?_) hlatched
        (decide_eq_false (by omega)) ?_
      · exact ((hasStretch_concat_iff (by decide) reading).mp h).elim hnone hdue
      · rw [htrailing, UInt16.ofNat_add, ← hcount]
        rfl
  · have htrailing : trailing BatteryReading.critical (since ++ [reading]) = 0 := by
      rw [trailing_concat, if_neg hcritical]
    have hcheck : watch.check reading =
        ({ watch with lowVoltageCounter := 0, criticalVoltageCounter := 0 }, false) := by
      simp [check, hlatched, hcritical]
    refine ⟨?_, by rw [hcheck, hopen]; rfl, fun h => absurd (hopen.symm.trans h) (by decide)⟩
    rw [hcheck]
    refine .warned before (since ++ [reading]) hnext hlow (fun h => ?_) hlatched hopen
      (by rw [htrailing]; rfl)
    rcases (hasStretch_concat_iff (by decide) reading).mp h with h | h
    · exact hnone h
    · rw [htrailing] at h
      exact absurd h (by decide)

/-- **One reading.** -/
theorem Watched.check {watch : BatteryWatch} (h : Watched readings watch)
    (reading : BatteryReading) : Checks readings watch reading := by
  cases h with
  | counting hnone hwatch =>
      subst hwatch
      exact checks_counting hnone reading
  | warned before since happend hlow hnone hlatched hopen hcount =>
      exact checks_warned happend hlow hnone hlatched hopen hcount reading
  | called before since happend hlow hcritical hlatched hdone =>
      have hcheck : watch.check reading =
          ({ watch with lowVoltageCounter := 0, criticalVoltageCounter := 0 }, false) := by
        simp [BatteryWatch.check, hlatched, hdone]
      refine ⟨?_, by rw [hcheck, hdone]; rfl, fun _ => by rw [hcheck]⟩
      rw [hcheck]
      exact .called before (since ++ [reading]) (by rw [happend, List.append_assoc]) hlow
        (hcritical.append [reading]) hlatched hdone

/-- What a sequence of readings has called. -/
structure Called (readings : List BatteryReading) (watch : BatteryWatch) (calls : List Bool) :
    Prop where
  watched : Watched readings watch
  latch : true ∈ calls ↔ watch.criticalBatteryVoltageActionsDone = true
  once : calls.count true ≤ 1
  length : calls.length = readings.length

/-- **A sequence of readings.** -/
theorem called_run (readings : List BatteryReading) :
    Called readings (run readings).1 (run readings).2 := by
  induction readings using List.reverseRecOn with
  | nil =>
      exact ⟨.counting (not_hasStretch_nil (by decide)) rfl,
        iff_of_false List.not_mem_nil Bool.false_ne_true, Nat.zero_le _, rfl⟩
  | append_singleton readings reading ih =>
      rw [run_concat]
      obtain ⟨hwatched, hlatch, honce⟩ := ih.watched.check reading
      refine ⟨hwatched, ?_, ?_, by simp [ih.length]⟩
      · rw [List.mem_append, List.mem_singleton, hlatch, ih.latch, Bool.or_eq_true]
        exact or_congr_right eq_comm
      · rw [List.count_append]
        by_cases hdone : (run readings).1.criticalBatteryVoltageActionsDone = true
        · rw [honce hdone]
          exact ih.once
        · have hzero : (run readings).2.count true = 0 :=
            List.count_eq_zero.mpr fun hmem => hdone (ih.latch.mp hmem)
          rw [hzero, Nat.zero_add]
          exact List.count_le_length

theorem take_run (readings : List BatteryReading) (k : Nat) :
    (run (readings.take k)).2 = (run readings).2.take k := by
  induction readings using List.reverseRecOn with
  | nil => simp [run]
  | append_singleton readings reading ih =>
      have hlen := (called_run readings).length
      by_cases hk : k ≤ readings.length
      · rw [List.take_append_of_le_length hk, ih, run_concat,
          List.take_append_of_le_length (hlen ▸ hk)]
      · rw [List.take_of_length_le (by simp; omega), run_concat,
          List.take_of_length_le (by simp [hlen]; omega)]

end BatteryWatch

/-! ### Runs of the main loop -/

/-- The reading that an iteration has seen. -/
def LoopEvent.reading? : LoopEvent → Option BatteryReading
  | iterate _ report => some report.reading
  | call _ => none

/-- Whether the battery check of an iteration has called `state_machine_emergency`. -/
def LoopEvent.emergency? : LoopEvent → Option Bool
  | iterate _ report => some report.emergency
  | call _ => none

/-- The readings of a run, one for each iteration. -/
def readings (events : List LoopEvent) : List BatteryReading := events.filterMap LoopEvent.reading?

/-- Which iterations of a run have called `state_machine_emergency`. -/
def emergencies (events : List LoopEvent) : List Bool := events.filterMap LoopEvent.emergency?

section

variable {clock : Nat → UInt64} {table : BatteryTable} {failsafeLowlevelTimeoutMs : UInt32}

/-- The battery check of a run sees its readings, one after the other. -/
theorem run_battery {s t : ThreadMain} {events : List LoopEvent}
    (h : (mainLoop clock table failsafeLowlevelTimeoutMs).Run s events t) (calls : List Bool) :
    (readings events).foldl BatteryWatch.record (s.battery, calls) =
      (t.battery, calls ++ emergencies events) := by
  induction h generalizing calls with
  | nil s => simp [readings, emergencies]
  | @cons s t u e events hstep _ ih =>
      have heffect := mainLoop_step clock hstep
      cases e with
      | iterate input report =>
          have hnext : BatteryWatch.record (s.battery, calls) report.reading =
              (t.battery, calls ++ [report.emergency]) := by
            unfold BatteryWatch.record
            rw [← heffect.battery]
          have hrest := ih (calls ++ [report.emergency])
          rw [List.append_assoc] at hrest
          rw [← hnext] at hrest
          exact hrest
      | call entry =>
          have hrest := ih calls
          rw [heffect.battery] at hrest
          exact hrest

/-- **The battery emergency is debounced and called once**: in every run of the main loop at most
one iteration calls it, and it has been called by an iteration exactly if, among the readings up to
it, enough low ones in a row are followed by enough critical ones in a row. -/
theorem emergency_debounced {s t : ThreadMain} {events : List LoopEvent}
    (hinit : (mainLoop clock table failsafeLowlevelTimeoutMs).init s)
    (h : (mainLoop clock table failsafeLowlevelTimeoutMs).Run s events t) :
    (emergencies events).count true ≤ 1 ∧
      ∀ k, true ∈ (emergencies events).take k ↔
        TwoStretches BatteryReading.low lowStretch BatteryReading.critical criticalStretch
          ((readings events).take k) := by
  have hrun : BatteryWatch.run (readings events) = (t.battery, emergencies events) := by
    obtain ⟨app, startTime, -, rfl⟩ := hinit
    exact run_battery h []
  have hcalls : (BatteryWatch.run (readings events)).2 = emergencies events :=
    congrArg Prod.snd hrun
  constructor
  · rw [← hcalls]
    exact (BatteryWatch.called_run _).once
  · intro k
    have hcalled := BatteryWatch.called_run ((readings events).take k)
    rw [← hcalls, ← BatteryWatch.take_run, hcalled.latch]
    exact hcalled.watched.done_iff

end

/-- An iteration three seconds after the start, with a battery of three cells that is empty. -/
def emptyInput : LoopInput where
  spMan := none
  spOffboard := none
  batteryVoltage := 9
  batteryVoltageValid := true
  times := ⟨3000000, 0, 0, 0, 0, 0, 0, 0, 0, 0, 0, 0⟩

/-- The main loop at its start, with a clock that shows 0. -/
def loopStart : ThreadMain := .start (after (announceStart fun _ => 0) initialCommander) 0

theorem init_loopStart (table : BatteryTable) (failsafeLowlevelTimeoutMs : UInt32) :
    (mainLoop (fun _ => 0) table failsafeLowlevelTimeoutMs).init loopStart :=
  ⟨after (announceStart fun _ => 0) initialCommander, 0, rfl, rfl⟩

/-- After 26 iterations with an empty battery, the emergency has been called. -/
theorem empty_emergency_debounced :
    ∃ events t, (mainLoop (fun _ => 0) ownTable 0).Run loopStart events t ∧
      TwoStretches BatteryReading.low lowStretch BatteryReading.critical criticalStretch
        ((readings events).take 26) := by
  obtain ⟨⟨events, t⟩, hruns⟩ := Option.isSome_iff_exists.mp
    (show (iterations (fun _ => 0) ownTable 0 (List.replicate 26 emptyInput) loopStart).isSome =
      true by decide +kernel)
  have hcalled : ∀ p ∈ iterations (fun _ => 0) ownTable 0 (List.replicate 26 emptyInput) loopStart,
      true ∈ (emergencies p.1).take 26 := by decide +kernel
  have hrun := run_iterations _ _ _ hruns
  have hiff := (emergency_debounced (init_loopStart ownTable 0) hrun).2 26
  exact ⟨events, t, hrun, hiff.mp (hcalled _ hruns)⟩

end Px4Firmware.Commander
