import Px4Firmware.Commander.Debounce

/-!
# Px4Firmware.Commander.FailsafeTimeout

**The timeout of the low-level failsafe.** When no offboard setpoint has come for long, the main
loop declares the loss of the signal, notes the time in `failsave_lowlevel_start_time`, and kills
the motors once a timeout has passed since then. It does all of this in each iteration of a loss, so
that the time is always the latest.

The law is that the time stays that of the first declaration, and that an iteration after the
timeout kills the motors. `timeout_fires_iff` says which runs obey it: those in which a second
declaration of the same loss reads the clock at the very time that is noted.
-/

namespace Px4Firmware.Commander

open Px4Firmware.Lib

/-- The time of the first declaration of the loss that is going on, after a block for offboard
control that would declare it at `now`. A recent setpoint ends it. -/
def OffboardReport.episode (before : Option UInt64) (now : UInt64) :
    OffboardReport → Option UInt64
  | .found => none
  | .lost _ => some (before.getD now)
  | _ => before

/-- The same, after an event. -/
def LoopEvent.episode (before : Option UInt64) : LoopEvent → Option UInt64
  | iterate input report => report.offboard.episode before input.times.failsaveStart
  | call _ => before

section

variable (clock : Nat → UInt64) (table : BatteryTable) (failsafeLowlevelTimeoutMs : UInt32)

/-- The main loop, with the loss that is going on. -/
def lossLoop : LTS (ThreadMain × Option UInt64) LoopEvent :=
  (mainLoop clock table failsafeLowlevelTimeoutMs).observe none fun episode _ e _ =>
    e.episode episode

end

/-- The law of a step: the time of the failsafe is that of the first declaration, and an iteration
that declares the loss later than the timeout after it takes the branch that kills the motors and
publishes. -/
structure TimeoutFires (failsafeLowlevelTimeoutMs : UInt32) (p : ThreadMain × Option UInt64)
    (e : LoopEvent) (q : ThreadMain × Option UInt64) : Prop where
  keeps : ∀ first, q.2 = some first → q.1.app.status.failsaveLowlevelStartTime = first
  fires : ∀ input report killed first, e = .iterate input report →
    report.offboard = .lost killed → q.2 = some first →
    first.toNat + failsafeLowlevelTimeoutMs.toNat * 1000 < input.times.failsaveTest.toNat →
    killed = true ∧ Published q.1.app

/-- With this input an iteration declares the loss: no RC signal, and the latest offboard setpoint
is too old. -/
def ThreadMain.DeclaresLoss (s : ThreadMain) (input : LoopInput) : Prop :=
  (s.app.status.rcSignalFoundOnce = false ∧ s.sample input = none ∧
    (s.offboard input).timestamp ≠ 0) ∧
  ¬input.times.offboardAge - (s.offboard input).timestamp < 5000000 ∧
  100000 < input.times.offboardLost - (s.offboard input).timestamp

/-- The condition on a step: if it declares a loss that is going on, the clock shows the time of the
first declaration. -/
def SameTime (p : ThreadMain × Option UInt64) : LoopEvent → Prop
  | .iterate input _ => ∀ first, p.2 = some first → p.1.DeclaresLoss input →
      input.times.failsaveStart = first
  | .call _ => True

theorem offboardReport_lost_iff (failsafeLowlevelTimeoutMs : UInt32) (s : ThreadMain)
    (input : LoopInput) :
    (∃ killed, s.offboardReport failsafeLowlevelTimeoutMs input = .lost killed) ↔
      s.DeclaresLoss input := by
  unfold ThreadMain.offboardReport ThreadMain.DeclaresLoss
  split
  · next huse =>
    split
    · next hrecent => simp [huse, hrecent]
    · next hold =>
      split
      · next hlost => simp [huse, hold, hlost]
      · next hlost => simp [huse, hold, hlost]
  · next huse => simp [huse]

/-- Whether it kills the motors. -/
theorem killed_of_lost {failsafeLowlevelTimeoutMs : UInt32} {s : ThreadMain} {input : LoopInput}
    {killed : Bool} (h : s.offboardReport failsafeLowlevelTimeoutMs input = .lost killed) :
    killed = decide (failsafeTimeout failsafeLowlevelTimeoutMs <
      input.times.failsaveTest - input.times.failsaveStart) := by
  unfold ThreadMain.offboardReport at h
  split_ifs at h
  cases h
  rfl

/-- Later than the timeout is later than the product of 32 bits. -/
theorem failsafeTimeout_lt {failsafeLowlevelTimeoutMs : UInt32} {first test : UInt64}
    (h : first.toNat + failsafeLowlevelTimeoutMs.toNat * 1000 < test.toNat) :
    failsafeTimeout failsafeLowlevelTimeoutMs < test - first := by
  have hle : first ≤ test := UInt64.le_iff_toNat_le.mpr (by omega)
  rw [UInt64.lt_iff_toNat_lt, UInt64.toNat_sub_of_le _ _ hle]
  have hproduct : (failsafeTimeout failsafeLowlevelTimeoutMs).toNat ≤
      failsafeLowlevelTimeoutMs.toNat * 1000 := by
    unfold failsafeTimeout
    rw [UInt32.toNat_toUInt64, UInt32.toNat_mul]
    exact Nat.mod_le _ _
  omega

section

variable {clock : Nat → UInt64} {table : BatteryTable} {failsafeLowlevelTimeoutMs : UInt32}
  {p q : ThreadMain × Option UInt64} {e : LoopEvent}

/-- The time that is noted is that of the first declaration. -/
def Keeps (p : ThreadMain × Option UInt64) : Prop :=
  ∀ first, p.2 = some first → p.1.app.status.failsaveLowlevelStartTime = first

theorem keeps_step (h : (lossLoop clock table failsafeLowlevelTimeoutMs).step p e q)
    (hkeeps : Keeps p) : Keeps q ↔ SameTime p e := by
  obtain ⟨hstep, hepisode⟩ := h
  have heffect := mainLoop_step clock hstep
  cases e with
  | call entry =>
      refine iff_of_true (fun first hfirst => ?_) trivial
      rw [heffect.startTime]
      exact hkeeps first (hepisode.symm.trans hfirst)
  | iterate input report =>
      have hstart := heffect.startTime
      have hq : q.2 = report.offboard.episode p.2 input.times.failsaveStart := hepisode
      have hlost : (∃ killed, report.offboard = .lost killed) ↔ p.1.DeclaresLoss input := by
        rw [heffect.offboard]
        exact offboardReport_lost_iff failsafeLowlevelTimeoutMs p.1 input
      cases hreport : report.offboard with
      | lost killed =>
          have hdeclares := hlost.mp ⟨killed, hreport⟩
          rw [hreport] at hstart hq
          constructor
          · intro hkept first hfirst _
            rw [OffboardReport.episode, hfirst] at hq
            exact hstart.symm.trans (hkept first hq)
          · intro hsame first hfirst
            rw [hq, OffboardReport.episode] at hfirst
            refine hstart.trans ?_
            cases hp : p.2 with
            | none =>
                rw [hp] at hfirst
                exact Option.some_inj.mp hfirst
            | some noted =>
                rw [hp] at hfirst
                exact (hsame noted hp hdeclares).trans (Option.some_inj.mp hfirst)
      | found =>
          rw [hreport] at hq
          refine iff_of_true (fun first hfirst => ?_) fun first _ hdeclares => ?_
          · cases hq.symm.trans hfirst
          · obtain ⟨killed, hkilled⟩ := hlost.mpr hdeclares
            cases hreport.symm.trans hkilled
      | _ =>
          rw [hreport] at hstart hq
          refine iff_of_true (fun first hfirst => ?_) fun first _ hdeclares => ?_
          · exact hstart.trans (hkeeps first (hq.symm.trans hfirst))
          · obtain ⟨killed, hkilled⟩ := hlost.mpr hdeclares
            cases hreport.symm.trans hkilled

theorem keeps_reachable
    (h : ((lossLoop clock table failsafeLowlevelTimeoutMs).restrict SameTime).Reachable p) :
    Keeps p := by
  refine h.invariant (I := Keeps) ?_ ?_
  · rintro ⟨s, episode⟩ ⟨-, rfl⟩ first hfirst
    cases hfirst
  · rintro p e q hkeeps ⟨hsame, hstep⟩
    exact (keeps_step hstep hkeeps).mpr hsame

/-- One step from a state that careful runs reach. -/
theorem timeoutFires_iff (h : (lossLoop clock table failsafeLowlevelTimeoutMs).step p e q)
    (hkeeps : Keeps p) : TimeoutFires failsafeLowlevelTimeoutMs p e q ↔ SameTime p e := by
  rw [← keeps_step h hkeeps]
  refine ⟨fun hlaw => hlaw.keeps, fun hkept => ⟨hkept, ?_⟩⟩
  rintro input report killed first rfl hlost hfirst hlate
  have heffect := mainLoop_step clock h.1
  have hstart := heffect.startTime
  rw [hlost] at hstart
  have hsame : input.times.failsaveStart = first := hstart.symm.trans (hkept first hfirst)
  have hkilled : killed = true := by
    rw [killed_of_lost (heffect.offboard.symm.trans hlost), hsame]
    exact decide_eq_true (failsafeTimeout_lt hlate)
  subst hkilled
  exact ⟨rfl, heffect.published hlost⟩

end

section

variable (clock : Nat → UInt64) (table : BatteryTable) (failsafeLowlevelTimeoutMs : UInt32)

/-- **The runs that obey the law** are those in which no iteration declares a loss that is going on,
unless the clock shows the time of its first declaration. -/
theorem timeout_fires_iff {p q : ThreadMain × Option UInt64} {events : List LoopEvent}
    (hinit : (lossLoop clock table failsafeLowlevelTimeoutMs).init p) :
    ((lossLoop clock table failsafeLowlevelTimeoutMs).obeying
        (TimeoutFires failsafeLowlevelTimeoutMs)).Run p events q ↔
      ((lossLoop clock table failsafeLowlevelTimeoutMs).restrict SameTime).Run p events q := by
  refine LTS.run_obeying_iff (fun p e q hreach hstep => ?_) hinit
  exact timeoutFires_iff hstep (keeps_reachable hreach)

end

/-! ### Two runs -/

section

variable {clock : Nat → UInt64} {table : BatteryTable} {failsafeLowlevelTimeoutMs : UInt32}
  {p q : ThreadMain × Option UInt64} {events : List LoopEvent}

/-- The time that is noted at the end of a run that obeys the law. -/
theorem obeying_keeps
    (h : ((lossLoop clock table failsafeLowlevelTimeoutMs).obeying
      (TimeoutFires failsafeLowlevelTimeoutMs)).Run p events q) (hp : Keeps p) : Keeps q := by
  induction h with
  | nil => exact hp
  | cons hstep _ ih => exact ih hstep.2.keeps

/-- The loss that is going on at the end of a run. -/
theorem episode_eq_foldl (h : (lossLoop clock table failsafeLowlevelTimeoutMs).Run p events q) :
    q.2 = events.foldl LoopEvent.episode p.2 := by
  induction h with
  | nil => rfl
  | cons hstep _ ih => rw [ih, hstep.2, List.foldl_cons]

end

/-- An iteration seven seconds after the only offboard setpoint, at the microsecond `now`. -/
def lossInput (now : UInt64) : LoopInput where
  spMan := none
  spOffboard := some ⟨1, .direct, false⟩
  batteryVoltage := 12
  batteryVoltageValid := true
  times := ⟨now, now, now, now, now, now, now, now, now, now, now + 5, now⟩

/-- A loss of a single iteration, with no timeout. -/
theorem single_loss_fires :
    ∃ events q, ((lossLoop (fun _ => 0) ownTable 0).obeying (TimeoutFires 0)).Run
      (loopStart, none) events q ∧ q.2 = some 7000000 := by
  obtain ⟨⟨events, t⟩, hruns⟩ := Option.isSome_iff_exists.mp
    (show (iterations (fun _ => 0) ownTable 0 [lossInput 7000000] loopStart).isSome = true by
      decide +kernel)
  have hfacts : ∀ r ∈ iterations (fun _ => 0) ownTable 0 [lossInput 7000000] loopStart,
      r.1.length = 1 ∧ r.1.foldl LoopEvent.episode none = some 7000000 := by decide +kernel
  obtain ⟨hlength, hepisode⟩ := hfacts _ hruns
  obtain ⟨e, rfl⟩ := List.length_eq_one_iff.mp hlength
  cases run_iterations _ _ _ hruns with
  | cons hstep hrest =>
      have hlossStep : (lossLoop (fun _ => 0) ownTable 0).step (loopStart, none) e
          (_, e.episode none) := ⟨hstep, rfl⟩
      have hsame : SameTime (loopStart, none) e := by
        cases e with
        | iterate input report => exact fun first hfirst => by cases hfirst
        | call entry => trivial
      have hinit : (lossLoop (fun _ => 0) ownTable 0).init (loopStart, none) :=
        ⟨init_loopStart ownTable 0, rfl⟩
      have hcareful : ((lossLoop (fun _ => 0) ownTable 0).restrict SameTime).Run
          (loopStart, none) [e] (_, e.episode none) := .cons ⟨hsame, hlossStep⟩ (.nil _)
      exact ⟨[e], _, (timeout_fires_iff _ _ _ hinit).mpr hcareful, hepisode⟩

/-- A second iteration of the same loss, a second later: it notes the time again, and with a timeout
of 500 milliseconds it does not kill the motors. -/
theorem second_loss_starts_again :
    ¬∀ (clock : Nat → UInt64) (table : BatteryTable) (failsafeLowlevelTimeoutMs : UInt32)
        (p q : ThreadMain × Option UInt64) (events : List LoopEvent),
      (lossLoop clock table failsafeLowlevelTimeoutMs).init p →
      (lossLoop clock table failsafeLowlevelTimeoutMs).Run p events q →
      ((lossLoop clock table failsafeLowlevelTimeoutMs).obeying
        (TimeoutFires failsafeLowlevelTimeoutMs)).Run p events q := by
  intro hlaw
  let inputs := [lossInput 7000000, lossInput 8000000]
  obtain ⟨⟨events, t⟩, hruns⟩ := Option.isSome_iff_exists.mp
    (show (iterations (fun _ => 0) ownTable 500 inputs loopStart).isSome = true by decide +kernel)
  have hfacts : ∀ r ∈ iterations (fun _ => 0) ownTable 500 inputs loopStart,
      r.1.foldl LoopEvent.episode none = some 7000000 ∧
        r.2.app.status.failsaveLowlevelStartTime = 8000000 := by decide +kernel
  obtain ⟨hepisode, hnoted⟩ := hfacts _ hruns
  obtain ⟨episode, hrun⟩ := (run_iterations _ _ _ hruns).observe none
  have hlossRun : (lossLoop (fun _ => 0) ownTable 500).Run (loopStart, none) events
      (t, episode) := hrun
  have hobeys := hlaw _ _ _ _ _ _ ⟨init_loopStart ownTable 500, rfl⟩ hlossRun
  have hkeeps := obeying_keeps hobeys fun first hfirst => by cases hfirst
  have hkept := hkeeps 7000000 ((episode_eq_foldl hlossRun).trans hepisode)
  exact absurd (hkept.symm.trans hnoted) (by decide)

end Px4Firmware.Commander
