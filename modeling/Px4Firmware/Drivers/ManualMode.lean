import Px4Firmware.Drivers.Ms5611

/-!
# Px4Firmware.Drivers.ManualMode

**Manual mode and the work queue.** While the interval is zero no cycle should be in the work queue,
and otherwise there should be one that is queued or running. A change of the queue depth restarts
the cycles whether or not they were on, and neither `start` nor `stop` knows of a cycle that is
running, which queues itself again when it is done.

`manual_mode` is the exact condition under which the driver keeps to this.
-/

namespace Px4Firmware.Drivers.Ms5611

open Px4Firmware.Lib

/-! ### The law and its condition -/

/-- How many cycles are queued or running. -/
def cycles (d : Ms5611) : Nat := d.work.queued.length + if d.cycle = .idle then 0 else 1

/-- The law: no cycle is queued in manual mode, and exactly one is queued or running otherwise. -/
def ManualStaysManual (d : Ms5611) : Prop :=
  (d.measureTicks = 0 → d.work.queued = []) ∧ (d.measureTicks ≠ 0 → d.cycles = 1)

/-- The argument of `SENSORIOCSPOLLRATE` is a rate that is taken. -/
def SetsRate (arg : UInt32) : Prop :=
  arg = sensorPollrateMax ∨ arg = sensorPollrateDefault ∨
    arg ≠ sensorPollrateManual ∧ arg ≠ sensorPollrateExternal ∧ arg ≠ 0 ∧
      usec2tick ms5611ConversionInterval ≤ usec2tick (1000000 / arg)

/-- The argument of `SENSORIOCSQUEUEDEPTH` is a depth that is taken. -/
def SetsDepth (arg : UInt32) : Prop := 2 ≤ arg + 1 ∧ arg + 1 ≤ 100

instance (arg : UInt32) : Decidable (SetsRate arg) := inferInstanceAs (Decidable (_ ∨ _ ∨ _))

instance (arg : UInt32) : Decidable (SetsDepth arg) := inferInstanceAs (Decidable (_ ∧ _))

/-- The condition: a rate is set in manual mode only when no cycle is running, the depth is changed
only outside of manual mode and when no cycle is running, and no cycle gets to where it queues the
next one in manual mode. -/
def Careful (d : Ms5611) : Event → Prop
  | .ioctl (.setPollrate arg) => d.measureTicks = 0 → SetsRate arg → d.cycle = .idle
  | .ioctl (.setQueuedepth arg allocated) =>
      SetsDepth arg → allocated = true → d.measureTicks ≠ 0 ∧ d.cycle = .idle
  | .collected ok => ok = false → d.measureTicks ≠ 0
  | .measured _ => d.measureTicks ≠ 0
  | _ => True

/-! ### What has nothing to do with the schedule -/

/-- The part of the state that the law is about. -/
def schedule (d : Ms5611) : Work × Cycle × UInt32 := (d.work, d.cycle, d.measureTicks)

variable {d d' : Ms5611}

@[simp] theorem postReport_schedule : d.postReport.schedule = d.schedule := by
  unfold postReport
  dsimp only
  split <;> rfl

@[simp] theorem collect_schedule : d.collect.schedule = d.schedule := by
  unfold collect
  dsimp only
  split
  · rfl
  · exact postReport_schedule

@[simp] theorem readReports_schedule (count : Nat) :
    (d.readReports count).2.schedule = d.schedule := by
  induction count generalizing d with
  | zero => rfl
  | succ count ih =>
      rw [readReports]
      split
      · exact ih
      · exact ih

@[simp] theorem readManual_schedule (transfers : Transfers) :
    (d.readManual transfers).2.schedule = d.schedule := by
  unfold readManual
  dsimp only
  split
  · rfl
  · split
    · rfl
    · split
      · rw [collect_schedule]
        rfl
      · split
        · rw [collect_schedule]
          rfl
        · rw [collect_schedule, collect_schedule]
          rfl

@[simp] theorem read_schedule (buflen : Nat) (transfers : Transfers) :
    (d.read buflen transfers).2.schedule = d.schedule := by
  unfold read
  dsimp only
  split
  · rfl
  · split
    · exact readReports_schedule _
    · exact readManual_schedule transfers

/-! ### The invariant -/

/-- The invariant: the law, and the item has a worker exactly when it is in the queue. -/
structure ManualInv (d : Ms5611) : Prop where
  law : d.ManualStaysManual
  worker : d.work.worker = true ↔ d.work.queued ≠ []

/-- The law and the invariant are about the schedule. -/
theorem ManualInv.congr (h : d'.schedule = d.schedule) (hinv : d.ManualInv) : d'.ManualInv := by
  simp only [schedule, Prod.mk.injEq] at h
  obtain ⟨hwork, hcycle, hticks⟩ := h
  refine ⟨⟨?_, ?_⟩, ?_⟩
  · rw [hticks, hwork]
    exact hinv.law.1
  · rw [hticks, cycles, hwork, hcycle]
    exact hinv.law.2
  · rw [hwork]
    exact hinv.worker

/-- There is at most one cycle in the queue. -/
theorem ManualInv.length_le (h : d.ManualInv) : d.work.queued.length ≤ 1 := by
  by_cases hticks : d.measureTicks = 0
  · rw [h.law.1 hticks]
    exact Nat.zero_le 1
  · have hone := h.law.2 hticks
    unfold cycles at hone
    omega

/-- Without its first cycle the queue is empty. -/
theorem ManualInv.tail_queued (h : d.ManualInv) : d.work.queued.tail = [] := by
  have hlength := h.length_le
  apply List.eq_nil_of_length_eq_zero
  rw [List.length_tail]
  omega

/-- `stop` empties the queue. -/
theorem ManualInv.queued_stop (h : d.ManualInv) : d.work.workCancel.queued = [] := by
  unfold Work.workCancel
  split
  · exact h.tail_queued
  · next hworker => exact Decidable.not_not.mp (mt h.worker.mpr hworker)

theorem worker_stop : d.work.workCancel.worker = false := by
  unfold Work.workCancel
  split
  · rfl
  · next hworker => exact Bool.eq_false_iff.mpr hworker

/-- While a cycle is running, none is in the queue. -/
theorem ManualInv.queued_running (h : d.ManualInv) (hrunning : d.cycle ≠ .idle) :
    d.work.queued = [] := by
  by_cases hticks : d.measureTicks = 0
  · exact h.law.1 hticks
  · have hone := h.law.2 hticks
    unfold cycles at hone
    rw [if_neg hrunning] at hone
    exact List.eq_nil_of_length_eq_zero (Nat.succ.inj hone)

/-- A cycle that goes on keeps the invariant. -/
theorem ManualInv.running (h : d.ManualInv) (hrunning : d.cycle ≠ .idle)
    (hrunning' : d'.cycle ≠ .idle) (hwork : d'.work = d.work)
    (hticks : d'.measureTicks = d.measureTicks) : d'.ManualInv := by
  have hcycles : d'.cycles = d.cycles := by
    unfold cycles
    rw [hwork, if_neg hrunning, if_neg hrunning']
  refine ⟨⟨?_, ?_⟩, ?_⟩
  · rw [hticks, hwork]
    exact h.law.1
  · rw [hticks, hcycles]
    exact h.law.2
  · rw [hwork]
    exact h.worker

/-- After a cycle has been put into an empty queue, the law holds exactly when the interval is not
zero and no cycle is running. -/
theorem manualInv_workQueue_iff {work : Work} (delay : UInt32)
    (hwork : d.work = work.workQueue delay) (hqueued : work.queued = []) :
    (d.ManualStaysManual ↔ d.measureTicks ≠ 0 ∧ d.cycle = .idle) ∧
      (d.ManualStaysManual → d.ManualInv) := by
  have hone : d.work.queued = [delay] := by
    rw [hwork, Work.workQueue, hqueued]
    rfl
  have hworker : d.work.worker = true ↔ d.work.queued ≠ [] := by
    rw [hone, hwork]
    exact ⟨fun _ => nofun, fun _ => rfl⟩
  refine ⟨?_, fun hlaw => ⟨hlaw, hworker⟩⟩
  unfold ManualStaysManual cycles
  rw [hone]
  constructor
  · rintro ⟨hmanual, hcycles⟩
    have hticks : d.measureTicks ≠ 0 := fun hticks => absurd (hmanual hticks) nofun
    refine ⟨hticks, Decidable.byContradiction fun hidle => ?_⟩
    have hboth := hcycles hticks
    rw [if_neg hidle] at hboth
    exact absurd hboth (Nat.succ_ne_self 1)
  · rintro ⟨hticks, hidle⟩
    refine ⟨fun hzero => absurd hzero hticks, fun _ => ?_⟩
    rw [if_pos hidle]
    rfl

/-! ### The calls -/

/-- What `SENSORIOCSPOLLRATE` does: nothing, or it stops the cycles for manual mode, or it sets a
rate. -/
theorem setPollrate_cases (arg : UInt32) :
    ¬ SetsRate arg ∧ ((d.setPollrate arg).2 = d ∨
        (d.setPollrate arg).2 = { d.stop with measureTicks := 0 }) ∨
      SetsRate arg ∧ ∃ ticks, ticks ≠ 0 ∧ (d.setPollrate arg).2 = d.setMeasureTicks ticks := by
  unfold setPollrate SetsRate
  by_cases hmanual : arg = sensorPollrateManual
  · rw [if_pos hmanual, hmanual]
    exact .inl ⟨by decide, .inr rfl⟩
  · rw [if_neg hmanual]
    by_cases hexternal : arg = sensorPollrateExternal ∨ arg = 0
    · rw [if_pos hexternal]
      refine .inl ⟨?_, .inl rfl⟩
      rcases hexternal with rfl | rfl <;> decide
    · rw [if_neg hexternal]
      rw [not_or] at hexternal
      by_cases hmax : arg = sensorPollrateMax ∨ arg = sensorPollrateDefault
      · rw [if_pos hmax]
        exact .inr ⟨hmax.imp_right .inl, _, by decide, rfl⟩
      · rw [if_neg hmax]
        rw [not_or] at hmax
        by_cases hslow : usec2tick (1000000 / arg) < usec2tick ms5611ConversionInterval
        · rw [if_pos hslow]
          refine .inl ⟨?_, .inl rfl⟩
          rintro (h | h | h)
          · exact hmax.1 h
          · exact hmax.2 h
          · exact absurd hslow (UInt32.not_lt.mpr h.2.2.2)
        · rw [if_neg hslow]
          have hticks := UInt32.not_lt.mp hslow
          refine .inr ⟨.inr (.inr ⟨hmanual, hexternal.1, hexternal.2, hticks⟩), _, ?_, rfl⟩
          intro hzero
          rw [hzero] at hticks
          exact absurd hticks (by decide)

/-- What `SENSORIOCSQUEUEDEPTH` does: nothing, or it stops and starts. -/
theorem setQueuedepth_cases (arg : UInt32) (allocated : Bool) :
    ¬ (SetsDepth arg ∧ allocated = true) ∧ (d.setQueuedepth arg allocated).2 = d ∨
      (SetsDepth arg ∧ allocated = true) ∧
        (d.setQueuedepth arg allocated).2 =
          ({ d.stop with numReports := (arg + 1).toNat } : Ms5611).start := by
  unfold setQueuedepth SetsDepth
  by_cases hrange : arg + 1 < 2 ∨ 100 < arg + 1
  · rw [if_pos hrange]
    refine .inl ⟨?_, rfl⟩
    rintro ⟨⟨hlow, hhigh⟩, -⟩
    rcases hrange with h | h
    · exact absurd h (UInt32.not_lt.mpr hlow)
    · exact absurd h (UInt32.not_lt.mpr hhigh)
  · rw [if_neg hrange]
    rw [not_or, UInt32.not_lt, UInt32.not_lt] at hrange
    cases allocated with
    | false => exact .inl ⟨fun h => Bool.noConfusion h.2, rfl⟩
    | true => exact .inr ⟨⟨hrange, rfl⟩, rfl⟩

/-- A rate is set: from manual mode, a cycle is started. -/
theorem manualInv_setMeasureTicks (h : d.ManualInv) {ticks : UInt32} (hticks : ticks ≠ 0) :
    ((d.setMeasureTicks ticks).ManualStaysManual ↔ (d.measureTicks = 0 → d.cycle = .idle)) ∧
      ((d.setMeasureTicks ticks).ManualStaysManual → (d.setMeasureTicks ticks).ManualInv) := by
  unfold setMeasureTicks
  by_cases hmanual : d.measureTicks = 0
  · rw [if_pos hmanual]
    obtain ⟨hiff, hinv⟩ := manualInv_workQueue_iff
      (d := ({ d with measureTicks := ticks } : Ms5611).start) _ rfl (h.law.1 hmanual)
    refine ⟨hiff.trans ?_, hinv⟩
    exact ⟨fun h _ => h.2, fun h => ⟨hticks, h hmanual⟩⟩
  · rw [if_neg hmanual]
    have hlaw : ({ d with measureTicks := ticks } : Ms5611).ManualStaysManual :=
      ⟨fun hzero => absurd hzero hticks, fun _ => h.law.2 hmanual⟩
    exact ⟨⟨fun _ hzero => absurd hzero hmanual, fun _ => hlaw⟩, fun _ => ⟨hlaw, h.worker⟩⟩

theorem manualInv_manual (h : d.ManualInv) :
    ({ d.stop with measureTicks := 0 } : Ms5611).ManualInv := by
  have hqueued := h.queued_stop
  refine ⟨⟨fun _ => hqueued, fun hne => absurd rfl hne⟩, ?_⟩
  exact ⟨fun hworker => absurd (worker_stop.symm.trans hworker) nofun,
    fun hne => absurd hqueued hne⟩

/-- A collection ends: the cycle goes on, or it queues the next one. -/
theorem manualInv_cycleCollected (h : d.ManualInv) (hrunning : d.cycle ≠ .idle) (ok : Bool) :
    ((d.cycleCollected ok).ManualStaysManual ↔ (ok = false → d.measureTicks ≠ 0)) ∧
      ((d.cycleCollected ok).ManualStaysManual → (d.cycleCollected ok).ManualInv) := by
  have hqueued := h.queued_running hrunning
  cases ok with
  | false =>
      obtain ⟨hiff, hinv⟩ :=
        manualInv_workQueue_iff (d := d.cycleCollected false) 1 rfl hqueued
      exact ⟨hiff.trans ⟨fun h _ => h.1, fun h => ⟨h rfl, rfl⟩⟩, hinv⟩
  | true =>
      have hcollect := collect_schedule (d := d)
      simp only [schedule, Prod.mk.injEq] at hcollect
      obtain ⟨hwork, -, hticks⟩ := hcollect
      unfold cycleCollected
      simp only [Bool.not_true, Bool.false_eq_true, if_false]
      split
      · next hgap =>
          obtain ⟨hiff, hinv⟩ := manualInv_workQueue_iff
            (d := { d.collect with
              collectPhase := false
              work := d.collect.work.workQueue
                (d.collect.measureTicks - usec2tick ms5611ConversionInterval)
              cycle := .idle }) _ rfl (by rw [hwork]; exact hqueued)
          have hne : d.collect.measureTicks ≠ 0 := by
            intro hzero
            have hlt := hgap.2
            rw [hzero] at hlt
            exact absurd hlt (by decide)
          exact ⟨⟨fun _ => nofun, fun _ => hiff.mpr ⟨hne, rfl⟩⟩, hinv⟩
      · have hinv : ManualInv { d.collect with collectPhase := false, cycle := .measuring } :=
          h.running hrunning nofun hwork hticks
        exact ⟨⟨fun _ => nofun, fun _ => hinv.law⟩, fun _ => hinv⟩

/-- **The step lemma**: a step obeys the law exactly when it is careful, and then keeps the
invariant. -/
theorem manual_step (h : d.ManualInv) {e : Event} (hstep : ms5611.step d e d') :
    (d'.ManualStaysManual ↔ Careful d e) ∧ (d'.ManualStaysManual → d'.ManualInv) := by
  have hkept (hinv : d'.ManualInv) (hcareful : Careful d e) :
      (d'.ManualStaysManual ↔ Careful d e) ∧ (d'.ManualStaysManual → d'.ManualInv) :=
    ⟨⟨fun _ => hcareful, fun _ => hinv.law⟩, fun _ => hinv⟩
  have hnext : d.next e = some d' := hstep
  cases e with
  | read buflen transfers =>
      cases hnext
      exact hkept (h.congr (read_schedule buflen transfers)) trivial
  | ioctl command =>
      cases hnext
      cases command with
      | setPollrate arg =>
          rcases setPollrate_cases (d := d) arg with
            ⟨hno, hsame | hstop⟩ | ⟨hrate, ticks, hticks, hset⟩
          · exact hkept (h.congr (congrArg schedule hsame)) fun _ hrate => absurd hrate hno
          · refine hkept ?_ fun _ hrate => absurd hrate hno
            exact (manualInv_manual h).congr (congrArg schedule hstop)
          · have hset' : (d.ioctl (.setPollrate arg)).2 = d.setMeasureTicks ticks := hset
            rw [hset']
            obtain ⟨hiff, hinv⟩ := manualInv_setMeasureTicks h hticks
            exact ⟨hiff.trans ⟨fun hidle hzero _ => hidle hzero, fun hidle hzero =>
              hidle hzero hrate⟩, hinv⟩
      | setQueuedepth arg allocated =>
          rcases setQueuedepth_cases (d := d) arg allocated with ⟨hno, hsame⟩ | ⟨hdepth, hset⟩
          · refine hkept (h.congr (congrArg schedule hsame)) ?_
            intro hdepth hallocated
            exact absurd ⟨hdepth, hallocated⟩ hno
          · have hset' : (d.ioctl (.setQueuedepth arg allocated)).2 =
                ({ d.stop with numReports := (arg + 1).toNat } : Ms5611).start := hset
            rw [hset']
            obtain ⟨hiff, hinv⟩ := manualInv_workQueue_iff
              (d := ({ d.stop with numReports := (arg + 1).toNat } : Ms5611).start) _ rfl
              h.queued_stop
            exact ⟨hiff.trans ⟨fun h _ _ => h, fun h => h hdepth.1 hdepth.2⟩, hinv⟩
      | setMslPressure arg =>
          refine hkept (h.congr ?_) trivial
          unfold ioctl
          dsimp only
          split <;> rfl
      | _ => exact hkept h trivial
  | workProcess =>
      obtain ⟨hidle, hnext⟩ := Option.ite_none_right_eq_some.mp hnext
      cases hnext
      have hticks : d.measureTicks ≠ 0 := fun hzero => hidle.2 (h.law.1 hzero)
      have hempty := h.tail_queued
      refine hkept ⟨⟨fun _ => hempty, fun _ => ?_⟩, ?_⟩ trivial
      · unfold cycles
        rw [show d.workProcess.work.queued = [] from hempty, if_neg (by nofun)]
        rfl
      · exact ⟨nofun, fun hne => absurd hempty hne⟩
  | called =>
      obtain ⟨hcalled, hnext⟩ := Option.ite_none_right_eq_some.mp hnext
      cases hnext
      refine hkept (h.running ?_ ?_ rfl rfl) trivial
      · rw [hcalled]
        nofun
      · unfold cycleCalled
        cases d.collectPhase <;> nofun
  | collected ok =>
      obtain ⟨hcollecting, hnext⟩ := Option.ite_none_right_eq_some.mp hnext
      cases hnext
      have hrunning : d.cycle ≠ .idle := by
        rw [hcollecting]
        nofun
      exact manualInv_cycleCollected h hrunning ok
  | measured ok =>
      obtain ⟨hmeasuring, hnext⟩ := Option.ite_none_right_eq_some.mp hnext
      cases hnext
      have hrunning : d.cycle ≠ .idle := by
        rw [hmeasuring]
        nofun
      obtain ⟨hiff, hinv⟩ := manualInv_workQueue_iff (d := d.cycleMeasured) _ rfl
        (h.queued_running hrunning)
      exact ⟨hiff.trans ⟨fun h => h.1, fun h => ⟨h, rfl⟩⟩, hinv⟩

theorem ManualInv.reachable (h : (ms5611.restrict Careful).Reachable d) : d.ManualInv := by
  refine h.invariant ?_ ?_
  · rintro d rfl
    exact ⟨⟨fun _ => rfl, fun hne => absurd rfl hne⟩, nofun, fun hne => absurd rfl hne⟩
  · intro d e d' hinv hstep
    have hlaw := manual_step hinv hstep.2
    exact hlaw.2 (hlaw.1.mpr hstep.1)

/-- **Manual mode stays manual.** In every run of the driver, no cycle is queued while the interval
is zero and exactly one is queued or running while it is not, exactly when every step meets the
condition. -/
theorem manual_mode {es : List Event} :
    (ms5611.obeying fun _ _ d => d.ManualStaysManual).Run .init es d ↔
      (ms5611.restrict Careful).Run .init es d := by
  refine LTS.run_obeying_iff ?_ rfl
  intro d e d' hd hstep
  exact (manual_step (ManualInv.reachable hd) hstep).1

/-- The depth of the queue is set while the driver is in manual mode: a cycle is queued. -/
theorem queuedepth_starts : ¬ ∀ d, ms5611.Reachable d → d.ManualStaysManual := by
  intro hlaw
  have hstep : ms5611.step .init (.ioctl (.setQueuedepth 10 true))
      (init.ioctl (.setQueuedepth 10 true)).2 := rfl
  have hreach := (LTS.Reachable.of_init (m := ms5611) rfl).step hstep
  exact absurd ((hlaw _ hreach).1 (by decide)) (by decide)

end Px4Firmware.Drivers.Ms5611
