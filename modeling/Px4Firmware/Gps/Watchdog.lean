import Mathlib.Tactic.SplitIfs
import Px4Firmware.Lib.Hysteresis

/-!
# Px4Firmware.Gps.Watchdog

**The watchdogs of the GPS module.** A round of `ubx_watchdog_loop` or `mtk_watchdog_loop` looks
whether the messages are fresh. The loop announces that the module has been found, or that it has
stopped; while another mode is to be tried and the module has not been found, it ends with
`gps_mode_success` false.

The law is that the announcements are those of a switch with hysteresis (`Px4Firmware.Lib.Switch`),
and that the loop does not end so once the switch has been on. `watchdogs_hysteretic_iff` says which
runs obey it. The loop for UBX takes the module for healthy with the first good round and never
announces it, so there they are the runs without two good rounds in a row, and without two bad ones
right after a good one. No counter of the loop for MTK starts again with a round of the other kind,
so there they are the runs in which the rounds that count follow each other.
-/

namespace Px4Firmware.Gps

open Px4Firmware.Lib

/-! ### The loops -/

/-- What a round reads: the clock, the times of the latest messages, `gps_mode_try_all` and
`gps_baud_try_all`. -/
structure WatchdogRound (messages : Nat) where
  now : UInt64
  lastMessageTimestamps : Vector UInt64 messages
  gpsModeTryAll : Bool
  gpsBaudTryAll : Bool

/-- `all_okay`. -/
def WatchdogRound.allOkay {messages : Nat} (criticalTime : UInt64) (r : WatchdogRound messages) :
    Bool :=
  r.lastMessageTimestamps.toList.all fun timestamp => !decide (criticalTime < r.now - timestamp)

/-- `UBX_WATCHDOG_CRITICAL_TIME_MICROSECONDS`. -/
def ubxWatchdogCriticalTime : UInt64 := 3000000

/-- `MTK_WATCHDOG_CRITICAL_TIME_MICROSECONDS`. -/
def mtkWatchdogCriticalTime : UInt64 := 2000000

/-- `UBX_HEALTH_SUCCESS_COUNTER_LIMIT` and `MTK_HEALTH_SUCCESS_COUNTER_LIMIT`. -/
def healthSuccessCounterLimit : UInt8 := 2

/-- `UBX_HEALTH_FAIL_COUNTER_LIMIT` and `MTK_HEALTH_FAIL_COUNTER_LIMIT`. -/
def healthFailCounterLimit : UInt8 := 2

/-- The variables of a loop. -/
structure Watchdog where
  healthy : Bool
  failCount : UInt8
  successCount : UInt8
  onceOk : Bool
  deriving DecidableEq

/-- Before the first round. -/
def Watchdog.start : Watchdog := ⟨false, 0, 0, false⟩

/-- What a round announces. With `failed` it sets `gps_mode_success` to false, and the loop ends. -/
inductive WatchdogReport where
  | silent
  | found
  | stopped
  | failed
  deriving DecidableEq

/-- The connection attempt has failed. -/
def Watchdog.attemptFailed {messages : Nat} (r : WatchdogRound messages) (w : Watchdog) : Bool :=
  (r.gpsModeTryAll || r.gpsBaudTryAll) && decide (healthFailCounterLimit ≤ w.failCount) &&
    !w.healthy && !w.onceOk

/-- A round of `ubx_watchdog_loop`. -/
def ubxWatchdogRound (r : WatchdogRound 7) (w : Watchdog) : WatchdogReport × Watchdog :=
  if r.allOkay ubxWatchdogCriticalTime then
    let w := { w with successCount := w.successCount + 1, healthy := true, failCount := 0 }
    if !w.healthy && w.successCount == healthSuccessCounterLimit then
      (.found, { w with healthy := true, failCount := 0, onceOk := true })
    else (.silent, w)
  else
    let w := { w with failCount := w.failCount + 1 }
    if w.attemptFailed r then (.failed, w)
    else if w.healthy && w.failCount == healthFailCounterLimit then
      (.stopped, { w with healthy := false, successCount := 0 })
    else (.silent, w)

/-- A round of `mtk_watchdog_loop`. -/
def mtkWatchdogRound (r : WatchdogRound 1) (w : Watchdog) : WatchdogReport × Watchdog :=
  if r.allOkay mtkWatchdogCriticalTime then
    let w := { w with successCount := w.successCount + 1 }
    if !w.healthy && decide (healthSuccessCounterLimit ≤ w.successCount) then
      (.found, { w with healthy := true, failCount := 0, onceOk := true })
    else (.silent, w)
  else
    let w := { w with failCount := w.failCount + 1 }
    if w.attemptFailed r then (.failed, w)
    else if w.healthy && decide (healthFailCounterLimit ≤ w.failCount) then
      (.stopped, { w with healthy := false, successCount := 0 })
    else (.silent, w)

/-! ### The law -/

/-- What the switch would say of a report. -/
def WatchdogReport.change : WatchdogReport → Option Bool
  | .found => some true
  | .stopped => some false
  | _ => none

/-- A loop beside a switch with its limits. A round after the end does not happen. -/
def watchdogLoop {Round : Type} (allOkay : Round → Bool)
    (round : Round → Watchdog → WatchdogReport × Watchdog) :
    LTS (Option Watchdog × Switch) (Round × WatchdogReport) where
  init p := p = (some .start, .start)
  step p e q := ∃ w, p.1 = some w ∧ (round e.1 w).1 = e.2 ∧
    q.1 = (if e.2 = .failed then none else some (round e.1 w).2) ∧
    q.2 = p.2.next healthSuccessCounterLimit.toNat healthFailCounterLimit.toNat (allOkay e.1)

/-- `ubx_watchdog_loop`. -/
def ubxWatchdogLoop : LTS (Option Watchdog × Switch) (WatchdogRound 7 × WatchdogReport) :=
  watchdogLoop (·.allOkay ubxWatchdogCriticalTime) ubxWatchdogRound

/-- `mtk_watchdog_loop`. -/
def mtkWatchdogLoop : LTS (Option Watchdog × Switch) (WatchdogRound 1 × WatchdogReport) :=
  watchdogLoop (·.allOkay mtkWatchdogCriticalTime) mtkWatchdogRound

/-- The law of a round: it announces the changes of the switch, and the loop does not end for want
of a module that has been found. -/
structure Hysteretic {Round : Type} (allOkay : Round → Bool) (p : Option Watchdog × Switch)
    (e : Round × WatchdogReport) : Prop where
  announces : e.2.change =
    p.2.change healthSuccessCounterLimit.toNat healthFailCounterLimit.toNat (allOkay e.1)
  outlives : e.2 = .failed → p.2.everOn = false

/-- The condition on a round of the loop for UBX: no two good rounds in a row, and no two bad ones
right after a good one. -/
def UbxUneventful (p : Option Watchdog × Switch) (e : WatchdogRound 7 × WatchdogReport) : Prop :=
  ¬[true, true] <:+ p.2.since ++ [e.1.allOkay ubxWatchdogCriticalTime] ∧
  ¬[true, false, false] <:+ p.2.since ++ [e.1.allOkay ubxWatchdogCriticalTime]

/-- The condition on a round of the loop for MTK: until the module is found, a good round comes
right after the other good ones, and until it stops, a bad round right after the other bad ones. -/
def MtkSteady (p : Option Watchdog × Switch) (e : WatchdogRound 1 × WatchdogReport) : Prop :=
  p.2.Steady (e.1.allOkay mtkWatchdogCriticalTime)

/-! ### Rounds -/

section

variable {Round : Type} {allOkay : Round → Bool}
  {round : Round → Watchdog → WatchdogReport × Watchdog} {p q : Option Watchdog × Switch}
  {e : Round × WatchdogReport}

/-- What a round can do. -/
theorem watchdogLoop_step (h : (watchdogLoop allOkay round).step p e q) :
    ∃ w, p.1 = some w ∧ e.2 = (round e.1 w).1 ∧ (∀ w', q.1 = some w' → w' = (round e.1 w).2) ∧
      q.2 = p.2.next 2 2 (allOkay e.1) := by
  obtain ⟨w, hp, hreport, hq, hswitch⟩ := h
  refine ⟨w, hp, hreport.symm, fun w' hw' => ?_, hswitch⟩
  rw [hq] at hw'
  split at hw'
  · cases hw'
  · exact (Option.some_inj.mp hw').symm

/-- Where the loop does not end too early, the law is about the announcements. -/
theorem hysteretic_iff (houtlives : e.2 = .failed → p.2.everOn = false) :
    Hysteretic allOkay p e ↔ e.2.change = p.2.change 2 2 (allOkay e.1) :=
  ⟨fun h => h.announces, fun h => ⟨h, houtlives⟩⟩

end

/-! ### The loop for UBX -/

theorem ubxWatchdogRound_good {r : WatchdogRound 7} (w : Watchdog)
    (h : r.allOkay ubxWatchdogCriticalTime = true) :
    ubxWatchdogRound r w =
      (.silent, ⟨true, 0, w.successCount + 1, w.onceOk⟩) := by
  simp [ubxWatchdogRound, h]

/-- A bad round, as long as the module is taken for healthy. -/
theorem ubxWatchdogRound_bad_of_healthy {r : WatchdogRound 7} {w : Watchdog}
    (h : r.allOkay ubxWatchdogCriticalTime = false) (hw : w.healthy = true) :
    ubxWatchdogRound r w =
      if w.failCount + 1 = healthFailCounterLimit then
        (.stopped, ⟨false, w.failCount + 1, 0, w.onceOk⟩)
      else (.silent, { w with failCount := w.failCount + 1 }) := by
  simp [ubxWatchdogRound, h, hw, Watchdog.attemptFailed]

/-- A bad round, as long as it is not. -/
theorem ubxWatchdogRound_bad_of_unhealthy {r : WatchdogRound 7} {w : Watchdog}
    (h : r.allOkay ubxWatchdogCriticalTime = false) (hw : w.healthy = false) :
    (ubxWatchdogRound r w).1.change = none ∧
      (ubxWatchdogRound r w).2 = { w with failCount := w.failCount + 1 } := by
  simp only [ubxWatchdogRound, h, hw]
  split
  · next habsurd => cases habsurd
  · split
    · exact ⟨rfl, rfl⟩
    · exact ⟨rfl, rfl⟩

/-- What holds of the loop for UBX in a run that meets its condition: nothing has been announced,
and the module is taken for healthy from the first good round on. -/
structure UbxTracks (w : Watchdog) (s : Switch) : Prop where
  off : s.on = false
  neverOn : s.everOn = false
  unhealthy : w.healthy = false → true ∉ s.since
  healthy : w.healthy = true →
    w.failCount = 0 ∧ [true] <:+ s.since ∨ w.failCount = 1 ∧ [true, false] <:+ s.since

theorem ubxTracks_start : UbxTracks .start .start where
  off := rfl
  neverOn := rfl
  unhealthy _ := List.not_mem_nil
  healthy h := by cases h

section

variable {r : WatchdogRound 7} {w : Watchdog} {s : Switch}

/-- What holds is kept, as long as the switch does not change. -/
theorem UbxTracks.next {x : Bool} (h : UbxTracks w s) {w' : Watchdog}
    (hchanges : s.changes 2 2 x = false)
    (hunhealthy : w'.healthy = false → true ∉ s.since ++ [x])
    (hhealthy : w'.healthy = true → w'.failCount = 0 ∧ [true] <:+ s.since ++ [x] ∨
      w'.failCount = 1 ∧ [true, false] <:+ s.since ++ [x]) :
    UbxTracks w' (s.next 2 2 x) := by
  rw [Switch.next_of_not_changes hchanges]
  exact ⟨h.off, h.neverOn, hunhealthy, hhealthy⟩

/-- A good round is announced as it should unless it follows a good one. -/
theorem UbxTracks.good (h : UbxTracks w s) (hokay : r.allOkay ubxWatchdogCriticalTime = true) :
    ((ubxWatchdogRound r w).1.change = s.change 2 2 true ↔ ¬[true] <:+ s.since) ∧
      (¬[true] <:+ s.since → UbxTracks (ubxWatchdogRound r w).2 (s.next 2 2 true)) := by
  have hchanges : s.changes 2 2 true = true ↔ [true] <:+ s.since := by
    rw [Switch.changes_two_iff, h.off]
    exact and_iff_right rfl
  rw [ubxWatchdogRound_good w hokay]
  constructor
  · simp [WatchdogReport.change, Switch.change, hchanges]
  · intro hfirst
    have hnot : s.changes 2 2 true = false := by
      rw [← Bool.not_eq_true, hchanges]
      exact hfirst
    refine h.next hnot (fun habsurd => by cases habsurd) fun _ => .inl ⟨rfl, ?_⟩
    exact List.suffix_append _ _

/-- A bad round is announced as it should, unless it is the second after a good one. -/
theorem UbxTracks.bad (h : UbxTracks w s) (hokay : r.allOkay ubxWatchdogCriticalTime = false) :
    ((ubxWatchdogRound r w).1.change = none ↔ ¬[true, false] <:+ s.since) ∧
      (¬[true, false] <:+ s.since → UbxTracks (ubxWatchdogRound r w).2 (s.next 2 2 false)) := by
  have hnot : s.changes 2 2 false = false := by
    rw [← Bool.not_eq_true, Switch.changes_two_iff, h.off]
    simp
  cases hw : w.healthy with
  | false =>
      obtain ⟨hchange, hnext⟩ := ubxWatchdogRound_bad_of_unhealthy hokay hw
      have hnone := h.unhealthy hw
      refine ⟨iff_of_true hchange fun hsuffix => hnone (hsuffix.subset (by simp)), fun _ => ?_⟩
      rw [hnext]
      refine h.next hnot (fun _ => by simp [hnone]) fun habsurd => ?_
      cases hw.symm.trans habsurd
  | true =>
      rw [ubxWatchdogRound_bad_of_healthy hokay hw]
      obtain ⟨hcount, hsuffix⟩ | ⟨hcount, hsuffix⟩ := h.healthy hw
      · have hother : ¬[true, false] <:+ s.since := fun hother => by
          obtain ⟨t, ht⟩ := hsuffix
          rw [← ht] at hother
          cases (concat_suffix_concat_iff (l := [true])).mp hother |>.1
        rw [if_neg (by rw [hcount]; decide)]
        refine ⟨iff_of_true rfl hother, fun _ => h.next hnot (fun habsurd => ?_) fun _ => ?_⟩
        · cases hw.symm.trans habsurd
        · exact .inr ⟨by rw [hcount]; rfl,
            (concat_suffix_concat_iff (l := [true])).mpr ⟨rfl, hsuffix⟩⟩
      · rw [if_pos (by rw [hcount]; rfl)]
        refine ⟨iff_of_false (by simp [WatchdogReport.change]) (not_not_intro hsuffix), ?_⟩
        exact fun hother => absurd hsuffix hother

/-- The condition, by the kind of the round. -/
theorem uneventful_iff {x : Bool} {l : List Bool} :
    (¬[true, true] <:+ l ++ [x] ∧ ¬[true, false, false] <:+ l ++ [x]) ↔
      if x = true then ¬[true] <:+ l else ¬[true, false] <:+ l := by
  have htwo : [true, true] <:+ l ++ [x] ↔ true = x ∧ [true] <:+ l :=
    concat_suffix_concat_iff (l := [true])
  have hthree : [true, false, false] <:+ l ++ [x] ↔ false = x ∧ [true, false] <:+ l :=
    concat_suffix_concat_iff (l := [true, false])
  rw [htwo, hthree]
  cases x <;> simp

/-- One round of the loop. -/
theorem ubx_step {p q : Option Watchdog × Switch} {e : WatchdogRound 7 × WatchdogReport}
    (hstep : ubxWatchdogLoop.step p e q) (h : ∀ w, p.1 = some w → UbxTracks w p.2) :
    (Hysteretic (·.allOkay ubxWatchdogCriticalTime) p e ↔ UbxUneventful p e) ∧
      (UbxUneventful p e → ∀ w, q.1 = some w → UbxTracks w q.2) := by
  obtain ⟨w, hp, hreport, hnext, hswitch⟩ := watchdogLoop_step hstep
  have htracks : UbxTracks w p.2 := h w hp
  rw [hysteretic_iff fun _ => htracks.neverOn, hreport, UbxUneventful, uneventful_iff, hswitch]
  cases hokay : e.1.allOkay ubxWatchdogCriticalTime with
  | true =>
      obtain ⟨hiff, hkept⟩ := htracks.good hokay
      refine ⟨hiff, fun hfirst w' hw' => ?_⟩
      rw [hnext w' hw']
      exact hkept hfirst
  | false =>
      obtain ⟨hiff, hkept⟩ := htracks.bad hokay
      rw [Switch.change_two_of_eq htracks.off.symm]
      refine ⟨hiff, fun hfirst w' hw' => ?_⟩
      rw [hnext w' hw']
      exact hkept hfirst

end

/-! ### The loop for MTK -/

theorem mtkWatchdogRound_good_of_healthy {r : WatchdogRound 1} {w : Watchdog}
    (h : r.allOkay mtkWatchdogCriticalTime = true) (hw : w.healthy = true) :
    mtkWatchdogRound r w = (.silent, { w with successCount := w.successCount + 1 }) := by
  simp [mtkWatchdogRound, h, hw]

/-- A good round, as long as the module has not been found. -/
theorem mtkWatchdogRound_good_of_unhealthy {r : WatchdogRound 1} {w : Watchdog}
    (h : r.allOkay mtkWatchdogCriticalTime = true) (hw : w.healthy = false) :
    mtkWatchdogRound r w =
      if healthSuccessCounterLimit ≤ w.successCount + 1 then
        (.found, ⟨true, 0, w.successCount + 1, true⟩)
      else (.silent, { w with successCount := w.successCount + 1 }) := by
  simp [mtkWatchdogRound, h, hw]

theorem mtkWatchdogRound_bad_of_healthy {r : WatchdogRound 1} {w : Watchdog}
    (h : r.allOkay mtkWatchdogCriticalTime = false) (hw : w.healthy = true) :
    mtkWatchdogRound r w =
      if healthFailCounterLimit ≤ w.failCount + 1 then
        (.stopped, ⟨false, w.failCount + 1, 0, w.onceOk⟩)
      else (.silent, { w with failCount := w.failCount + 1 }) := by
  simp [mtkWatchdogRound, h, hw, Watchdog.attemptFailed]

/-- A bad round, as long as the module has not been found. -/
theorem mtkWatchdogRound_bad_of_unhealthy {r : WatchdogRound 1} {w : Watchdog}
    (h : r.allOkay mtkWatchdogCriticalTime = false) (hw : w.healthy = false) :
    (mtkWatchdogRound r w).1.change = none ∧
      (mtkWatchdogRound r w).2 = { w with failCount := w.failCount + 1 } := by
  simp only [mtkWatchdogRound, h, hw]
  split
  · next habsurd => cases habsurd
  · split
    · exact ⟨rfl, rfl⟩
    · exact ⟨rfl, rfl⟩

/-- It does not end once the module has been found. -/
theorem mtkWatchdogRound_failed {r : WatchdogRound 1} {w : Watchdog}
    (h : (mtkWatchdogRound r w).1 = .failed) : w.onceOk = false := by
  dsimp only [mtkWatchdogRound] at h
  split_ifs at h with hokay hfound hfailed hstopped
  simp only [Watchdog.attemptFailed, Bool.and_eq_true, Bool.not_eq_true'] at hfailed
  exact hfailed.2

/-- What holds of the loop for MTK in a run that meets its condition: it says what the switch says,
and its counter of the rounds that differ is right. -/
structure MtkTracks (w : Watchdog) (s : Switch) : Prop where
  healthy : w.healthy = s.on
  onceOk : w.onceOk = s.everOn
  everOn : s.on = true → s.everOn = true
  successCount : s.on = false → w.successCount = if true ∈ s.since then 1 else 0
  failCount : s.on = true → w.failCount = if false ∈ s.since then 1 else 0

theorem mtkTracks_start : MtkTracks .start .start where
  healthy := rfl
  onceOk := rfl
  everOn h := h
  successCount _ := rfl
  failCount h := by cases h

section

variable {r : WatchdogRound 1} {w : Watchdog} {s : Switch}

/-- A round that the switch does not change with, and that goes on as it should. -/
theorem MtkTracks.next_of_eq (h : MtkTracks w s) {w' : Watchdog} (hhealthy : w'.healthy = w.healthy)
    (honce : w'.onceOk = w.onceOk) (hsuccess : s.on = false → w'.successCount = w.successCount)
    (hfail : s.on = true → w'.failCount = w.failCount) : MtkTracks w' (s.next 2 2 s.on) := by
  rw [Switch.next_of_not_changes (Switch.changes_two_of_eq rfl)]
  refine ⟨hhealthy.trans h.healthy, honce.trans h.onceOk, h.everOn, fun hoff => ?_, fun hon => ?_⟩
  · replace hoff : s.on = false := hoff
    simpa [hsuccess hoff, hoff] using h.successCount hoff
  · replace hon : s.on = true := hon
    simpa [hfail hon, hon] using h.failCount hon

/-- A good round, as long as the module has not been found. -/
theorem MtkTracks.good (h : MtkTracks w s) (hoff : s.on = false)
    (hokay : r.allOkay mtkWatchdogCriticalTime = true) :
    ((mtkWatchdogRound r w).1.change = s.change 2 2 true ↔ s.Steady true) ∧
      (s.Steady true → MtkTracks (mtkWatchdogRound r w).2 (s.next 2 2 true)) := by
  have hcount := h.successCount hoff
  rw [mtkWatchdogRound_good_of_unhealthy hokay (h.healthy.trans hoff)]
  by_cases hsecond : true ∈ s.since
  · rw [if_pos hsecond] at hcount
    rw [if_pos (by rw [hcount]; decide), Switch.steady_iff_changes (by simp [hoff]) hsecond]
    refine ⟨by simp [WatchdogReport.change, Switch.change, hoff], fun hchanges => ?_⟩
    rw [Switch.next_of_changes hchanges, hoff]
    exact ⟨rfl, by simp, by simp, by simp, by simp⟩
  · have hnot := Switch.changes_two_of_not_mem hsecond
    rw [if_neg hsecond] at hcount
    rw [if_neg (by rw [hcount]; decide), Switch.next_of_not_changes hnot]
    refine ⟨iff_of_true ?_ (Switch.steady_of_not_mem hsecond), fun _ => ?_⟩
    · simp [WatchdogReport.change, Switch.change, hnot]
    · exact ⟨h.healthy, h.onceOk, h.everOn, by simp [hcount], by simp [hoff]⟩

/-- A bad round, as long as it has not stopped. -/
theorem MtkTracks.bad (h : MtkTracks w s) (hon : s.on = true)
    (hokay : r.allOkay mtkWatchdogCriticalTime = false) :
    ((mtkWatchdogRound r w).1.change = s.change 2 2 false ↔ s.Steady false) ∧
      (s.Steady false → MtkTracks (mtkWatchdogRound r w).2 (s.next 2 2 false)) := by
  have hcount := h.failCount hon
  rw [mtkWatchdogRound_bad_of_healthy hokay (h.healthy.trans hon)]
  by_cases hsecond : false ∈ s.since
  · rw [if_pos hsecond] at hcount
    rw [if_pos (by rw [hcount]; decide), Switch.steady_iff_changes (by simp [hon]) hsecond]
    refine ⟨by simp [WatchdogReport.change, Switch.change, hon], fun hchanges => ?_⟩
    rw [Switch.next_of_changes hchanges, hon]
    exact ⟨rfl, by simp [h.onceOk], by simp, by simp, by simp⟩
  · have hnot := Switch.changes_two_of_not_mem hsecond
    rw [if_neg hsecond] at hcount
    rw [if_neg (by rw [hcount]; decide), Switch.next_of_not_changes hnot]
    refine ⟨iff_of_true ?_ (Switch.steady_of_not_mem hsecond), fun _ => ?_⟩
    · simp [WatchdogReport.change, Switch.change, hnot]
    · exact ⟨h.healthy, h.onceOk, h.everOn, by simp [hon], by simp [hcount]⟩

/-- Any round. -/
theorem MtkTracks.round (h : MtkTracks w s) {x : Bool}
    (hokay : r.allOkay mtkWatchdogCriticalTime = x) :
    ((mtkWatchdogRound r w).1.change = s.change 2 2 x ↔ s.Steady x) ∧
      (s.Steady x → MtkTracks (mtkWatchdogRound r w).2 (s.next 2 2 x)) := by
  cases x with
  | false =>
      cases hsaid : s.on with
      | true => exact h.bad hsaid hokay
      | false =>
          obtain ⟨hchange, hnext⟩ :=
            mtkWatchdogRound_bad_of_unhealthy hokay (h.healthy.trans hsaid)
          rw [Switch.change_two_of_eq hsaid.symm, hnext, ← hsaid]
          refine ⟨iff_of_true hchange (Switch.steady_of_eq rfl), fun _ => ?_⟩
          exact h.next_of_eq rfl rfl (fun _ => rfl) fun hon => by cases hsaid.symm.trans hon
  | true =>
      cases hsaid : s.on with
      | false => exact h.good hsaid hokay
      | true =>
          rw [mtkWatchdogRound_good_of_healthy hokay (h.healthy.trans hsaid),
            Switch.change_two_of_eq hsaid.symm, ← hsaid]
          refine ⟨iff_of_true rfl (Switch.steady_of_eq rfl), fun _ => ?_⟩
          exact h.next_of_eq rfl rfl (fun hoff => by cases hsaid.symm.trans hoff) fun _ => rfl

end

/-- One round of the loop. -/
theorem mtk_step {p q : Option Watchdog × Switch} {e : WatchdogRound 1 × WatchdogReport}
    (hstep : mtkWatchdogLoop.step p e q) (h : ∀ w, p.1 = some w → MtkTracks w p.2) :
    (Hysteretic (·.allOkay mtkWatchdogCriticalTime) p e ↔ MtkSteady p e) ∧
      (MtkSteady p e → ∀ w, q.1 = some w → MtkTracks w q.2) := by
  obtain ⟨w, hp, hreport, hnext, hswitch⟩ := watchdogLoop_step hstep
  have htracks : MtkTracks w p.2 := h w hp
  have houtlives : e.2 = .failed → p.2.everOn = false := by
    rw [hreport, ← htracks.onceOk]
    exact mtkWatchdogRound_failed
  obtain ⟨hiff, hkept⟩ := htracks.round (r := e.1) rfl
  rw [hysteretic_iff houtlives, hreport, MtkSteady, hswitch]
  refine ⟨hiff, fun hsteady w' hw' => ?_⟩
  rw [hnext w' hw']
  exact hkept hsteady

/-! ### The runs -/

/-- **The runs of the two loops that obey the law.** -/
theorem watchdogs_hysteretic_iff (rounds : List (WatchdogRound 7 × WatchdogReport))
    (q : Option Watchdog × Switch) (rounds' : List (WatchdogRound 1 × WatchdogReport))
    (q' : Option Watchdog × Switch) :
    ((ubxWatchdogLoop.obeying fun p e _ => Hysteretic (·.allOkay ubxWatchdogCriticalTime) p e).Run
          (some .start, .start) rounds q ↔
        (ubxWatchdogLoop.restrict UbxUneventful).Run (some .start, .start) rounds q) ∧
    ((mtkWatchdogLoop.obeying fun p e _ => Hysteretic (·.allOkay mtkWatchdogCriticalTime) p e).Run
          (some .start, .start) rounds' q' ↔
        (mtkWatchdogLoop.restrict MtkSteady).Run (some .start, .start) rounds' q') := by
  constructor
  · refine LTS.run_obeying_iff (fun p e q hreach hstep => (ubx_step hstep ?_).1) rfl
    refine hreach.invariant (I := fun p => ∀ w, p.1 = some w → UbxTracks w p.2) ?_ ?_
    · rintro p rfl w hw
      cases hw
      exact ubxTracks_start
    · exact fun p e q h hrestricted => (ubx_step hrestricted.2 h).2 hrestricted.1
  · refine LTS.run_obeying_iff (fun p e q hreach hstep => (mtk_step hstep ?_).1) rfl
    refine hreach.invariant (I := fun p => ∀ w, p.1 = some w → MtkTracks w p.2) ?_ ?_
    · rintro p rfl w hw
      cases hw
      exact mtkTracks_start
    · exact fun p e q h hrestricted => (mtk_step hrestricted.2 h).2 hrestricted.1

/-- A round at the microsecond `now`, when the latest messages came at zero. -/
def roundAt (messages : Nat) (now : UInt64) : WatchdogRound messages :=
  ⟨now, Vector.replicate messages 0, false, false⟩

/-- Two good rounds in a row, which the loop for UBX does not announce, and two good rounds with a
bad one between them, which the loop for MTK announces. -/
theorem watchdogs_not_hysteretic :
    (¬∀ (rounds : List (WatchdogRound 7 × WatchdogReport)) (q : Option Watchdog × Switch),
      ubxWatchdogLoop.Run (some .start, .start) rounds q →
        (ubxWatchdogLoop.obeying fun p e _ =>
          Hysteretic (·.allOkay ubxWatchdogCriticalTime) p e).Run (some .start, .start) rounds q) ∧
    ¬∀ (rounds : List (WatchdogRound 1 × WatchdogReport)) (q : Option Watchdog × Switch),
      mtkWatchdogLoop.Run (some .start, .start) rounds q →
        (mtkWatchdogLoop.obeying fun p e _ =>
          Hysteretic (·.allOkay mtkWatchdogCriticalTime) p e).Run
            (some .start, .start) rounds q := by
  constructor
  · intro hlaw
    have hrun : ubxWatchdogLoop.Run (some .start, .start)
        [(roundAt 7 0, .silent), (roundAt 7 0, .silent)]
        (some ⟨true, 0, 2, false⟩, ⟨true, true, []⟩) :=
      .cons (t := (some ⟨true, 0, 1, false⟩, ⟨false, false, [true]⟩))
        ⟨_, rfl, by decide, by decide, by decide⟩
        (.cons ⟨_, rfl, by decide, by decide, by decide⟩ (.nil _))
    cases hlaw _ _ hrun with
    | cons hfirst hrest =>
        obtain ⟨w, -, -, -, hswitch⟩ := hfirst.1
        cases hrest with
        | cons hsecond _ =>
            have hannounces := hsecond.2.announces
            rw [hswitch] at hannounces
            exact absurd hannounces (by decide)
  · intro hlaw
    have hrun : mtkWatchdogLoop.Run (some .start, .start)
        [(roundAt 1 0, .silent), (roundAt 1 3000000, .silent), (roundAt 1 0, .found)]
        (some ⟨true, 0, 2, true⟩, ⟨false, false, [true, false, true]⟩) :=
      .cons (t := (some ⟨false, 0, 1, false⟩, ⟨false, false, [true]⟩))
        ⟨_, rfl, by decide, by decide, by decide⟩
        (.cons (t := (some ⟨false, 1, 1, false⟩, ⟨false, false, [true, false]⟩))
          ⟨_, rfl, by decide, by decide, by decide⟩
          (.cons ⟨_, rfl, by decide, by decide, by decide⟩ (.nil _)))
    cases hlaw _ _ hrun with
    | cons hfirst hrest =>
        obtain ⟨w, -, -, -, hswitch⟩ := hfirst.1
        cases hrest with
        | cons hsecond hlast =>
            obtain ⟨w', -, -, -, hswitch'⟩ := hsecond.1
            cases hlast with
            | cons hthird _ =>
                have hannounces := hthird.2.announces
                rw [hswitch', hswitch] at hannounces
                exact absurd hannounces (by decide)

end Px4Firmware.Gps
