import Mathlib.Algebra.Order.Ring.Rat
import Mathlib.Data.Finset.Max
import Mathlib.Data.Rat.Defs
import Mathlib.Tactic.Linarith
import Px4Firmware.Commander.SensorCalibration
import Px4Firmware.Lib.Extremes

/-!
# Px4Firmware.Commander.MagExtremes

**The extremes of the magnetometer calibration**: what `do_mag_calibration` makes of the samples
that it collects. Its range is widened on each axis, sample by sample (`Lib.Extremes`), from
`FLT_MAX` down and from `-FLT_MAX` up. The offset is the middle of the range.

With samples that are rational numbers, the offset of an axis is the middle between the smallest and
the greatest sample exactly if the first sample is not the only greatest one, apart from samples
beyond `FLT_MAX` (`offset_eq_middle_iff`): the first sample is always a new minimum.
-/

namespace Px4Firmware.Commander

open Px4Firmware.Lib

/-! ### The samples of a run -/

section

variable {F : Type} (env : Surroundings F)

/-- The samples that come with the polls from one number up to another. -/
def magSamples (start stop : Nat) : List (Axes F) :=
  (List.range' start (stop - start)).filterMap fun poll =>
    if env.poll poll ≠ 0 then some (env.raw poll).magnetometerGa else none

theorem magSamples_of_lt {start stop : Nat} (h : start < stop) :
    magSamples env start stop =
      (if env.poll start ≠ 0 then [(env.raw start).magnetometerGa] else []) ++
        magSamples env (start + 1) stop := by
  obtain ⟨n, rfl⟩ : ∃ n, stop = start + 1 + n := ⟨stop - start - 1, by omega⟩
  have hlen : start + 1 + n - start = n + 1 := by omega
  unfold magSamples
  rw [hlen, List.range'_succ, Nat.add_sub_cancel_left]
  split <;> simp [*]

/-- The loop, if it ends, has taken the samples of its polls into the range, one after the other. -/
theorem magLoop_folded (calibrationStart : UInt64) (rounds : Nat) (range : MagRange F)
    (b : Bench F) :
    outcome (magLoop env calibrationStart rounds range)
      (fun result b' => b.polls ≤ b'.polls ∧
        result = (magSamples env b.polls b'.polls).foldl (MagRange.update env) range)
      (fun _ _ => True) b := by
  induction rounds generalizing b range with
  | zero => trivial
  | succ rounds ih =>
      rw [magLoop, outcome_bind, outcome_clock, outcome_ite]
      refine ⟨fun _ => ?_, fun _ => ⟨le_rfl, by simp [magSamples]⟩⟩
      rw [outcome_bind, outcome_pollSample]
      by_cases hpoll : env.poll b.polls = 0
      · simp only [hpoll, ne_eq, not_true_eq_false, if_false]
        refine ⟨Nat.le_succ _, ?_⟩
        simp [magSamples, hpoll]
      · simp only [hpoll, ne_eq, not_false_eq_true, if_true]
        refine (ih (range.update env (env.raw b.polls).magnetometerGa) _).mono ?_ fun _ _ h => h
        rintro result b' ⟨hle, rfl⟩
        refine ⟨Nat.le_of_succ_le hle, ?_⟩
        rw [magSamples_of_lt env hle, if_pos hpoll]
        rfl

/-- The deadline of the loop has passed at a time. -/
def DeadlinePassed (calibrationStart now : UInt64) : Prop :=
  ¬ (now - calibrationStart) / 1000 < 30000

/-- The loop ends when its deadline has passed at one of its rounds. -/
theorem magLoop_ends (calibrationStart : UInt64) (rounds : Nat) (range : MagRange F) (b : Bench F)
    (hlate : ∃ k < rounds, DeadlinePassed calibrationStart (env.clock (b.app.clockReads + k))) :
    outcome (magLoop env calibrationStart rounds range) (fun _ _ => True) (fun _ _ => False) b := by
  obtain ⟨k, hk, hlate⟩ := hlate
  induction rounds generalizing b range k with
  | zero => exact absurd hk (Nat.not_lt_zero k)
  | succ rounds ih =>
      rw [magLoop, outcome_bind, outcome_clock, outcome_ite]
      refine ⟨fun hearly => ?_, fun _ => trivial⟩
      rw [outcome_bind, outcome_pollSample]
      by_cases hpoll : env.poll b.polls = 0
      · simp only [hpoll, ne_eq, not_true_eq_false, if_false]
        trivial
      · simp only [hpoll, ne_eq, not_false_eq_true, if_true]
        -- the deadline is not that of this round
        cases k with
        | zero => exact absurd hearly hlate
        | succ k =>
            refine ih _ _ k (Nat.lt_of_succ_lt_succ hk) ?_
            rwa [Nat.add_comm k 1, ← Nat.add_assoc] at hlate

/-- The routine returns once the clock passes its deadline, which counts from the second reading of
the clock. -/
theorem doMagCalibration_returns (b : Bench F) {k : Nat}
    (hlate : DeadlinePassed (env.clock (b.app.clockReads + 1))
      (env.clock (b.app.clockReads + 2 + k))) :
    ∃ rounds b', doMagCalibration env rounds b = .ok () b' := by
  have hends : outcome (doMagCalibration env (k + 1)) (fun _ _ => True) (fun _ _ => False) b := by
    unfold doMagCalibration
    simp only [outcome_bind, outcome_setFlag, outcome_setScale, outcome_log, outcome_clock]
    refine (magLoop_ends env _ _ _ _ ⟨k, Nat.lt_succ_self k, ?_⟩).mono ?_ fun _ _ h => h
    · rw [← Nat.add_assoc b.app.clockReads 1 1] at hlate
      exact hlate
    · exact fun _ _ _ => trivial
  cases hrun : doMagCalibration env (k + 1) b with
  | ok _ b' => exact ⟨k + 1, b', hrun⟩
  | error e b' =>
      unfold outcome at hends
      rw [hrun] at hends
      exact hends.elim

/-- The offset that the routine sets, if it returns. -/
theorem doMagCalibration_offset (rounds : Nat) (b : Bench F) :
    outcome (doMagCalibration env rounds)
      (fun _ b' => b'.offset .mag = (magScale env
        ((magSamples env b.polls b'.polls).foldl (MagRange.update env) (.empty env))).offset)
      (fun _ _ => True) b := by
  unfold doMagCalibration
  simp only [outcome_bind, outcome_setFlag, outcome_setScale, outcome_log, outcome_clock]
  refine (magLoop_folded env _ _ _ _).mono ?_ fun _ _ h => h
  rintro range b' ⟨-, rfl⟩
  simp only [outcome_setParameters]
  exact Function.update_self ..

end

/-! ### One axis -/

/-- The axes of a sensor. -/
inductive Axis
  | x
  | y
  | z
  deriving DecidableEq

/-- The value of an axis. -/
def Axes.get {F : Type} (a : Axes F) : Axis → F
  | .x => a.x
  | .y => a.y
  | .z => a.z

/-- The range of an axis. -/
def MagRange.get {F : Type} (range : MagRange F) (axis : Axis) : F × F :=
  (range.min.get axis, range.max.get axis)

/-- `FLT_MAX`. -/
def fltMax : Rat := 340282346638528859811704183484516925440

/-- The arithmetic of the rational numbers. -/
def exactArith (sqrt : Rat → Rat) : FloatArith Rat where
  zero := 0
  one := 1
  two := 2
  gravity := 980665 / 100000
  fltMax := fltMax
  ofInt n := n
  neg q := -q
  add p q := p + q
  mul p q := p * q
  div p q := p / q
  sqrt := sqrt
  lt p q := p < q

/-- The surroundings in which floats are rational numbers. -/
def exactSurroundings (sqrt : Rat → Rat) (clock : Nat → UInt64) (poll : Nat → Int)
    (raw : Nat → SensorCombined Rat) : Surroundings Rat where
  arith := exactArith sqrt
  clock := clock
  poll := poll
  raw := raw

section

variable (sqrt : Rat → Rat) (clock : Nat → UInt64) (poll : Nat → Int)
  (raw : Nat → SensorCombined Rat)

theorem rangeAxis_eq_widen (value min max : Rat) :
    rangeAxis (exactSurroundings sqrt clock poll raw) value min max = widen (min, max) value := by
  simp [rangeAxis, widen, exactSurroundings, exactArith]

theorem get_update (range : MagRange Rat) (value : Axes Rat) (axis : Axis) :
    (range.update (exactSurroundings sqrt clock poll raw) value).get axis =
      widen (range.get axis) (value.get axis) := by
  cases axis <;> simp [MagRange.update, MagRange.get, Axes.get, rangeAxis_eq_widen]

theorem get_foldl_update (samples : List (Axes Rat)) (range : MagRange Rat) (axis : Axis) :
    (samples.foldl (MagRange.update (exactSurroundings sqrt clock poll raw)) range).get axis =
      (samples.map fun a => a.get axis).foldl widen (range.get axis) := by
  induction samples generalizing range with
  | nil => rfl
  | cons value samples ih =>
      rw [List.foldl_cons, ih, get_update]
      rfl

/-- The offset of an axis is the middle of its range. -/
theorem get_magScale_offset (range : MagRange Rat) (axis : Axis) :
    (magScale (exactSurroundings sqrt clock poll raw) range).offset.get axis =
      ((range.get axis).2 + (range.get axis).1) / 2 := by
  cases axis <;> rfl

theorem get_empty (axis : Axis) :
    (MagRange.empty (exactSurroundings sqrt clock poll raw)).get axis = (fltMax, -fltMax) := by
  cases axis <;> rfl

end

/-! ### The law and its condition -/

/-- The law: the offset is the middle between the smallest and the greatest sample. -/
def IsMiddle (samples : List Rat) (offset : Rat) : Prop :=
  ∀ lo hi, IsLeast {v | v ∈ samples} lo → IsGreatest {v | v ∈ samples} hi →
    offset = (hi + lo) / 2

/-- The condition: some sample is at most `FLT_MAX` and some is at least `-FLT_MAX`, and the first
sample is no new minimum, or is where the maximum starts, or is not the only greatest one. -/
def ExtremesSeen (first : Rat) (rest : List Rat) : Prop :=
  (∃ v ∈ first :: rest, v ≤ fltMax) ∧ (∃ v ∈ first :: rest, -fltMax ≤ v) ∧
    (fltMax ≤ first ∨ first = -fltMax ∨ ∃ v ∈ rest, first ≤ v)

instance (first : Rat) (rest : List Rat) : Decidable (ExtremesSeen first rest) :=
  inferInstanceAs (Decidable (_ ∧ _ ∧ _))

theorem exists_isLeast_isGreatest (first : Rat) (rest : List Rat) :
    ∃ lo hi, IsLeast {v | v ∈ first :: rest} lo ∧ IsGreatest {v | v ∈ first :: rest} hi := by
  have hne : (first :: rest).toFinset.Nonempty := ⟨first, by simp⟩
  have hlo := Finset.isLeast_min' _ hne
  have hhi := Finset.isGreatest_max' _ hne
  rw [List.coe_toFinset] at hlo hhi
  exact ⟨_, _, hlo, hhi⟩

/-- What one pass makes of the samples of an axis. -/
theorem isMiddle_widen_iff (first : Rat) (rest : List Rat) :
    let range := (first :: rest).foldl widen (fltMax, -fltMax)
    IsMiddle (first :: rest) ((range.2 + range.1) / 2) ↔ ExtremesSeen first rest := by
  intro range
  obtain ⟨lo, hi, hlo, hhi⟩ := exists_isLeast_isGreatest first rest
  have hmin : range.1 = min fltMax lo := foldl_widen_fst hlo
  have hmax : range.2 = hi ↔ -fltMax ≤ hi ∧
      (fltMax ≤ first ∨ first = -fltMax ∨ ∃ v ∈ rest, first ≤ v) := foldl_widen_snd_iff hhi
  have hpos : -fltMax < fltMax := by decide
  have hle : lo ≤ hi := hlo.2 hhi.1
  have hfirst : lo ≤ first := hlo.2 List.mem_cons_self
  have hlow : (∃ v ∈ first :: rest, v ≤ fltMax) ↔ lo ≤ fltMax :=
    ⟨fun ⟨v, hv, hvle⟩ => (hlo.2 hv).trans hvle, fun h => ⟨lo, hlo.1, h⟩⟩
  have hhigh : (∃ v ∈ first :: rest, -fltMax ≤ v) ↔ -fltMax ≤ hi :=
    ⟨fun ⟨v, hv, hlev⟩ => hlev.trans (hhi.2 hv), fun h => ⟨hi, hhi.1, h⟩⟩
  unfold ExtremesSeen
  rw [hlow, hhigh]
  constructor
  · intro hmiddle
    have hsum : range.2 + range.1 = hi + lo := by linarith [hmiddle lo hi hlo hhi]
    rcases le_or_gt lo fltMax with hwithin | hbeyond
    · rw [hmin, min_eq_right hwithin] at hsum
      exact ⟨hwithin, hmax.mp (by linarith)⟩
    · -- All samples are beyond `FLT_MAX`: the maximum is found, the minimum is not.
      have hfound := hmax.mpr ⟨by linarith, .inl (by linarith)⟩
      rw [hmin, min_eq_left hbeyond.le, hfound] at hsum
      linarith
  · rintro ⟨hwithin, hseen⟩ lo' hi' hlo' hhi'
    rw [hlo'.unique hlo, hhi'.unique hhi, hmin, min_eq_right hwithin, hmax.mpr hseen]

section

variable (sqrt : Rat → Rat) (clock : Nat → UInt64) (poll : Nat → Int)
  (raw : Nat → SensorCombined Rat)

/-- The offset that a run sets is the middle of what one pass finds. -/
theorem offset_eq_widen {rounds : Nat} {b b' : Bench Rat}
    (hrun : doMagCalibration (exactSurroundings sqrt clock poll raw) rounds b = .ok () b')
    (axis : Axis) :
    let range := ((magSamples (exactSurroundings sqrt clock poll raw) b.polls b'.polls).map
      fun a => a.get axis).foldl widen (fltMax, -fltMax)
    (b'.offset .mag).get axis = (range.2 + range.1) / 2 := by
  have hoffset := (outcome_of_ok hrun).mp
    (doMagCalibration_offset (exactSurroundings sqrt clock poll raw) rounds b)
  rw [hoffset, get_magScale_offset, get_foldl_update, get_empty]

/-- **The offset of an axis** after a run of the routine is the middle of the samples exactly if
they show both extremes. The routine returns once the clock passes its deadline. -/
theorem offset_isMiddle_iff (b : Bench Rat) :
    (∀ (rounds : Nat) (b' : Bench Rat) (first : Axes Rat) (rest : List (Axes Rat)),
      doMagCalibration (exactSurroundings sqrt clock poll raw) rounds b = .ok () b' →
      magSamples (exactSurroundings sqrt clock poll raw) b.polls b'.polls = first :: rest →
      ∀ axis, IsMiddle ((first :: rest).map fun a => a.get axis) ((b'.offset .mag).get axis) ↔
        ExtremesSeen (first.get axis) (rest.map fun a => a.get axis)) ∧
    ((∃ k, DeadlinePassed (clock (b.app.clockReads + 1)) (clock (b.app.clockReads + 2 + k))) →
      ∃ rounds b', doMagCalibration (exactSurroundings sqrt clock poll raw) rounds b =
        .ok () b') := by
  constructor
  · intro rounds b' first rest hrun hsamples axis
    rw [offset_eq_widen sqrt clock poll raw hrun, hsamples]
    exact isMiddle_widen_iff (first.get axis) (rest.map fun a => a.get axis)
  · rintro ⟨k, hlate⟩
    exact doMagCalibration_returns (exactSurroundings sqrt clock poll raw) b hlate

end

/-- The sample with the number of its poll on every axis. -/
def countedSample (poll : Nat) : SensorCombined Rat where
  gyroRadS := ⟨0, 0, 0⟩
  magnetometerGa := ⟨poll, poll, poll⟩
  accelerometerMS2 := ⟨0, 0, 0⟩

/-- The commander right after its start. -/
def magBench : Bench Rat where
  app := initialCommander
  driver _ := { offset := ⟨0, 0, 0⟩, scale := ⟨1, 1, 1⟩ }
  offset _ := ⟨0, 0, 0⟩
  accelScale := ⟨1, 1, 1⟩
  polls := 0

/-- So many samples, and then a timeout. -/
def pollUntil (samples poll : Nat) : Int := if poll < samples then 1 else 0

/-- The routine, with a sample or two before the timeout. -/
abbrev shortSurroundings (samples : Nat) : Surroundings Rat :=
  exactSurroundings id (fun _ => 0) (pollUntil samples) countedSample

/-- Where the routine gets to with so many samples. -/
def afterSamples (samples : Nat) : Bench Rat :=
  after (doMagCalibration (shortSurroundings samples) 3) magBench

theorem afterSamples_two :
    doMagCalibration (shortSurroundings 2) 3 magBench = .ok () (afterSamples 2) ∧
      (afterSamples 2).polls = 3 :=
  ⟨ends_iff.mp (by decide +kernel), by decide +kernel⟩

theorem afterSamples_one :
    doMagCalibration (shortSurroundings 1) 3 magBench = .ok () (afterSamples 1) ∧
      (afterSamples 1).polls = 2 :=
  ⟨ends_iff.mp (by decide +kernel), by decide +kernel⟩

/-- Two samples, the second the greater one. -/
theorem rising_offset_isMiddle : IsMiddle [0, 1] (((afterSamples 2).offset .mag).get .x) := by
  obtain ⟨hrun, hpolls⟩ := afterSamples_two
  have hsamples : magSamples (shortSurroundings 2) magBench.polls (afterSamples 2).polls =
      [⟨0, 0, 0⟩, ⟨1, 1, 1⟩] := by
    rw [hpolls]
    rfl
  have hiff := (offset_isMiddle_iff id (fun _ => 0) (pollUntil 2) countedSample magBench).1
    3 _ _ _ hrun hsamples .x
  exact hiff.mpr (by decide)

/-- A single sample is taken as a minimum only. -/
theorem single_sample_not_middle :
    ¬∀ (sqrt : Rat → Rat) (clock : Nat → UInt64) (poll : Nat → Int)
        (raw : Nat → SensorCombined Rat) (rounds : Nat) (b b' : Bench Rat),
      doMagCalibration (exactSurroundings sqrt clock poll raw) rounds b = .ok () b' →
      magSamples (exactSurroundings sqrt clock poll raw) b.polls b'.polls ≠ [] →
      ∀ axis, IsMiddle
        ((magSamples (exactSurroundings sqrt clock poll raw) b.polls b'.polls).map
          fun a => a.get axis)
        ((b'.offset .mag).get axis) := by
  intro h
  obtain ⟨hrun, hpolls⟩ := afterSamples_one
  have hsamples : magSamples (shortSurroundings 1) magBench.polls (afterSamples 1).polls =
      [⟨0, 0, 0⟩] := by
    rw [hpolls]
    rfl
  have hmiddle := h id (fun _ => 0) (pollUntil 1) countedSample 3 magBench _ hrun
    (by rw [hsamples]; simp) .x
  rw [offset_eq_widen id (fun _ => 0) (pollUntil 1) countedSample hrun, hsamples] at hmiddle
  exact absurd ((isMiddle_widen_iff 0 []).mp hmiddle) (by decide)

end Px4Firmware.Commander
