import Px4Firmware.Drivers.TonePlayback

/-!
# Px4Firmware.Drivers.TonePriority

**The alarm with the highest number is played.** The driver compares a request with the number of
the current pattern, which it forgets when it starts the last note. `alarm_priority` says that this
is the only time at which an alarm gives way to one that is not more important, or to the pattern of
a user.
-/

namespace Px4Firmware.Drivers

open Px4Firmware.Lib

/-! ### The law and its condition -/

/-- What is playing is the same before and after: nothing has changed but what has been read. -/
def Undisturbed (s t : ToneState) : Prop := { t with reads := s.reads } = s

/-- The number of the pattern of which a note sounds. -/
def ToneState.soundingPattern (s : ToneState) : Option Int := s.sounding.map Sounding.pattern

/-- The law: while a note of a predefined alarm sounds, a write or an alarm that is not more
important changes nothing, and at the end of the note there is another one of the alarm or none. -/
def AlarmLaw (s : ToneState) (e : ToneEvent) (t : ToneState) : Prop :=
  ∀ p ∈ s.soundingPattern, patternUser < p →
    match e with
    | .setAlarm new => new ≠ 0 → new ≤ p → Undisturbed s t
    | .otherIoctl => Undisturbed s t
    | .write _ _ => Undisturbed s t
    | .noteEnd => ∀ q ∈ t.soundingPattern, q = p

/-- A request that starts to play when nothing is playing, and that does not take precedence over
the alarm `p`. -/
def ToneEvent.Starts (p : Int) : ToneEvent → Prop
  | .setAlarm new => 0 < new ∧ new ≤ p
  | .write buffer len => ToneState.WriteSize len ∧ (toneOk buffer).1 = true
  | _ => False

/-- The condition: there is no such request during the last note of an alarm, when the driver has
forgotten the pattern. -/
def AlarmCareful (s : ToneState) (e : ToneEvent) : Prop :=
  ∀ p ∈ s.soundingPattern, patternUser < p → s.pattern = patternNone → ¬ e.Starts p

/-! ### What sounds -/

namespace ToneState

variable {behind : Int → Nat → ToneNote} {s : ToneState}

/-- The invariant: the numbers are those of patterns, and what sounds is of the current pattern as
long as there is one. -/
structure AlarmInv (s : ToneState) : Prop where
  number : patternNone ≤ s.pattern ∧ s.pattern ≤ toneMaxPattern
  sounding : ∀ p ∈ s.soundingPattern,
    p ≤ toneMaxPattern ∧ (s.pattern = patternNone ∨ s.pattern = p)

theorem playNote_soundingPattern : (s.playNote behind).soundingPattern = some s.pattern := by
  simp only [soundingPattern, playNote_sounding, Option.map_some]

/-- What `tone_next` lets sound is of the pattern it finds. -/
theorem toneNext_soundingPattern {p : Int} (hp : p ∈ (s.toneNext behind).soundingPattern) :
    p = s.pattern := by
  rcases toneNext_cases behind s with hnext | ⟨-, hnext⟩
  · rw [hnext] at hp
    cases hp
  · rw [hnext, playNote_soundingPattern] at hp
    exact (Option.mem_some_iff.mp hp).symm

theorem toneNext_pattern (behind : Int → Nat → ToneNote) (s : ToneState) :
    (s.toneNext behind).pattern = patternNone ∨ (s.toneNext behind).pattern = s.pattern := by
  rcases toneNext_cases behind s with hnext | ⟨-, hnext⟩
  · rw [hnext]
    exact .inl rfl
  · rw [hnext]
    exact (playNote_cases behind { s with sounding := none }).imp_right And.left

/-- At the first note of a pattern, a note is started. -/
theorem toneNext_started (hpattern : s.pattern ≠ patternNone) (hnote : s.note = 0) :
    (s.toneNext behind).started = s.started + 1 := by
  have hmax : s.note ≠ toneNoteMax := by
    rw [hnote]
    decide
  simp only [toneNext, if_neg hpattern, if_neg hmax, playNote_started]

theorem AlarmInv.toneNext (h : patternNone ≤ s.pattern ∧ s.pattern ≤ toneMaxPattern) :
    (s.toneNext behind).AlarmInv := by
  refine ⟨?_, ?_⟩
  · rcases toneNext_pattern behind s with hnone | hsame
    · rw [hnone]
      exact patternNone_inRange
    · rw [hsame]
      exact h
  · intro p hp
    obtain rfl := toneNext_soundingPattern hp
    exact ⟨h.2, toneNext_pattern behind _⟩

theorem toneSetAlarm_higher (behind : Int → Nat → ToneNote) {new : Int} (hne : new ≠ 0)
    (hmax : new ≤ toneMaxPattern) (hhigher : s.pattern < new) :
    (s.toneSetAlarm behind new).2 =
      ({ s with pattern := new, note := 0 } : ToneState).toneNext behind := by
  unfold toneSetAlarm
  rw [if_neg hne, if_neg (Int.not_lt.mpr hmax), if_pos hhigher]

theorem toneSetAlarm_not_higher (behind : Int → Nat → ToneNote) {new : Int} (hne : new ≠ 0)
    (hle : new ≤ s.pattern) : (s.toneSetAlarm behind new).2 = s := by
  unfold toneSetAlarm
  rw [if_neg hne, if_neg (Int.not_lt.mpr hle), apply_ite Prod.snd, ite_self]

theorem AlarmInv.toneSetAlarm (h : s.AlarmInv) (new : Int) :
    (s.toneSetAlarm behind new).2.AlarmInv := by
  rcases toneSetAlarm_cases behind s new with
    hsame | ⟨-, hstop⟩ | ⟨⟨hmax, hhigher, -⟩, hstart⟩
  · rw [hsame]
    exact h
  · rw [hstop]
    exact AlarmInv.toneNext patternNone_inRange
  · rw [hstart]
    exact AlarmInv.toneNext ⟨Int.le_of_lt (Int.lt_of_le_of_lt h.number.1 hhigher), hmax⟩

theorem AlarmInv.toneWrite (h : s.AlarmInv) (buffer : Nat → ToneNote) (len : Nat) :
    (s.toneWrite behind buffer len).2.AlarmInv := by
  by_cases hsize : WriteSize len
  · rw [toneWrite_of_writeSize buffer hsize]
    split
    · exact AlarmInv.toneNext patternUser_inRange
    · exact ⟨h.number, h.sounding⟩
  · rw [toneWrite_of_not_writeSize buffer hsize]
    exact h

theorem AlarmInv.init : (ToneState.init behind).AlarmInv := by
  apply AlarmInv.toneSetAlarm
  exact ⟨patternNone_inRange, nofun⟩

/-- Scanning a pattern disturbs nothing. -/
theorem undisturbed_scanned (buffer : Nat → ToneNote) (len : Nat) :
    Undisturbed s (s.scanned buffer len) := rfl

/-- Starting a note is a disturbance. -/
theorem not_undisturbed_of_started {t : ToneState} (h : t.started = s.started + 1) :
    ¬ Undisturbed s t := by
  intro hsame
  have hsame : { t with reads := s.reads } = s := hsame
  have hstarted : t.started = s.started := by rw [← hsame]
  omega

end ToneState

/-! ### The step lemma -/

section

variable {behind : Int → Nat → ToneNote} {s t : ToneState} {e : ToneEvent} {p : Int}

theorem alarmInv_step (h : s.AlarmInv) (hstep : (toneAlarm behind).step s e t) : t.AlarmInv := by
  cases e with
  | setAlarm new =>
      cases hstep
      exact h.toneSetAlarm new
  | otherIoctl =>
      cases hstep
      exact h
  | write buffer len =>
      cases hstep
      exact h.toneWrite buffer len
  | noteEnd =>
      obtain rfl := noteEnd_step hstep
      exact ToneState.AlarmInv.toneNext (s := { s with noteEnd := false }) h.number

/-- An alarm that is not more important than the one that sounds disturbs it exactly when it is
started because the pattern has been forgotten. -/
theorem undisturbed_setAlarm_iff (h : s.AlarmInv) (hp : p ∈ s.soundingPattern)
    {new : Int} (hne : new ≠ 0) (hle : new ≤ p) :
    Undisturbed s (s.toneSetAlarm behind new).2 ↔ ¬ (s.pattern = patternNone ∧ 0 < new) := by
  obtain ⟨hmax, hcurrent⟩ := h.sounding p hp
  have hlow := h.number.1
  unfold patternNone at *
  have hhigher_iff : s.pattern < new ↔ s.pattern = -1 ∧ 0 < new := by omega
  by_cases hhigher : s.pattern < new
  · have hstart := ToneState.toneSetAlarm_higher behind hne (Int.le_trans hle hmax) hhigher
    have hplaying : new ≠ patternNone := by
      unfold patternNone
      omega
    have hstarted : (s.toneSetAlarm behind new).2.started = s.started + 1 := by
      rw [hstart]
      exact ToneState.toneNext_started hplaying rfl
    exact iff_of_false (ToneState.not_undisturbed_of_started hstarted)
      fun hno => hno (hhigher_iff.mp hhigher)
  · rw [ToneState.toneSetAlarm_not_higher behind hne (Int.not_lt.mp hhigher)]
    exact iff_of_true rfl fun hstarts => hhigher (hhigher_iff.mpr hstarts)

/-- A write disturbs the alarm that sounds exactly when it is accepted while the pattern has been
forgotten. -/
theorem undisturbed_write_iff (h : s.AlarmInv) (hp : p ∈ s.soundingPattern)
    (halarm : patternUser < p) {buffer : Nat → ToneNote} {len : Nat} :
    Undisturbed s (s.toneWrite behind buffer len).2 ↔
      ¬ (s.pattern = patternNone ∧ ToneState.WriteSize len ∧ (toneOk buffer).1 = true) := by
  obtain ⟨-, hcurrent⟩ := h.sounding p hp
  by_cases hsize : ToneState.WriteSize len
  · rw [ToneState.toneWrite_of_writeSize buffer hsize]
    by_cases hstart : (toneOk buffer).1 = true ∧ s.pattern ≤ patternUser
    · have hnone : s.pattern = patternNone := by
        rcases hcurrent with hnone | hsame
        · exact hnone
        · exact absurd hstart.2 (by omega)
      rw [if_pos hstart]
      refine ⟨fun hundisturbed => ?_, fun hno => absurd ⟨hnone, hsize, hstart.1⟩ hno⟩
      have hplaying : patternUser ≠ patternNone := by decide
      have hstarted : ((s.written buffer len).toneNext behind).started = s.started + 1 :=
        ToneState.toneNext_started (s := s.written buffer len) hplaying rfl
      exact absurd hundisturbed (ToneState.not_undisturbed_of_started hstarted)
    · rw [if_neg hstart]
      refine ⟨fun _ hno => hstart ⟨hno.2.2, ?_⟩, fun _ => ToneState.undisturbed_scanned buffer len⟩
      rw [hno.1]
      decide
  · rw [ToneState.toneWrite_of_not_writeSize buffer hsize]
    exact ⟨fun _ hno => hsize hno.2.1, fun _ => rfl⟩

/-- **The step lemma**: a step obeys the law exactly when it is careful. -/
theorem alarmLaw_iff (h : s.AlarmInv) (hstep : (toneAlarm behind).step s e t) :
    AlarmLaw s e t ↔ AlarmCareful s e := by
  refine forall_congr' fun p => forall_congr' fun hp => forall_congr' fun halarm => ?_
  cases e with
  | setAlarm new =>
      cases hstep
      constructor
      · intro hlaw hnone hstarts
        exact (undisturbed_setAlarm_iff h hp (Int.ne_of_gt hstarts.1) hstarts.2).mp
          (hlaw (Int.ne_of_gt hstarts.1) hstarts.2) ⟨hnone, hstarts.1⟩
      · intro hcareful hne hle
        exact (undisturbed_setAlarm_iff h hp hne hle).mpr
          fun hstarts => hcareful hstarts.1 ⟨hstarts.2, hle⟩
  | otherIoctl =>
      cases hstep
      exact ⟨fun _ _ hstarts => hstarts, fun _ => rfl⟩
  | write buffer len =>
      cases hstep
      refine (undisturbed_write_iff h hp halarm).trans ?_
      rw [not_and]
      exact Iff.rfl
  | noteEnd =>
      obtain rfl := noteEnd_step hstep
      refine ⟨fun _ _ hstarts => hstarts, fun _ q hq => ?_⟩
      obtain rfl := ToneState.toneNext_soundingPattern hq
      rcases (h.sounding p hp).2 with hnone | hsame
      · -- No note is started when the pattern has been forgotten.
        simp only [ToneState.toneNext, if_pos hnone] at hq
        cases hq
      · exact hsame

/-- **Alarm priority.** In every run of the driver, an alarm that sounds is replaced only by a more
important one or cancelled, exactly when during the last note of an alarm there is no write of a
pattern that is accepted and no alarm that is not more important. -/
theorem alarm_priority {es : List ToneEvent} :
    ((toneAlarm behind).obeying AlarmLaw).Run (.init behind) es t ↔
      ((toneAlarm behind).restrict AlarmCareful).Run (.init behind) es t := by
  refine LTS.run_obeying_iff ?_ rfl
  intro s e t hs hstep
  have hinv : s.AlarmInv := by
    refine hs.of_restrict.invariant (fun s hs => ?_) fun s e t hs hstep => alarmInv_step hs hstep
    cases hs
    exact .init
  exact alarmLaw_iff hinv hstep

end

/-- The second alarm is one note; during this note the first alarm replaces it. -/
theorem last_note_replaced :
    ¬ ∀ es t, (toneAlarm zerosBehind).Run (.init zerosBehind) es t →
      ((toneAlarm zerosBehind).obeying AlarmLaw).Run (.init zerosBehind) es t := by
  intro hlaw
  obtain ⟨t, ht⟩ := Option.isSome_iff_exists.mp
    (show ([.setAlarm 2, .setAlarm 1].foldlM (ToneState.next zerosBehind)
      (.init zerosBehind)).isSome = true by decide)
  cases hlaw _ t (LTS.Run.of_foldlM (fun _ _ _ h => h) ht) with
  | cons h₁ hrest =>
      cases hrest with
      | cons h₂ _ =>
          cases h₁.1
          cases h₂.1
          have hsame := h₂.2 2 (by decide) (by decide) (by decide) (by decide)
          have hsounding := congrArg ToneState.soundingPattern hsame
          exact absurd hsounding (by decide)

end Px4Firmware.Drivers
