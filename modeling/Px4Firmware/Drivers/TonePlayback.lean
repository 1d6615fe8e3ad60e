import Mathlib.Data.Nat.Find
import Px4Firmware.Drivers.ToneAlarm

/-!
# Px4Firmware.Drivers.TonePlayback

**Playing a pattern.** `tone_ok` looks for the end of a pattern in up to 49 entries, however many
were written, and `tone_next` looks one entry ahead for it. `reads_inBounds_iff` says when both
stay inside of what is theirs: when `tone_ok` stops within the entries that were written.
-/

namespace Px4Firmware.Drivers

open Px4Firmware.Lib

/-! ### The scan of a written pattern -/

/-- Does `tone_ok` stop at this entry? -/
def ToneStops (pattern : Nat → ToneNote) (i : Nat) : Prop :=
  (i = 0 ∧ (pattern i).Terminates) ∨ (pattern i).duration = durationEnd ∨
    toneNoteMax ≤ (pattern i).pitch.toNat

instance (pattern : Nat → ToneNote) (i : Nat) : Decidable (ToneStops pattern i) :=
  inferInstanceAs (Decidable (_ ∨ _ ∨ _))

theorem toneOkFrom_of_not_stops {pattern : Nat → ToneNote} {i : Nat} (h : ¬ ToneStops pattern i)
    (left : Nat) : toneOkFrom pattern i (left + 1) = toneOkFrom pattern (i + 1) left := by
  simp only [ToneStops, not_or] at h
  rw [toneOkFrom, if_neg h.1, if_neg h.2.1, if_neg h.2.2]

/-- Where the scan stops, it has inspected this entry, and it accepts an end that is not the first
entry. -/
theorem toneOkFrom_of_stops {pattern : Nat → ToneNote} {i : Nat} (h : ToneStops pattern i)
    (left : Nat) : toneOkFrom pattern i (left + 1) =
      (decide (i ≠ 0 ∧ (pattern i).duration = durationEnd), i + 1) := by
  rw [toneOkFrom]
  by_cases hfirst : i = 0 ∧ (pattern i).Terminates
  · rw [if_pos hfirst]
    simp [hfirst.1]
  · rw [if_neg hfirst]
    by_cases hend : (pattern i).duration = durationEnd
    · have hi : i ≠ 0 := fun hi => hfirst ⟨hi, .inl hend⟩
      rw [if_pos hend]
      simp [hi, hend]
    · have hpitch : toneNoteMax ≤ (pattern i).pitch.toNat := by
        rcases h with h | h | h
        · exact absurd h hfirst
        · exact absurd h hend
        · exact h
      rw [if_neg hend, if_pos hpitch]
      simp [hend]

/-- The scan passes the entries it does not stop at. -/
theorem toneOkFrom_skip {pattern : Nat → ToneNote} (n : Nat) {i : Nat}
    (h : ∀ k, i ≤ k → k < i + n → ¬ ToneStops pattern k) (left : Nat) :
    toneOkFrom pattern i (n + left) = toneOkFrom pattern (i + n) left := by
  induction n generalizing i with
  | zero => rw [Nat.zero_add, Nat.add_zero]
  | succ n ih =>
      have hi := h i (Nat.le_refl i) (by omega)
      rw [Nat.succ_add, toneOkFrom_of_not_stops hi, ih (fun k hk hkn => h k (by omega) (by omega))]
      congr 1
      omega

/-- An entry that is left is inspected. -/
theorem lt_toneOkFrom (pattern : Nat → ToneNote) (i left : Nat) :
    i < (toneOkFrom pattern i (left + 1)).2 := by
  induction left generalizing i with
  | zero =>
      by_cases h : ToneStops pattern i
      · rw [toneOkFrom_of_stops h]
        exact Nat.lt_succ_self i
      · rw [toneOkFrom_of_not_stops h]
        exact Nat.lt_succ_self i
  | succ left ih =>
      by_cases h : ToneStops pattern i
      · rw [toneOkFrom_of_stops h]
        exact Nat.lt_succ_self i
      · rw [toneOkFrom_of_not_stops h]
        exact Nat.lt_of_succ_lt (ih (i + 1))

/-- The scan stops within the first `count` entries. -/
def StopsWithin (buffer : Nat → ToneNote) (count : Nat) : Prop := ∃ k < count, ToneStops buffer k

instance (buffer : Nat → ToneNote) (count : Nat) : Decidable (StopsWithin buffer count) :=
  inferInstanceAs (Decidable (∃ k < count, _))

/-- The result of the scan when it stops within the first entries: these entries only are inspected,
and a pattern that is accepted has an end after the first note. -/
theorem toneOk_of_stopsWithin {buffer : Nat → ToneNote} {count : Nat} (hcount : count ≤ toneNoteMax)
    (h : StopsWithin buffer count) :
    (toneOk buffer).2 ≤ count ∧
      ((toneOk buffer).1 = true → ∃ j < count, j ≠ 0 ∧ (buffer j).duration = durationEnd) := by
  classical
  obtain ⟨hlt, hstop⟩ := Nat.find_spec h
  have hbefore : ∀ k, 0 ≤ k → k < 0 + Nat.find h → ¬ ToneStops buffer k := by
    intro k _ hk hstop
    exact Nat.find_min h (by omega) ⟨by omega, hstop⟩
  have hok : toneOk buffer =
      (decide (Nat.find h ≠ 0 ∧ (buffer (Nat.find h)).duration = durationEnd), Nat.find h + 1) := by
    have hmax : toneNoteMax = Nat.find h + (toneNoteMax - Nat.find h - 1 + 1) := by omega
    rw [toneOk, hmax, toneOkFrom_skip _ hbefore, Nat.zero_add, toneOkFrom_of_stops hstop]
  rw [hok]
  refine ⟨hlt, ?_⟩
  intro haccept
  exact ⟨_, hlt, of_decide_eq_true haccept⟩

/-- Otherwise an entry behind them is inspected. -/
theorem lt_toneOk_of_not_stopsWithin {buffer : Nat → ToneNote} {count : Nat}
    (hcount : count < toneNoteMax) (h : ¬ StopsWithin buffer count) :
    count < (toneOk buffer).2 := by
  have hmax : toneNoteMax = count + (toneNoteMax - count - 1 + 1) := by omega
  rw [toneOk, hmax, toneOkFrom_skip count fun k _ hk hstop => h ⟨k, by omega, hstop⟩, Nat.zero_add]
  exact lt_toneOkFrom buffer count _

/-! ### A note is started -/

namespace ToneState

variable {behind : Int → Nat → ToneNote} {s : ToneState}

@[simp] theorem playNote_sounding :
    (s.playNote behind).sounding = some
      { pattern := s.pattern
        note := s.note
        reload :=
          if (s.noteAt behind s.note).pitch.toNat ≤ toneNoteSilence then
            notes[(s.noteAt behind s.note).pitch.toNat]?
          else none } := by
  simp only [playNote, apply_ite ToneState.sounding, ite_self]

@[simp] theorem playNote_started : (s.playNote behind).started = s.started + 1 := by
  simp only [playNote, apply_ite ToneState.started, ite_self, read]

@[simp] theorem playNote_userPattern : (s.playNote behind).userPattern = s.userPattern := by
  simp only [playNote, apply_ite ToneState.userPattern, ite_self, read]

/-- Where the driver goes from a note: nowhere, back to the first note, or to the next one, which
does not end the pattern. -/
theorem playNote_cases (behind : Int → Nat → ToneNote) (s : ToneState) :
    (s.playNote behind).pattern = patternNone ∨
      (s.playNote behind).pattern = s.pattern ∧
        ((s.playNote behind).note = 0 ∨
          (s.playNote behind).note = s.note + 1 ∧ s.note + 1 < toneNoteMax ∧
            ¬ (s.noteAt behind (s.note + 1)).Terminates) := by
  simp only [playNote, apply_ite ToneState.pattern, apply_ite ToneState.note, read]
  by_cases hmax : toneNoteMax ≤ s.note + 1
  · exact .inl (if_pos hmax)
  · rw [if_neg hmax, if_neg hmax]
    by_cases hend : (s.noteAt behind (s.note + 1)).duration = durationEnd
    · exact .inl (if_pos hend)
    · right
      rw [if_neg hend, if_neg hend, ite_self]
      refine ⟨rfl, ?_⟩
      by_cases hrepeat : (s.noteAt behind (s.note + 1)).duration = durationRepeat
      · exact .inl (if_pos hrepeat)
      · refine .inr ⟨if_neg hrepeat, Nat.lt_of_not_le hmax, ?_⟩
        intro h
        rcases h with h | h
        · exact hend h
        · exact hrepeat h

/-- What is read for a note. -/
theorem playNote_reads {r : ToneRead} (hr : r ∈ (s.playNote behind).reads) :
    r ∈ s.reads ∨ r = .pattern s.pattern s.note ∨ r = .pattern s.pattern (s.note + 1) ∨
      ∃ i ≤ toneNoteSilence, r = .notes i := by
  simp only [playNote, apply_ite ToneState.reads, ite_self, read, List.mem_append,
    List.mem_cons] at hr
  rcases hr with hr | hr | hr | hr
  · exact .inl hr
  · exact .inr (.inl hr)
  · split at hr
    · exact .inr (.inr (.inl (List.mem_singleton.mp hr)))
    · cases hr
  · split at hr
    · next hpitch => exact .inr (.inr (.inr ⟨_, hpitch, List.mem_singleton.mp hr⟩))
    · cases hr

/-! ### A pattern that can be played -/

/-- The current pattern ends within the array, after the next note. -/
def Ends (behind : Int → Nat → ToneNote) (s : ToneState) : Prop :=
  ∃ j, s.note < j ∧ j < toneMaxPatternLen ∧ (s.noteAt behind j).Terminates

/-- The invariant: nothing outside of the arrays has been read, and the current pattern, if there is
one, ends within its array. -/
structure Playable (behind : Int → Nat → ToneNote) (s : ToneState) : Prop where
  reads : ∀ r ∈ s.reads, r.InBounds
  number : patternNone ≤ s.pattern ∧ s.pattern ≤ toneMaxPattern
  ends : s.pattern ≠ patternNone → s.Ends behind

theorem patternNone_inRange : patternNone ≤ patternNone ∧ patternNone ≤ (toneMaxPattern : Int) := by
  decide

theorem patternUser_inRange : patternNone ≤ patternUser ∧ patternUser ≤ (toneMaxPattern : Int) := by
  decide

/-- The rows of the table end. -/
theorem patterns_end : ∀ k : Fin toneMaxPattern, ∃ j : Fin toneMaxPatternLen,
    0 < j.val ∧ (patterns[k][j]).Terminates := by
  decide +kernel

/-- The predefined alarms end. -/
theorem ends_alarm {new : Int} (hpos : 0 < new) (hmax : new ≤ toneMaxPattern) :
    ({ s with pattern := new, note := 0 } : ToneState).Ends behind := by
  have hk : (new - 1).toNat < toneMaxPattern := by omega
  obtain ⟨j, hj, hterminates⟩ := patterns_end ⟨(new - 1).toNat, hk⟩
  refine ⟨j.val, hj, j.isLt, ?_⟩
  have huser : new ≠ patternUser := by
    intro h
    rw [h] at hpos
    exact absurd hpos (by decide)
  simp only [noteAt, huser, if_false, Vector.getElem?_eq_getElem hk, Option.bind_some,
    Vector.getElem?_eq_getElem j.isLt, Option.getD_some]
  exact hterminates

theorem mem_playNote_reads {r : ToneRead} (hr : r ∈ s.reads) : r ∈ (s.playNote behind).reads := by
  simp only [playNote, apply_ite ToneState.reads, ite_self, read]
  exact List.mem_append_left _ hr

theorem Playable.playNote (h : s.Playable behind) (hpattern : s.pattern ≠ patternNone) :
    (s.playNote behind).Playable behind := by
  obtain ⟨hlow, hhigh⟩ := h.number
  obtain ⟨j, hnote, hj, hterminates⟩ := h.ends hpattern
  have hnumber : 0 ≤ s.pattern := by
    unfold patternNone at hlow hpattern
    omega
  refine ⟨?_, ?_, ?_⟩
  · intro r hr
    rcases playNote_reads hr with hr | rfl | rfl | ⟨i, hi, rfl⟩
    · exact h.reads r hr
    · exact ⟨hnumber, hhigh, by omega⟩
    · exact ⟨hnumber, hhigh, by omega⟩
    · exact Nat.lt_succ_of_le hi
  · rcases playNote_cases behind s with hnone | ⟨hsame, -⟩
    · rw [hnone]
      exact patternNone_inRange
    · rw [hsame]
      exact h.number
  · intro hplaying
    rcases playNote_cases behind s with hnone | ⟨hsame, hnext⟩
    · exact absurd hnone hplaying
    · refine ⟨j, ?_, hj, ?_⟩
      · rcases hnext with hzero | ⟨hsucc, -, hgo⟩
        · omega
        · have hne : s.note + 1 ≠ j := fun h => hgo (h ▸ hterminates)
          omega
      · simpa only [noteAt, hsame, playNote_userPattern] using hterminates

/-- `tone_next` does nothing but stop the note, forget the pattern or start a note. -/
theorem toneNext_cases (behind : Int → Nat → ToneNote) (s : ToneState) :
    s.toneNext behind = { s with sounding := none, pattern := patternNone } ∨
      s.pattern ≠ patternNone ∧
        s.toneNext behind = ({ s with sounding := none } : ToneState).playNote behind := by
  simp only [toneNext]
  by_cases hnone : s.pattern = patternNone
  · rw [if_pos hnone, ← hnone]
    exact .inl rfl
  · rw [if_neg hnone]
    by_cases hmax : s.note = toneNoteMax
    · exact .inl (if_pos hmax)
    · exact .inr ⟨hnone, if_neg hmax⟩

theorem Playable.toneNext (h : s.Playable behind) : (s.toneNext behind).Playable behind := by
  rcases toneNext_cases behind s with hnext | ⟨hpattern, hnext⟩
  · rw [hnext]
    exact ⟨h.reads, patternNone_inRange, fun hne => absurd rfl hne⟩
  · rw [hnext]
    exact Playable.playNote (s := { s with sounding := none }) ⟨h.reads, h.number, h.ends⟩ hpattern

theorem mem_toneNext_reads {r : ToneRead} (hr : r ∈ s.reads) : r ∈ (s.toneNext behind).reads := by
  rcases toneNext_cases behind s with hnext | ⟨-, hnext⟩
  · rw [hnext]
    exact hr
  · rw [hnext]
    exact mem_playNote_reads hr

/-! ### The entry points -/

/-- What `tone_ioctl` does with an alarm: nothing, or it starts what is to be played from now on. -/
theorem toneSetAlarm_cases (behind : Int → Nat → ToneNote) (s : ToneState) (new : Int) :
    (s.toneSetAlarm behind new).2 = s ∨
      new = 0 ∧
        (s.toneSetAlarm behind new).2 =
          ({ s with pattern := patternNone } : ToneState).toneNext behind ∨
      (new ≤ toneMaxPattern ∧ s.pattern < new ∧ new ≠ 0) ∧
        (s.toneSetAlarm behind new).2 =
          ({ s with pattern := new, note := 0 } : ToneState).toneNext behind := by
  unfold toneSetAlarm
  by_cases hzero : new = 0
  · rw [if_pos hzero]
    exact .inr (.inl ⟨hzero, rfl⟩)
  · rw [if_neg hzero]
    by_cases hrange : (toneMaxPattern : Int) < new
    · rw [if_pos hrange]
      exact .inl rfl
    · rw [if_neg hrange]
      by_cases hhigher : s.pattern < new
      · rw [if_pos hhigher]
        exact .inr (.inr ⟨⟨Int.not_lt.mp hrange, hhigher, hzero⟩, rfl⟩)
      · rw [if_neg hhigher]
        exact .inl rfl

/-- A write has a size that is accepted. -/
def WriteSize (len : Nat) : Prop :=
  len ≤ toneMaxPatternLen * sizeofToneNote ∧ len % sizeofToneNote = 0 ∧ len ≠ 0

instance (len : Nat) : Decidable (WriteSize len) := inferInstanceAs (Decidable (_ ∧ _ ∧ _))

/-- A write of an accepted size has fewer entries than a pattern may have notes. -/
theorem WriteSize.count_lt {len : Nat} (h : WriteSize len) :
    len / sizeofToneNote < toneNoteMax := by
  have hbig := h.1
  unfold sizeofToneNote toneMaxPatternLen at *
  unfold toneNoteMax
  omega

/-- The driver after the scan of a write. -/
def scanned (buffer : Nat → ToneNote) (len : Nat) (s : ToneState) : ToneState :=
  s.read ((List.range (toneOk buffer).2).map (.buffer (len / sizeofToneNote)))

/-- The driver with the pattern of a write. -/
def written (buffer : Nat → ToneNote) (len : Nat) (s : ToneState) : ToneState :=
  { s.scanned buffer len with
    pattern := patternUser
    note := 0
    userPattern := .ofFn fun i => if i < len / sizeofToneNote then buffer i else ⟨0, 0⟩ }

theorem toneWrite_of_not_writeSize {len : Nat} (buffer : Nat → ToneNote) (h : ¬ WriteSize len) :
    (s.toneWrite behind buffer len).2 = s := by
  unfold toneWrite
  by_cases hbig : toneMaxPatternLen * sizeofToneNote < len
  · rw [if_pos hbig]
  · rw [if_neg hbig, if_pos]
    by_contra hno
    rw [not_or, Decidable.not_not] at hno
    exact h ⟨Nat.le_of_not_lt hbig, hno⟩

/-- What a write of an accepted size does: it starts the pattern when the scan accepts it and no
alarm is playing. -/
theorem toneWrite_of_writeSize {len : Nat} (buffer : Nat → ToneNote) (h : WriteSize len) :
    (s.toneWrite behind buffer len).2 =
      if (toneOk buffer).1 = true ∧ s.pattern ≤ patternUser then
        (s.written buffer len).toneNext behind
      else
        s.scanned buffer len := by
  obtain ⟨hbig, heven, hne⟩ := h
  have hsize : ¬ (len % sizeofToneNote ≠ 0 ∨ len = 0) := by
    rw [not_or, Decidable.not_not]
    exact ⟨heven, hne⟩
  unfold toneWrite
  rw [if_neg (Nat.not_lt.mpr hbig), if_neg hsize]
  cases hok : (toneOk buffer).1 with
  | false => simp [hok, scanned]
  | true =>
      by_cases hpattern : s.pattern ≤ patternUser
      · simp [hok, hpattern, scanned, written, read]
      · simp [hok, hpattern, scanned, read]

theorem mem_scanned_reads (buffer : Nat → ToneNote) (len : Nat) {r : ToneRead} :
    r ∈ (s.scanned buffer len).reads ↔
      r ∈ s.reads ∨ ∃ i < (toneOk buffer).2, .buffer (len / sizeofToneNote) i = r := by
  simp only [scanned, read, List.mem_append, List.mem_map, List.mem_range]

theorem Playable.scanned (h : s.Playable behind) {buffer : Nat → ToneNote} {len : Nat}
    (hscan : (toneOk buffer).2 ≤ len / sizeofToneNote) :
    (s.scanned buffer len).Playable behind := by
  refine ⟨?_, h.number, h.ends⟩
  intro r hr
  rcases (mem_scanned_reads buffer len).mp hr with hr | ⟨i, hi, rfl⟩
  · exact h.reads r hr
  · exact Nat.lt_of_lt_of_le hi hscan

/-- A pattern of the user that was accepted ends. -/
theorem Playable.written (h : s.Playable behind) {buffer : Nat → ToneNote} {len : Nat}
    (hsize : WriteSize len) (hscan : (toneOk buffer).2 ≤ len / sizeofToneNote)
    (hend : ∃ j < len / sizeofToneNote, j ≠ 0 ∧ (buffer j).duration = durationEnd) :
    (s.written buffer len).Playable behind := by
  obtain ⟨j, hj, hne, hend⟩ := hend
  have hmax : j < toneMaxPatternLen := by
    have hbig := hsize.1
    unfold sizeofToneNote at hj hbig
    omega
  have hterminates : ((s.written buffer len).noteAt behind j).Terminates := by
    left
    simp only [ToneState.written, noteAt, if_true, Vector.getElem?_eq_getElem hmax,
      Vector.getElem_ofFn, if_pos hj, Option.getD_some]
    exact hend
  exact ⟨(h.scanned hscan).reads, patternUser_inRange,
    fun _ => ⟨j, Nat.pos_of_ne_zero hne, hmax, hterminates⟩⟩

theorem Playable.toneSetAlarm (h : s.Playable behind) (new : Int) :
    (s.toneSetAlarm behind new).2.Playable behind := by
  rcases toneSetAlarm_cases behind s new with
    hsame | ⟨-, hstop⟩ | ⟨⟨hmax, hhigher, hne⟩, hstart⟩
  · rw [hsame]
    exact h
  · rw [hstop]
    exact Playable.toneNext ⟨h.reads, patternNone_inRange, fun hne => absurd rfl hne⟩
  · rw [hstart]
    have hlow := h.number.1
    have hpos : 0 < new := by
      unfold patternNone at hlow
      omega
    exact Playable.toneNext
      ⟨h.reads, ⟨Int.le_of_lt (Int.lt_of_le_of_lt hlow hhigher), hmax⟩,
        fun _ => ends_alarm hpos hmax⟩

theorem Playable.init : (ToneState.init behind).Playable behind := by
  apply Playable.toneSetAlarm
  exact ⟨nofun, patternNone_inRange, fun hne => absurd rfl hne⟩

end ToneState

/-! ### Reading inside of the arrays -/

/-- The condition: in a pattern of the user of a size that is accepted, there is an entry at which
the scan stops. -/
def ToneEvent.Supplied : ToneEvent → Prop
  | .write buffer len => ToneState.WriteSize len → StopsWithin buffer (len / sizeofToneNote)
  | _ => True

section

variable {behind : Int → Nat → ToneNote} {s t : ToneState} {e : ToneEvent}

/-- The call at the end of a note. -/
theorem noteEnd_step (hstep : (toneAlarm behind).step s .noteEnd t) :
    t = ({ s with noteEnd := false } : ToneState).toneNext behind := by
  have hnext : s.next behind .noteEnd = some t := hstep
  obtain ⟨-, hnext⟩ := Option.ite_none_right_eq_some.mp hnext
  exact (Option.some.inj hnext).symm

/-- A write of an accepted size whose pattern has an entry to stop at keeps the invariant. -/
theorem playable_toneWrite (h : s.Playable behind) (buffer : Nat → ToneNote) (len : Nat)
    (hsupplied : (ToneEvent.write buffer len).Supplied) :
    (s.toneWrite behind buffer len).2.Playable behind := by
  by_cases hsize : ToneState.WriteSize len
  · have hcount := Nat.le_of_lt hsize.count_lt
    obtain ⟨hscan, hend⟩ := toneOk_of_stopsWithin hcount (hsupplied hsize)
    rw [ToneState.toneWrite_of_writeSize buffer hsize]
    split
    · next hstart => exact (h.written hsize hscan (hend hstart.1)).toneNext
    · exact h.scanned hscan
  · rw [ToneState.toneWrite_of_not_writeSize buffer hsize]
    exact h

/-- A step whose pattern has an entry to stop at keeps the invariant. -/
theorem playable_step (h : s.Playable behind) (hstep : (toneAlarm behind).step s e t)
    (hsupplied : e.Supplied) : t.Playable behind := by
  cases e with
  | setAlarm new =>
      cases hstep
      exact h.toneSetAlarm new
  | otherIoctl =>
      cases hstep
      exact h
  | write buffer len =>
      cases hstep
      exact playable_toneWrite h buffer len hsupplied
  | noteEnd =>
      obtain rfl := noteEnd_step hstep
      exact ToneState.Playable.toneNext (s := { s with noteEnd := false })
        ⟨h.reads, h.number, h.ends⟩

/-- What has been read stays read. -/
theorem mem_reads_of_step {r : ToneRead} (hstep : (toneAlarm behind).step s e t)
    (hr : r ∈ s.reads) : r ∈ t.reads := by
  cases e with
  | setAlarm new =>
      cases hstep
      rcases ToneState.toneSetAlarm_cases behind s new with
        hsame | ⟨-, hstop⟩ | ⟨-, hstart⟩
      · rw [hsame]
        exact hr
      · rw [hstop]
        exact ToneState.mem_toneNext_reads hr
      · rw [hstart]
        exact ToneState.mem_toneNext_reads hr
  | otherIoctl =>
      cases hstep
      exact hr
  | write buffer len =>
      cases hstep
      by_cases hsize : ToneState.WriteSize len
      · rw [ToneState.toneWrite_of_writeSize buffer hsize]
        have hscanned := (ToneState.mem_scanned_reads buffer len).mpr (.inl hr)
        split
        · exact ToneState.mem_toneNext_reads hscanned
        · exact hscanned
      · rw [ToneState.toneWrite_of_not_writeSize buffer hsize]
        exact hr
  | noteEnd =>
      obtain rfl := noteEnd_step hstep
      exact ToneState.mem_toneNext_reads hr

/-- A write of an accepted size without an entry to stop at: the entry behind the last one is
read. -/
theorem read_behind_buffer (hstep : (toneAlarm behind).step s e t) (hsupplied : ¬ e.Supplied) :
    ∃ r ∈ t.reads, ¬ r.InBounds := by
  cases e with
  | write buffer len =>
      cases hstep
      rw [ToneEvent.Supplied, Classical.not_imp] at hsupplied
      obtain ⟨hsize, hno⟩ := hsupplied
      have hread : .buffer (len / sizeofToneNote) (len / sizeofToneNote) ∈
          (s.scanned buffer len).reads :=
        (ToneState.mem_scanned_reads buffer len).mpr
          (.inr ⟨_, lt_toneOk_of_not_stopsWithin hsize.count_lt hno, rfl⟩)
      refine ⟨.buffer (len / sizeofToneNote) (len / sizeofToneNote), ?_, Nat.lt_irrefl _⟩
      rw [ToneState.toneWrite_of_writeSize buffer hsize]
      split
      · exact ToneState.mem_toneNext_reads hread
      · exact hread
  | _ => exact absurd trivial hsupplied

/-- **Nothing else is read.** In every run of the driver, `tone_ok` has inspected only entries that
were written and `tone_next` has read only entries of the patterns and of the table of notes,
exactly when in every pattern of a size that was accepted there was an entry at which `tone_ok`
stopped. -/
theorem reads_inBounds_iff {es : List ToneEvent} (hinit : (toneAlarm behind).init s)
    (h : (toneAlarm behind).Run s es t) :
    (∀ r ∈ t.reads, r.InBounds) ↔ ∀ e ∈ es, e.Supplied := by
  refine h.forall_iff (I := ToneState.Playable behind) (P := fun s => ∀ r ∈ s.reads, r.InBounds)
    (fun s hs => hs.reads) (fun s e t hs hstep => playable_step hs hstep) ?_ ?_ ?_
  · intro s e t _ hstep hsupplied hreads
    obtain ⟨r, hr, hout⟩ := read_behind_buffer hstep hsupplied
    exact hout (hreads r hr)
  · intro s e t hstep hreads r hr
    exact hreads r (mem_reads_of_step hstep hr)
  · cases hinit
    exact .init

end

/-- Zeros behind the patterns. -/
def zerosBehind (_ : Int) (_ : Nat) : ToneNote := ⟨0, 0⟩

/-- A note and an end of pattern are written when the startup tune has been cancelled, and played.
-/
theorem reads_inBounds_iff_note :
    ∃ t, (toneAlarm zerosBehind).Run (.init zerosBehind)
        [.setAlarm 0, .write (fun i => if i = 0 then ⟨10, 50⟩ else ⟨0, 0⟩) 4, .noteEnd] t ∧
      t.userPattern.toList.head? = some ⟨10, 50⟩ ∧ ∀ r ∈ t.reads, r.InBounds := by
  let events : List ToneEvent :=
    [.setAlarm 0, .write (fun i => if i = 0 then ⟨10, 50⟩ else ⟨0, 0⟩) 4, .noteEnd]
  obtain ⟨t, ht⟩ := Option.isSome_iff_exists.mp
    (show (events.foldlM (ToneState.next zerosBehind) (.init zerosBehind)).isSome = true by decide)
  have hpattern : ∀ t ∈ events.foldlM (ToneState.next zerosBehind) (.init zerosBehind),
      t.userPattern.toList.head? = some ⟨10, 50⟩ := by decide
  have hrun : (toneAlarm zerosBehind).Run (.init zerosBehind) events t :=
    LTS.Run.of_foldlM (fun _ _ _ h => h) ht
  refine ⟨t, hrun, hpattern t ht, (reads_inBounds_iff rfl hrun).mpr ?_⟩
  intro e he
  simp only [events, List.mem_cons, List.not_mem_nil, or_false] at he
  rcases he with rfl | rfl | rfl
  · trivial
  · intro _
    show StopsWithin _ 2
    decide
  · trivial

/-- Forty notes are written, all of them notes: `tone_ok` inspects an entry behind them. -/
theorem reads_behind_notes :
    ¬ ∀ es t, (toneAlarm zerosBehind).Run (.init zerosBehind) es t → ∀ r ∈ t.reads, r.InBounds := by
  intro hlaw
  let events : List ToneEvent := [.setAlarm 0, .write (fun _ => ⟨10, 50⟩) 80]
  obtain ⟨t, ht⟩ := Option.isSome_iff_exists.mp
    (show (events.foldlM (ToneState.next zerosBehind) (.init zerosBehind)).isSome = true by decide)
  have hread : ∀ t ∈ events.foldlM (ToneState.next zerosBehind) (.init zerosBehind),
      .buffer 40 40 ∈ t.reads := by decide
  have hrun : (toneAlarm zerosBehind).Run (.init zerosBehind) events t :=
    LTS.Run.of_foldlM (fun _ _ _ h => h) ht
  exact Nat.lt_irrefl 40 (hlaw events t hrun _ (hread t ht))

end Px4Firmware.Drivers
