import Px4Firmware.Lib.Transition

/-!
# Px4Firmware.Drivers.ToneAlarm

The tone alarm driver (`drv_tone_alarm.c`): the predefined alarms, the pattern of the user, and the
note that is sounding.

What the driver reads from an array is noted in `ToneState.reads`, inside of the array or not. What
lies behind the end of a pattern is a parameter, and so is what lies behind the notes that a caller
writes: the buffer of a write goes on for ever.
-/

namespace Px4Firmware.Drivers

open Px4Firmware.Lib

/-! ### Notes -/

/-- `enum tone_pitch`, up to `TONE_NOTE_SILENCE`. -/
inductive TonePitch
  | e4 | f4 | f4s | g4 | g4s | a4 | a4s | b4
  | c5 | c5s | d5 | d5s | e5 | f5 | f5s | g5 | g5s | a5 | a5s | b5
  | c6 | c6s | d6 | d6s | e6 | f6 | f6s | g6 | g6s | a6 | a6s | b6
  | c7 | c7s | d7 | d7s | e7 | f7 | f7s | g7 | g7s | a7 | a7s | b7
  | c8 | c8s | d8 | d8s
  | silence

/-- `TONE_NOTE_SILENCE`. -/
def toneNoteSilence : Nat := 48

/-- `TONE_NOTE_MAX`. -/
def toneNoteMax : Nat := 49

/-- `struct tone_note`. -/
structure ToneNote where
  pitch : UInt8
  duration : UInt8
  deriving DecidableEq

/-- `DURATION_END`. -/
def durationEnd : UInt8 := 0

/-- `DURATION_REPEAT`. -/
def durationRepeat : UInt8 := 255

/-- Does the pattern end or start again in place of this note? -/
def ToneNote.Terminates (n : ToneNote) : Prop :=
  n.duration = durationEnd ∨ n.duration = durationRepeat

instance (n : ToneNote) : Decidable n.Terminates := inferInstanceAs (Decidable (_ ∨ _))

/-- `TONE_MAX_PATTERN`. -/
def toneMaxPattern : Nat := 6

/-- `TONE_MAX_PATTERN_LEN`. -/
def toneMaxPatternLen : Nat := 40

/-- A pattern in memory. -/
abbrev TonePattern := Vector ToneNote toneMaxPatternLen

/-- A pattern with these notes, and zeros after them. -/
def tonePattern (notes : List (TonePitch × UInt8)) : TonePattern :=
  .ofFn fun i => match notes[i.val]? with
    | some (pitch, duration) => ⟨UInt8.ofNat pitch.ctorIdx, duration⟩
    | none => ⟨0, 0⟩

/-- `patterns`. -/
def patterns : Vector TonePattern toneMaxPattern :=
  #v[
    tonePattern [(.a7, 12), (.d8, 12), (.c8, 12), (.a7, 12), (.d8, 12), (.c8, 12), (.d8, 4),
      (.c8, 4), (.d8, 4), (.c8, 4), (.d8, 4), (.c8, 4)],
    tonePattern [(.b6, 100)],
    tonePattern [(.c7, 100)],
    tonePattern [(.d7, 100)],
    tonePattern [(.e7, 100)],
    tonePattern [(.c6, 40), (.g5, 20), (.g5s, 20), (.a5s, 40), (.g5s, 20), (.g5, 20), (.f5, 40),
      (.f5, 20), (.g5s, 20), (.c6, 40), (.a5s, 20), (.g5s, 20), (.g5, 60), (.g5s, 20), (.a5s, 40),
      (.c6, 40), (.g5s, 40), (.f5, 40), (.f5, 60), (.a5s, 40), (.c6s, 20), (.f6, 40), (.d6s, 20),
      (.c6s, 20), (.c6, 60), (.g5s, 20), (.c6, 40), (.a5s, 20), (.g5s, 20), (.g5, 40), (.g5, 20),
      (.g5s, 20), (.a5s, 40), (.c6, 40), (.g5s, 40), (.f5, 40), (.f5, 60)]]

/-- `notes`: the reload values of the timer. The last one is not given. -/
def notes : Vector UInt16 toneNoteMax :=
  #v[63707, 60132, 56758, 53571, 50565, 47727, 45048, 42520, 40133, 37880, 35755, 33748, 31853,
    30066, 28378, 26786, 25282, 23863, 22524, 21260, 20066, 18940, 17877, 16874, 15927, 15033,
    14189, 13393, 12641, 11931, 11262, 10630, 10033, 9470, 8938, 8437, 7963, 7516, 7094, 6696, 6320,
    5965, 5631, 5315, 5016, 4735, 4469, 4218, 0]

/-! ### The driver -/

/-- `PATTERN_NONE`. -/
def patternNone : Int := -1

/-- `PATTERN_USER`. -/
def patternUser : Int := 0

/-- A place that is read: an entry of the buffer of a write of `count` notes, of a pattern, or of
the table of notes. -/
inductive ToneRead
  | buffer (count i : Nat)
  | pattern (number : Int) (i : Nat)
  | notes (i : Nat)
  deriving DecidableEq

/-- Is the place inside of its array? -/
def ToneRead.InBounds : ToneRead → Prop
  | buffer count i => i < count
  | pattern number i => 0 ≤ number ∧ number ≤ toneMaxPattern ∧ i < toneMaxPatternLen
  | notes i => i < toneNoteMax

/-- A note that is sounding: its pattern, its place in it, and the reload value of the timer if the
timer runs. -/
structure Sounding where
  pattern : Int
  note : Nat
  reload : Option UInt16
  deriving DecidableEq

/-- `struct state`, the timer, how many notes have been started, and what has been read. `noteEnd`
tells whether the call at the end of a note is pending. -/
structure ToneState where
  pattern : Int
  note : Nat
  noteEnd : Bool
  userPattern : TonePattern
  sounding : Option Sounding
  started : Nat
  reads : List ToneRead

namespace ToneState

/-- Note what is read. -/
def read (reads : List ToneRead) (s : ToneState) : ToneState :=
  { s with reads := s.reads ++ reads }

section

variable (behind : Int → Nat → ToneNote)

/-- An entry of the current pattern, or what lies behind the pattern. -/
def noteAt (s : ToneState) (i : Nat) : ToneNote :=
  if s.pattern = patternUser then s.userPattern[i]?.getD (behind s.pattern i)
  else (patterns[(s.pattern - 1).toNat]?.bind fun p => p[i]?).getD (behind s.pattern i)

/-- `tone_next`, when there is a note to play. -/
def playNote (s : ToneState) : ToneState :=
  let np := s.noteAt behind s.note
  let next := s.noteAt behind (s.note + 1)
  let sounding : Sounding :=
    { pattern := s.pattern
      note := s.note
      reload :=
        if np.pitch.toNat ≤ toneNoteSilence then notes[np.pitch.toNat]? else none }
  -- The look-ahead is only made when there can be another note.
  let reads := .pattern s.pattern s.note ::
    ((if s.note + 1 < toneNoteMax then [.pattern s.pattern (s.note + 1)] else []) ++
      if np.pitch.toNat ≤ toneNoteSilence then [.notes np.pitch.toNat] else [])
  let s := { s.read reads with
    note := s.note + 1
    noteEnd := true
    sounding := some sounding
    started := s.started + 1 }
  if toneNoteMax ≤ s.note then { s with pattern := patternNone }
  else if next.duration = durationEnd then { s with pattern := patternNone }
  else if next.duration = durationRepeat then { s with note := 0 }
  else s

/-- `tone_next`. -/
def toneNext (s : ToneState) : ToneState :=
  let s := { s with sounding := none }
  if s.pattern = patternNone then s
  else if s.note = toneNoteMax then { s with pattern := patternNone }
  else s.playNote behind

end

end ToneState

/-- The loop of `tone_ok` from the entry `i` on, with `left` entries to go: the result, and how many
entries have been inspected. -/
def toneOkFrom (pattern : Nat → ToneNote) (i : Nat) : Nat → Bool × Nat
  | 0 => (true, i)
  | left + 1 =>
      if i = 0 ∧ (pattern i).Terminates then (false, i + 1)
      else if (pattern i).duration = durationEnd then (true, i + 1)
      else if toneNoteMax ≤ (pattern i).pitch.toNat then (false, i + 1)
      else toneOkFrom pattern (i + 1) left

/-- `tone_ok`. -/
def toneOk (pattern : Nat → ToneNote) : Bool × Nat := toneOkFrom pattern 0 toneNoteMax

/-- The errors of the driver. -/
inductive ToneError
  | efbig
  | eio
  | erange
  | einval

/-- `sizeof(struct tone_note)`. -/
def sizeofToneNote : Nat := 2

namespace ToneState

variable (behind : Int → Nat → ToneNote)

/-- `tone_ioctl` with `TONE_SET_ALARM`. -/
def toneSetAlarm (new : Int) (s : ToneState) : Except ToneError Unit × ToneState :=
  if new = 0 then (.ok (), { s with pattern := patternNone }.toneNext behind)
  else if toneMaxPattern < new then (.error .erange, s)
  else if s.pattern < new then (.ok (), { s with pattern := new, note := 0 }.toneNext behind)
  else (.ok (), s)

/-- `tone_write`, of `len` bytes from a buffer. -/
def toneWrite (buffer : Nat → ToneNote) (len : Nat) (s : ToneState) :
    Except ToneError Nat × ToneState :=
  if toneMaxPatternLen * sizeofToneNote < len then (.error .efbig, s)
  else if len % sizeofToneNote ≠ 0 ∨ len = 0 then (.error .eio, s)
  else
    let count := len / sizeofToneNote
    let (ok, inspected) := toneOk buffer
    let s := s.read ((List.range inspected).map (.buffer count))
    if !ok then (.error .eio, s)
    else if s.pattern ≤ patternUser then
      (.ok len, { s with
        pattern := patternUser
        note := 0
        userPattern := .ofFn fun i => if i < count then buffer i else ⟨0, 0⟩ }.toneNext behind)
    else (.ok len, s)

/-- After `tone_alarm_init`: the startup tune is played. -/
def init : ToneState :=
  (toneSetAlarm behind 1
    { pattern := patternNone
      note := 0
      noteEnd := false
      userPattern := .replicate _ ⟨0, 0⟩
      sounding := none
      started := 0
      reads := [] }).2

end ToneState

/-- What happens to the driver: an ioctl to set the alarm or another one, a write, and the call at
the end of a note. -/
inductive ToneEvent
  | setAlarm (new : Int)
  | otherIoctl
  | write (buffer : Nat → ToneNote) (len : Nat)
  | noteEnd

/-- The next state. The call at the end of a note comes when it is pending. -/
def ToneState.next (behind : Int → Nat → ToneNote) (s : ToneState) : ToneEvent → Option ToneState
  | .setAlarm new => some (s.toneSetAlarm behind new).2
  -- `-EINVAL`
  | .otherIoctl => some s
  | .write buffer len => some (s.toneWrite behind buffer len).2
  | .noteEnd => if s.noteEnd then some ({ s with noteEnd := false }.toneNext behind) else none

/-- The driver as a transition system. -/
def toneAlarm (behind : Int → Nat → ToneNote) : LTS ToneState ToneEvent where
  init s := s = .init behind
  step s e t := s.next behind e = some t

end Px4Firmware.Drivers
