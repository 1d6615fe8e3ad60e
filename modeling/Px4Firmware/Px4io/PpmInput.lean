import Px4Firmware.Hrt.PpmWhole
import Px4Firmware.Lib.Transition
import Mathlib.Tactic.Set
import Mathlib.Tactic.SplitIfs

/-!
# Px4Firmware.Px4io.PpmInput

The PPM decoder of the input and output board (`drv_ppm_input.c`). Its state machine is the one of
the timer (`Hrt.Ppm`), but for one more check, and it does not export whatever it has received: it
locks the number of channels, which has to be the same in a few frames one after the other.

The invariant `Signal` ties the driver to the edges it has seen: while it is synchronised, it holds
the intervals of an undisturbed sequence of edges since a start gap. Samples are only sent from such
a sequence (`sent_frame`).
-/

namespace Px4Firmware.Px4io.PpmInput

open Px4Firmware.Lib Px4Firmware.Hrt.Ppm

/-! ### The decoder -/

/-- `PPM_MIN_CHANNELS`. -/
abbrev ppmMinChannels : Nat := 4

/-- `PPM_CHANNEL_LOCK`. -/
abbrev ppmChannelLock : Nat := 3

/-- `PPM_INPUT_TIMEOUT`. -/
abbrev ppmInputTimeout : UInt64 := 100 * 1000

/-- The variables of the driver: the decoded frame, the state machine `ppm`, the time of the last
good frame, and the two static variables of the lock. -/
structure Input where
  ppmBuffer : Vector UInt16 ppmMaxChannels
  ppmDecodedChannels : Nat
  ppmTempBuffer : Vector UInt16 ppmMaxChannels
  lastEdge : UInt16
  lastMark : UInt16
  nextChannel : Nat
  phase : Phase
  ppmTimestamp : UInt64
  ppmFreshData : Bool
  newChannelCount : Nat
  newChannelHoldoff : Nat

namespace Input

/-- The driver at reset. -/
def reset : Input where
  ppmBuffer := .replicate ppmMaxChannels 0
  ppmDecodedChannels := 0
  ppmTempBuffer := .replicate ppmMaxChannels 0
  lastEdge := 0
  lastMark := 0
  nextChannel := 0
  phase := .unsynch
  ppmTimestamp := 0
  ppmFreshData := false
  newChannelCount := 0
  newChannelHoldoff := 0

/-- The label `error`. -/
def error (d : Input) : Input := { d with phase := .unsynch, ppmDecodedChannels := 0 }

/-- A frame with another number of channels than the one that is locked. -/
def settle (d : Input) : Input :=
  if d.newChannelCount ≠ d.nextChannel then
    -- Another candidate.
    { d with newChannelCount := d.nextChannel, newChannelHoldoff := ppmChannelLock }
  else if 0 < d.newChannelHoldoff then
    -- The candidate once more.
    { d with newChannelHoldoff := d.newChannelHoldoff - 1 }
  else
    -- Often enough.
    { d with ppmDecodedChannels := d.newChannelCount, newChannelCount := 0 }

/-- The samples of a frame are taken over. -/
def takeFrame (now : UInt64) (d : Input) : Input :=
  { d with
    ppmBuffer := .ofFn fun i =>
      if i.val < d.nextChannel then d.ppmTempBuffer.get i else d.ppmBuffer.get i
    ppmTimestamp := now
    ppmFreshData := true }

/-- The samples in the message for the mixer. -/
def message (d : Input) : List UInt16 := d.ppmBuffer.toList.take d.ppmDecodedChannels

/-- A start gap, with the message that is sent at it. -/
def startGap (now : UInt64) (d : Input) : Input × Option (List UInt16) :=
  let (d, sent) :=
    if d.nextChannel ≠ d.ppmDecodedChannels then (d.settle, none)
    else if ppmMinChannels < d.nextChannel then (d.takeFrame now, some (d.takeFrame now).message)
    else (d, none)
  ({ d with nextChannel := 0, phase := .arm }, sent)

/-- A channel is stored, if there is room for it. -/
def storeChannel (interval : UInt16) (d : Input) : Input :=
  if d.nextChannel < ppmMaxChannels then
    { d with
      ppmTempBuffer := d.ppmTempBuffer.setIfInBounds d.nextChannel interval
      nextChannel := d.nextChannel + 1 }
  else
    d

/-- The `switch` of `ppm_input_decode`. -/
def switchPhase (count width : UInt16) (d : Input) : Input :=
  match d.phase with
  | .unsynch => d
  | .arm =>
      if ppmMaxPulseWidth < width then d.error
      else { d with lastMark := count, phase := .inactive }
  | .inactive => { d with phase := .active }
  | .active =>
      if ppmMaxPulseWidth < width then d.error
      else
        let interval := count - d.lastMark
        let d := { d with lastMark := count }
        if interval < ppmMinChannelValue ∨ ppmMaxChannelValue < interval then d.error
        else { d.storeChannel interval with phase := .inactive }

/-- `ppm_input_decode`, with the message that is sent. -/
def ppmInputDecode (e : Edge) (d : Input) : Input × Option (List UInt16) :=
  if e.overflow then (d.error, none)
  else
    let width := e.count - d.lastEdge
    let d := { d with lastEdge := e.count }
    if ppmMinStart ≤ width then d.startGap e.now else (d.switchPhase e.count width, none)

/-- `ppm_ioctl` with `PPM_INPUT_STATUS`: whether the signal is current. -/
def ppmInputStatus (now : UInt64) (d : Input) : Bool × Input :=
  if now - d.ppmTimestamp < ppmInputTimeout then (true, d)
  else (false, { d with ppmDecodedChannels := 0 })

end Input

/-- What happens to the driver: an edge, or a request for the status. -/
inductive Event
  | edge (e : Edge)
  | status (now : UInt64)

/-- The driver, step by step. -/
def ppmInput : LTS Input Event where
  init d := d = Input.reset
  step d event d' :=
    match event with
    | .edge e => d' = (d.ppmInputDecode e).1
    | .status now => d' = (d.ppmInputStatus now).2

/-! ### The signal -/

/-- The widths of the pulses. With the start gap in front, these are the first two edges, the next
two, and so on. -/
def pulseWidths : List Edge → List UInt16
  | e :: e' :: edges => (e'.count - e.count) :: pulseWidths edges
  | _ => []

/-- The edges behind a start gap, when nothing is wrong with them. -/
structure Undisturbed (gap : Edge) (edges : List Edge) : Prop where
  uninterrupted : Uninterrupted gap edges
  pulses : ∀ width ∈ pulseWidths (gap :: edges), width ≤ ppmMaxPulseWidth

/-- The last frame of the signal, which the next start gap ends: it is undisturbed, has these
samples, and comes after these edges. -/
def LastFrame (before earlier : List Edge) (samples : List UInt16) : Prop :=
  ∃ gap edges, before = earlier ++ gap :: edges ∧ StartGap earlier gap ∧ Undisturbed gap edges ∧
    samples = intervals (marks edges)

/-! ### One edge -/

namespace Input

variable {d : Input} {e : Edge}

theorem ppmInputDecode_missed (hmissed : e.overflow = true) :
    d.ppmInputDecode e = (d.error, none) := by
  simp [ppmInputDecode, hmissed]

theorem ppmInputDecode_late (hseen : e.overflow = false)
    (hlate : ppmMinStart ≤ e.count - d.lastEdge) :
    d.ppmInputDecode e = { d with lastEdge := e.count }.startGap e.now := by
  rw [ppmInputDecode, hseen]
  exact if_pos hlate

theorem ppmInputDecode_next (hseen : e.overflow = false)
    (hnext : e.count - d.lastEdge < ppmMinStart) :
    d.ppmInputDecode e =
      ({ d with lastEdge := e.count }.switchPhase e.count (e.count - d.lastEdge), none) := by
  rw [ppmInputDecode, hseen]
  exact if_neg (UInt16.not_le.2 hnext)

/-- A start gap resets the state machine. -/
theorem startGap_fields (now : UInt64) (d : Input) :
    (d.startGap now).1.phase = .arm ∧ (d.startGap now).1.nextChannel = 0 ∧
      (d.startGap now).1.lastEdge = d.lastEdge := by
  refine ⟨rfl, rfl, ?_⟩
  simp only [startGap, settle, takeFrame]
  split_ifs <;> rfl

/-- The state machine, as the one of the timer. -/
def machine (d : Input) : Decoder :=
  { Decoder.reset with
    ppmTempBuffer := d.ppmTempBuffer
    lastEdge := d.lastEdge
    lastMark := d.lastMark
    nextChannel := d.nextChannel
    phase := d.phase }

end Input

/-- Decoders with the same state machine. -/
structure SameMachine (d d' : Decoder) : Prop where
  temp : d.ppmTempBuffer = d'.ppmTempBuffer
  edge : d.lastEdge = d'.lastEdge
  mark : d.lastMark = d'.lastMark
  channels : d.nextChannel = d'.nextChannel
  phase : d.phase = d'.phase

theorem SameMachine.follows {d d' : Decoder} (h : SameMachine d d') {gap : Edge}
    {edges : List Edge} (hfollows : Follows gap edges d') : Follows gap edges d where
  edge last hlast := by rw [h.edge]; exact hfollows.edge last hlast
  phase := by rw [h.phase]; exact hfollows.phase
  mark mark hmark := by rw [h.mark]; exact hfollows.mark mark hmark
  channels := by rw [h.channels]; exact hfollows.channels
  samples := by rw [h.temp, h.channels]; exact hfollows.samples

namespace Input

variable {d : Input} {e : Edge}

/-- A pulse that is too long. -/
def TooLong (d : Input) (e : Edge) : Prop :=
  d.phase = .active ∧ ppmMaxPulseWidth < e.count - d.lastEdge

/-- No other edge behind a start gap is decoded in another way than by the timer. -/
theorem machine_next (hseen : e.overflow = false) (hnext : e.count - d.lastEdge < ppmMinStart)
    (hlong : ¬d.TooLong e) :
    SameMachine (d.ppmInputDecode e).1.machine (d.machine.hrtPpmDecode e) := by
  have htimer := Decoder.hrtPpmDecode_next (d := d.machine) hseen hnext
  rw [ppmInputDecode_next hseen hnext, htimer]
  cases hphase : d.phase with
  | unsynch =>
      simp only [switchPhase, Decoder.switchPhase, Decoder.recordEdge, machine, hphase]
      constructor <;> rfl
  | arm =>
      simp only [switchPhase, Decoder.switchPhase, Decoder.recordEdge, machine, hphase]
      split_ifs
      · constructor <;> rfl
      · constructor <;> rfl
  | inactive =>
      simp only [switchPhase, Decoder.switchPhase, Decoder.recordEdge, machine, hphase]
      constructor <;> rfl
  | active =>
      have hshort : ¬ppmMaxPulseWidth < e.count - d.lastEdge := fun h => hlong ⟨hphase, h⟩
      simp only [switchPhase, Decoder.switchPhase, Decoder.recordEdge, Decoder.recordMark, machine,
        hphase, if_neg hshort]
      split_ifs
      · constructor <;> rfl
      · simp only [storeChannel, Decoder.storeChannel]
        split_ifs
        · constructor <;> rfl
        · constructor <;> rfl

/-- A pulse that is too long is an error. -/
theorem phase_of_tooLong (hseen : e.overflow = false)
    (hnext : e.count - d.lastEdge < ppmMinStart) (hlong : d.TooLong e) :
    (d.ppmInputDecode e).1.phase = .unsynch := by
  obtain ⟨hphase, hwidth⟩ := hlong
  rw [ppmInputDecode_next hseen hnext]
  simp only [switchPhase, hphase, if_pos hwidth]
  rfl

end Input

/-! ### The decoder follows the signal -/

theorem pulseWidths_snoc {edges : List Edge} (e : Edge) {last : Edge}
    (hlast : last ∈ edges.getLast?) :
    pulseWidths (edges ++ [e]) =
      if edges.length % 2 = 1 then pulseWidths edges ++ [e.count - last.count]
      else pulseWidths edges := by
  induction edges using pulseWidths.induct with
  | case1 e' e'' edges ih =>
      cases edges with
      | nil => simp [pulseWidths]
      | cons third edges =>
          have hlength : (e' :: e'' :: third :: edges).length % 2 =
              (third :: edges).length % 2 := by
            simp only [List.length_cons]
            omega
          rw [List.getLast?_cons_cons, List.getLast?_cons_cons] at hlast
          have hrest := ih hlast
          rw [hlength]
          simp only [List.cons_append, pulseWidths] at hrest ⊢
          rw [hrest]
          split_ifs <;> rfl
  | case2 edges hshort =>
      match edges with
      | [] => cases hlast
      | [e'] =>
          cases hlast
          rfl
      | e' :: e'' :: edges => exact absurd rfl (hshort e' e'' edges)

/-- A sequence that goes on without disturbance. -/
theorem undisturbed_snoc {gap : Edge} {edges : List Edge} {e last : Edge}
    (hlast : last ∈ (gap :: edges).getLast?) :
    Undisturbed gap (edges ++ [e]) ↔
      Undisturbed gap edges ∧ Uninterrupted gap (edges ++ [e]) ∧
        (edges.length % 2 = 0 → e.count - last.count ≤ ppmMaxPulseWidth) := by
  have hwidths := pulseWidths_snoc e hlast
  rw [List.length_cons] at hwidths
  constructor
  · rintro ⟨huninterrupted, hpulses⟩
    rw [← List.cons_append, hwidths] at hpulses
    refine ⟨⟨(uninterrupted_snoc.1 huninterrupted).1, fun width hwidth => ?_⟩, huninterrupted,
      fun heven => ?_⟩
    · refine hpulses width ?_
      split_ifs
      · exact List.mem_append_left _ hwidth
      · exact hwidth
    · rw [if_pos (by omega)] at hpulses
      exact hpulses _ (List.mem_append_right _ (List.mem_singleton_self _))
  · rintro ⟨hbefore, huninterrupted, hpulse⟩
    refine ⟨huninterrupted, fun width hwidth => ?_⟩
    rw [← List.cons_append, hwidths] at hwidth
    split_ifs at hwidth with hodd
    · rcases List.mem_append.1 hwidth with hwidth | hwidth
      · exact hbefore.pulses width hwidth
      · rw [List.mem_singleton.1 hwidth]
        exact hpulse (by omega)
    · exact hbefore.pulses width hwidth

theorem undisturbed_nil (gap : Edge) : Undisturbed gap [] :=
  ⟨uninterrupted_nil gap, fun width hwidth => by cases hwidth⟩

/-- When the second edge of a pulse is awaited. -/
theorem phaseAfter_eq_active_iff (n : Nat) : phaseAfter n = .active ↔ n ≠ 0 ∧ n % 2 = 0 := by
  cases n with
  | zero => simp [phaseAfter]
  | succ n =>
      rw [phaseAfter]
      split_ifs with heven
      · simp
        omega
      · simp
        omega

namespace Input

/-- **One edge** behind a start gap, that is no start gap itself: the driver follows the signal, or
notices that it is disturbed. -/
theorem follows_next {d : Input} {gap e : Edge} {edges : List Edge}
    (h : Follows gap edges d.machine) (hwhole : Undisturbed gap edges)
    (hgap : e.overflow = false → e.count - d.lastEdge < ppmMinStart) :
    (Undisturbed gap (edges ++ [e]) ∧
        Follows gap (edges ++ [e]) (d.ppmInputDecode e).1.machine) ∨
      (¬Undisturbed gap (edges ++ [e]) ∧ (d.ppmInputDecode e).1.phase = .unsynch) := by
  cases hseen : e.overflow with
  | true =>
      rw [ppmInputDecode_missed hseen]
      refine .inr ⟨fun hsnoc => ?_, rfl⟩
      have hnot := hsnoc.uninterrupted.seen e (List.mem_append_right _ (List.mem_singleton_self _))
      rw [hseen] at hnot
      cases hnot
  | false =>
      obtain ⟨last, hlast⟩ : ∃ last, last ∈ (gap :: edges).getLast? :=
        ⟨_, List.getLast?_eq_some_getLast (List.cons_ne_nil _ _)⟩
      have hedge : d.lastEdge = last.count := h.edge last hlast
      have hphase : d.phase = .active ↔ edges.length ≠ 0 ∧ edges.length % 2 = 0 := by
        rw [← phaseAfter_eq_active_iff, ← h.phase]
        rfl
      by_cases hlong : d.TooLong e
      · refine .inr ⟨fun hsnoc => ?_, phase_of_tooLong hseen (hgap hseen) hlong⟩
        have hpulse := ((undisturbed_snoc hlast).1 hsnoc).2.2 (hphase.1 hlong.1).2
        rw [← hedge] at hpulse
        exact UInt16.not_lt.2 hpulse hlong.2
      · have hsame := machine_next hseen (hgap hseen) hlong
        rcases h.next hwhole.uninterrupted hgap with ⟨huninterrupted, hfollows⟩ | ⟨hnot, hunsynch⟩
        · refine .inl ⟨(undisturbed_snoc hlast).2 ⟨hwhole, huninterrupted, fun heven => ?_⟩,
            hsame.follows hfollows⟩
          by_cases hedges : edges = []
          · subst hedges
            cases hlast
            exact huninterrupted.first e rfl
          · refine UInt16.not_lt.1 fun hwidth => hlong ⟨hphase.2 ⟨?_, heven⟩, ?_⟩
            · exact fun hzero => hedges (List.length_eq_zero_iff.1 hzero)
            · rw [hedge]
              exact hwidth
        · exact .inr ⟨fun hsnoc => hnot hsnoc.uninterrupted, hsame.phase.trans hunsynch⟩

end Input

/-! ### What an edge changes -/

/-- What an edge that is not that of a start gap leaves. -/
structure Quiet (d d' : Input) : Prop where
  buffer : d'.ppmBuffer = d.ppmBuffer
  count : d'.newChannelCount = d.newChannelCount
  holdoff : d'.newChannelHoldoff = d.newChannelHoldoff
  decoded : d'.ppmDecodedChannels = d.ppmDecodedChannels ∨ d'.ppmDecodedChannels = 0
  unsynch : d'.phase = .unsynch →
    d.phase = .unsynch ∧ d'.ppmDecodedChannels = d.ppmDecodedChannels ∨ d'.ppmDecodedChannels = 0
  stays : d.phase = .unsynch → d'.phase = .unsynch
  room : d.nextChannel ≤ ppmMaxChannels → d'.nextChannel ≤ ppmMaxChannels

namespace Input

theorem quiet_error (d : Input) : Quiet d d.error :=
  ⟨rfl, rfl, rfl, .inr rfl, fun _ => .inr rfl, fun _ => rfl, id⟩

theorem quiet_switchPhase (count width : UInt16) (d : Input) :
    Quiet d (d.switchPhase count width) ∧
      (d.switchPhase count width).lastEdge = d.lastEdge := by
  cases hphase : d.phase with
  | unsynch =>
      simp only [switchPhase, hphase]
      exact ⟨⟨rfl, rfl, rfl, .inl rfl, fun h => .inl ⟨h, rfl⟩, id, id⟩, trivial⟩
  | arm =>
      have hnot : d.phase ≠ .unsynch := by rw [hphase]; decide
      simp only [switchPhase, hphase]
      split_ifs
      · exact ⟨quiet_error d, rfl⟩
      · exact ⟨⟨rfl, rfl, rfl, .inl rfl, fun h => (by cases h), fun h => absurd h hnot, id⟩, rfl⟩
  | inactive =>
      have hnot : d.phase ≠ .unsynch := by rw [hphase]; decide
      simp only [switchPhase, hphase]
      exact ⟨⟨rfl, rfl, rfl, .inl rfl, fun h => (by cases h), fun h => absurd h hnot, id⟩, trivial⟩
  | active =>
      have hnot : d.phase ≠ .unsynch := by rw [hphase]; decide
      simp only [switchPhase, hphase]
      split_ifs
      · exact ⟨quiet_error d, rfl⟩
      · exact ⟨⟨rfl, rfl, rfl, .inr rfl, fun _ => .inr rfl, fun _ => rfl, id⟩, rfl⟩
      · simp only [storeChannel]
        split_ifs with hroom
        · exact ⟨⟨rfl, rfl, rfl, .inl rfl, fun h => (by cases h), fun h => absurd h hnot,
            fun _ => hroom⟩, rfl⟩
        · exact ⟨⟨rfl, rfl, rfl, .inl rfl, fun h => (by cases h), fun h => absurd h hnot, id⟩, rfl⟩

/-- An edge that is not that of a start gap. -/
theorem quiet_next {d : Input} {e : Edge}
    (hgap : e.overflow = false → e.count - d.lastEdge < ppmMinStart) :
    Quiet d (d.ppmInputDecode e).1 ∧ (d.ppmInputDecode e).2 = none ∧
      (d.ppmInputDecode e).1.lastEdge = if e.overflow then d.lastEdge else e.count := by
  cases hseen : e.overflow with
  | true =>
      rw [ppmInputDecode_missed hseen]
      exact ⟨quiet_error d, rfl, rfl⟩
  | false =>
      rw [ppmInputDecode_next hseen (hgap hseen)]
      obtain ⟨hquiet, hedge⟩ := quiet_switchPhase e.count (e.count - d.lastEdge)
        { d with lastEdge := e.count }
      exact ⟨⟨hquiet.buffer, hquiet.count, hquiet.holdoff, hquiet.decoded, hquiet.unsynch,
        hquiet.stays, hquiet.room⟩, rfl, hedge⟩

end Input

/-! ### The invariant of the signal -/

/-- The driver after these edges, as far as the signal goes. -/
structure Signal (d : Input) (edges : List Edge) : Prop where
  edge : d.lastEdge = lastCount edges
  synch : d.phase ≠ .unsynch → ∃ earlier samples, LastFrame edges earlier samples
  follows : ∀ earlier gap rest, edges = earlier ++ gap :: rest → StartGap earlier gap →
    Undisturbed gap rest → Follows gap rest d.machine
  unlocked : d.phase = .unsynch → d.ppmDecodedChannels = 0
  room : d.nextChannel ≤ ppmMaxChannels

theorem signal_reset : Signal Input.reset [] where
  edge := rfl
  synch h := absurd rfl h
  follows earlier gap rest h := by cases earlier <;> cases h
  unlocked _ := rfl
  room := Nat.zero_le _

/-- The last edge of an undisturbed sequence is the one captured last. -/
theorem lastCount_of_undisturbed {earlier rest : List Edge} {gap last : Edge}
    (hearlier : StartGap earlier gap) (hwhole : Undisturbed gap rest)
    (hlast : last ∈ (gap :: rest).getLast?) : lastCount (earlier ++ gap :: rest) = last.count := by
  rw [← Decoder.lastEdge_decodeAll]
  exact (hwhole.uninterrupted.follows hearlier).edge last hlast

/-- The edge of a start gap is no part of an undisturbed sequence behind an earlier one. -/
theorem rest_eq_nil {before earlier rest : List Edge} {gap e : Edge} (hstart : StartGap before e)
    (h : before ++ [e] = earlier ++ gap :: rest) (hearlier : StartGap earlier gap)
    (hwhole : Undisturbed gap rest) : rest = [] ∧ gap = e ∧ earlier = before := by
  rcases List.eq_nil_or_concat rest with rfl | ⟨rest', e', rfl⟩
  · obtain ⟨hbefore, he⟩ := List.append_inj' h rfl
    cases he
    exact ⟨rfl, rfl, hbefore.symm⟩
  · rw [List.concat_eq_append, ← List.cons_append, ← List.append_assoc] at h
    obtain ⟨hbefore, he⟩ := List.append_inj' h rfl
    cases he
    obtain ⟨last, hlast⟩ : ∃ last, last ∈ (gap :: rest').getLast? :=
      ⟨_, List.getLast?_eq_some_getLast (List.cons_ne_nil _ _)⟩
    rw [List.concat_eq_append] at hwhole
    obtain ⟨hwhole', huninterrupted, -⟩ := (undisturbed_snoc hlast).1 hwhole
    have hshort := (uninterrupted_snoc.1 huninterrupted).2.2.1 last hlast
    have hlong := hstart.2
    rw [hbefore, lastCount_of_undisturbed hearlier hwhole' hlast] at hlong
    -- The edge is both close behind the last one and far from it.
    exact absurd hshort (UInt16.not_lt.2 hlong)

/-- An edge that is no start gap continues what is before. -/
theorem rest_eq_snoc {before earlier rest : List Edge} {gap e : Edge}
    (hstart : ¬StartGap before e) (h : before ++ [e] = earlier ++ gap :: rest)
    (hearlier : StartGap earlier gap) :
    ∃ rest', rest = rest' ++ [e] ∧ before = earlier ++ gap :: rest' := by
  rcases List.eq_nil_or_concat rest with rfl | ⟨rest', e', rfl⟩
  · obtain ⟨hbefore, he⟩ := List.append_inj' h rfl
    cases he
    rw [hbefore] at hstart
    exact absurd hearlier hstart
  · rw [List.concat_eq_append, ← List.cons_append, ← List.append_assoc] at h
    obtain ⟨hbefore, he⟩ := List.append_inj' h rfl
    cases he
    exact ⟨rest', List.concat_eq_append, hbefore⟩

namespace Signal

variable {d : Input} {edges : List Edge} {e : Edge}

/-- An edge is one of a start gap, or short. -/
theorem short (h : Signal d edges) (hstart : ¬StartGap edges e) :
    e.overflow = false → e.count - d.lastEdge < ppmMinStart := by
  intro hseen
  rw [h.edge]
  exact UInt16.not_le.1 fun hlate => hstart ⟨hseen, hlate⟩

theorem gap (h : Signal d edges) (hstart : StartGap edges e) :
    d.ppmInputDecode e = { d with lastEdge := e.count }.startGap e.now :=
  Input.ppmInputDecode_late hstart.1 (by rw [h.edge]; exact hstart.2)

/-- A start gap. -/
theorem startGap (h : Signal d edges) (hstart : StartGap edges e) :
    Signal (d.ppmInputDecode e).1 (edges ++ [e]) := by
  have hfields := Input.startGap_fields e.now { d with lastEdge := e.count }
  rw [← h.gap hstart] at hfields
  obtain ⟨hphase, hchannels, hedge⟩ := hfields
  refine ⟨?_, fun _ => ?_, fun earlier gap rest hedges hearlier hwhole => ?_,
    fun hunsynch => ?_, ?_⟩
  · rw [hedge, lastCount_snoc, hstart.1]
    rfl
  · exact ⟨edges, [], e, [], rfl, hstart, undisturbed_nil e, rfl⟩
  · obtain ⟨rfl, rfl, rfl⟩ := rest_eq_nil hstart hedges hearlier hwhole
    refine ⟨fun last hlast => ?_, hphase, fun mark hmark => ?_, hchannels, ?_⟩
    · cases hlast
      exact hedge
    · cases hmark
    · show List.take (Input.machine _).nextChannel _ = _
      rw [show (Input.machine (d.ppmInputDecode gap).1).nextChannel = 0 from hchannels]
      rfl
  · rw [hphase] at hunsynch
    cases hunsynch
  · rw [hchannels]
    exact Nat.zero_le _

/-- Any other edge. -/
theorem next (h : Signal d edges) (hstart : ¬StartGap edges e) :
    Signal (d.ppmInputDecode e).1 (edges ++ [e]) := by
  have hshort := h.short hstart
  obtain ⟨hquiet, -, hedge⟩ := Input.quiet_next hshort
  refine ⟨?_, fun hsynch => ?_, fun earlier gap rest hedges hearlier hwhole => ?_,
    fun hunsynch => ?_, hquiet.room h.room⟩
  · rw [hedge, lastCount_snoc, h.edge]
  · obtain ⟨earlier, -, gap, rest, hedges, hearlier, hwhole, -⟩ :=
      h.synch fun hunsynch => hsynch (hquiet.stays hunsynch)
    have hfollows := h.follows earlier gap rest hedges hearlier hwhole
    rcases Input.follows_next hfollows hwhole hshort with ⟨hnext, -⟩ | ⟨-, hunsynch⟩
    · exact ⟨earlier, _, gap, rest ++ [e], by rw [hedges]; simp, hearlier, hnext, rfl⟩
    · exact absurd hunsynch hsynch
  · obtain ⟨rest', rfl, hbefore⟩ := rest_eq_snoc hstart hedges hearlier
    obtain ⟨last, hlast⟩ : ∃ last, last ∈ (gap :: rest').getLast? :=
      ⟨_, List.getLast?_eq_some_getLast (List.cons_ne_nil _ _)⟩
    have hwhole' := ((undisturbed_snoc hlast).1 hwhole).1
    have hfollows := h.follows earlier gap rest' hbefore hearlier hwhole'
    rcases Input.follows_next hfollows hwhole' hshort with ⟨-, hnext⟩ | ⟨hnot, -⟩
    · exact hnext
    · exact absurd hwhole hnot
  · rcases hquiet.unsynch hunsynch with ⟨hbefore, hdecoded⟩ | hzero
    · rw [hdecoded]
      exact h.unlocked hbefore
    · exact hzero

theorem edge_step (h : Signal d edges) (e : Edge) :
    Signal (d.ppmInputDecode e).1 (edges ++ [e]) := by
  by_cases hstart : StartGap edges e
  · exact h.startGap hstart
  · exact h.next hstart

/-- A request for the status. -/
theorem status_step (h : Signal d edges) (now : UInt64) :
    Signal (d.ppmInputStatus now).2 edges := by
  simp only [Input.ppmInputStatus]
  split_ifs
  · exact h
  · exact ⟨h.edge, h.synch, h.follows, fun _ => rfl, h.room⟩

end Signal

/-! ### What is sent -/

namespace Input

/-- The driver at the end of a start gap. -/
def armed (d : Input) : Input := { d with nextChannel := 0, phase := .arm }

theorem startGap_of_ne {d : Input} (h : d.nextChannel ≠ d.ppmDecodedChannels) (now : UInt64) :
    d.startGap now = (d.settle.armed, none) := by
  rw [startGap, if_pos h]
  rfl

theorem startGap_of_many {d : Input} (h : d.nextChannel = d.ppmDecodedChannels)
    (hmany : ppmMinChannels < d.nextChannel) (now : UInt64) :
    d.startGap now = ((d.takeFrame now).armed, some (d.takeFrame now).message) := by
  rw [startGap, if_neg (not_not_intro h), if_pos hmany]
  rfl

theorem startGap_of_few {d : Input} (h : d.nextChannel = d.ppmDecodedChannels)
    (hfew : ¬ppmMinChannels < d.nextChannel) (now : UInt64) :
    d.startGap now = (d.armed, none) := by
  rw [startGap, if_neg (not_not_intro h), if_neg hfew]
  rfl

/-- The message has the samples of the temporary buffer. -/
theorem message_takeFrame {d : Input} (h : d.nextChannel = d.ppmDecodedChannels) (now : UInt64) :
    (d.takeFrame now).message = d.ppmTempBuffer.toList.take d.nextChannel := by
  have htaken := exportSamples_take now { d.machine with ppmBuffer := d.ppmBuffer }
  rw [message, show (d.takeFrame now).ppmDecodedChannels = d.nextChannel from h.symm]
  exact htaken

end Input

/-- What a start gap sends is the last frame. -/
theorem sent_frame {d : Input} {edges : List Edge} {e : Edge} {samples : List UInt16}
    (h : Signal d edges) (hsent : (d.ppmInputDecode e).2 = some samples) :
    StartGap edges e ∧ (d.ppmInputDecode e).1.ppmDecodedChannels = d.nextChannel ∧
      samples = (d.ppmInputDecode e).1.ppmBuffer.toList.take d.nextChannel ∧
      ppmMinChannels < d.nextChannel ∧ d.nextChannel ≤ ppmMaxChannels ∧
      samples.length = d.nextChannel ∧
      (∀ sample ∈ samples, ppmMinChannelValue ≤ sample ∧ sample ≤ ppmMaxChannelValue) ∧
      ∃ earlier frame, LastFrame edges earlier frame ∧ samples = frame.take ppmMaxChannels := by
  by_cases hstart : StartGap edges e
  swap
  · rw [(Input.quiet_next (h.short hstart)).2.1] at hsent
    cases hsent
  rw [h.gap hstart] at hsent ⊢
  set d₁ : Input := { d with lastEdge := e.count }
  by_cases heq : d₁.nextChannel = d₁.ppmDecodedChannels
  swap
  · rw [Input.startGap_of_ne heq] at hsent
    cases hsent
  by_cases hmany : ppmMinChannels < d₁.nextChannel
  swap
  · rw [Input.startGap_of_few heq hmany] at hsent
    cases hsent
  rw [Input.startGap_of_many heq hmany] at hsent ⊢
  have hsamples : samples = d.ppmTempBuffer.toList.take d.nextChannel :=
    (Option.some.inj hsent).symm.trans (Input.message_takeFrame heq e.now)
  -- Without synchronisation no number of channels is locked.
  have hsynch : d.phase ≠ .unsynch := by
    intro hunsynch
    have hzero : d.nextChannel = 0 := heq.trans (h.unlocked hunsynch)
    exact absurd hmany (by rw [show d₁.nextChannel = 0 from hzero]; decide)
  obtain ⟨earlier, frame, hframe⟩ := h.synch hsynch
  obtain ⟨gap, rest, hedges, hearlier, hwhole, rfl⟩ := hframe
  have hfollows := h.follows earlier gap rest hedges hearlier hwhole
  have htake : samples = (intervals (marks rest)).take ppmMaxChannels :=
    hsamples.trans hfollows.samples
  refine ⟨hstart, heq.symm, ?_, hmany, h.room, ?_, ?_, earlier, _,
    ⟨gap, rest, hedges, hearlier, hwhole, rfl⟩, htake⟩
  · have hmessage : (d₁.takeFrame e.now).message = samples := Option.some.inj hsent
    rw [← hmessage, Input.message, show (d₁.takeFrame e.now).ppmDecodedChannels = d.nextChannel
      from heq.symm]
    rfl
  · rw [hsamples, List.length_take, Vector.length_toList]
    exact Nat.min_eq_left h.room
  · intro sample hsample
    rw [htake] at hsample
    exact hwhole.uninterrupted.valid sample (List.mem_of_mem_take hsample)

end Px4Firmware.Px4io.PpmInput
