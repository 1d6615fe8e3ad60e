import Px4Firmware.Px4io.PpmInput

/-!
# Px4Firmware.Px4io.ChannelLock

**The lock of the number of channels** (`ppm_input_decode`). A number that is new is a candidate,
and is accepted when a few more frames have had it.

An error leaves the channels of the frame in place, where the next start gap finds them; and a frame
with the number that is locked leaves the candidate in place. `channel_lock` says when the number
that is locked is that of more than three frames one after the other all the same.
-/

namespace Px4Firmware.Px4io.PpmInput

open Px4Firmware.Lib Px4Firmware.Hrt.Ppm

/-! ### The law -/

/-- The last frames of the signal, as many as this, are directly consecutive and undisturbed, and
have exactly `n` channels each. -/
def Consecutive (n : Nat) : Nat → List Edge → Prop
  | 0, _ => True
  | count + 1, before =>
      ∃ earlier samples, LastFrame before earlier samples ∧ samples.length = n ∧
        Consecutive n count earlier

/-- What is seen of a run: the edges, and whether the last start gap found another number of
channels than the one that was locked. -/
structure Seen where
  edges : List Edge
  counted : Bool

instance (before : List Edge) (e : Edge) : Decidable (StartGap before e) :=
  inferInstanceAs (Decidable (_ ∧ _))

/-- What is seen after a step. -/
def Seen.watch (seen : Seen) (d : Input) (event : Event) (_ : Input) : Seen :=
  match event with
  | .edge e =>
      { edges := seen.edges ++ [e]
        counted :=
          if StartGap seen.edges e then decide (d.nextChannel ≠ d.ppmDecodedChannels)
          else seen.counted }
  | .status _ => seen

/-- The driver, with what is seen of it. -/
def watched : LTS (Input × Seen) Event := ppmInput.observe ⟨[], false⟩ Seen.watch

/-- The law. -/
structure Locks (p : Input × Seen) (event : Event) (q : Input × Seen) : Prop where
  /-- The number of channels changes at the end of more than three frames that have it. -/
  lock : q.1.ppmDecodedChannels ≠ p.1.ppmDecodedChannels → 0 < q.1.ppmDecodedChannels →
    ∃ e, event = .edge e ∧ StartGap p.2.edges e ∧
      ∃ count > ppmChannelLock, Consecutive q.1.ppmDecodedChannels count p.2.edges
  /-- What is sent has been taken over from one frame, and is as it should be. -/
  sent : ∀ e samples, event = .edge e → (p.1.ppmInputDecode e).2 = some samples →
    samples = q.1.ppmBuffer.toList.take q.1.ppmDecodedChannels ∧
    StartGap p.2.edges e ∧
    (∃ earlier frame, LastFrame p.2.edges earlier frame ∧ samples = frame.take ppmMaxChannels) ∧
    samples.length = q.1.ppmDecodedChannels ∧ ppmMinChannels < q.1.ppmDecodedChannels ∧
    q.1.ppmDecodedChannels ≤ ppmMaxChannels ∧
    ∀ sample ∈ samples, ppmMinChannelValue ≤ sample ∧ sample ≤ ppmMaxChannelValue
  /-- Nothing is taken over that is not sent. -/
  kept : (∀ e, event = .edge e → (p.1.ppmInputDecode e).2 = none) → q.1.ppmBuffer = p.1.ppmBuffer

/-- The condition, for a start gap that finds the number of channels of the candidate once more: the
frame it ends is undisturbed and has no more channels than there is room for, and the start gap
before has been counted too. -/
def Careful (p : Input × Seen) (event : Event) : Prop :=
  ∀ e, event = .edge e → StartGap p.2.edges e → p.1.newChannelCount ≠ 0 →
    p.1.nextChannel = p.1.newChannelCount → p.1.nextChannel ≠ p.1.ppmDecodedChannels →
      p.2.counted = true ∧
        ∃ earlier samples, LastFrame p.2.edges earlier samples ∧ samples.length ≤ ppmMaxChannels

/-! ### The lock -/

/-- The invariant: while a number of channels is counted, the frames before the last start gap have
it, as many as have been counted. -/
structure Inv (p : Input × Seen) : Prop where
  signal : Signal p.1 p.2.edges
  holdoff : p.1.newChannelHoldoff ≤ ppmChannelLock
  pending : p.1.newChannelCount ≠ 0 → p.2.counted = true →
    ∀ earlier samples, LastFrame p.2.edges earlier samples →
      Consecutive p.1.newChannelCount (ppmChannelLock - p.1.newChannelHoldoff) earlier

theorem inv_reset : Inv (Input.reset, ⟨[], false⟩) :=
  ⟨signal_reset, Nat.zero_le _, fun h => absurd rfl h⟩

theorem LastFrame.of_gap {edges earlier : List Edge} {samples : List UInt16} {e : Edge}
    (h : LastFrame (edges ++ [e]) earlier samples) (hstart : StartGap edges e) :
    earlier = edges := by
  obtain ⟨gap, rest, hedges, hearlier, hwhole, -⟩ := h
  exact (rest_eq_nil hstart hedges hearlier hwhole).2.2

theorem LastFrame.of_next {edges earlier : List Edge} {samples : List UInt16} {e : Edge}
    (h : LastFrame (edges ++ [e]) earlier samples) (hstart : ¬StartGap edges e) :
    ∃ samples', LastFrame edges earlier samples' := by
  obtain ⟨gap, rest, hedges, hearlier, hwhole, -⟩ := h
  obtain ⟨rest', rfl, hbefore⟩ := rest_eq_snoc hstart hedges hearlier
  obtain ⟨last, hlast⟩ : ∃ last, last ∈ (gap :: rest').getLast? :=
    ⟨_, List.getLast?_eq_some_getLast (List.cons_ne_nil _ _)⟩
  exact ⟨_, gap, rest', hbefore, hearlier, ((undisturbed_snoc hlast).1 hwhole).1, rfl⟩

/-- The driver has counted the channels of a frame that fits. -/
theorem Signal.length_eq {d : Input} {edges earlier : List Edge} {samples : List UInt16}
    (h : Signal d edges) (hframe : LastFrame edges earlier samples)
    (hfits : samples.length ≤ ppmMaxChannels) : samples.length = d.nextChannel := by
  obtain ⟨gap, rest, hedges, hearlier, hwhole, rfl⟩ := hframe
  have hchannels : d.nextChannel = min (intervals (marks rest)).length ppmMaxChannels :=
    (h.follows earlier gap rest hedges hearlier hwhole).channels
  rw [hchannels, Nat.min_eq_left hfits]

/-- A frame that has the number of the candidate once more is one more of the frames. -/
theorem Inv.consecutive {p : Input × Seen} {e : Edge} (h : Inv p) (hcareful : Careful p (.edge e))
    (hstart : StartGap p.2.edges e) (hcount : p.1.newChannelCount ≠ 0)
    (hsame : p.1.nextChannel = p.1.newChannelCount)
    (hne : p.1.nextChannel ≠ p.1.ppmDecodedChannels) :
    Consecutive p.1.newChannelCount (ppmChannelLock - p.1.newChannelHoldoff + 1) p.2.edges := by
  obtain ⟨hcounted, earlier, samples, hframe, hfits⟩ :=
    hcareful e rfl hstart hcount hsame hne
  exact ⟨earlier, samples, hframe, (h.signal.length_eq hframe hfits).trans hsame,
    h.pending hcount hcounted earlier samples hframe⟩

theorem locks_sent {p : Input × Seen} {e : Edge} (h : Signal p.1 p.2.edges) :
    ∀ e' samples, Event.edge e = .edge e' → (p.1.ppmInputDecode e').2 = some samples →
      samples = (p.1.ppmInputDecode e).1.ppmBuffer.toList.take
        (p.1.ppmInputDecode e).1.ppmDecodedChannels ∧
      StartGap p.2.edges e' ∧
      (∃ earlier frame, LastFrame p.2.edges earlier frame ∧ samples = frame.take ppmMaxChannels) ∧
      samples.length = (p.1.ppmInputDecode e).1.ppmDecodedChannels ∧
      ppmMinChannels < (p.1.ppmInputDecode e).1.ppmDecodedChannels ∧
      (p.1.ppmInputDecode e).1.ppmDecodedChannels ≤ ppmMaxChannels ∧
      ∀ sample ∈ samples, ppmMinChannelValue ≤ sample ∧ sample ≤ ppmMaxChannelValue := by
  intro e' samples he hsent
  cases he
  obtain ⟨hstart, hdecoded, htaken, hmany, hroom, hlength, hvalid, hframe⟩ := sent_frame h hsent
  rw [hdecoded]
  exact ⟨htaken, hstart, hframe, hlength, hmany, hroom, hvalid⟩

/-- A request for the status. -/
theorem Inv.status_step {p q : Input × Seen} {now : UInt64} (h : Inv p)
    (hstep : watched.step p (.status now) q) : Inv q ∧ Locks p (.status now) q := by
  obtain ⟨d, seen⟩ := q
  obtain ⟨rfl, rfl⟩ : d = (p.1.ppmInputStatus now).2 ∧ seen = p.2 := hstep
  have hsignal := h.signal.status_step now
  have hnone : ∀ e samples, Event.status now = .edge e →
      (p.1.ppmInputDecode e).2 = some samples → False := fun e samples he => by cases he
  rw [Input.ppmInputStatus] at hsignal ⊢
  split_ifs at hsignal ⊢
  · exact ⟨h, fun hne => absurd rfl hne, fun e samples he hsent => (hnone e samples he hsent).elim,
      fun _ => rfl⟩
  · exact ⟨⟨hsignal, h.holdoff, h.pending⟩, fun _ hpos => absurd hpos (Nat.lt_irrefl 0),
      fun e samples he hsent => (hnone e samples he hsent).elim, fun _ => rfl⟩

/-- An edge that is not that of a start gap. -/
theorem Inv.next_step {p q : Input × Seen} {e : Edge} (h : Inv p)
    (hstart : ¬StartGap p.2.edges e) (hstep : watched.step p (.edge e) q) :
    Inv q ∧ Locks p (.edge e) q := by
  obtain ⟨d, seen⟩ := q
  obtain ⟨rfl, hseen⟩ : d = (p.1.ppmInputDecode e).1 ∧ seen = p.2.watch p.1 (.edge e) d := hstep
  have hwatch : seen = ⟨p.2.edges ++ [e], p.2.counted⟩ := by
    rw [hseen]
    simp only [Seen.watch, if_neg hstart]
  obtain ⟨hquiet, -, -⟩ := Input.quiet_next (h.signal.short hstart)
  refine ⟨⟨?_, ?_, ?_⟩, fun hne hpos => ?_, locks_sent h.signal, fun _ => hquiet.buffer⟩
  · rw [hwatch]
    exact h.signal.edge_step e
  · rw [hquiet.holdoff]
    exact h.holdoff
  · rw [hwatch, hquiet.count, hquiet.holdoff]
    intro hcount hcounted earlier samples hframe
    obtain ⟨samples', hbefore⟩ := hframe.of_next hstart
    exact h.pending hcount hcounted earlier samples' hbefore
  · rcases hquiet.decoded with hsame | hzero
    · exact absurd hsame hne
    · exact absurd hzero (Nat.ne_of_gt hpos)

/-- What a start gap makes of the lock. -/
structure Settled (p : Input × Seen) (e : Edge) (d : Input) : Prop where
  holdoff : d.newChannelHoldoff ≤ ppmChannelLock
  pending : d.newChannelCount ≠ 0 → p.1.nextChannel ≠ p.1.ppmDecodedChannels →
    Consecutive d.newChannelCount (ppmChannelLock - d.newChannelHoldoff) p.2.edges
  lock : d.ppmDecodedChannels ≠ p.1.ppmDecodedChannels → 0 < d.ppmDecodedChannels →
    ∃ count > ppmChannelLock, Consecutive d.ppmDecodedChannels count p.2.edges
  kept : (p.1.ppmInputDecode e).2 = none → d.ppmBuffer = p.1.ppmBuffer

/-- A frame with another number of channels. -/
theorem Inv.settled_of_ne {p : Input × Seen} {e : Edge} (h : Inv p)
    (hcareful : Careful p (.edge e)) (hstart : StartGap p.2.edges e)
    (hne : p.1.nextChannel ≠ p.1.ppmDecodedChannels) :
    Settled p e ({ p.1 with lastEdge := e.count } : Input).settle.armed := by
  have hholdoff := h.holdoff
  simp only [Input.settle]
  split_ifs with hnew hcounting
  · -- A new candidate.
    refine ⟨Nat.le_refl _, fun _ _ => ?_, fun hdecoded => absurd rfl hdecoded, fun _ => rfl⟩
    show Consecutive _ (ppmChannelLock - ppmChannelLock) _
    rw [Nat.sub_self]
    trivial
  · -- The candidate once more.
    have hsame : p.1.nextChannel = p.1.newChannelCount := (not_not.1 hnew).symm
    refine ⟨Nat.le_trans (Nat.sub_le _ _) hholdoff, fun hcount _ => ?_,
      fun hdecoded => absurd rfl hdecoded, fun _ => rfl⟩
    have hconsecutive := h.consecutive hcareful hstart hcount hsame hne
    have hmore : ppmChannelLock - (p.1.newChannelHoldoff - 1) =
        ppmChannelLock - p.1.newChannelHoldoff + 1 := by
      have hpos : 0 < p.1.newChannelHoldoff := hcounting
      omega
    show Consecutive p.1.newChannelCount (ppmChannelLock - (p.1.newChannelHoldoff - 1)) p.2.edges
    rw [hmore]
    exact hconsecutive
  · -- The candidate is accepted.
    have hsame : p.1.nextChannel = p.1.newChannelCount := (not_not.1 hnew).symm
    refine ⟨hholdoff, fun hcount => absurd rfl hcount, fun _ hpos => ?_, fun _ => rfl⟩
    have hconsecutive := h.consecutive hcareful hstart (Nat.ne_of_gt hpos) hsame hne
    have hzero : p.1.newChannelHoldoff = 0 := Nat.eq_zero_of_not_pos hcounting
    rw [hzero] at hconsecutive
    exact ⟨ppmChannelLock + 1, Nat.lt_succ_self _, hconsecutive⟩

theorem Inv.settled {p : Input × Seen} {e : Edge} (h : Inv p) (hcareful : Careful p (.edge e))
    (hstart : StartGap p.2.edges e) : Settled p e (p.1.ppmInputDecode e).1 := by
  have hgap := h.signal.gap hstart
  set d₁ : Input := { p.1 with lastEdge := e.count }
  by_cases heq : d₁.nextChannel = d₁.ppmDecodedChannels
  · by_cases hmany : ppmMinChannels < d₁.nextChannel
    · rw [Input.startGap_of_many heq hmany] at hgap
      rw [hgap]
      refine ⟨h.holdoff, fun _ hne => absurd heq hne, fun hdecoded => absurd rfl hdecoded,
        fun hnone => ?_⟩
      rw [hgap] at hnone
      cases hnone
    · rw [Input.startGap_of_few heq hmany] at hgap
      rw [hgap]
      exact ⟨h.holdoff, fun _ hne => absurd heq hne, fun hdecoded => absurd rfl hdecoded,
        fun _ => rfl⟩
  · rw [Input.startGap_of_ne heq] at hgap
    rw [hgap]
    exact h.settled_of_ne hcareful hstart heq

/-- The edge of a start gap. -/
theorem Inv.gap_step {p q : Input × Seen} {e : Edge} (h : Inv p) (hcareful : Careful p (.edge e))
    (hstart : StartGap p.2.edges e) (hstep : watched.step p (.edge e) q) :
    Inv q ∧ Locks p (.edge e) q := by
  obtain ⟨d, seen⟩ := q
  obtain ⟨rfl, hseen⟩ : d = (p.1.ppmInputDecode e).1 ∧ seen = p.2.watch p.1 (.edge e) d := hstep
  have hwatch : seen =
      ⟨p.2.edges ++ [e], decide (p.1.nextChannel ≠ p.1.ppmDecodedChannels)⟩ := by
    rw [hseen]
    simp only [Seen.watch, if_pos hstart]
  have hsettled := h.settled hcareful hstart
  refine ⟨⟨?_, hsettled.holdoff, ?_⟩, fun hne hpos => ?_, locks_sent h.signal,
    fun hnone => hsettled.kept (hnone e rfl)⟩
  · rw [hwatch]
    exact h.signal.edge_step e
  · rw [hwatch]
    intro hcount hcounted earlier samples hframe
    rw [hframe.of_gap hstart]
    exact hsettled.pending hcount (of_decide_eq_true hcounted)
  · exact ⟨e, rfl, hstart, hsettled.lock hne hpos⟩

/-- **A step**: a careful one keeps the invariant and obeys the law. -/
theorem Inv.step {p q : Input × Seen} {event : Event} (h : Inv p) (hcareful : Careful p event)
    (hstep : watched.step p event q) : Inv q ∧ Locks p event q := by
  cases event with
  | status now => exact h.status_step hstep
  | edge e =>
      by_cases hstart : StartGap p.2.edges e
      · exact h.gap_step hcareful hstart hstep
      · exact h.next_step hstart hstep

/-- **The lock of the number of channels.** From reset, in a run in which every start gap that finds
the number of the candidate once more ends an undisturbed frame that fits, directly behind one that
has been counted, the number of channels only changes at the end of more than three such frames; and
samples are only sent from an undisturbed frame with the number of channels. -/
theorem channel_lock {events : List Event} {q : Input × Seen}
    (hrun : (watched.restrict Careful).Run (Input.reset, ⟨[], false⟩) events q) :
    (watched.obeying Locks).Run (Input.reset, ⟨[], false⟩) events q := by
  have hinv : ∀ p, (watched.restrict Careful).Reachable p → Inv p := fun p hreach =>
    hreach.invariant (by rintro ⟨d, seen⟩ ⟨rfl, rfl⟩; exact inv_reset)
      (fun s event t hs hstep => (hs.step hstep.1 hstep.2).1)
  refine LTS.Run.obeying_of_restrict (fun p event q hreach hstep hcareful => ?_)
    (LTS.Reachable.of_init ⟨rfl, rfl⟩) hrun
  exact ((hinv p hreach).step hcareful hstep).2

/-! ### Runs -/

/-- The driver and what is seen of it, after an event. -/
def next (p : Input × Seen) (event : Event) : Input × Seen :=
  let d := match event with
    | .edge e => (p.1.ppmInputDecode e).1
    | .status now => (p.1.ppmInputStatus now).2
  (d, p.2.watch p.1 event d)

theorem step_next (p : Input × Seen) (event : Event) : watched.step p event (next p event) := by
  cases event <;> exact ⟨rfl, rfl⟩

theorem eq_next {p q : Input × Seen} {event : Event} (h : watched.step p event q) :
    q = next p event := by
  obtain ⟨d, seen⟩ := q
  obtain ⟨hinput, hseen⟩ := h
  cases event with
  | edge e => exact Prod.ext hinput hseen
  | status now => exact Prod.ext hinput hseen

theorem run_foldl (p : Input × Seen) (events : List Event) :
    watched.Run p events (events.foldl next p) := by
  induction events generalizing p with
  | nil => exact .nil p
  | cons event events ih => exact .cons (step_next p event) (ih _)

theorem eq_foldl {p q : Input × Seen} {events : List Event} (h : watched.Run p events q) :
    q = events.foldl next p := by
  induction h with
  | nil => rfl
  | cons hstep _ ih => rw [List.foldl_cons, ← eq_next hstep]; exact ih

/-- `Undisturbed`, to be evaluated. -/
def isUndisturbed (gap : Edge) (edges : List Edge) : Bool :=
  edges.all (fun e => !e.overflow) &&
    decide ((gap :: edges).IsChain fun e e' => e'.count - e.count < ppmMinStart) &&
    edges.head?.all (fun e => decide (e.count - gap.count ≤ ppmMaxPulseWidth)) &&
    (intervals (marks edges)).all (fun interval =>
      decide (ppmMinChannelValue ≤ interval ∧ interval ≤ ppmMaxChannelValue)) &&
    (pulseWidths (gap :: edges)).all fun width => decide (width ≤ ppmMaxPulseWidth)

theorem undisturbed_of_isUndisturbed {gap : Edge} {edges : List Edge}
    (h : isUndisturbed gap edges = true) : Undisturbed gap edges := by
  simp only [isUndisturbed, Bool.and_eq_true, List.all_eq_true, Option.all_eq_true,
    Bool.not_eq_true', decide_eq_true_eq] at h
  obtain ⟨⟨⟨⟨hseen, hshort⟩, hfirst⟩, hvalid⟩, hpulses⟩ := h
  constructor
  · constructor
    · exact hseen
    · exact hshort
    · exact hfirst
    · exact hvalid
  · exact hpulses

/-- The last edges of the signal, as many as `fiveChannels` has, are a frame that fits. -/
def endsInFrame (before : List Edge) : Bool :=
  let start := before.length - fiveChannels.durations.length
  match before.drop start with
  | [] => false
  | gap :: edges =>
      decide (StartGap (before.take start) gap) && isUndisturbed gap edges &&
        decide ((intervals (marks edges)).length ≤ ppmMaxChannels)

theorem exists_lastFrame {before : List Edge} (h : endsInFrame before = true) :
    ∃ earlier samples, LastFrame before earlier samples ∧ samples.length ≤ ppmMaxChannels := by
  have happend := List.take_append_drop (before.length - fiveChannels.durations.length) before
  unfold endsInFrame at h
  cases hdrop : before.drop (before.length - fiveChannels.durations.length) with
  | nil =>
      simp only [hdrop] at h
      cases h
  | cons gap edges =>
      simp only [hdrop, Bool.and_eq_true, decide_eq_true_eq] at h
      rw [hdrop] at happend
      obtain ⟨⟨hstart, hwhole⟩, hfits⟩ := h
      exact ⟨_, _,
        ⟨gap, edges, happend.symm, hstart, undisturbed_of_isUndisturbed hwhole, rfl⟩, hfits⟩

/-- The condition, for such frames. -/
def carefulFrame (p : Input × Seen) : Event → Bool
  | .edge e =>
      !decide (StartGap p.2.edges e) || p.1.newChannelCount == 0 ||
        p.1.nextChannel != p.1.newChannelCount || p.2.counted && endsInFrame p.2.edges
  | .status _ => true

theorem careful_of_carefulFrame {p : Input × Seen} {event : Event}
    (h : carefulFrame p event = true) : Careful p event := by
  rintro e rfl hstart hcount hsame -
  have hframe : p.2.counted = true ∧ endsInFrame p.2.edges = true := by
    simpa [carefulFrame, hstart, hcount, hsame] using h
  exact ⟨hframe.1, exists_lastFrame hframe.2⟩

/-- An event, if it is careful. -/
def nextFrame (p : Input × Seen) (event : Event) : Option (Input × Seen) :=
  if carefulFrame p event then some (next p event) else none

/-- A run of careful events, by evaluating it. -/
theorem exists_careful_run {p : Input × Seen} {events : List Event} {P : Input × Seen → Bool}
    (h : (events.foldlM nextFrame p).any P = true) :
    ∃ q, P q = true ∧ (watched.restrict Careful).Run p events q := by
  obtain ⟨q, hq, hend⟩ := (Option.any_eq_true _ _).1 h
  refine ⟨q, hend, LTS.Run.of_foldlM (fun p event t hnext => ?_) hq⟩
  simp only [nextFrame, Option.ite_none_right_eq_some, Option.some.injEq] at hnext
  obtain ⟨hcareful, rfl⟩ := hnext
  exact ⟨careful_of_carefulFrame hcareful, step_next p event⟩

/-- Five frames with five channels, one after the other, and a start gap. -/
def fiveFrames : List Event :=
  (capture 0 0 ((List.replicate 5 fiveChannels).flatMap Frame.durations ++ [12000])).map Event.edge

theorem fiveFrames_careful : (fiveFrames.foldlM nextFrame (Input.reset, ⟨[], false⟩)).any
    (fun q => q.1.ppmDecodedChannels == 5) = true := by decide +kernel

/-- At the end of the fifth frame with five channels, that number is locked. -/
theorem channel_lock_five :
    ∃ q, q.1.ppmDecodedChannels = 5 ∧
      (watched.obeying Locks).Run (Input.reset, ⟨[], false⟩) fiveFrames q := by
  obtain ⟨q, hfive, hrun⟩ := exists_careful_run fiveFrames_careful
  exact ⟨q, eq_of_beq hfive, channel_lock hrun⟩

/-- The last edge of a frame is not missed. -/
theorem LastFrame.seen {before earlier : List Edge} {samples : List UInt16} {last : Edge}
    (h : LastFrame before earlier samples) (hlast : last ∈ before.getLast?) :
    last.overflow = false := by
  obtain ⟨gap, rest, rfl, hearlier, hwhole, -⟩ := h
  rw [List.getLast?_append_of_ne_nil _ (List.cons_ne_nil _ _)] at hlast
  rcases List.mem_cons.1 (List.mem_of_getLast? hlast) with rfl | hmem
  · exact hearlier.1
  · exact hwhole.uninterrupted.seen last hmem

/-- A frame with five channels, and an edge that is missed. -/
def disturbedFrame (count : UInt16) : List Event :=
  (capture 0 count fiveChannels.durations ++ [⟨true, 0, 0⟩] : List Edge).map Event.edge

/-- Five such frames. -/
def disturbedFrames : List Event :=
  disturbedFrame 0 ++ disturbedFrame 19800 ++ disturbedFrame 39600 ++ disturbedFrame 59400 ++
    disturbedFrame 13664

/-- Five frames in each of which an edge is missed lock the number of their channels. -/
theorem disturbed_frames_lock :
    let events := disturbedFrames ++ [Event.edge ⟨false, 45464, 0⟩]
    ∃ q, watched.Run (Input.reset, ⟨[], false⟩) events q ∧ q.1.ppmDecodedChannels = 5 ∧
      ¬(watched.obeying Locks).Run (Input.reset, ⟨[], false⟩) events q := by
  have hfive : ((disturbedFrames ++ [Event.edge ⟨false, 45464, 0⟩]).foldl next
      (Input.reset, ⟨[], false⟩)).1.ppmDecodedChannels = 5 := by decide +kernel
  have hruns := run_foldl (Input.reset, ⟨[], false⟩)
    (disturbedFrames ++ [Event.edge ⟨false, 45464, 0⟩])
  generalize (disturbedFrames ++ [Event.edge ⟨false, 45464, 0⟩]).foldl next
    (Input.reset, ⟨[], false⟩) = q at hfive hruns
  refine ⟨q, hruns, hfive, fun hrun => ?_⟩
  obtain ⟨p, hbefore, -, hlocks⟩ := LTS.Run.exists_of_snoc hrun
  have hp := eq_foldl hbefore.of_obeying
  have hzero : p.1.ppmDecodedChannels = 0 := by
    rw [hp]
    decide +kernel
  have hmissed : p.2.edges.getLast?.map Edge.overflow = some true := by
    rw [hp]
    decide +kernel
  obtain ⟨last, hlast, hoverflow⟩ := Option.map_eq_some_iff.1 hmissed
  obtain ⟨-, -, -, count, hcount, hframes⟩ :=
    hlocks.lock (by rw [hzero, hfive]; decide) (by rw [hfive]; decide)
  -- The last of the frames ends with an edge that is missed.
  obtain ⟨more, rfl⟩ : ∃ more, count = more + 1 := ⟨count - 1, by omega⟩
  obtain ⟨earlier, samples, hframe, -⟩ := hframes
  rw [hframe.seen hlast] at hoverflow
  cases hoverflow

end Px4Firmware.Px4io.PpmInput
