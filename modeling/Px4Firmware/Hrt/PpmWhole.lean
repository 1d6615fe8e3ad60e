import Mathlib.Data.List.Chain
import Px4Firmware.Hrt.Ppm

/-!
# Px4Firmware.Hrt.PpmWhole

What the PPM decoder exports when edges are missed and pulses are disturbed.

The signal is described without the decoder: a start gap (`StartGap`), an uninterrupted sequence of
edges behind it (`Uninterrupted`), and the intervals between the marks of the sequence. As long as
the decoder is synchronised it holds exactly the intervals of such a sequence (`Follows`).

**An abandoned frame is exported.** An error leaves the channels of the frame in place, and no start
gap asks for the phase. The samples are those of a whole frame exactly when no start gap finds more
than four of them left over (`exported_whole_iff`).
-/

namespace Px4Firmware.Hrt.Ppm

/-! ### The signal -/

/-- The time that was captured last, which is zero at reset. -/
def lastCount (edges : List Edge) : UInt16 :=
  edges.foldl (fun count e => if e.overflow then count else e.count) 0

/-- An edge that ends a start gap. -/
def StartGap (before : List Edge) (e : Edge) : Prop :=
  e.overflow = false ∧ ppmMinStart ≤ e.count - lastCount before

/-- The marks: every second edge behind a start gap. -/
def marks : List Edge → List UInt16
  | [] => []
  | [e] => [e.count]
  | e :: _ :: edges => e.count :: marks edges

/-- The intervals from mark to mark. -/
def intervals : List UInt16 → List UInt16
  | mark :: mark' :: rest => (mark' - mark) :: intervals (mark' :: rest)
  | _ => []

/-- The edges behind a start gap, when no edge is missed, no gap is long enough for a start, the
first pulse is short enough and each interval is that of a channel. -/
structure Uninterrupted (gap : Edge) (edges : List Edge) : Prop where
  seen : ∀ e ∈ edges, e.overflow = false
  short : (gap :: edges).IsChain fun e e' => e'.count - e.count < ppmMinStart
  first : ∀ e ∈ edges.head?, e.count - gap.count ≤ ppmMaxPulseWidth
  valid : ∀ interval ∈ intervals (marks edges),
    ppmMinChannelValue ≤ interval ∧ interval ≤ ppmMaxChannelValue

/-- Samples that are those of a whole frame: the intervals of an uninterrupted sequence of edges
since a start gap, as far as there is room for them. -/
def Whole (before : List Edge) (samples : List UInt16) : Prop :=
  ∃ earlier gap edges, before = earlier ++ gap :: edges ∧ StartGap earlier gap ∧
    Uninterrupted gap edges ∧ samples = (intervals (marks edges)).take ppmMaxChannels ∧
    (∀ sample ∈ samples, ppmMinChannelValue ≤ sample ∧ sample ≤ ppmMaxChannelValue) ∧
    5 ≤ samples.length ∧ samples.length ≤ ppmMaxChannels

namespace Decoder

/-- The decoder at reset. -/
def reset : Decoder where
  ppmBuffer := .replicate ppmMaxChannels 0
  ppmDecodedChannels := 0
  ppmLastValidDecode := 0
  ppmEdgeHistory := .replicate historyLength 0
  ppmEdgeNext := ⟨0, by decide⟩
  ppmPulseHistory := .replicate historyLength 0
  ppmPulseNext := ⟨0, by decide⟩
  ppmTempBuffer := .replicate ppmMaxChannels 0
  lastEdge := 0
  lastMark := 0
  nextChannel := 0
  phase := .unsynch

/-- An edge at which a set of samples is exported. -/
def Exports (d : Decoder) (e : Edge) : Prop :=
  e.overflow = false ∧ ppmMinStart ≤ e.count - d.lastEdge ∧ 4 < d.nextChannel

/-- The samples that are exported. -/
def exported (d : Decoder) : List UInt16 :=
  d.ppmBuffer.toList.take d.ppmDecodedChannels

end Decoder

/-- Whenever the decoder exports samples, from reset on, they are those of a whole frame. -/
def ExportsWhole (edges : List Edge) : Prop :=
  ∀ before e after, edges = before ++ e :: after →
    (Decoder.reset.decodeAll before).Exports e →
      Whole before ((Decoder.reset.decodeAll before).hrtPpmDecode e).exported

/-- No start gap finds the decoder out of synchronisation with more than four channels left over. -/
def NoResidue (edges : List Edge) : Prop :=
  ∀ before e after, edges = before ++ e :: after → StartGap before e →
    (Decoder.reset.decodeAll before).phase = .unsynch →
      (Decoder.reset.decodeAll before).nextChannel ≤ 4

/-! ### One more edge of the signal -/

theorem lastCount_snoc (edges : List Edge) (e : Edge) :
    lastCount (edges ++ [e]) = if e.overflow then lastCount edges else e.count := by
  simp [lastCount]

theorem marks_snoc (edges : List Edge) (e : Edge) :
    marks (edges ++ [e]) =
      if edges.length % 2 = 0 then marks edges ++ [e.count] else marks edges := by
  induction edges using marks.induct with
  | case1 => rfl
  | case2 e' => rfl
  | case3 e' e'' edges ih =>
      have hlength : (e' :: e'' :: edges).length % 2 = edges.length % 2 := by
        simp only [List.length_cons]
        omega
      rw [hlength]
      simp only [List.cons_append, marks, ih]
      split <;> rfl

theorem intervals_snoc (earlier : List UInt16) (mark mark' : UInt16) :
    intervals (earlier ++ [mark] ++ [mark']) =
      intervals (earlier ++ [mark]) ++ [mark' - mark] := by
  induction earlier with
  | nil => rfl
  | cons m earlier ih =>
      cases earlier with
      | nil => rfl
      | cons m' earlier =>
          simp only [List.cons_append, intervals] at ih ⊢
          rw [ih]

theorem intervals_marks_snoc {edges : List Edge} {e : Edge} {mark : UInt16}
    (heven : edges.length % 2 = 0) (hmark : mark ∈ (marks edges).getLast?) :
    intervals (marks (edges ++ [e])) = intervals (marks edges) ++ [e.count - mark] := by
  obtain ⟨earlier, hmarks⟩ := List.getLast?_eq_some_iff.1 hmark
  rw [marks_snoc, if_pos heven, hmarks, intervals_snoc]

theorem getLast?_marks {edges : List Edge} (h : edges ≠ []) :
    ∃ mark, mark ∈ (marks edges).getLast? := by
  cases edges with
  | nil => exact absurd rfl h
  | cons e edges =>
      have hmarks : marks (e :: edges) ≠ [] := by cases edges <;> simp [marks]
      exact ⟨_, List.getLast?_eq_some_getLast hmarks⟩

/-- A sequence that goes on: one more edge is neither missed nor late, and what it ends has the
right length. -/
theorem uninterrupted_snoc {gap : Edge} {edges : List Edge} {e : Edge} :
    Uninterrupted gap (edges ++ [e]) ↔
      Uninterrupted gap edges ∧ e.overflow = false ∧
        (∀ last ∈ (gap :: edges).getLast?, e.count - last.count < ppmMinStart) ∧
        (edges = [] → e.count - gap.count ≤ ppmMaxPulseWidth) ∧
        ∀ interval ∈ intervals (marks (edges ++ [e])),
          ppmMinChannelValue ≤ interval ∧ interval ≤ ppmMaxChannelValue := by
  have hchain : (gap :: (edges ++ [e])).IsChain
        (fun e e' => e'.count - e.count < ppmMinStart) ↔
      (gap :: edges).IsChain (fun e e' => e'.count - e.count < ppmMinStart) ∧
        ∀ last ∈ (gap :: edges).getLast?, e.count - last.count < ppmMinStart := by
    rw [← List.cons_append, List.isChain_append]
    simp
  have hintervals : ∀ interval ∈ intervals (marks edges),
      interval ∈ intervals (marks (edges ++ [e])) := by
    intro interval hinterval
    by_cases heven : edges.length % 2 = 0
    · by_cases hedges : edges = []
      · subst hedges
        exact absurd hinterval (by simp [marks, intervals])
      · obtain ⟨mark, hmark⟩ := getLast?_marks hedges
        rw [intervals_marks_snoc heven hmark]
        exact List.mem_append_left _ hinterval
    · rw [marks_snoc, if_neg heven]
      exact hinterval
  constructor
  · intro h
    have hseen := h.seen
    simp only [List.mem_append, List.mem_singleton] at hseen
    obtain ⟨hshort, hlast⟩ := hchain.1 h.short
    refine ⟨⟨fun e' he' => hseen e' (.inl he'), hshort, ?_, ?_⟩, hseen e (.inr rfl), hlast, ?_,
      h.valid⟩
    · intro e' he'
      refine h.first e' ?_
      cases edges with
      | nil => simp at he'
      | cons e'' edges => exact he'
    · exact fun interval hinterval => h.valid interval (hintervals interval hinterval)
    · intro hedges
      subst hedges
      exact h.first e rfl
  · intro ⟨h, hseen, hlast, hfirst, hvalid⟩
    refine ⟨?_, hchain.2 ⟨h.short, hlast⟩, ?_, hvalid⟩
    · intro e' he'
      rcases List.mem_append.1 he' with he' | he'
      · exact h.seen e' he'
      · rw [List.mem_singleton.1 he']
        exact hseen
    · cases edges with
      | nil =>
          intro e' he'
          cases he'
          exact hfirst rfl
      | cons e'' edges => exact h.first

/-! ### One more edge for the decoder -/

namespace Decoder

theorem hrtPpmDecode_missed {d : Decoder} {e : Edge} (hmissed : e.overflow = true) :
    d.hrtPpmDecode e = d.error := by
  simp [hrtPpmDecode, hmissed]

theorem hrtPpmDecode_late {d : Decoder} {e : Edge} (hseen : e.overflow = false)
    (hlate : ppmMinStart ≤ e.count - d.lastEdge) :
    d.hrtPpmDecode e = (d.recordEdge e.count (e.count - d.lastEdge)).startGap e.now := by
  unfold hrtPpmDecode
  rw [hseen]
  exact if_pos hlate

theorem hrtPpmDecode_next {d : Decoder} {e : Edge} (hseen : e.overflow = false)
    (hnext : e.count - d.lastEdge < ppmMinStart) :
    d.hrtPpmDecode e =
      (d.recordEdge e.count (e.count - d.lastEdge)).switchPhase e.count
        (e.count - d.lastEdge) := by
  unfold hrtPpmDecode
  rw [hseen]
  exact if_neg (UInt16.not_le.2 hnext)

@[simp]
theorem startGap_phase (now : UInt64) (d : Decoder) : (d.startGap now).phase = .arm := rfl

@[simp]
theorem startGap_nextChannel (now : UInt64) (d : Decoder) : (d.startGap now).nextChannel = 0 := rfl

@[simp]
theorem startGap_lastEdge (now : UInt64) (d : Decoder) :
    (d.startGap now).lastEdge = d.lastEdge := by
  unfold startGap
  split <;> rfl

theorem storeChannel_lastEdge (interval : UInt16) (d : Decoder) :
    (d.storeChannel interval).lastEdge = d.lastEdge := by
  unfold storeChannel
  split <;> rfl

theorem switchPhase_lastEdge (count width : UInt16) (d : Decoder) :
    (d.switchPhase count width).lastEdge = d.lastEdge := by
  unfold switchPhase
  cases d.phase with
  | unsynch => rfl
  | arm =>
      dsimp only
      split <;> rfl
  | inactive => rfl
  | active =>
      dsimp only
      split
      · rfl
      · exact storeChannel_lastEdge _ _

/-- The decoder keeps the time of the last edge that it has seen. -/
theorem hrtPpmDecode_lastEdge (d : Decoder) (e : Edge) :
    (d.hrtPpmDecode e).lastEdge = if e.overflow then d.lastEdge else e.count := by
  cases hseen : e.overflow with
  | true => rw [hrtPpmDecode_missed hseen]; rfl
  | false =>
      by_cases hlate : ppmMinStart ≤ e.count - d.lastEdge
      · rw [hrtPpmDecode_late hseen hlate]
        simp [recordEdge]
      · rw [hrtPpmDecode_next hseen (UInt16.not_le.1 hlate), switchPhase_lastEdge]
        rfl

@[simp]
theorem decodeAll_snoc (d : Decoder) (edges : List Edge) (e : Edge) :
    d.decodeAll (edges ++ [e]) = (d.decodeAll edges).hrtPpmDecode e := by
  simp [decodeAll]

theorem lastEdge_decodeAll (edges : List Edge) :
    (reset.decodeAll edges).lastEdge = lastCount edges := by
  induction edges using List.reverseRecOn with
  | nil => rfl
  | append_singleton edges e ih =>
      rw [decodeAll_snoc, hrtPpmDecode_lastEdge, lastCount_snoc, ih]

end Decoder

/-! ### The decoder follows the signal -/

/-- The phase after so many edges behind a start gap. -/
def phaseAfter : Nat → Phase
  | 0 => .arm
  | n + 1 => if n % 2 = 0 then .inactive else .active

/-- The decoder is synchronised: it holds the intervals of the edges since the start gap. -/
structure Follows (gap : Edge) (edges : List Edge) (d : Decoder) : Prop where
  edge : ∀ last ∈ (gap :: edges).getLast?, d.lastEdge = last.count
  phase : d.phase = phaseAfter edges.length
  mark : ∀ mark ∈ (marks edges).getLast?, d.lastMark = mark
  channels : d.nextChannel = min (intervals (marks edges)).length ppmMaxChannels
  samples : d.ppmTempBuffer.toList.take d.nextChannel =
    (intervals (marks edges)).take ppmMaxChannels

theorem Follows.synchronised {gap : Edge} {edges : List Edge} {d : Decoder}
    (h : Follows gap edges d) : d.phase ≠ .unsynch := by
  rw [h.phase]
  cases edges with
  | nil => simp [phaseAfter]
  | cons e edges =>
      simp only [List.length_cons, phaseAfter]
      split <;> simp

/-- A start gap synchronises the decoder. -/
theorem StartGap.follows {before : List Edge} {e : Edge} (h : StartGap before e) {d : Decoder}
    (hlast : d.lastEdge = lastCount before) : Follows e [] (d.hrtPpmDecode e) := by
  rw [Decoder.hrtPpmDecode_late h.1 (by rw [hlast]; exact h.2)]
  refine ⟨?_, rfl, ?_, rfl, rfl⟩
  · intro last hlast
    cases hlast
    exact Decoder.startGap_lastEdge _ _
  · intro mark hmark
    cases hmark

/-- After an edge: the sequence goes on and the decoder follows it, or the sequence is interrupted
and the decoder has noticed. -/
def Agrees (gap : Edge) (edges : List Edge) (d : Decoder) : Prop :=
  (Uninterrupted gap edges ∧ Follows gap edges d) ∨
    (¬ Uninterrupted gap edges ∧ d.phase = .unsynch)

theorem uninterrupted_nil (gap : Edge) : Uninterrupted gap [] :=
  ⟨by simp, .singleton _, by simp, by simp [marks, intervals]⟩

/-- The end of the first pulse. -/
theorem Follows.next_first {gap : Edge} {d : Decoder} (h : Follows gap [] d) {e : Edge}
    (hseen : e.overflow = false) (hnext : e.count - d.lastEdge < ppmMinStart) :
    Agrees gap [e] (d.hrtPpmDecode e) := by
  have hgap : d.lastEdge = gap.count := h.edge gap rfl
  have hdecode : d.hrtPpmDecode e = if ppmMaxPulseWidth < e.count - gap.count then
      (d.recordEdge e.count (e.count - gap.count)).error
    else { d.recordEdge e.count (e.count - gap.count) with
      lastMark := e.count, phase := .inactive } := by
    rw [Decoder.hrtPpmDecode_next hseen hnext, hgap]
    unfold Decoder.switchPhase
    rw [show (d.recordEdge e.count (e.count - gap.count)).phase = .arm from h.phase]
  rw [hgap] at hnext
  have hsnoc : Uninterrupted gap [e] ↔ _ := @uninterrupted_snoc gap [] e
  by_cases hwidth : e.count - gap.count ≤ ppmMaxPulseWidth
  · rw [hdecode, if_neg (UInt16.not_lt.2 hwidth)]
    refine .inl ⟨hsnoc.2 ⟨uninterrupted_nil gap, hseen, ?_, fun _ => hwidth, ?_⟩,
      ?_, rfl, ?_, h.channels, h.samples⟩
    · simpa using hnext
    · simp [marks, intervals]
    · intro last hlast
      cases hlast
      rfl
    · intro mark hmark
      cases hmark
      rfl
  · rw [hdecode, if_pos (UInt16.not_le.1 hwidth)]
    exact .inr ⟨fun h => hwidth ((hsnoc.1 h).2.2.2.1 rfl), rfl⟩

/-- The start of a pulse. -/
theorem Follows.next_start {gap : Edge} {edges : List Edge} {d : Decoder}
    (h : Follows gap edges d) (hwhole : Uninterrupted gap edges) (hodd : edges.length % 2 = 1)
    {e : Edge} (hseen : e.overflow = false) (hnext : e.count - d.lastEdge < ppmMinStart) :
    Agrees gap (edges ++ [e]) (d.hrtPpmDecode e) := by
  have hphase : d.phase = .inactive := by
    rw [h.phase, show edges.length = edges.length - 1 + 1 by omega, phaseAfter]
    exact if_pos (by omega)
  have hdecode : d.hrtPpmDecode e =
      { d.recordEdge e.count (e.count - d.lastEdge) with phase := .active } := by
    rw [Decoder.hrtPpmDecode_next hseen hnext]
    unfold Decoder.switchPhase
    rw [show (d.recordEdge e.count (e.count - d.lastEdge)).phase = .inactive from hphase]
  have hmarks : marks (edges ++ [e]) = marks edges := by
    rw [marks_snoc, if_neg (by omega)]
  rw [hdecode]
  refine .inl ⟨uninterrupted_snoc.2 ⟨hwhole, hseen, ?_, ?_, ?_⟩, ?_, ?_, ?_, ?_, ?_⟩
  · intro last hlast
    rw [← h.edge last hlast]
    exact hnext
  · intro hedges
    rw [hedges] at hodd
    cases hodd
  · rw [hmarks]
    exact hwhole.valid
  · intro last hlast
    rw [← List.cons_append, List.getLast?_concat] at hlast
    cases hlast
    rfl
  · rw [List.length_append, List.length_singleton, phaseAfter, if_neg (by omega)]
  · rw [hmarks]
    exact h.mark
  · rw [hmarks]
    exact h.channels
  · rw [hmarks]
    exact h.samples

/-- The channel that a valid interval adds. -/
theorem storeChannel_follows {d : Decoder} {values : List UInt16} (interval : UInt16)
    (hchannels : d.nextChannel = min values.length ppmMaxChannels)
    (hsamples : d.ppmTempBuffer.toList.take d.nextChannel = values.take ppmMaxChannels) :
    (d.storeChannel interval).nextChannel = min (values ++ [interval]).length ppmMaxChannels ∧
      (d.storeChannel interval).ppmTempBuffer.toList.take (d.storeChannel interval).nextChannel =
        (values ++ [interval]).take ppmMaxChannels := by
  rw [List.length_append, List.length_singleton]
  by_cases hroom : d.nextChannel < ppmMaxChannels
  · have hvalues : d.nextChannel = values.length := by omega
    have hlength : d.ppmTempBuffer.toList.length = ppmMaxChannels := Vector.length_toList
    rw [storeChannel_of_room hroom]
    refine ⟨?_, ?_⟩
    · show d.nextChannel + 1 = _
      omega
    · show (d.ppmTempBuffer.setIfInBounds d.nextChannel interval).toList.take
        (d.nextChannel + 1) = _
      rw [Vector.toList_setIfInBounds, take_set_succ (by omega), hsamples,
        List.take_of_length_le (by omega), List.take_of_length_le]
      rw [List.length_append, List.length_singleton]
      omega
  · have hfull : d.storeChannel interval = d := if_neg hroom
    rw [hfull]
    refine ⟨by omega, ?_⟩
    rw [hsamples, List.take_append_of_le_length (by omega)]

/-- The end of a pulse. -/
theorem Follows.next_mark {gap : Edge} {edges : List Edge} {d : Decoder}
    (h : Follows gap edges d) (hwhole : Uninterrupted gap edges) (hedges : edges ≠ [])
    (heven : edges.length % 2 = 0) {e : Edge} (hseen : e.overflow = false)
    (hnext : e.count - d.lastEdge < ppmMinStart) :
    Agrees gap (edges ++ [e]) (d.hrtPpmDecode e) := by
  have hlength := List.length_pos_iff.2 hedges
  have hphase : d.phase = .active := by
    rw [h.phase, show edges.length = edges.length - 1 + 1 by omega, phaseAfter]
    exact if_neg (by omega)
  obtain ⟨mark, hmark⟩ := getLast?_marks hedges
  have hintervals := intervals_marks_snoc (e := e) heven hmark
  have hmark' := h.mark mark hmark
  set d₁ := (d.recordEdge e.count (e.count - d.lastEdge)).recordMark e.count (e.count - mark)
  have hdecode : d.hrtPpmDecode e =
      if e.count - mark < ppmMinChannelValue ∨ ppmMaxChannelValue < e.count - mark then d₁.error
      else { d₁.storeChannel (e.count - mark) with phase := .inactive } := by
    rw [Decoder.hrtPpmDecode_next hseen hnext]
    unfold Decoder.switchPhase
    rw [show (d.recordEdge e.count (e.count - d.lastEdge)).phase = .active from hphase]
    dsimp only
    rw [show (d.recordEdge e.count (e.count - d.lastEdge)).lastMark = mark from hmark']
  rw [hdecode]
  split
  next hvalid =>
    refine .inr ⟨fun hsnoc => ?_, rfl⟩
    have hmem : e.count - mark ∈ intervals (marks (edges ++ [e])) := by
      rw [hintervals]
      exact List.mem_append_right _ (List.mem_singleton_self _)
    obtain ⟨hge, hle⟩ := hsnoc.valid _ hmem
    rcases hvalid with hvalid | hvalid
    · exact UInt16.not_lt.2 hge hvalid
    · exact UInt16.not_lt.2 hle hvalid
  next hvalid =>
    rw [not_or, UInt16.not_lt, UInt16.not_lt] at hvalid
    obtain ⟨hchannels, hsamples⟩ :=
      storeChannel_follows (d := d₁) (e.count - mark) h.channels h.samples
    refine .inl ⟨uninterrupted_snoc.2 ⟨hwhole, hseen, ?_, ?_, ?_⟩, ?_, ?_, ?_, ?_, ?_⟩
    · intro last hlast
      rw [← h.edge last hlast]
      exact hnext
    · exact fun hnil => absurd hnil hedges
    · rw [hintervals]
      intro interval hinterval
      rcases List.mem_append.1 hinterval with hinterval | hinterval
      · exact hwhole.valid interval hinterval
      · rw [List.mem_singleton.1 hinterval]
        exact hvalid
    · intro last hlast
      rw [← List.cons_append, List.getLast?_concat] at hlast
      cases hlast
      exact Decoder.storeChannel_lastEdge _ _
    · rw [List.length_append, List.length_singleton, phaseAfter, if_pos heven]
    · rw [marks_snoc, if_pos heven, List.getLast?_concat]
      intro last hlast
      cases hlast
      show (d₁.storeChannel (e.count - mark)).lastMark = e.count
      unfold Decoder.storeChannel
      split <;> rfl
    · rw [hintervals]
      exact hchannels
    · rw [hintervals]
      exact hsamples

/-- **One edge**: no edge but that of a start gap makes the decoder lose the signal unnoticed. -/
theorem Follows.next {gap : Edge} {edges : List Edge} {d : Decoder} (h : Follows gap edges d)
    (hwhole : Uninterrupted gap edges) {e : Edge}
    (hgap : e.overflow = false → e.count - d.lastEdge < ppmMinStart) :
    Agrees gap (edges ++ [e]) (d.hrtPpmDecode e) := by
  cases hseen : e.overflow with
  | true =>
      rw [Decoder.hrtPpmDecode_missed hseen]
      refine .inr ⟨fun hsnoc => ?_, rfl⟩
      have hseen' := (uninterrupted_snoc.1 hsnoc).2.1
      rw [hseen] at hseen'
      cases hseen'
  | false =>
      by_cases hedges : edges = []
      · subst hedges
        exact h.next_first hseen (hgap hseen)
      · rcases Nat.mod_two_eq_zero_or_one edges.length with heven | hodd
        · exact h.next_mark hwhole hedges heven hseen (hgap hseen)
        · exact h.next_start hwhole hodd hseen (hgap hseen)

/-- **A whole sequence** of edges since a start gap: the decoder has followed it. -/
theorem Uninterrupted.follows {earlier : List Edge} {gap : Edge} (hstart : StartGap earlier gap)
    {edges : List Edge} (h : Uninterrupted gap edges) :
    Follows gap edges (Decoder.reset.decodeAll (earlier ++ gap :: edges)) := by
  induction edges using List.reverseRecOn with
  | nil =>
      rw [Decoder.decodeAll_snoc]
      exact hstart.follows (Decoder.lastEdge_decodeAll earlier)
  | append_singleton edges e ih =>
      obtain ⟨hwhole, -, hlast, -, -⟩ := uninterrupted_snoc.1 h
      have hfollows := ih hwhole
      rw [← List.cons_append, ← List.append_assoc, Decoder.decodeAll_snoc]
      have hnext := hfollows.next hwhole (e := e) fun _ => by
        obtain ⟨last, hmem⟩ : ∃ last, last ∈ (gap :: edges).getLast? :=
          ⟨_, List.getLast?_eq_some_getLast (List.cons_ne_nil _ _)⟩
        rw [hfollows.edge last hmem]
        exact hlast last hmem
      rcases hnext with hnext | hnext
      · exact hnext.2
      · exact absurd h hnext.1

/-- A decoder that is out of synchronisation stays so until the next start gap. -/
theorem hrtPpmDecode_unsynch {d : Decoder} (h : d.phase = .unsynch) {e : Edge}
    (hgap : e.overflow = false → e.count - d.lastEdge < ppmMinStart) :
    (d.hrtPpmDecode e).phase = .unsynch := by
  cases hseen : e.overflow with
  | true =>
      rw [Decoder.hrtPpmDecode_missed hseen]
      rfl
  | false =>
      rw [Decoder.hrtPpmDecode_next hseen (hgap hseen)]
      unfold Decoder.switchPhase
      rw [show (d.recordEdge e.count (e.count - d.lastEdge)).phase = .unsynch from h]
      exact h

/-- **A synchronised decoder** has seen an uninterrupted sequence of edges since a start gap. -/
theorem uninterrupted_of_synchronised {before : List Edge}
    (h : (Decoder.reset.decodeAll before).phase ≠ .unsynch) :
    ∃ earlier gap edges, before = earlier ++ gap :: edges ∧ StartGap earlier gap ∧
      Uninterrupted gap edges := by
  induction before using List.reverseRecOn with
  | nil => exact absurd rfl h
  | append_singleton before e ih =>
      rw [Decoder.decodeAll_snoc] at h
      by_cases hgap : StartGap before e
      · exact ⟨before, e, [], rfl, hgap, uninterrupted_nil e⟩
      · have hnext : e.overflow = false →
            e.count - (Decoder.reset.decodeAll before).lastEdge < ppmMinStart := by
          intro hseen
          rw [Decoder.lastEdge_decodeAll]
          exact UInt16.not_le.1 fun hlate => hgap ⟨hseen, hlate⟩
        obtain ⟨earlier, gap, edges, rfl, hstart, hwhole⟩ :=
          ih fun hphase => h (hrtPpmDecode_unsynch hphase hnext)
        rcases (hwhole.follows hstart).next hwhole hnext with hagrees | hagrees
        · exact ⟨earlier, gap, edges ++ [e], by simp, hstart, hagrees.1⟩
        · exact absurd hagrees.2 h

/-! ### The export -/

/-- What is exported are the channels of the temporary buffer. -/
theorem Decoder.Exports.exported {d : Decoder} {e : Edge} (h : d.Exports e)
    (hroom : d.nextChannel ≤ ppmMaxChannels) :
    (d.hrtPpmDecode e).exported = d.ppmTempBuffer.toList.take d.nextChannel := by
  obtain ⟨hseen, hlate, hchannels⟩ := h
  rw [Decoder.hrtPpmDecode_late hseen hlate]
  set d₁ := d.recordEdge e.count (e.count - d.lastEdge)
  have hchannels' : 4 < d₁.nextChannel := hchannels
  have hroom' : d₁.nextChannel ≤ ppmMaxChannels := hroom
  unfold Decoder.startGap
  rw [if_pos hchannels']
  show (d₁.exportSamples e.now).ppmBuffer.toList.take (min d₁.nextChannel ppmMaxChannels) = _
  rw [Nat.min_eq_left hroom']
  exact exportSamples_take e.now d₁

/-- Samples of a whole frame leave a synchronised decoder behind. -/
theorem Whole.synchronised {before : List Edge} {samples : List UInt16}
    (h : Whole before samples) : (Decoder.reset.decodeAll before).phase ≠ .unsynch := by
  obtain ⟨earlier, gap, edges, rfl, hstart, hwhole, -⟩ := h
  exact (hwhole.follows hstart).synchronised

/-- A synchronised decoder exports the samples of a whole frame. -/
theorem Decoder.Exports.whole {before : List Edge} {e : Edge}
    (h : (reset.decodeAll before).Exports e) (hphase : (reset.decodeAll before).phase ≠ .unsynch) :
    Whole before ((reset.decodeAll before).hrtPpmDecode e).exported := by
  obtain ⟨earlier, gap, edges, rfl, hstart, hwhole⟩ := uninterrupted_of_synchronised hphase
  have hfollows := hwhole.follows hstart
  have hchannels := hfollows.channels
  have hmany := h.2.2
  rw [h.exported (by omega), hfollows.samples]
  refine ⟨earlier, gap, edges, rfl, hstart, hwhole, rfl, ?_, ?_, List.length_take_le _ _⟩
  · exact fun sample hsample => hwhole.valid sample (List.mem_of_mem_take hsample)
  · rw [List.length_take]
    omega

/-- **Whole frames.** Over any sequence of edges from reset, every set of samples that is exported
is that of a whole frame, exactly when no start gap finds a decoder out of synchronisation with more
than four channels left over. -/
theorem exported_whole_iff (edges : List Edge) : ExportsWhole edges ↔ NoResidue edges := by
  constructor
  · intro h before e after hedges hstart hphase
    by_contra hmany
    have hexports : (Decoder.reset.decodeAll before).Exports e := by
      refine ⟨hstart.1, ?_, Nat.lt_of_not_le hmany⟩
      rw [Decoder.lastEdge_decodeAll]
      exact hstart.2
    exact (h before e after hedges hexports).synchronised hphase
  · intro h before e after hedges hexports
    refine hexports.whole fun hphase => ?_
    obtain ⟨hseen, hlate, hmany⟩ := hexports
    rw [Decoder.lastEdge_decodeAll] at hlate
    exact absurd (h before e after hedges ⟨hseen, hlate⟩ hphase) (by omega)

/-- A frame with five channels, an edge that is missed, and the next start gap. -/
def disturbed : List Edge :=
  capture 0 0 fiveChannels.durations ++ [⟨true, 0, 0⟩] ++ [⟨false, 30000, 0⟩]

/-- The channels of the frame that was given up are exported. -/
theorem exported_abandoned : ¬ ExportsWhole disturbed := by
  intro h
  have hwhole := h _ _ [] rfl ⟨rfl, by decide, by decide⟩
  exact hwhole.synchronised rfl

end Px4Firmware.Hrt.Ppm
