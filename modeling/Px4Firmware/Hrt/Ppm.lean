import Mathlib.Data.List.Basic
import Mathlib.Tactic.Set

/-!
# Px4Firmware.Hrt.Ppm

The PPM decoder of the timer (`up_hrt.c`): a state machine over the edges of a signal whose pulses
code the channel values of a radio control receiver. The timer captures the time of every edge with
sixteen bits, which wrap. A start gap begins at an edge too: the one that was captured last.

**Decoding a frame.** `frame_exported`: whatever the decoder did before, the start gap that ends a
frame with five to twelve channels exports exactly the channels of that frame. The invariant is
`Inside`, the decoder after the first pulse and some channels of a frame.
-/

namespace Px4Firmware.Hrt.Ppm

/-! ### The decoder -/

/-- `PPM_MAX_PULSE_WIDTH`. -/
abbrev ppmMaxPulseWidth : UInt16 := 500

/-- `PPM_MIN_CHANNEL_VALUE`. -/
abbrev ppmMinChannelValue : UInt16 := 800

/-- `PPM_MAX_CHANNEL_VALUE`. -/
abbrev ppmMaxChannelValue : UInt16 := 2200

/-- `PPM_MIN_START`. -/
abbrev ppmMinStart : UInt16 := 2500

/-- `PPM_MAX_CHANNELS`. -/
abbrev ppmMaxChannels : Nat := 12

/-- The length of the two histories. -/
abbrev historyLength : Nat := 32

/-- The phases of the state machine. -/
inductive Phase
  | unsynch
  | arm
  | active
  | inactive
  deriving DecidableEq

/-- The variables of the decoder: what it exports, the histories, and the state machine `ppm`. -/
structure Decoder where
  ppmBuffer : Vector UInt16 ppmMaxChannels
  ppmDecodedChannels : Nat
  ppmLastValidDecode : UInt64
  ppmEdgeHistory : Vector UInt16 historyLength
  ppmEdgeNext : Fin historyLength
  ppmPulseHistory : Vector UInt16 historyLength
  ppmPulseNext : Fin historyLength
  ppmTempBuffer : Vector UInt16 ppmMaxChannels
  lastEdge : UInt16
  lastMark : UInt16
  nextChannel : Nat
  phase : Phase

/-- What an interrupt reads: whether an edge was missed, the captured time, and the clock. -/
structure Edge where
  overflow : Bool
  count : UInt16
  now : UInt64

/-- The next place of a history. -/
def nextPlace (i : Fin historyLength) : Fin historyLength :=
  if h : i.val + 1 < historyLength then ⟨i.val + 1, h⟩ else 0

namespace Decoder

/-- The label `error`. -/
def error (d : Decoder) : Decoder := { d with phase := .unsynch, ppmDecodedChannels := 0 }

/-- The time of an edge is kept, and its width goes into the history. -/
def recordEdge (count width : UInt16) (d : Decoder) : Decoder :=
  { d with
    lastEdge := count
    ppmEdgeHistory := d.ppmEdgeHistory.set d.ppmEdgeNext.val width d.ppmEdgeNext.isLt
    ppmEdgeNext := nextPlace d.ppmEdgeNext }

/-- The same for a mark and its interval. -/
def recordMark (count interval : UInt16) (d : Decoder) : Decoder :=
  { d with
    lastMark := count
    ppmPulseHistory := d.ppmPulseHistory.set d.ppmPulseNext.val interval d.ppmPulseNext.isLt
    ppmPulseNext := nextPlace d.ppmPulseNext }

/-- The last set of samples is exported. -/
def exportSamples (now : UInt64) (d : Decoder) : Decoder :=
  { d with
    ppmBuffer := .ofFn fun i =>
      if i.val < d.nextChannel then d.ppmTempBuffer.get i else d.ppmBuffer.get i
    ppmDecodedChannels := min d.nextChannel ppmMaxChannels
    ppmLastValidDecode := now }

/-- A start gap: something sensible is exported, and the state machine is reset. -/
def startGap (now : UInt64) (d : Decoder) : Decoder :=
  { (if 4 < d.nextChannel then d.exportSamples now else d) with
    nextChannel := 0
    phase := .arm }

/-- A channel is stored, if there is room for it. -/
def storeChannel (interval : UInt16) (d : Decoder) : Decoder :=
  if d.nextChannel < ppmMaxChannels then
    { d with
      ppmTempBuffer := d.ppmTempBuffer.setIfInBounds d.nextChannel interval
      nextChannel := d.nextChannel + 1 }
  else
    d

/-- The `switch` of `hrt_ppm_decode`. -/
def switchPhase (count width : UInt16) (d : Decoder) : Decoder :=
  match d.phase with
  | .unsynch => d
  | .arm =>
      if ppmMaxPulseWidth < width then d.error
      else { d with lastMark := count, phase := .inactive }
  -- The start of a pulse is no mark: channels are measured from end to end.
  | .inactive => { d with phase := .active }
  | .active =>
      let interval := count - d.lastMark
      let d := d.recordMark count interval
      if interval < ppmMinChannelValue ∨ ppmMaxChannelValue < interval then d.error
      else { d.storeChannel interval with phase := .inactive }

/-- `hrt_ppm_decode`. -/
def hrtPpmDecode (e : Edge) (d : Decoder) : Decoder :=
  if e.overflow then
    d.error
  else
    let width := e.count - d.lastEdge
    let d := d.recordEdge e.count width
    if ppmMinStart ≤ width then d.startGap e.now else d.switchPhase e.count width

/-- The edges are decoded one after the other. -/
def decodeAll (es : List Edge) (d : Decoder) : Decoder :=
  es.foldl (fun d e => d.hrtPpmDecode e) d

end Decoder

/-! ### The signal -/

/-- A pulse that codes a channel: the time from the last mark to its start, and its width. -/
structure Pulse where
  space : Nat
  width : Nat
  interval_ge : ppmMinChannelValue.toNat ≤ space + width
  interval_le : space + width ≤ ppmMaxChannelValue.toNat

/-- The value of the channel. -/
def Pulse.interval (p : Pulse) : Nat := p.space + p.width

/-- The length of a start gap. -/
structure Gap where
  length : Nat
  length_ge : ppmMinStart.toNat ≤ length
  length_lt : length < UInt16.size

/-- A frame: a start gap, a first pulse, and a pulse for each channel. -/
structure Frame where
  gap : Gap
  firstWidth : Nat
  firstWidth_le : firstWidth ≤ ppmMaxPulseWidth.toNat
  pulses : List Pulse
  channels_ge : 5 ≤ pulses.length
  channels_le : pulses.length ≤ ppmMaxChannels

/-- The times between the edges of a frame. -/
def Frame.durations (f : Frame) : List Nat :=
  f.gap.length :: f.firstWidth :: f.pulses.flatMap fun p => [p.space, p.width]

/-- The edges are captured at these distances from one another, the first one from `count`. The
captured times wrap, and no edge is missed. -/
def Captured : UInt16 → List Nat → List Edge → Prop
  | _, [], es => es = []
  | count, duration :: durations, es =>
      ∃ e rest, es = e :: rest ∧ e.overflow = false ∧ e.count = count + UInt16.ofNat duration ∧
        Captured e.count durations rest

/-- The edges that are captured when nothing is missed, all with one reading of the clock. -/
def capture (now : UInt64) : UInt16 → List Nat → List Edge
  | _, [] => []
  | count, duration :: durations =>
      ⟨false, count + UInt16.ofNat duration, now⟩ ::
        capture now (count + UInt16.ofNat duration) durations

theorem captured_capture (now : UInt64) (count : UInt16) (durations : List Nat) :
    Captured count durations (capture now count durations) := by
  induction durations generalizing count with
  | nil => rfl
  | cons duration durations ih => exact ⟨_, _, rfl, rfl, rfl, ih _⟩

/-! ### One edge -/

theorem toNat_duration {duration : Nat} (h : duration < 65536) :
    (UInt16.ofNat duration).toNat = duration := by
  rw [UInt16.toNat_ofNat']
  exact Nat.mod_eq_of_lt h

/-- The time since an earlier capture, whether or not the counter has wrapped in between. -/
theorem elapsed (count : UInt16) (duration : Nat) :
    count + UInt16.ofNat duration - count = UInt16.ofNat duration := by
  rw [UInt16.add_comm, UInt16.add_sub_cancel]

/-- An edge that is not missed, by its width. -/
theorem hrtPpmDecode_eq (d : Decoder) {duration : Nat} {e : Edge} (hseen : e.overflow = false)
    (hcount : e.count = d.lastEdge + UInt16.ofNat duration) :
    d.hrtPpmDecode e =
      if ppmMinStart ≤ UInt16.ofNat duration then
        (d.recordEdge e.count (UInt16.ofNat duration)).startGap e.now
      else
        (d.recordEdge e.count (UInt16.ofNat duration)).switchPhase e.count
          (UInt16.ofNat duration) := by
  have hwidth : e.count - d.lastEdge = UInt16.ofNat duration := by rw [hcount, elapsed]
  unfold Decoder.hrtPpmDecode
  rw [hseen, hwidth]
  rfl

/-- The edge at the end of a start gap, in any state. -/
theorem hrtPpmDecode_gap (d : Decoder) (g : Gap) {e : Edge} (hseen : e.overflow = false)
    (hcount : e.count = d.lastEdge + UInt16.ofNat g.length) :
    d.hrtPpmDecode e = (d.recordEdge e.count (UInt16.ofNat g.length)).startGap e.now := by
  rw [hrtPpmDecode_eq d hseen hcount]
  refine if_pos ?_
  rw [UInt16.le_iff_toNat_le, toNat_duration g.length_lt]
  exact g.length_ge

/-- An edge inside of a frame. -/
theorem hrtPpmDecode_short (d : Decoder) {duration : Nat}
    (hshort : duration < ppmMinStart.toNat) {e : Edge} (hseen : e.overflow = false)
    (hcount : e.count = d.lastEdge + UInt16.ofNat duration) :
    d.hrtPpmDecode e = (d.recordEdge e.count (UInt16.ofNat duration)).switchPhase e.count
      (UInt16.ofNat duration) := by
  rw [hrtPpmDecode_eq d hseen hcount]
  refine if_neg ?_
  rw [UInt16.le_iff_toNat_le, toNat_duration (Nat.lt_trans hshort (by decide))]
  exact Nat.not_le_of_lt hshort

/-! ### Inside of a frame -/

/-- The decoder after a start gap. -/
structure Armed (d : Decoder) : Prop where
  phase : d.phase = .arm
  channels : d.nextChannel = 0

/-- The decoder after the first pulse and these channels of a frame: the last edge is a mark, and
the channels are in the buffer. -/
structure Inside (done : List Pulse) (d : Decoder) : Prop where
  phase : d.phase = .inactive
  mark : d.lastMark = d.lastEdge
  channels : d.nextChannel = done.length
  samples : (d.ppmTempBuffer.toList.take done.length).map UInt16.toNat = done.map Pulse.interval

theorem Gap.armed (g : Gap) {d : Decoder} {e : Edge} (hseen : e.overflow = false)
    (hcount : e.count = d.lastEdge + UInt16.ofNat g.length) :
    Armed (d.hrtPpmDecode e) ∧ (d.hrtPpmDecode e).lastEdge = e.count := by
  rw [hrtPpmDecode_gap d g hseen hcount]
  refine ⟨⟨rfl, rfl⟩, ?_⟩
  unfold Decoder.startGap
  split <;> rfl

/-- The end of the first pulse. -/
theorem Armed.first {d : Decoder} (h : Armed d) {width : Nat}
    (hwidth : width ≤ ppmMaxPulseWidth.toNat) {e : Edge} (hseen : e.overflow = false)
    (hcount : e.count = d.lastEdge + UInt16.ofNat width) :
    Inside [] (d.hrtPpmDecode e) ∧ (d.hrtPpmDecode e).lastEdge = e.count := by
  have hshort : width < ppmMinStart.toNat := Nat.lt_of_le_of_lt hwidth (by decide)
  have hfits : ¬ ppmMaxPulseWidth < UInt16.ofNat width := by
    rw [UInt16.lt_iff_toNat_lt, toNat_duration (Nat.lt_trans hshort (by decide))]
    exact Nat.not_lt_of_le hwidth
  have hdecode : d.hrtPpmDecode e = { d.recordEdge e.count (UInt16.ofNat width) with
      lastMark := e.count
      phase := .inactive } := by
    rw [hrtPpmDecode_short d hshort hseen hcount]
    unfold Decoder.switchPhase
    rw [show (d.recordEdge e.count (UInt16.ofNat width)).phase = .arm from h.phase]
    exact if_neg hfits
  rw [hdecode]
  exact ⟨⟨rfl, rfl, h.channels, rfl⟩, rfl⟩

/-- The start of a pulse. -/
theorem Inside.start {done : List Pulse} {d : Decoder} (h : Inside done d) {space : Nat}
    (hspace : space ≤ ppmMaxChannelValue.toNat) {e : Edge} (hseen : e.overflow = false)
    (hcount : e.count = d.lastEdge + UInt16.ofNat space) :
    d.hrtPpmDecode e =
      { d.recordEdge e.count (UInt16.ofNat space) with phase := .active } := by
  rw [hrtPpmDecode_short d (Nat.lt_of_le_of_lt hspace (by decide)) hseen hcount]
  unfold Decoder.switchPhase
  rw [show (d.recordEdge e.count (UInt16.ofNat space)).phase = .inactive from h.phase]

/-- The end of a pulse, when the interval since the last mark is valid. -/
theorem hrtPpmDecode_active {d : Decoder} (hphase : d.phase = .active) {width : Nat}
    (hwidth : width ≤ ppmMaxChannelValue.toNat) {p : Pulse} {e : Edge}
    (hseen : e.overflow = false) (hcount : e.count = d.lastEdge + UInt16.ofNat width)
    (hinterval : e.count - d.lastMark = UInt16.ofNat p.interval) :
    d.hrtPpmDecode e =
      { ((d.recordEdge e.count (UInt16.ofNat width)).recordMark e.count
          (UInt16.ofNat p.interval)).storeChannel (UInt16.ofNat p.interval) with
        phase := .inactive } := by
  have hge := p.interval_ge
  have hle := p.interval_le
  have hvalid : ¬ (UInt16.ofNat p.interval < ppmMinChannelValue ∨
      ppmMaxChannelValue < UInt16.ofNat p.interval) := by
    have hvalue : (UInt16.ofNat p.interval).toNat = p.space + p.width :=
      toNat_duration (Nat.lt_of_le_of_lt hle (by decide))
    rw [UInt16.lt_iff_toNat_lt, UInt16.lt_iff_toNat_lt, hvalue]
    omega
  rw [hrtPpmDecode_short d (Nat.lt_of_le_of_lt hwidth (by decide)) hseen hcount]
  unfold Decoder.switchPhase
  rw [show (d.recordEdge e.count (UInt16.ofNat width)).phase = .active from hphase]
  dsimp only
  rw [show (d.recordEdge e.count (UInt16.ofNat width)).lastMark = d.lastMark from rfl, hinterval]
  exact if_neg hvalid

theorem storeChannel_of_room {d : Decoder} (h : d.nextChannel < ppmMaxChannels)
    (interval : UInt16) :
    d.storeChannel interval = { d with
      ppmTempBuffer := d.ppmTempBuffer.setIfInBounds d.nextChannel interval
      nextChannel := d.nextChannel + 1 } := if_pos h

theorem take_set_succ {α : Type} {l : List α} {k : Nat} (hk : k < l.length) (x : α) :
    (l.set k x).take (k + 1) = l.take k ++ [x] := by
  have hlength : k + 1 = (l.take k ++ [x]).length := by
    rw [List.length_append, List.length_take_of_le (Nat.le_of_lt hk)]
    rfl
  rw [List.set_eq_take_append_cons_drop, if_pos hk, List.append_cons]
  exact List.take_left' hlength.symm

/-- **A channel**: the start of a pulse and its end. -/
theorem Inside.pulse {done : List Pulse} {d : Decoder} (h : Inside done d)
    (hroom : done.length < ppmMaxChannels) (p : Pulse) {e e' : Edge}
    (hseen : e.overflow = false) (hseen' : e'.overflow = false)
    (hcount : e.count = d.lastEdge + UInt16.ofNat p.space)
    (hcount' : e'.count = e.count + UInt16.ofNat p.width) :
    Inside (done ++ [p]) ((d.hrtPpmDecode e).hrtPpmDecode e') ∧
      ((d.hrtPpmDecode e).hrtPpmDecode e').lastEdge = e'.count := by
  have hle := p.interval_le
  -- From mark to mark: the space and the pulse, which together do not wrap around.
  have hinterval : e'.count - d.lastMark = UInt16.ofNat p.interval := by
    have hsum : e'.count = d.lastEdge + UInt16.ofNat p.interval := by
      rw [hcount', hcount, UInt16.add_assoc, ← UInt16.ofNat_add]
      rfl
    rw [hsum, h.mark, elapsed]
  have hvalue : (UInt16.ofNat p.interval).toNat = p.interval :=
    toNat_duration (Nat.lt_of_le_of_lt hle (by decide))
  rw [h.start (Nat.le_trans (Nat.le_add_right _ _) hle) hseen hcount]
  set d₁ : Decoder := { d.recordEdge e.count (UInt16.ofNat p.space) with phase := .active }
  rw [hrtPpmDecode_active (d := d₁) rfl (Nat.le_trans (Nat.le_add_left _ _) hle) hseen' hcount'
    hinterval]
  have hroom' : ((d₁.recordEdge e'.count (UInt16.ofNat p.width)).recordMark e'.count
      (UInt16.ofNat p.interval)).nextChannel < ppmMaxChannels := by
    show d.nextChannel < ppmMaxChannels
    rw [h.channels]
    exact hroom
  rw [storeChannel_of_room hroom']
  refine ⟨⟨rfl, rfl, ?_, ?_⟩, rfl⟩
  · rw [List.length_append]
    exact congrArg (· + 1) h.channels
  -- The interval is stored behind those of the pulses before.
  · have hlength : d.ppmTempBuffer.toList.length = ppmMaxChannels := Vector.length_toList
    have hbuffer : (d.ppmTempBuffer.setIfInBounds d.nextChannel
        (UInt16.ofNat p.interval)).toList.take (done.length + 1) =
          d.ppmTempBuffer.toList.take done.length ++ [UInt16.ofNat p.interval] := by
      rw [Vector.toList_setIfInBounds, h.channels, take_set_succ (by rw [hlength]; exact hroom)]
    rw [List.length_append, List.length_singleton, List.map_append]
    show List.map UInt16.toNat ((d.ppmTempBuffer.setIfInBounds d.nextChannel
      (UInt16.ofNat p.interval)).toList.take (done.length + 1)) = _
    rw [hbuffer, List.map_append, h.samples, List.map_singleton, List.map_singleton, hvalue]

/-- The channels of a frame, one after the other. -/
theorem Inside.pulses {done : List Pulse} {d : Decoder} (h : Inside done d) (ps : List Pulse)
    (hroom : done.length + ps.length ≤ ppmMaxChannels) {rest : List Nat} {es : List Edge}
    (hes : Captured d.lastEdge (ps.flatMap (fun p => [p.space, p.width]) ++ rest) es) :
    ∃ es₁ es₂, es = es₁ ++ es₂ ∧ Inside (done ++ ps) (d.decodeAll es₁) ∧
      Captured (d.decodeAll es₁).lastEdge rest es₂ := by
  induction ps generalizing done d es with
  | nil =>
      rw [List.append_nil]
      exact ⟨[], es, rfl, h, hes⟩
  | cons p ps ih =>
      rw [List.length_cons] at hroom
      obtain ⟨e, es', rfl, hseen, hcount, hes⟩ := hes
      obtain ⟨e', es', rfl, hseen', hcount', hes⟩ := hes
      obtain ⟨hpulse, hlast⟩ := h.pulse (by omega) p hseen hseen' hcount hcount'
      rw [← hlast] at hes
      obtain ⟨es₁, es₂, rfl, hdone, hrest⟩ :=
        ih hpulse (by rw [List.length_append, List.length_singleton]; omega) hes
      rw [List.append_assoc] at hdone
      exact ⟨e :: e' :: es₁, es₂, rfl, hdone, hrest⟩

/-- **A frame**, in any state: the decoder has its channels, and waits for the next edge. -/
theorem decode_frame (f : Frame) {d : Decoder} {rest : List Nat} {es : List Edge}
    (hes : Captured d.lastEdge (f.durations ++ rest) es) :
    ∃ es₁ es₂, es = es₁ ++ es₂ ∧ Inside f.pulses (d.decodeAll es₁) ∧
      Captured (d.decodeAll es₁).lastEdge rest es₂ := by
  obtain ⟨e, es', rfl, hseen, hcount, hes⟩ := hes
  obtain ⟨harmed, hlast⟩ := f.gap.armed hseen hcount
  rw [← hlast] at hes
  obtain ⟨e', es', rfl, hseen', hcount', hes⟩ := hes
  obtain ⟨hinside, hlast'⟩ := harmed.first f.firstWidth_le hseen' hcount'
  rw [← hlast'] at hes
  obtain ⟨es₁, es₂, rfl, hdone, hrest⟩ :=
    hinside.pulses f.pulses (by rw [List.length_nil, Nat.zero_add]; exact f.channels_le) hes
  exact ⟨e :: e' :: es₁, es₂, rfl, hdone, hrest⟩

/-- Frames one after the other. -/
theorem decode_frames (frames : List Frame) {d : Decoder} {rest : List Nat} {es : List Edge}
    (hes : Captured d.lastEdge (frames.flatMap Frame.durations ++ rest) es) :
    ∃ es₁ es₂, es = es₁ ++ es₂ ∧ Captured (d.decodeAll es₁).lastEdge rest es₂ := by
  induction frames generalizing d es with
  | nil => exact ⟨[], es, rfl, hes⟩
  | cons f frames ih =>
      rw [List.flatMap_cons, List.append_assoc] at hes
      obtain ⟨es₁, es₂, rfl, -, hrest⟩ := decode_frame f hes
      obtain ⟨es₃, es₄, rfl, hlast⟩ := ih hrest
      refine ⟨es₁ ++ es₃, es₄, (List.append_assoc _ _ _).symm, ?_⟩
      unfold Decoder.decodeAll at hlast ⊢
      rw [List.foldl_append]
      exact hlast

/-! ### The export -/

/-- The samples that are exported are those of the temporary buffer. -/
theorem exportSamples_take (now : UInt64) (d : Decoder) :
    (d.exportSamples now).ppmBuffer.toList.take d.nextChannel =
      d.ppmTempBuffer.toList.take d.nextChannel := by
  refine List.ext_getElem ?_ ?_
  · rw [List.length_take, List.length_take, Vector.length_toList, Vector.length_toList]
  · intro i hi _
    rw [List.length_take, Vector.length_toList] at hi
    have hchannel : i < d.nextChannel := Nat.lt_of_lt_of_le hi (Nat.min_le_left _ _)
    rw [List.getElem_take, List.getElem_take, Vector.getElem_toList, Vector.getElem_toList]
    unfold Decoder.exportSamples
    rw [Vector.getElem_ofFn, if_pos hchannel]
    rfl

/-- **The start gap after a frame** exports its channels. -/
theorem Inside.exported {done : List Pulse} {d : Decoder} (h : Inside done d)
    (hge : 5 ≤ done.length) (hle : done.length ≤ ppmMaxChannels) (g : Gap) {e : Edge}
    (hseen : e.overflow = false) (hcount : e.count = d.lastEdge + UInt16.ofNat g.length) :
    (d.hrtPpmDecode e).ppmDecodedChannels = done.length ∧
      ((d.hrtPpmDecode e).ppmBuffer.toList.take done.length).map UInt16.toNat =
        done.map Pulse.interval ∧
      (d.hrtPpmDecode e).ppmLastValidDecode = e.now := by
  rw [hrtPpmDecode_gap d g hseen hcount]
  set d₁ := d.recordEdge e.count (UInt16.ofNat g.length)
  have hchannels : d₁.nextChannel = done.length := h.channels
  unfold Decoder.startGap
  rw [if_pos (by rw [hchannels]; omega)]
  refine ⟨?_, ?_, rfl⟩
  · show min d₁.nextChannel ppmMaxChannels = done.length
    rw [hchannels]
    exact Nat.min_eq_left hle
  · have hsamples := exportSamples_take e.now d₁
    rw [hchannels] at hsamples
    rw [← h.samples]
    exact congrArg (List.map UInt16.toNat) hsamples

/-- **Frame decoding.** In any state, when frames have been captured after the last edge, and then a
start gap, the channels that are exported are those of the last frame, in their order. -/
theorem frame_exported (d : Decoder) (frames : List Frame) (f : Frame) (g : Gap) (es : List Edge)
    (hes : Captured d.lastEdge ((frames ++ [f]).flatMap Frame.durations ++ [g.length]) es) :
    (d.decodeAll es).ppmDecodedChannels = f.pulses.length ∧
      ((d.decodeAll es).ppmBuffer.toList.take f.pulses.length).map UInt16.toNat =
        f.pulses.map Pulse.interval := by
  rw [List.flatMap_append, List.append_assoc, List.flatMap_singleton] at hes
  obtain ⟨es₁, es₂, rfl, hlast⟩ := decode_frames frames hes
  obtain ⟨es₃, es₄, rfl, hinside, hgap⟩ := decode_frame f hlast
  obtain ⟨e, es', rfl, hseen, hcount, rfl⟩ := hgap
  obtain ⟨hchannels, hsamples, -⟩ :=
    hinside.exported f.channels_ge f.channels_le g hseen hcount
  unfold Decoder.decodeAll at hchannels hsamples ⊢
  rw [List.foldl_append, List.foldl_append]
  exact ⟨hchannels, hsamples⟩

/-- A decoder inside of a frame, with nine channels from before. -/
def residual : Decoder where
  ppmBuffer := .replicate ppmMaxChannels 0
  ppmDecodedChannels := 0
  ppmLastValidDecode := 0
  ppmEdgeHistory := .replicate historyLength 0
  ppmEdgeNext := 0
  ppmPulseHistory := .replicate historyLength 0
  ppmPulseNext := 0
  ppmTempBuffer := .replicate ppmMaxChannels 1234
  lastEdge := 65000
  lastMark := 64000
  nextChannel := 9
  phase := .active

/-- A start gap of 12 ms. -/
def twelveMs : Gap := ⟨12000, by decide, by decide⟩

/-- A frame with five channels. -/
def fiveChannels : Frame where
  gap := twelveMs
  firstWidth := 300
  firstWidth_le := by decide
  pulses := [⟨700, 300, by decide, by decide⟩, ⟨950, 300, by decide, by decide⟩,
    ⟨1200, 300, by decide, by decide⟩, ⟨1450, 300, by decide, by decide⟩,
    ⟨1700, 300, by decide, by decide⟩]
  channels_ge := by decide
  channels_le := by decide

theorem frame_exported_five :
    let es := capture 0 residual.lastEdge
      (([fiveChannels] ++ [fiveChannels]).flatMap Frame.durations ++ [twelveMs.length])
    (residual.decodeAll es).ppmDecodedChannels = 5 ∧
      ((residual.decodeAll es).ppmBuffer.toList.take 5).map UInt16.toNat =
        [1000, 1250, 1500, 1750, 2000] :=
  frame_exported residual [fiveChannels] fiveChannels twelveMs _ (captured_capture 0 _ _)

end Px4Firmware.Hrt.Ppm
