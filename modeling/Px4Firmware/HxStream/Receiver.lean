import Mathlib.Data.List.Induction
import Px4Firmware.HxStream.RoundTrip

/-!
# Px4Firmware.HxStream.Receiver

**What the receiver accepts.** Between two boundaries it un-escapes what comes in, and keeps the
first `HX_STREAM_MAX_FRAME + 4` bytes of that. At a boundary it looks only at what it has kept: it
has forgotten whether there were more bytes, and it drops an escape that was still open
(`receiver_exact`).
-/

namespace Px4Firmware.Hx

namespace HxStream

/-! ### Well-formed frames -/

/-- The bytes that escaped bytes stand for, and whether the last one is an escape that is left
dangling. -/
def unescape : Bool → List UInt8 → List UInt8 × Bool
  | escaped, [] => ([], escaped)
  | true, c :: cs => ((c ^^^ 0x20) :: (unescape false cs).1, (unescape false cs).2)
  | false, c :: cs =>
      if c = ceo then unescape true cs else (c :: (unescape false cs).1, (unescape false cs).2)

/-- The bytes since the previous boundary, or the start. -/
def sinceBoundary (cs : List UInt8) : List UInt8 :=
  cs.foldl (fun frame c => if c = fbo then [] else frame ++ [c]) []

/-- The bytes of a well-formed frame un-escape completely to a message and its CRC, and are not too
many. -/
structure WellFormed (k : Codec) (frame m : List UInt8) : Prop where
  complete : (unescape false frame).2 = false
  short : 4 ≤ (unescape false frame).1.length
  long : (unescape false frame).1.length ≤ hxStreamMaxFrame + 4
  crc : (unescape false frame).1 = body k m

/-- **The law of the receiver**, for the bytes that a new stream is fed: the callback is called at a
byte, with a message, exactly if the byte is a boundary and the bytes before it are a well-formed
frame with that message. -/
def Exact (k : Codec) (cs : List UInt8) : Prop :=
  ∀ before c after, cs = before ++ c :: after → ∀ m,
    (hxStreamRx k (hxStreamRxAll k hxStreamInit before).1 c).2 = some m ↔
      c = fbo ∧ WellFormed k (sinceBoundary before) m

/-- A frame that is not well-formed, as its last escape is dangling or it is too long, but whose
first `HX_STREAM_MAX_FRAME + 4` bytes are a message and its CRC. -/
def Mistaken (k : Codec) (frame : List UInt8) : Prop :=
  ((unescape false frame).2 = true ∨ hxStreamMaxFrame + 4 < (unescape false frame).1.length) ∧
    ∃ m, (unescape false frame).1.take (hxStreamMaxFrame + 4) = body k m

section

variable {k : Codec}

theorem sinceBoundary_snoc (cs : List UInt8) (c : UInt8) :
    sinceBoundary (cs ++ [c]) = if c = fbo then [] else sinceBoundary cs ++ [c] := by
  unfold sinceBoundary
  rw [List.foldl_append, List.foldl_cons, List.foldl_nil]

/-- One more byte. -/
theorem unescape_snoc (escaped : Bool) (cs : List UInt8) (c : UInt8) :
    unescape escaped (cs ++ [c]) =
      if (unescape escaped cs).2 then ((unescape escaped cs).1 ++ [c ^^^ 0x20], false)
      else if c = ceo then ((unescape escaped cs).1, true)
      else ((unescape escaped cs).1 ++ [c], false) := by
  induction cs generalizing escaped with
  | nil => cases escaped <;> simp [unescape]
  | cons d cs ih =>
      cases escaped with
      | true =>
          simp only [List.cons_append, unescape, ih false]
          by_cases hdangling : (unescape false cs).2 = true
          · simp [hdangling]
          · by_cases hceo : c = ceo <;> simp [hdangling, hceo]
      | false =>
          by_cases hd : d = ceo
          · simp only [List.cons_append, unescape, if_pos hd, ih true]
          · simp only [List.cons_append, unescape, if_neg hd, ih false]
            by_cases hdangling : (unescape false cs).2 = true
            · simp [hdangling]
            · by_cases hceo : c = ceo <;> simp [hdangling, hceo]

/-! ### What the receiver keeps -/

/-- The receiver has kept as much of the frame as it has room for. -/
structure Kept (frame : List UInt8) (s : HxStream) : Prop where
  buf : s.buf = (unescape false frame).1.take (hxStreamMaxFrame + 4)
  escaped : s.escaped = (unescape false frame).2

theorem buf_save (s : HxStream) (c : UInt8) {bytes : List UInt8}
    (h : s.buf = bytes.take (hxStreamMaxFrame + 4)) :
    (save s c).buf = (bytes ++ [c]).take (hxStreamMaxFrame + 4) := by
  unfold save
  by_cases hroom : s.buf.length < hxStreamMaxFrame + 4
  · rw [dif_pos hroom]
    have hshort : bytes.length < hxStreamMaxFrame + 4 := by
      rw [h, List.length_take] at hroom
      omega
    rw [List.take_of_length_le (Nat.le_of_lt hshort)] at h
    have hsnoc : (bytes ++ [c]).length ≤ hxStreamMaxFrame + 4 := by
      rw [List.length_append, List.length_singleton]
      exact hshort
    rw [List.take_of_length_le hsnoc, ← h]
  · rw [dif_neg hroom]
    have hlong : hxStreamMaxFrame + 4 ≤ bytes.length := by
      rw [h, List.length_take] at hroom
      omega
    rw [List.take_append_of_le_length hlong, h]

theorem escaped_save (s : HxStream) (c : UInt8) : (save s c).escaped = s.escaped := by
  unfold save
  split_ifs <;> rfl

/-- A byte that is no boundary. -/
theorem Kept.byte {frame : List UInt8} {s : HxStream} (h : Kept frame s) {c : UInt8}
    (hc : c ≠ fbo) : Kept (frame ++ [c]) (hxStreamRx k s c).1 := by
  unfold hxStreamRx
  rw [if_neg hc]
  have hsnoc := unescape_snoc false frame c
  rw [← h.escaped] at hsnoc
  by_cases hescaped : s.escaped = true
  · rw [if_pos hescaped] at hsnoc ⊢
    refine ⟨?_, ?_⟩
    · rw [hsnoc]
      exact buf_save _ _ h.buf
    · rw [hsnoc]
      exact escaped_save _ _
  · rw [if_neg hescaped] at hsnoc ⊢
    by_cases hceo : c = ceo
    · rw [if_pos hceo] at hsnoc ⊢
      exact ⟨by rw [hsnoc]; exact h.buf, by rw [hsnoc]⟩
    · rw [if_neg hceo] at hsnoc ⊢
      refine ⟨?_, ?_⟩
      · rw [hsnoc]
        exact buf_save _ _ h.buf
      · rw [hsnoc]
        exact (escaped_save _ _).trans (Bool.not_eq_true _ ▸ hescaped)

/-- **What a new stream has kept** of the bytes that it was fed. -/
theorem kept_rxAll (k : Codec) (cs : List UInt8) :
    Kept (sinceBoundary cs) (hxStreamRxAll k hxStreamInit cs).1 := by
  induction cs using List.reverseRecOn with
  | nil => exact ⟨rfl, rfl⟩
  | append_singleton cs c ih =>
      rw [hxStreamRxAll_append, sinceBoundary_snoc]
      simp only [hxStreamRxAll]
      by_cases hc : c = fbo
      · obtain ⟨hbuf, hescaped⟩ := hxRxFrame_idle (k := k) (hxStreamRxAll k hxStreamInit cs).1
        rw [if_pos hc, hxStreamRx, if_pos hc]
        exact ⟨hbuf, hescaped⟩
      · rw [if_neg hc]
        exact ih.byte hc

theorem hxRxFrame_iff {s : HxStream} {m : List UInt8} :
    (hxRxFrame k s).2 = some m ↔ s.buf = body k m := by
  constructor
  · exact hxRxFrame_some
  · intro hbuf
    exact hxRxFrame_body (s := { s with escaped := false }) ⟨hbuf, rfl⟩

/-! ### Where the receiver is exact -/

theorem body_length (k : Codec) (m : List UInt8) : (body k m).length = m.length + 4 := by
  simp [body]

/-- A receiver that has kept a frame delivers the messages of well-formed frames, unless it is
mistaken about this one. -/
theorem delivers_iff {frame : List UInt8} {s : HxStream} (h : Kept frame s) :
    (∀ m, (hxRxFrame k s).2 = some m ↔ WellFormed k frame m) ↔ ¬ Mistaken k frame := by
  constructor
  · rintro hexact ⟨hbad, m, hm⟩
    have hwell := (hexact m).mp (hxRxFrame_iff.mpr (h.buf.trans hm))
    rcases hbad with hdangling | hlong
    · rw [hwell.complete] at hdangling
      exact nomatch hdangling
    · exact absurd hwell.long (Nat.not_le_of_lt hlong)
  · intro hgood m
    rw [hxRxFrame_iff, h.buf]
    constructor
    · intro hm
      have hcomplete : (unescape false frame).2 = false := by
        by_contra hdangling
        exact hgood ⟨.inl (Bool.not_eq_false _ ▸ hdangling), m, hm⟩
      have hlong : (unescape false frame).1.length ≤ hxStreamMaxFrame + 4 := by
        by_contra hlong
        exact hgood ⟨.inr (Nat.lt_of_not_le hlong), m, hm⟩
      rw [List.take_of_length_le hlong] at hm
      exact ⟨hcomplete, by rw [hm, body_length]; omega, hlong, hm⟩
    · intro hwell
      rw [List.take_of_length_le hwell.long, hwell.crc]

/-- At a byte that is no boundary the callback is not called. -/
theorem hxStreamRx_quiet {c : UInt8} (hc : c ≠ fbo) (s : HxStream) :
    (hxStreamRx k s c).2 = none := by
  unfold hxStreamRx
  rw [if_neg hc]
  split_ifs <;> rfl

/-- **The receiver.** Of the bytes that a new stream is fed, well-formed frames are delivered and
nothing else is, exactly if at no boundary the receiver is mistaken about the bytes since the
previous one. -/
theorem receiver_exact (k : Codec) (cs : List UInt8) :
    Exact k cs ↔ ∀ before after, cs = before ++ fbo :: after →
      ¬ Mistaken k (sinceBoundary before) := by
  have hboundary : ∀ s, hxStreamRx k s fbo = hxRxFrame k s := fun s => if_pos rfl
  constructor
  · intro hexact before after hcs
    refine (delivers_iff (kept_rxAll k before)).mp fun m => ?_
    have hm := hexact before fbo after hcs m
    rw [hboundary] at hm
    exact hm.trans ⟨And.right, fun hwell => ⟨rfl, hwell⟩⟩
  · intro hgood before c after hcs m
    by_cases hc : c = fbo
    · subst hc
      rw [hboundary, (delivers_iff (kept_rxAll k before)).mpr (hgood before after hcs) m]
      exact ⟨fun hwell => ⟨rfl, hwell⟩, And.right⟩
    · rw [hxStreamRx_quiet hc]
      exact ⟨nofun, fun h => absurd h.1 hc⟩

end

/-- The empty message under a CRC of zeros, with an escape before the boundary: it is delivered. -/
theorem dangling_delivered : ¬ ∀ (k : Codec) (cs : List UInt8), Exact k cs := by
  intro hclaim
  have hexact := hclaim ⟨fun _ => 0, .little⟩ [0, 0, 0, 0, ceo, fbo] [0, 0, 0, 0, ceo] fbo [] rfl []
  have hwell := (hexact.mp (by decide)).2
  exact absurd hwell.complete (by decide)

end HxStream

end Px4Firmware.Hx
