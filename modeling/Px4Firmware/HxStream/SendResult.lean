import Px4Firmware.HxStream.RoundTrip

/-!
# Px4Firmware.HxStream.SendResult

**The result of a send.** A failed write is remembered in the stream until the end of the call that
made it, where it is read and cleared. But the call returns -1 if there was none, too: the result is
truthful only for calls that fail (`send_truthful`).
-/

namespace Px4Firmware.Hx

namespace HxStream

/-- The bytes that a call puts on the line. -/
def emission (k : Codec) (m : List UInt8) : List UInt8 :=
  if m.length ≤ hxStreamMaxFrame then frame k m else []

/-- All that has been put on the line since `s` was written. -/
def AllWritten (s s' : HxStream) : Prop := ∀ entry ∈ s'.line.drop s.line.length, entry.2 = true

/-- **The law of the result**, for a call from a state: it returns zero exactly if its message is
not too long and every byte it emitted was written, and what happened before has no influence on
that: the result is that of a new stream whose writes succeed and fail as the writes of this call
do. -/
structure TruthfulSend (k : Codec) (wr : Nat → Bool) (s : HxStream) (m : List UInt8) : Prop where
  result : (hxStreamSend k wr s m).1 = 0 ↔
    m.length ≤ hxStreamMaxFrame ∧ AllWritten s (hxStreamSend k wr s m).2
  independent : (hxStreamSend k wr s m).1 =
    (hxStreamSend k (fun i => wr (s.line.length + i)) hxStreamInit m).1

/-- Every call of a sequence is truthful. -/
def Truthful (k : Codec) (wr : Nat → Bool) (ms : List (List UInt8)) : Prop :=
  ∀ before m after, ms = before ++ m :: after →
    TruthfulSend k wr (hxStreamSendAll k wr hxStreamInit before) m

section

variable {k : Codec} {wr : Nat → Bool}

/-! ### What a call puts on the line -/

/-- `s'` has put `bs` on the line since `s`, whether they were written or not. -/
def Put (wr : Nat → Bool) (s s' : HxStream) (bs : List UInt8) : Prop :=
  s'.line = s.line ++ bs.mapIdx fun i c => (c, wr (s.line.length + i))

theorem Put.refl (s : HxStream) : Put wr s s [] := (List.append_nil s.line).symm

theorem Put.trans {s t u : HxStream} {bs cs : List UInt8} (h : Put wr s t bs)
    (h' : Put wr t u cs) : Put wr s u (bs ++ cs) := by
  have hlength : t.line.length = s.line.length + bs.length := by
    rw [h, List.length_append, List.length_mapIdx]
  have hcs : (cs.mapIdx fun i c => (c, wr (t.line.length + i))) =
      cs.mapIdx fun i c => (c, wr (s.line.length + (i + bs.length))) := by
    congr
    funext i c
    rw [hlength, Nat.add_assoc, Nat.add_comm bs.length i]
  unfold Put
  rw [h', hcs, h, List.mapIdx_append, List.append_assoc]

theorem put_hxTxRaw (wr : Nat → Bool) (s : HxStream) (c : UInt8) :
    Put wr s (hxTxRaw wr s c) [c] := rfl

theorem put_hxTxByte (s : HxStream) (c : UInt8) : Put wr s (hxTxByte wr s c) (escape c) := by
  unfold hxTxByte escape
  split_ifs
  · exact (put_hxTxRaw wr s ceo).trans (put_hxTxRaw wr _ _)
  · exact put_hxTxRaw wr s c

theorem put_foldl_hxTxByte (cs : List UInt8) (s : HxStream) :
    Put wr s (cs.foldl (hxTxByte wr) s) (escapeAll cs) := by
  induction cs generalizing s with
  | nil => exact Put.refl s
  | cons c cs ih =>
      rw [List.foldl_cons, escapeAll, List.flatMap_cons]
      exact (put_hxTxByte s c).trans (ih _)

/-- **A call puts its frame on the line**, whatever becomes of the bytes. -/
theorem put_hxStreamSend (k : Codec) (wr : Nat → Bool) (s : HxStream) (m : List UInt8) :
    Put wr s (hxStreamSend k wr s m).2 (emission k m) := by
  unfold hxStreamSend emission
  by_cases hlong : m.length > hxStreamMaxFrame
  · rw [if_pos hlong, if_neg (Nat.not_le_of_lt hlong)]
    exact Put.refl s
  · have hframe : frame k m = [fbo] ++ (escapeAll m ++ (escapeAll (k.crcBytes m) ++ [fbo])) := by
      simp [frame, tailImage, body, escapeAll]
    have hput := (put_hxTxRaw wr s fbo).trans ((put_foldl_hxTxByte m _).trans
      ((put_foldl_hxTxByte (k.crcBytes m) _).trans (put_hxTxRaw wr _ fbo)))
    rw [if_neg hlong, if_pos (Nat.le_of_not_lt hlong), hframe]
    dsimp only
    split
    · exact hput
    · exact hput

theorem put_hxStreamSendAll (k : Codec) (wr : Nat → Bool) (ms : List (List UInt8))
    (s : HxStream) : Put wr s (hxStreamSendAll k wr s ms) (ms.flatMap (emission k)) := by
  induction ms generalizing s with
  | nil => exact Put.refl s
  | cons m ms ih =>
      rw [List.flatMap_cons]
      exact (put_hxStreamSend k wr s m).trans (ih _)

/-- On a new stream, the writes of a call are numbered from what the earlier calls have emitted. -/
theorem line_hxStreamSendAll (k : Codec) (wr : Nat → Bool) (ms : List (List UInt8)) :
    (hxStreamSendAll k wr hxStreamInit ms).line.length = (ms.flatMap (emission k)).length := by
  have hput := congrArg List.length (put_hxStreamSendAll k wr ms hxStreamInit)
  rw [List.length_append, List.length_mapIdx] at hput
  exact hput.trans (Nat.zero_add _)

/-! ### When the result is truthful -/

theorem allWritten_iff (k : Codec) (wr : Nat → Bool) (s : HxStream) (m : List UInt8) :
    AllWritten s (hxStreamSend k wr s m).2 ↔
      ∀ i, i < (emission k m).length → wr (s.line.length + i) = true := by
  unfold AllWritten
  rw [put_hxStreamSend k wr s m, List.drop_left]
  constructor
  · intro hall i hi
    refine hall ((emission k m)[i], wr (s.line.length + i)) ?_
    exact List.mem_mapIdx.mpr ⟨i, hi, rfl⟩
  · intro hall entry hmem
    obtain ⟨i, hi, rfl⟩ := List.mem_mapIdx.mp hmem
    exact hall i hi

theorem hxStreamSend_result (k : Codec) (wr : Nat → Bool) (s : HxStream) (m : List UInt8) :
    (hxStreamSend k wr s m).1 = -1 := by
  unfold hxStreamSend
  dsimp only
  split_ifs <;> rfl

/-- A call is truthful if it has to fail. -/
theorem truthfulSend_iff (k : Codec) (wr : Nat → Bool) (s : HxStream) (m : List UInt8) :
    TruthfulSend k wr s m ↔ (m.length ≤ hxStreamMaxFrame →
      ∃ i, i < (frame k m).length ∧ wr (s.line.length + i) = false) := by
  have hemission : m.length ≤ hxStreamMaxFrame → emission k m = frame k m := fun hshort =>
    if_pos hshort
  have hminus : (-1 : Int) ≠ 0 := by decide
  constructor
  · intro htruthful hshort
    by_contra hnone
    have hwritten : AllWritten s (hxStreamSend k wr s m).2 := by
      rw [allWritten_iff, hemission hshort]
      intro i hi
      by_contra hfailed
      exact hnone ⟨i, hi, Bool.not_eq_true _ ▸ hfailed⟩
    have hzero := htruthful.result.mpr ⟨hshort, hwritten⟩
    rw [hxStreamSend_result] at hzero
    exact hminus hzero
  · intro hfails
    refine ⟨⟨fun hzero => ?_, ?_⟩, ?_⟩
    · rw [hxStreamSend_result] at hzero
      exact absurd hzero hminus
    · rintro ⟨hshort, hwritten⟩
      obtain ⟨i, hi, hfailed⟩ := hfails hshort
      rw [allWritten_iff, hemission hshort] at hwritten
      rw [hwritten i hi] at hfailed
      exact nomatch hfailed
    · rw [hxStreamSend_result, hxStreamSend_result]

/-- **The results of sends.** In a sequence of calls on a new stream every result is truthful
exactly if every message that is not too long loses a byte: the writes of a call are those after the
writes of the calls before it. -/
theorem send_truthful (k : Codec) (wr : Nat → Bool) (ms : List (List UInt8)) :
    Truthful k wr ms ↔ ∀ before m after, ms = before ++ m :: after →
      m.length ≤ hxStreamMaxFrame → ∃ i, i < (frame k m).length ∧
        wr ((before.flatMap (emission k)).length + i) = false := by
  unfold Truthful
  simp only [truthfulSend_iff, line_hxStreamSendAll]

end

/-- The empty message, with every byte written. -/
theorem send_refused : ¬ ∀ (k : Codec) (wr : Nat → Bool) (ms : List (List UInt8)),
    Truthful k wr ms := by
  intro hclaim
  have htruthful := hclaim ⟨fun _ => 0, .little⟩ (fun _ => true) [[]] [] [] [] rfl
  obtain ⟨i, -, hfailed⟩ := (truthfulSend_iff _ _ _ _).mp htruthful (by decide)
  exact nomatch hfailed

end HxStream

end Px4Firmware.Hx
