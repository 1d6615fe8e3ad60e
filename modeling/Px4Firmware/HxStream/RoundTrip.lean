import Px4Firmware.HxStream.Basic

/-!
# Px4Firmware.HxStream.RoundTrip

**The framing round trip.** Whatever state a receiver is in, the bytes of a
sequence of sends make it deliver exactly the messages sent.

The proof runs transmitter and receiver byte by byte. The wire image of a message
is `frame`: a boundary, the escaped payload and CRC, a boundary. `hxStreamSend`
puts exactly that image on a line that accepts every byte (`send_written`), and a
receiver that is *idle* (empty frame, no pending escape) turns the image back into
the message and is idle again (`rxAll_frame`). The first boundary of the whole
transmission makes any receiver idle, which is where the one possible leading
callback comes from.
-/

namespace Px4Firmware.Hx

open Px4Firmware.Lib

namespace HxStream

/-! ### Wire images -/

/-- The wire image of a payload byte. -/
def escape (c : UInt8) : List UInt8 :=
  if c = fbo ∨ c = ceo then [ceo, c ^^^ 0x20] else [c]

/-- The wire image of a frame's inside. -/
def escapeAll (cs : List UInt8) : List UInt8 := cs.flatMap escape

/-- What is between the two boundaries of a message, before escaping. -/
def body (k : Codec) (m : List UInt8) : List UInt8 := m ++ k.crcBytes m

/-- The wire image of a message without its first boundary. -/
def tailImage (k : Codec) (m : List UInt8) : List UInt8 := escapeAll (body k m) ++ [fbo]

/-- The wire image of a message. -/
def frame (k : Codec) (m : List UInt8) : List UInt8 := fbo :: tailImage k m

/-! ### What the transmitter emits -/

section Transmit

variable {wr : Nat → Bool}

/-- `s'` has emitted `bs` since `s`, and no write failed in between. -/
def Emitted (s s' : HxStream) (bs : List UInt8) : Prop :=
  s'.written = s.written ++ bs ∧ s'.txerror = s.txerror

theorem Emitted.refl (s : HxStream) : Emitted s s [] := ⟨by simp, rfl⟩

theorem Emitted.trans {s t u : HxStream} {bs cs : List UInt8} (h : Emitted s t bs)
    (h' : Emitted t u cs) : Emitted s u (bs ++ cs) :=
  ⟨by rw [h'.1, h.1, List.append_assoc], h'.2.trans h.2⟩

theorem hxTxRaw_emitted (hwr : ∀ n, wr n = true) (s : HxStream) (c : UInt8) :
    Emitted s (hxTxRaw wr s c) [c] := by
  constructor <;> simp [hxTxRaw, written, hwr]

theorem hxTxByte_emitted (hwr : ∀ n, wr n = true) (s : HxStream) (c : UInt8) :
    Emitted s (hxTxByte wr s c) (escape c) := by
  unfold hxTxByte escape
  split
  · exact (hxTxRaw_emitted hwr s ceo).trans (hxTxRaw_emitted hwr _ _)
  · exact hxTxRaw_emitted hwr s c

theorem foldl_hxTxByte_emitted (hwr : ∀ n, wr n = true) (cs : List UInt8) (s : HxStream) :
    Emitted s (cs.foldl (hxTxByte wr) s) (escapeAll cs) := by
  induction cs generalizing s with
  | nil => exact Emitted.refl s
  | cons c cs ih =>
      rw [List.foldl_cons, escapeAll, List.flatMap_cons]
      exact (hxTxByte_emitted hwr s c).trans (ih _)

/-- On a line that accepts every byte, a send emits the wire image of its message. -/
theorem hxStreamSend_written (k : Codec) (hwr : ∀ n, wr n = true) (s : HxStream)
    {m : List UInt8} (hm : m.length ≤ hxStreamMaxFrame) :
    (hxStreamSend k wr s m).2.written = s.written ++ frame k m := by
  have hbody : escapeAll (body k m) = escapeAll m ++ escapeAll (k.crcBytes m) := by
    simp [escapeAll, body]
  have h := (((hxTxRaw_emitted hwr s fbo).trans (foldl_hxTxByte_emitted hwr m _)).trans
    (foldl_hxTxByte_emitted hwr (k.crcBytes m) _)).trans (hxTxRaw_emitted hwr _ fbo)
  unfold hxStreamSend
  rw [if_neg (by omega)]
  dsimp only
  rw [frame, tailImage, hbody]
  split
  · simpa [written] using h.1
  · simpa using h.1

theorem hxStreamSendAll_written (k : Codec) (hwr : ∀ n, wr n = true)
    (ms : List (List UInt8)) (hms : ∀ m ∈ ms, m.length ≤ hxStreamMaxFrame) (s : HxStream) :
    (hxStreamSendAll k wr s ms).written = s.written ++ ms.flatMap (frame k) := by
  induction ms generalizing s with
  | nil => simp [hxStreamSendAll]
  | cons m ms ih =>
      have hm := hxStreamSend_written k hwr s (hms m List.mem_cons_self)
      have hrest := ih (fun m' h => hms m' (List.mem_cons_of_mem _ h)) (hxStreamSend k wr s m).2
      rw [hxStreamSendAll, List.foldl_cons, List.flatMap_cons, ← List.append_assoc, ← hm]
      exact hrest

end Transmit

/-! ### What the receiver makes of it -/

section Receive

variable {k : Codec}

theorem hxStreamRxAll_append (s : HxStream) (cs ds : List UInt8) :
    hxStreamRxAll k s (cs ++ ds) =
      ((hxStreamRxAll k (hxStreamRxAll k s cs).1 ds).1,
        (hxStreamRxAll k s cs).2 ++ (hxStreamRxAll k (hxStreamRxAll k s cs).1 ds).2) := by
  induction cs generalizing s with
  | nil => simp [hxStreamRxAll]
  | cons c cs ih => simp [hxStreamRxAll, ih]

/-- The receiver holds no partial frame and no pending escape. -/
def Idle (s : HxStream) : Prop := s.buf = [] ∧ s.escaped = false

/-- The receiver is inside a frame, holding `bs`, with no pending escape. -/
def Holding (s : HxStream) (bs : List UInt8) : Prop := s.buf = bs ∧ s.escaped = false

theorem save_holding {s : HxStream} {bs : List UInt8} (h : Holding s bs) (c : UInt8)
    (hroom : bs.length < hxStreamMaxFrame + 4) : Holding (save s c) (bs ++ [c]) := by
  obtain ⟨hbuf, hesc⟩ := h
  rw [save, dif_pos (by rw [hbuf]; exact hroom)]
  exact ⟨by simp [hbuf], hesc⟩

/-- An escaped byte arrives as the byte it stands for. -/
theorem rxAll_escape {s : HxStream} {bs : List UInt8} (h : Holding s bs) (c : UInt8)
    (hroom : bs.length < hxStreamMaxFrame + 4) :
    Holding (hxStreamRxAll k s (escape c)).1 (bs ++ [c]) ∧
      (hxStreamRxAll k s (escape c)).2 = [] := by
  by_cases hc : c = fbo ∨ c = ceo
  · -- `ceo` sets the escape flag; the byte after it is no boundary and is restored
    have hne : c ^^^ 0x20 ≠ fbo := by rcases hc with rfl | rfl <;> decide
    have hback : (c ^^^ 0x20) ^^^ 0x20 = c := by rcases hc with rfl | rfl <;> decide
    have hceo : ceo ≠ fbo := by decide
    have hsave := save_holding (s := { { s with escaped := true } with escaped := false })
      ⟨h.1, rfl⟩ c hroom
    rw [escape, if_pos hc]
    simpa [hxStreamRxAll, hxStreamRx, hceo, hne, hback, h.2] using hsave
  · obtain ⟨hfbo, hceo⟩ := not_or.mp hc
    have hsave := save_holding h c hroom
    rw [escape, if_neg hc]
    simpa [hxStreamRxAll, hxStreamRx, hfbo, hceo, h.2] using hsave

theorem rxAll_escapeAll {s : HxStream} {bs : List UInt8} (h : Holding s bs) (cs : List UInt8)
    (hroom : bs.length + cs.length ≤ hxStreamMaxFrame + 4) :
    Holding (hxStreamRxAll k s (escapeAll cs)).1 (bs ++ cs) ∧
      (hxStreamRxAll k s (escapeAll cs)).2 = [] := by
  induction cs generalizing s bs with
  | nil => simpa [escapeAll, hxStreamRxAll] using h
  | cons c cs ih =>
      rw [List.length_cons] at hroom
      obtain ⟨hc, hnone⟩ := rxAll_escape (k := k) h c (by omega)
      obtain ⟨hrest, hnone'⟩ := ih hc (by simp; omega)
      have hcons : escapeAll (c :: cs) = escape c ++ escapeAll cs := List.flatMap_cons
      rw [hcons, hxStreamRxAll_append]
      exact ⟨by simpa using hrest, by simp [hnone, hnone']⟩

/-- A boundary makes the receiver idle, whatever it held. -/
theorem hxRxFrame_idle (s : HxStream) : Idle (hxRxFrame k s).1 := by
  unfold hxRxFrame
  dsimp only
  split
  · split <;> exact ⟨rfl, rfl⟩
  · split <;> exact ⟨rfl, rfl⟩

/-- A boundary after a body delivers the message. -/
theorem hxRxFrame_body {s : HxStream} {m : List UInt8} (h : Holding s (body k m)) :
    (hxRxFrame k s).2 = some m := by
  have hlen : s.buf.length = m.length + 4 := by rw [h.1]; simp [body]
  have htake : s.buf.take (s.buf.length - 4) = m := by
    rw [hlen, h.1, Nat.add_sub_cancel, body, List.take_left]
  have hdrop : s.buf.drop (s.buf.length - 4) = k.crcBytes m := by
    rw [hlen, h.1, Nat.add_sub_cancel, body, List.drop_left]
  unfold hxRxFrame
  dsimp only
  rw [if_neg (by omega), htake, hdrop, if_pos rfl]

/-- What the callback is given was buffered, in front of the CRC. -/
theorem hxRxFrame_some {s : HxStream} {m : List UInt8} (h : (hxRxFrame k s).2 = some m) :
    s.buf = body k m := by
  unfold hxRxFrame at h
  dsimp only at h
  split at h
  · split at h <;> cases h
  · split at h
    · rename_i hcrc
      obtain rfl := Option.some.inj h
      rw [body, hcrc, List.take_append_drop]
    · cases h

/-- An idle receiver ignores a boundary. -/
theorem hxRxFrame_of_idle {s : HxStream} (h : Idle s) : (hxRxFrame k s).2 = none := by
  rw [hxRxFrame, h.1]
  rfl

/-- From the first boundary on, a message is delivered and the receiver is idle
again. -/
theorem rxAll_tailImage {s : HxStream} (h : Idle s) {m : List UInt8}
    (hm : m.length ≤ hxStreamMaxFrame) :
    Idle (hxStreamRxAll k s (tailImage k m)).1 ∧
      (hxStreamRxAll k s (tailImage k m)).2 = [m] := by
  have hroom : ([] : List UInt8).length + (body k m).length ≤ hxStreamMaxFrame + 4 := by
    simpa [body] using hm
  have hempty : Holding s [] := h
  obtain ⟨hheld, hnone⟩ := rxAll_escapeAll (k := k) hempty (body k m) hroom
  rw [List.nil_append] at hheld
  rw [tailImage, hxStreamRxAll_append, hnone]
  simp only [hxStreamRxAll, hxStreamRx, if_true, List.nil_append, List.append_nil]
  exact ⟨hxRxFrame_idle _, by rw [hxRxFrame_body hheld]; rfl⟩

theorem rxAll_frame {s : HxStream} (h : Idle s) {m : List UInt8}
    (hm : m.length ≤ hxStreamMaxFrame) :
    Idle (hxStreamRxAll k s (frame k m)).1 ∧ (hxStreamRxAll k s (frame k m)).2 = [m] := by
  have htail := rxAll_tailImage (k := k) (hxRxFrame_idle (k := k) s) hm
  simpa [frame, hxStreamRxAll, hxStreamRx, hxRxFrame_of_idle h] using htail

theorem rxAll_frames {s : HxStream} (h : Idle s) (ms : List (List UInt8))
    (hms : ∀ m ∈ ms, m.length ≤ hxStreamMaxFrame) :
    Idle (hxStreamRxAll k s (ms.flatMap (frame k))).1 ∧
      (hxStreamRxAll k s (ms.flatMap (frame k))).2 = ms := by
  induction ms generalizing s with
  | nil => exact ⟨h, rfl⟩
  | cons m ms ih =>
      obtain ⟨hidle, hcb⟩ := rxAll_frame (k := k) h (hms m List.mem_cons_self)
      obtain ⟨hidle', hcb'⟩ := ih hidle (fun m' hm' => hms m' (List.mem_cons_of_mem _ hm'))
      rw [List.flatMap_cons, hxStreamRxAll_append, hcb, hcb']
      exact ⟨hidle', rfl⟩

/-- The frames of a transmission, received in any state: the first boundary may
deliver what was buffered before it, and after that the messages come out. -/
theorem rxAll_frames_of_any (s : HxStream) (m : List UInt8) (ms : List (List UInt8))
    (hms : ∀ m' ∈ m :: ms, m'.length ≤ hxStreamMaxFrame) :
    Idle (hxStreamRxAll k s ((m :: ms).flatMap (frame k))).1 ∧
      (hxStreamRxAll k s ((m :: ms).flatMap (frame k))).2 =
        (hxRxFrame k s).2.toList ++ m :: ms := by
  obtain ⟨hidle, hcb⟩ :=
    rxAll_tailImage (k := k) (hxRxFrame_idle (k := k) s) (hms m List.mem_cons_self)
  obtain ⟨hidle', hcb'⟩ := rxAll_frames (k := k) hidle ms
    (fun m' hm' => hms m' (List.mem_cons_of_mem _ hm'))
  rw [List.flatMap_cons, frame, List.cons_append]
  simp only [hxStreamRxAll, hxStreamRx, if_true]
  rw [hxStreamRxAll_append, hcb, hcb']
  exact ⟨hidle', by simp⟩

end Receive

/-! ### The round trip -/

/-- **Framing round trip.** From any transmitter state `t` and any receiver state
`r`: the bytes a list of sends puts on the line, fed to the receiver, make its
callback fire with exactly the messages sent, in order, after at most one callback
for a frame that was buffered completely before the first of these bytes; and
after the last byte the receiver holds no partial frame and no pending escape. -/
theorem framing_round_trip (k : Codec) (wr : Nat → Bool) (hwr : ∀ n, wr n = true)
    (t r : HxStream) (ms : List (List UInt8)) (hms : ∀ m ∈ ms, m.length ≤ hxStreamMaxFrame) :
    let bytes := (hxStreamSendAll k wr t ms).written.drop t.written.length
    let received := hxStreamRxAll k r bytes
    (∃ lead, received.2 = lead ++ ms ∧ lead.length ≤ 1 ∧
        ∀ m ∈ lead, r.buf = m ++ k.crcBytes m) ∧
      (bytes ≠ [] → received.1.buf = [] ∧ received.1.escaped = false) := by
  have hbytes : (hxStreamSendAll k wr t ms).written.drop t.written.length =
      ms.flatMap (frame k) := by
    rw [hxStreamSendAll_written k hwr ms hms t, List.drop_left]
  dsimp only
  rw [hbytes]
  cases ms with
  | nil => exact ⟨⟨[], rfl, by simp, by simp⟩, fun h => absurd rfl h⟩
  | cons m ms =>
      obtain ⟨hidle, hcb⟩ := rxAll_frames_of_any (k := k) r m ms hms
      refine ⟨⟨(hxRxFrame k r).2.toList, hcb, ?_, ?_⟩, fun _ => hidle⟩
      · cases (hxRxFrame k r).2 <;> simp
      · intro m' hm'
        exact hxRxFrame_some (Option.mem_toList.mp hm')

/-- The round trip of two messages, the second made of both magic octets. -/
theorem framing_round_trip_magic :
    let k : Codec := ⟨fun _ => 0x7e7c7d5d, .little⟩
    let bytes := (hxStreamSendAll k (fun _ => true) hxStreamInit [[], [fbo, ceo]]).written.drop
      hxStreamInit.written.length
    let received := hxStreamRxAll k hxStreamInit bytes
    (∃ lead, received.2 = lead ++ [[], [fbo, ceo]] ∧ lead.length ≤ 1 ∧
        ∀ m ∈ lead, hxStreamInit.buf = m ++ k.crcBytes m) ∧
      (bytes ≠ [] → received.1.buf = [] ∧ received.1.escaped = false) :=
  framing_round_trip _ (fun _ => true) (fun _ => rfl) hxStreamInit hxStreamInit _ (by decide)

end HxStream

end Px4Firmware.Hx
