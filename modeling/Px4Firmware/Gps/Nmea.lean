import Px4Firmware.Lib.Buffer

/-!
# Px4Firmware.Gps.Nmea

The NMEA receiver of the GPS app (`gps/nmea_helper.c`): `read_gps_nmea`, which takes one sentence
out of the bytes of the port and hands it to `nmea_parse`, and the loop that calls it.

`nmea_parse` is a parameter: it is given the sentence and the state of the parser. What the loop
publishes is left out, and so is the counter of the overflows, which nothing reads.
-/

namespace Px4Firmware.Gps.Nmea

open Px4Firmware.Lib

/-- `NMEA_BUFFER_SIZE`. -/
abbrev nmeaBufferSize : Nat := 1000

/-- The start sign, `'$'`. -/
def startSign : UInt8 := 0x24

/-- The carriage return. -/
def cr : UInt8 := 0x0d

/-- The line feed. -/
def lf : UInt8 := 0x0a

/-- What a pass of the loop of `read_gps_nmea` finds: the thread is to terminate, the poll times
out or fails, the read fails, or there is a byte. -/
inductive Port
  | terminate
  | timeout
  | readFails
  | byte (c : UInt8)

/-- The locals of `read_gps_nmea`, and the buffer of its caller. -/
structure Receiver where
  startFlag : Bool
  foundCr : Bool
  rxCount : Nat
  buffer : Buffer UInt8

namespace Receiver

/-- The locals when `read_gps_nmea` is called. -/
def init (buffer : Buffer UInt8) : Receiver where
  startFlag := false
  foundCr := false
  rxCount := 0
  buffer := buffer

/-- Detect the start. -/
def detectStart (c : UInt8) (r : Receiver) : Receiver :=
  if r.startFlag = false ∧ c = startSign then
    { r with startFlag := true, foundCr := false, rxCount := 0 }
  else
    r

/-- Store a byte, or flush the buffer if it is full already; the byte is dropped then. -/
def store (bufferSize : Nat) (c : UInt8) (r : Receiver) : Receiver :=
  if r.rxCount ≥ bufferSize then
    { r with startFlag := false, foundCr := false, rxCount := 0 }
  else
    { r with buffer := r.buffer.write r.rxCount c, rxCount := r.rxCount + 1 }

/-- Look for the carriage return. -/
def lookForCr (c : UInt8) (r : Receiver) : Receiver :=
  if r.startFlag = true ∧ c = cr then { r with foundCr := true } else r

/-- Is there a line feed after the carriage return? -/
def Complete (c : UInt8) (r : Receiver) : Prop :=
  r.startFlag = true ∧ r.foundCr = true ∧ c = lf

instance (c : UInt8) (r : Receiver) : Decidable (r.Complete c) :=
  inferInstanceAs (Decidable (_ ∧ _ ∧ _))

end Receiver

/-- The thread that reads: what the passes over the port will find, the buffer, the state of the
parser, and the sentences that `nmea_parse` has been given. -/
structure Thread (π : Type) where
  input : List Port
  buffer : Buffer UInt8
  parser : π
  handed : List (List UInt8)

section

variable {π : Type} (nmeaParse : List UInt8 → π → Int × π)

/-- `read_gps_nmea` returns. -/
def Thread.leave (t : Thread π) (input : List Port) (r : Receiver) : Thread π :=
  { t with input := input, buffer := r.buffer }

/-- `nmea_parse` is given what the buffer holds. -/
def Thread.hand (t : Thread π) (r : Receiver) : Nat × Thread π :=
  let sentence := r.buffer.firsts r.rxCount
  let (packets, parser) := nmeaParse sentence t.parser
  (if packets > 0 then 0 else 1,
    { t with parser := parser, handed := t.handed ++ [sentence] })

/-- The loop of `read_gps_nmea`. When `input` has come to its end, the poll times out. -/
def readLoop (bufferSize : Nat) (t : Thread π) : List Port → Receiver → Nat × Thread π
  | [], r => (1, t.leave [] r)
  | .terminate :: input, r => (2, t.leave input r)
  | .timeout :: input, r => (1, t.leave input r)
  | .readFails :: input, r => (1, t.leave input r)
  | .byte c :: input, r =>
      let r := r.detectStart c
      if r.startFlag = false then
        -- Keep looking for the start sign.
        readLoop bufferSize t input r
      else
        let r := (r.store bufferSize c).lookForCr c
        if r.Complete c then
          (t.leave input r).hand nmeaParse r
        else
          readLoop bufferSize t input r

/-- `read_gps_nmea`. -/
def readGpsNmea (bufferSize : Nat) (t : Thread π) : Nat × Thread π :=
  readLoop nmeaParse bufferSize t t.input (.init t.buffer)

/-- The loop of `nmea_loop`, for a number of passes. -/
def nmeaLoop : Nat → Thread π → Thread π
  | 0, t => t
  | n + 1, t =>
      let (readRes, t) := readGpsNmea nmeaParse nmeaBufferSize t
      if readRes = 2 then t else nmeaLoop n t

/-- The thread at its start. What the buffer holds then is not known. -/
def Thread.init (input : List Port) (value : Nat → UInt8) (parser : π) : Thread π where
  input := input
  buffer := .fresh value
  parser := parser
  handed := []

end

/-! ### What a stream is made of -/

/-- Bytes without a start sign. -/
structure Noise where
  bytes : List UInt8
  noStart : ∀ c ∈ bytes, c ≠ startSign

/-- A sentence: what is between the start sign and the end of the line. -/
structure Sentence where
  body : List UInt8
  noStart : ∀ c ∈ body, c ≠ startSign
  noCr : ∀ c ∈ body, c ≠ cr
  noLf : ∀ c ∈ body, c ≠ lf

/-- The bytes of a sentence. -/
def Sentence.bytes (s : Sentence) : List UInt8 := startSign :: (s.body ++ [cr, lf])

/-- A piece of a stream. -/
inductive Segment
  | noise (n : Noise)
  | sentence (s : Sentence)

/-- The bytes of a piece. -/
def Segment.bytes : Segment → List UInt8
  | noise n => n.bytes
  | sentence s => s.bytes

/-- The pieces one after the other, without time-outs. -/
def stream (segments : List Segment) : List Port := (segments.flatMap Segment.bytes).map .byte

/-- The sentence of a piece, if there is one and it fits into the buffer. -/
def Segment.fitting (bufferSize : Nat) : Segment → Option (List UInt8)
  | noise _ => none
  | sentence s => if s.bytes.length ≤ bufferSize then some s.bytes else none

/-- The sentences that fit into the buffer. -/
def fitting (bufferSize : Nat) (segments : List Segment) : List (List UInt8) :=
  segments.filterMap (Segment.fitting bufferSize)

theorem stream_cons (segment : Segment) (segments : List Segment) :
    stream (segment :: segments) = segment.bytes.map .byte ++ stream segments := by
  simp [stream]

/-! ### What bytes do to the locals -/

/-- The bytes lead the loop of `read_gps_nmea` from some locals to others. -/
def Consumes (bufferSize : Nat) (r : Receiver) (bs : List UInt8) (r' : Receiver) : Prop :=
  ∀ (π : Type) (nmeaParse : List UInt8 → π → Int × π) (t : Thread π) (input : List Port),
    readLoop nmeaParse bufferSize t (bs.map .byte ++ input) r
      = readLoop nmeaParse bufferSize t input r'

section

variable {bufferSize : Nat} {r r' r'' : Receiver} {c : UInt8} {bs bs' : List UInt8}

theorem Consumes.nil : Consumes bufferSize r [] r := fun _ _ _ _ => rfl

theorem Consumes.append (h : Consumes bufferSize r bs r') (h' : Consumes bufferSize r' bs' r'') :
    Consumes bufferSize r (bs ++ bs') r'' := by
  intro π nmeaParse t input
  rw [List.map_append, List.append_assoc, h, h']

theorem Consumes.cons (h : Consumes bufferSize r [c] r') (h' : Consumes bufferSize r' bs r'') :
    Consumes bufferSize r (c :: bs) r'' := h.append h'

/-- Before a start sign, bytes are not looked at. -/
theorem Consumes.noise (hr : r.startFlag = false) (hbs : ∀ c ∈ bs, c ≠ startSign) :
    Consumes bufferSize r bs r := by
  induction bs with
  | nil => exact .nil
  | cons c bs ih =>
      refine .cons (fun π nmeaParse t input => ?_) (ih fun c hc => hbs c (.tail _ hc))
      have hc : c ≠ startSign := hbs c (.head _)
      have hstart : r.detectStart c = r := by simp [Receiver.detectStart, hc]
      rw [List.map_singleton, List.singleton_append, readLoop, hstart, if_pos hr]

/-- In a sentence that is not complete, a byte goes into the buffer. -/
theorem Consumes.byte (hr : (r.detectStart c).startFlag = true)
    (hincomplete : ¬ (((r.detectStart c).store bufferSize c).lookForCr c).Complete c) :
    Consumes bufferSize r [c] (((r.detectStart c).store bufferSize c).lookForCr c) := by
  intro π nmeaParse t input
  have hstarted : ¬ (r.detectStart c).startFlag = false := by simp [hr]
  rw [List.map_singleton, List.singleton_append, readLoop, if_neg hstarted, if_neg hincomplete]

/-- When the buffer is full, it is flushed and the next start sign is looked for. -/
theorem Consumes.flush (hr : r.startFlag = true) (hfull : bufferSize ≤ r.rxCount) :
    Consumes bufferSize r [c] (.init r.buffer) := by
  have hstart : r.detectStart c = r := by simp [Receiver.detectStart, hr]
  have hflush : ((r.detectStart c).store bufferSize c).lookForCr c = .init r.buffer := by
    simp [hstart, Receiver.store, hfull, Receiver.lookForCr, Receiver.init]
  rw [← hflush]
  refine .byte ?_ ?_
  · rw [hstart]
    exact hr
  · rw [hflush]
    simp [Receiver.Complete, Receiver.init]

/-- The receiver has got the first bytes of a sentence, and no carriage return. -/
structure Receiver.Holds (r : Receiver) (bs : List UInt8) : Prop where
  startFlag : r.startFlag = true
  foundCr : r.foundCr = false
  rxCount : r.rxCount = bs.length
  buffer : r.buffer.firsts bs.length = bs

/-- The buffer with another byte. -/
theorem firsts_write (b : Buffer UInt8) (i : Nat) (c : UInt8) :
    (b.write i c).firsts (i + 1) = b.firsts i ++ [c] :=
  show (Buffer.put i [c] b).firsts (i + [c].length) = b.firsts i ++ [c] from Buffer.firsts_put

namespace Receiver.Holds

/-- Within a sentence, a start sign means nothing. -/
theorem detectStart (h : r.Holds bs) : r.detectStart c = r := by
  simp [Receiver.detectStart, h.startFlag]

/-- A byte for which there is room. -/
theorem store (h : r.Holds bs) (hroom : bs.length < bufferSize) :
    r.store bufferSize c
      = { r with buffer := r.buffer.write bs.length c, rxCount := bs.length + 1 } := by
  rw [Receiver.store, h.rxCount, if_neg (Nat.not_le_of_lt hroom)]

/-- One more byte of a sentence, which does not end it. -/
theorem consumes (h : (r.detectStart c).Holds bs) (hc : c ≠ cr) (hroom : bs.length < bufferSize) :
    ∃ r', r'.Holds (bs ++ [c]) ∧ Consumes bufferSize r [c] r' := by
  have hcr : ((r.detectStart c).store bufferSize c).lookForCr c
      = (r.detectStart c).store bufferSize c := by simp [Receiver.lookForCr, hc]
  refine ⟨_, ?_, .byte h.startFlag ?_⟩
  · rw [hcr, h.store hroom]
    exact {
      startFlag := h.startFlag
      foundCr := h.foundCr
      rxCount := by simp
      buffer := by rw [List.length_append, List.length_singleton, firsts_write, h.buffer] }
  · rw [hcr, h.store hroom]
    simp [Receiver.Complete, h.foundCr]

/-- The body of a sentence, as far as there is room. -/
theorem body (h : r.Holds bs) (hbody : ∀ c ∈ bs', c ≠ cr)
    (hroom : bs.length + bs'.length ≤ bufferSize) :
    ∃ r', r'.Holds (bs ++ bs') ∧ Consumes bufferSize r bs' r' := by
  induction bs' generalizing r bs with
  | nil => exact ⟨r, by rwa [List.append_nil], .nil⟩
  | cons c bs' ih =>
      rw [List.length_cons] at hroom
      have hstart : (r.detectStart c).Holds bs := by rwa [h.detectStart]
      have hnow : bs.length < bufferSize := by omega
      have hthen : (bs ++ [c]).length + bs'.length ≤ bufferSize := by
        rw [List.length_append, List.length_singleton]
        omega
      obtain ⟨r₁, h₁, hnext⟩ := hstart.consumes (hbody c (.head _)) hnow
      obtain ⟨r₂, h₂, hrest⟩ := ih h₁ (fun c hc => hbody c (.tail _ hc)) hthen
      exact ⟨r₂, by simpa using h₂, hnext.cons hrest⟩

/-- The carriage return, for which there is room. -/
theorem carriageReturn (h : r.Holds bs) (hroom : bs.length < bufferSize) :
    Consumes bufferSize r [cr]
      { r with
        foundCr := true
        buffer := r.buffer.write bs.length cr
        rxCount := bs.length + 1 } := by
  have hcr : ((r.detectStart cr).store bufferSize cr).lookForCr cr
      = { r with
          foundCr := true
          buffer := r.buffer.write bs.length cr
          rxCount := bs.length + 1 } := by
    rw [h.detectStart, h.store hroom]
    simp [Receiver.lookForCr, h.startFlag]
  rw [← hcr]
  refine .byte ?_ ?_
  · rw [h.detectStart]
    exact h.startFlag
  · simp [Receiver.Complete, cr, lf]

/-- A sentence for which there is no room is dropped, whatever is left of it. -/
theorem overflow (h : r.Holds bs) (hcr : ∀ c ∈ bs', c ≠ cr) (hstart : ∀ c ∈ bs', c ≠ startSign)
    (hheld : bs.length ≤ bufferSize) (hlong : bufferSize < bs.length + bs'.length + 2) :
    ∃ r', r'.startFlag = false ∧ Consumes bufferSize r (bs' ++ [cr, lf]) r' := by
  induction bs' generalizing r bs with
  | nil =>
      rw [List.length_nil] at hlong
      rcases Nat.lt_or_eq_of_le hheld with hroom | hfull
      · -- The carriage return fills the buffer, and the line feed flushes it.
        have hfull : bufferSize ≤ bs.length + 1 := by omega
        exact ⟨_, rfl, .cons (h.carriageReturn hroom) (.flush h.startFlag hfull)⟩
      · have hcount : bufferSize ≤ r.rxCount := Nat.le_of_eq (h.rxCount.trans hfull).symm
        refine ⟨_, rfl, .cons (.flush h.startFlag hcount) (.noise rfl ?_)⟩
        simp [lf, startSign]
  | cons c bs' ih =>
      rw [List.length_cons] at hlong
      rcases Nat.lt_or_eq_of_le hheld with hroom | hfull
      · have hnext : (r.detectStart c).Holds bs := by rwa [h.detectStart]
        obtain ⟨r₁, h₁, hbyte⟩ := hnext.consumes (hcr c (.head _)) hroom
        have hlength : (bs ++ [c]).length = bs.length + 1 := by simp
        obtain ⟨r₂, h₂, hrest⟩ := ih h₁ (fun c hc => hcr c (.tail _ hc))
          (fun c hc => hstart c (.tail _ hc)) (by omega) (by omega)
        exact ⟨r₂, h₂, hbyte.cons hrest⟩
      · -- The byte flushes the buffer, and what is left of the sentence has no start sign.
        have hcount : bufferSize ≤ r.rxCount := Nat.le_of_eq (h.rxCount.trans hfull).symm
        refine ⟨_, rfl, .cons (.flush h.startFlag hcount) (.noise rfl ?_)⟩
        intro c hc
        rcases List.mem_append.mp hc with hbody | hend
        · exact hstart c (.tail _ hbody)
        · have hline : ∀ c ∈ [cr, lf], c ≠ startSign := by simp [cr, lf, startSign]
          exact hline c hend

/-- A start sign is the first byte of a sentence. -/
theorem start (hsize : 0 < bufferSize) (hr : r.startFlag = false) :
    ∃ r', r'.Holds [startSign] ∧ Consumes bufferSize r [startSign] r' := by
  have hstart : (r.detectStart startSign).Holds [] := by
    have hdetect : r.detectStart startSign
        = { r with startFlag := true, foundCr := false, rxCount := 0 } := by
      simp [Receiver.detectStart, hr]
    rw [hdetect]
    exact ⟨rfl, rfl, rfl, rfl⟩
  exact hstart.consumes (by decide) hsize

/-- The end of the line, for which there is room: the sentence is handed to `nmea_parse`. -/
theorem complete (h : r.Holds bs) (hroom : bs.length + 2 ≤ bufferSize) {π : Type}
    (nmeaParse : List UInt8 → π → Int × π) (t : Thread π) (input : List Port) :
    ∃ r', r'.buffer.firsts r'.rxCount = bs ++ [cr, lf] ∧
      readLoop nmeaParse bufferSize t ([cr, lf].map .byte ++ input) r
        = (t.leave input r').hand nmeaParse r' := by
  have hcr : bs.length < bufferSize := by omega
  have hlf : ¬ bs.length + 1 ≥ bufferSize := by omega
  refine ⟨{ r with
    foundCr := true
    buffer := (r.buffer.write bs.length cr).write (bs.length + 1) lf
    rxCount := bs.length + 2 }, ?_, ?_⟩
  · rw [firsts_write, firsts_write, h.buffer, List.append_assoc]
    rfl
  · rw [List.map_cons, List.cons_append]
    refine (h.carriageReturn hcr π nmeaParse t ([lf].map .byte ++ input)).trans ?_
    -- The line feed: it is stored, and it completes the sentence.
    simp [readLoop, Receiver.detectStart, Receiver.store, Receiver.lookForCr, Receiver.Complete,
      h.startFlag, hlf, cr, lf]

end Receiver.Holds

theorem Sentence.length_bytes (s : Sentence) : s.bytes.length = s.body.length + 3 := by
  simp [Sentence.bytes]

/-- A sentence that is too long is dropped. -/
theorem Consumes.tooLong (hsize : 0 < bufferSize) (hr : r.startFlag = false) (s : Sentence)
    (hlong : bufferSize < s.bytes.length) :
    ∃ r', r'.startFlag = false ∧ Consumes bufferSize r s.bytes r' := by
  have hrest : bufferSize < [startSign].length + s.body.length + 2 := by
    rw [s.length_bytes] at hlong
    simp
    omega
  obtain ⟨r₁, h₁, hstart⟩ := Receiver.Holds.start hsize hr
  obtain ⟨r₂, h₂, hrest⟩ := h₁.overflow s.noCr s.noStart hsize hrest
  exact ⟨r₂, h₂, hstart.cons hrest⟩

/-- A sentence that fits is handed to `nmea_parse` at its line feed. -/
theorem readLoop_sentence (hsize : 0 < bufferSize) (hr : r.startFlag = false) (s : Sentence)
    (hfits : s.bytes.length ≤ bufferSize) {π : Type} (nmeaParse : List UInt8 → π → Int × π)
    (t : Thread π) (input : List Port) :
    ∃ r', r'.buffer.firsts r'.rxCount = s.bytes ∧
      readLoop nmeaParse bufferSize t (s.bytes.map .byte ++ input) r
        = (t.leave input r').hand nmeaParse r' := by
  rw [s.length_bytes] at hfits
  have hbody : [startSign].length + s.body.length ≤ bufferSize := by
    simp
    omega
  have hline : ([startSign] ++ s.body).length + 2 ≤ bufferSize := by
    simp
    omega
  obtain ⟨r₁, h₁, hstart⟩ := Receiver.Holds.start hsize hr
  obtain ⟨r₂, h₂, hrest⟩ := h₁.body s.noCr hbody
  obtain ⟨r₃, h₃, hend⟩ := h₂.complete hline nmeaParse t input
  refine ⟨r₃, by simpa [Sentence.bytes] using h₃, ?_⟩
  have hbytes : s.bytes = (startSign :: s.body) ++ [cr, lf] := rfl
  rw [hbytes, List.map_append, List.append_assoc, hstart.cons hrest, hend]

end

/-! ### Calls -/

section

variable {π : Type} (nmeaParse : List UInt8 → π → Int × π) {bufferSize : Nat}

/-- What is handed to `nmea_parse`. -/
theorem Thread.hand_handed (t : Thread π) (r : Receiver) :
    (t.hand nmeaParse r).2.handed = t.handed ++ [r.buffer.firsts r.rxCount] := rfl

/-- A call that hands a sentence over does not end the thread. -/
theorem Thread.hand_ne (t : Thread π) (r : Receiver) : (t.hand nmeaParse r).1 ≠ 2 := by
  rw [Thread.hand]
  simp only
  split <;> decide

/-- **A call.** It takes the pieces up to the first sentence that fits, which it hands over; if
there is none, it takes the whole stream and hands nothing over. -/
theorem readLoop_stream (hsize : 0 < bufferSize) (segments : List Segment) (t : Thread π)
    {r : Receiver} (hr : r.startFlag = false) :
    ∃ rest,
      (readLoop nmeaParse bufferSize t (stream segments) r).1 ≠ 2 ∧
      (readLoop nmeaParse bufferSize t (stream segments) r).2.input = stream rest ∧
      (readLoop nmeaParse bufferSize t (stream segments) r).2.handed
        = t.handed ++ (fitting bufferSize segments).take 1 ∧
      fitting bufferSize rest = (fitting bufferSize segments).drop 1 := by
  induction segments generalizing r with
  | nil => exact ⟨[], by simp [readLoop, stream, Thread.leave, fitting]⟩
  | cons segment segments ih =>
      rw [stream_cons]
      cases segment with
      | noise n =>
          have hnone : fitting bufferSize (.noise n :: segments)
              = fitting bufferSize segments := rfl
          rw [Segment.bytes, Consumes.noise hr n.noStart, hnone]
          exact ih hr
      | sentence s =>
          by_cases hfits : s.bytes.length ≤ bufferSize
          · obtain ⟨r', hbuffer, hcall⟩ := readLoop_sentence hsize hr s hfits nmeaParse t
              (stream segments)
            have hfirst : fitting bufferSize (.sentence s :: segments)
                = s.bytes :: fitting bufferSize segments := by
              simp [fitting, Segment.fitting, hfits]
            refine ⟨segments, ?_⟩
            rw [Segment.bytes, hcall, hfirst]
            refine ⟨Thread.hand_ne _ _ _, rfl, ?_, rfl⟩
            rw [Thread.hand_handed, hbuffer]
            rfl
          · have hlong : bufferSize < s.bytes.length := Nat.lt_of_not_le hfits
            obtain ⟨r', hr', hdropped⟩ := Consumes.tooLong hsize hr s hlong
            have hnone : fitting bufferSize (.sentence s :: segments)
                = fitting bufferSize segments := by
              simp [fitting, Segment.fitting, hfits]
            rw [Segment.bytes, hdropped, hnone]
            exact ih hr'

/-- Passes of `nmea_loop` hand the sentences over, one each. -/
theorem nmeaLoop_stream (n : Nat) (t : Thread π) (segments : List Segment)
    (hinput : t.input = stream segments) :
    (nmeaLoop nmeaParse n t).handed
      = t.handed ++ (fitting nmeaBufferSize segments).take n := by
  induction n generalizing t segments with
  | zero => simp [nmeaLoop]
  | succ n ih =>
      have hsize : 0 < nmeaBufferSize := by decide
      obtain ⟨rest, hret, hrest, hhanded, hfitting⟩ :=
        readLoop_stream nmeaParse hsize segments t (r := .init t.buffer) rfl
      rw [nmeaLoop, readGpsNmea, hinput]
      simp only [if_neg hret]
      rw [ih _ rest hrest, hhanded, hfitting, List.append_assoc]
      congr 1
      rw [Nat.add_comm n 1, List.take_add]

/-! ### Stores -/

/-- Nothing has been stored outside of the buffer. -/
def InBounds (bufferSize : Nat) (b : Buffer UInt8) : Prop :=
  ∀ i, b.written i = true → i < bufferSize

theorem Receiver.inBounds_store {r : Receiver} (c : UInt8) (h : InBounds bufferSize r.buffer) :
    InBounds bufferSize ((r.detectStart c).store bufferSize c).buffer := by
  have hdetect : (r.detectStart c).buffer = r.buffer := by
    rw [Receiver.detectStart]
    split <;> rfl
  rw [Receiver.store]
  split
  · simpa [hdetect] using h
  · rename_i hroom
    intro i hwritten
    rcases Bool.or_eq_true _ _ ▸ hwritten with hhere | hbefore
    · rw [decide_eq_true_eq] at hhere
      omega
    · exact h i (hdetect ▸ hbefore)

/-- A call stores nothing outside of the buffer, whatever the port gives. -/
theorem inBounds_readLoop (t : Thread π) (input : List Port) {r : Receiver}
    (h : InBounds bufferSize r.buffer) :
    InBounds bufferSize (readLoop nmeaParse bufferSize t input r).2.buffer := by
  induction input generalizing r with
  | nil => exact h
  | cons port input ih =>
      cases port with
      | terminate => exact h
      | timeout => exact h
      | readFails => exact h
      | byte c =>
          have hstore : InBounds bufferSize
              (((r.detectStart c).store bufferSize c).lookForCr c).buffer := by
            rw [Receiver.lookForCr]
            split <;> exact r.inBounds_store c h
          have hdetect : InBounds bufferSize (r.detectStart c).buffer := by
            rw [Receiver.detectStart]
            split <;> exact h
          rw [readLoop]
          simp only
          split
          · exact ih hdetect
          · split
            · exact hstore
            · exact ih hstore

theorem inBounds_nmeaLoop (n : Nat) (t : Thread π) (h : InBounds nmeaBufferSize t.buffer) :
    InBounds nmeaBufferSize (nmeaLoop nmeaParse n t).buffer := by
  induction n generalizing t with
  | zero => exact h
  | succ n ih =>
      have hcall : InBounds nmeaBufferSize (readGpsNmea nmeaParse nmeaBufferSize t).2.buffer :=
        inBounds_readLoop nmeaParse t t.input h
      rw [nmeaLoop]
      simp only
      split
      · exact hcall
      · exact ih _ hcall

/-- **The extraction of sentences.** From a stream of noise and sentences without time-outs, `n`
passes of the loop hand the first `n` of the sentences that fit into the buffer to `nmea_parse`,
complete and in order, and drop the others. From any stream, nothing is stored outside of the
buffer. -/
theorem nmea_extraction (value : Nat → UInt8) (parser : π) (n : Nat) :
    (∀ segments, (nmeaLoop nmeaParse n (.init (stream segments) value parser)).handed
      = (fitting nmeaBufferSize segments).take n) ∧
    (∀ input, InBounds nmeaBufferSize
      (nmeaLoop nmeaParse n (.init input value parser)).buffer) := by
  constructor
  · intro segments
    exact nmeaLoop_stream nmeaParse n (.init (stream segments) value parser) segments rfl
  · intro input
    refine inBounds_nmeaLoop nmeaParse n _ fun i hwritten => ?_
    simp [Thread.init, Buffer.fresh] at hwritten

end

end Px4Firmware.Gps.Nmea
