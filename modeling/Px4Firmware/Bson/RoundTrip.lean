import Mathlib.Tactic.SplitIfs
import Px4Firmware.Bson.Coder

/-!
# Px4Firmware.Bson.RoundTrip

What the encoder writes for a node, and that the decoder reads it back: `readNode` undoes
`intNode` and `doubleNode`. Reading also consumes the stream (`readNode_length`), so that decoding
comes to an end.
-/

namespace Px4Firmware.Bson

open Px4Firmware.Lib

section

variable {e : Endian}

/-! ### Reading back -/

theorem readBytes_append (bytes rest : List UInt8) :
    readBytes bytes.length (bytes ++ rest) = some (bytes, rest) := by
  unfold readBytes
  rw [if_pos (by simp)]
  simp

theorem readInt32_append (w : UInt32) (rest : List UInt8) :
    readInt32 e (e.bytes32 w ++ rest) = some (w, rest) := by
  have h := readBytes_append (e.bytes32 w) rest
  rw [Endian.bytes32_length] at h
  unfold readInt32
  rw [h, Option.map_some, Endian.word32_bytes32]

theorem readDouble_append (w : UInt64) (rest : List UInt8) :
    readDouble e (e.bytes64 w ++ rest) = some (w, rest) := by
  have h := readBytes_append (e.bytes64 w) rest
  rw [Endian.bytes64_length] at h
  unfold readDouble
  rw [h, Option.map_some, Endian.word64_bytes64]

/-- A name that leaves room for its terminator is read back. -/
theorem readName_append {name : List UInt8} (hname : 0 ∉ name) {room : Nat}
    (hroom : name.length < room) (rest : List UInt8) :
    readName room (name ++ 0 :: rest) = some (name, rest) := by
  induction name generalizing room with
  | nil =>
      obtain ⟨room, rfl⟩ := Nat.exists_eq_succ_of_ne_zero (Nat.ne_of_gt hroom)
      rfl
  | cons b name ih =>
      obtain ⟨room, rfl⟩ := Nat.exists_eq_succ_of_ne_zero (Nat.ne_of_gt (Nat.zero_lt_of_lt hroom))
      rw [List.mem_cons, not_or] at hname
      have hrest := ih hname.2 (Nat.lt_of_succ_lt_succ hroom)
      have hb : b ≠ 0 := Ne.symm hname.1
      simp [readName, readInt8, hb, hrest]

/-! ### Nodes -/

/-- The bytes of a node with an integer. -/
def intNode (e : Endian) (name : List UInt8) (value : UInt32) : List UInt8 :=
  bsonInt :: (name ++ 0 :: e.bytes32 value)

/-- The bytes of a node with a double. -/
def doubleNode (e : Endian) (name : List UInt8) (value : UInt64) : List UInt8 :=
  bsonDouble :: (name ++ 0 :: e.bytes64 value)

theorem discardPending_zero (stream : List UInt8) : discardPending 0 stream = some stream := by
  simp [discardPending, readBytes]

/-- **An integer node is read back.** -/
theorem readNode_intNode {decoder : Decoder} (hpending : decoder.pending = 0) {name : List UInt8}
    (hname : 0 ∉ name) (hlen : name.length < bsonMaxname) (value : UInt32) (rest : List UInt8) :
    readNode e decoder (intNode e name value ++ rest) =
      some ({ decoder.node with type := bsonInt, name := name, i := value }, 0, rest) := by
  have hread := readName_append hname hlen (e.bytes32 value ++ rest)
  have htype : bsonInt ≠ bsonEoo := by decide
  simp only [readNode, hpending, discardPending_zero, intNode, List.cons_append, List.append_assoc,
    readInt8, Option.bind_eq_bind, Option.bind_some, if_neg htype, hread, readValue,
    readInt32_append, if_true]
  rfl

/-- **A double node is read back.** -/
theorem readNode_doubleNode {decoder : Decoder} (hpending : decoder.pending = 0)
    {name : List UInt8} (hname : 0 ∉ name) (hlen : name.length < bsonMaxname) (value : UInt64)
    (rest : List UInt8) :
    readNode e decoder (doubleNode e name value ++ rest) =
      some ({ decoder.node with type := bsonDouble, name := name, d := value }, 0, rest) := by
  have hread := readName_append hname hlen (e.bytes64 value ++ rest)
  have htype : bsonDouble ≠ bsonEoo := by decide
  have hint : bsonDouble ≠ bsonInt := by decide
  simp only [readNode, hpending, discardPending_zero, doubleNode, List.cons_append,
    List.append_assoc, readInt8, Option.bind_eq_bind, Option.bind_some, if_neg htype, hread,
    readValue, if_neg hint, readDouble_append, if_true]
  rfl

/-- The end of the document is read back. -/
theorem readNode_eoo {decoder : Decoder} (hpending : decoder.pending = 0) (rest : List UInt8) :
    readNode e decoder (bsonEoo :: rest) =
      some ({ decoder.node with type := bsonEoo }, 0, rest) := by
  simp only [readNode, hpending, discardPending_zero, readInt8, Option.bind_eq_bind,
    Option.bind_some, if_true]
  rfl

/-- The decoder in the middle of a document calls the callback with what it reads. -/
theorem bsonDecoderNext_of_readNode {σ : Type} {callback : Decoder → σ → Int × Decoder × σ}
    {decoder : Decoder} {stream rest : List UInt8} {node : Node} {pending : UInt32}
    (hfd : decoder.fd = some stream) (htype : decoder.node.type ≠ bsonEoo)
    (hread : ∀ d : Decoder, d.pending = decoder.pending → d.node = decoder.node →
      readNode e d stream = some (node, pending, rest)) (priv : σ) :
    bsonDecoderNext e callback decoder priv =
      callback { decoder with fd := some rest, node := node, pending := pending } priv := by
  have hnesting : popNesting decoder = decoder.nesting := if_neg htype
  have hnext := hread { decoder with fd := some stream } rfl rfl
  unfold bsonDecoderNext
  rw [hfd]
  simp only [hnesting]
  rw [if_neg fun h => htype h.1, hnext]

/-! ### Writing -/

variable {accept : List UInt8 → List UInt8 → Bool} {encoder : Encoder}

/-- What a complete run of an encoder function adds to the file. -/
def Writes (x : Encode) (bytes : List UInt8) : Prop :=
  ∀ encoder, outcome x
    (fun _ encoder' => encoder' = { encoder with written := encoder.written ++ bytes })
    (fun _ _ => True) encoder

theorem writes_writeBytes (accept : List UInt8 → List UInt8 → Bool) (bytes : List UInt8) :
    Writes (writeBytes accept bytes) bytes := by
  intro encoder
  simp [writeBytes]

theorem Writes.bind {x : Encode} {y : Encode} {bs cs : List UInt8} (hx : Writes x bs)
    (hy : Writes y cs) : Writes (x >>= fun _ => y) (bs ++ cs) := by
  intro encoder
  rw [outcome_bind]
  refine (hx encoder).mono ?_ fun _ _ _ => trivial
  rintro _ encoder' rfl
  refine (hy _).mono ?_ fun _ _ _ => trivial
  rintro _ encoder'' rfl
  simp

theorem writes_writeName (accept : List UInt8 → List UInt8 → Bool) (name : List UInt8) :
    Writes (writeName accept name) (name ++ [0]) := by
  intro encoder
  unfold writeName
  split_ifs
  · exact trivial
  · exact writes_writeBytes accept (name ++ [0]) encoder

theorem Writes.orKill {x : Encode} {bs : List UInt8} (hx : Writes x bs) :
    Writes (coderCheck >>= fun _ => orKill x) bs := by
  intro encoder
  simp only [coderCheck, Bson.orKill, outcome_bind, outcome_get, outcome_ite, outcome_pure,
    outcome_throw, outcome_tryCatch, outcome_modify]
  exact ⟨fun _ => hx encoder, fun _ => trivial⟩

theorem writes_appendInt (name : List UInt8) (value : UInt32) :
    Writes (bsonEncoderAppendInt e accept name value) (intNode e name value) := by
  have h := ((writes_writeBytes accept [bsonInt]).bind
    ((writes_writeName accept name).bind (writes_writeBytes accept (e.bytes32 value)))).orKill
  rw [show [bsonInt] ++ (name ++ [0] ++ e.bytes32 value) = intNode e name value by
    simp [intNode]] at h
  exact h

theorem writes_appendDouble (name : List UInt8) (value : UInt64) :
    Writes (bsonEncoderAppendDouble e accept name value) (doubleNode e name value) := by
  have h := ((writes_writeBytes accept [bsonDouble]).bind
    ((writes_writeName accept name).bind (writes_writeBytes accept (e.bytes64 value)))).orKill
  rw [show [bsonDouble] ++ (name ++ [0] ++ e.bytes64 value) = doubleNode e name value by
    simp [doubleNode]] at h
  exact h

theorem writes_fini (accept : List UInt8 → List UInt8 → Bool) :
    Writes (bsonEncoderFini accept) [bsonEoo] :=
  (writes_writeBytes accept [bsonEoo]).orKill

/-- An encoder whose initialisation has failed is dead. -/
theorem outcome_init (e : Endian) (accept : List UInt8 → List UInt8 → Bool) (encoder : Encoder) :
    outcome (bsonEncoderInit e accept)
      (fun _ encoder' => encoder' = { encoder with written := encoder.written ++ e.bytes32 0 })
      (fun _ encoder' => encoder'.fd = false) encoder := by
  simp only [bsonEncoderInit, orKill, outcome_tryCatch, outcome_bind, outcome_modify,
    outcome_throw]
  exact (writes_writeBytes accept (e.bytes32 0) encoder).mono (fun _ _ h => h) fun _ _ _ => trivial

/-- A dead encoder cannot finish. -/
theorem alive_of_fini (h : ends (bsonEncoderFini accept) encoder = true) : encoder.fd = true := by
  cases hfd : encoder.fd with
  | true => rfl
  | false =>
      have hdead :
          outcome (bsonEncoderFini accept) (fun _ _ => False) (fun _ _ => True) encoder := by
        simp [bsonEncoderFini, coderCheck, hfd]
      unfold ends at h
      unfold outcome at hdead
      cases hrun : bsonEncoderFini accept encoder with
      | ok a t =>
          rw [hrun] at hdead
          exact hdead.elim
      | error err t =>
          rw [hrun] at h
          exact nomatch h

/-- An encoder that is alive after its initialisation has written the document size. -/
theorem written_of_init {written : List UInt8} {fd : Bool}
    (h : after (bsonEncoderInit e accept) encoder = { fd := fd, written := written })
    (halive : fd = true) : written = encoder.written ++ e.bytes32 0 := by
  have hinit := outcome_init e accept encoder
  unfold outcome at hinit
  unfold after at h
  cases hrun : bsonEncoderInit e accept encoder with
  | ok u encoder' =>
      rw [hrun] at hinit h
      simp only at hinit h
      rw [hinit] at h
      exact (congrArg Encoder.written h).symm
  | error err encoder' =>
      rw [hrun] at hinit h
      simp only at hinit h
      rw [h] at hinit
      exact nomatch halive.symm.trans hinit

/-- What is in the file after it has been finished. -/
theorem written_of_fini (h : ends (bsonEncoderFini accept) encoder = true) :
    (after (bsonEncoderFini accept) encoder).written = encoder.written ++ [bsonEoo] := by
  have hfini := writes_fini accept encoder
  unfold outcome at hfini
  rw [ends_iff.mp h] at hfini
  exact congrArg Encoder.written hfini

end

/-! ### Reading consumes the stream -/

theorem readBytes_length {n : Nat} {stream bytes rest : List UInt8}
    (h : readBytes n stream = some (bytes, rest)) : rest.length ≤ stream.length := by
  unfold readBytes at h
  split_ifs at h with hle
  cases h
  rw [List.length_drop]
  omega

theorem readInt8_length {stream rest : List UInt8} {b : UInt8}
    (h : readInt8 stream = some (b, rest)) : rest.length < stream.length := by
  cases stream with
  | nil => exact nomatch h
  | cons c stream =>
      cases h
      exact Nat.lt_succ_self _

theorem readInt32_length {e : Endian} {stream rest : List UInt8} {w : UInt32}
    (h : readInt32 e stream = some (w, rest)) : rest.length ≤ stream.length := by
  obtain ⟨⟨bytes, rest'⟩, hread, heq⟩ := Option.map_eq_some_iff.mp h
  cases heq
  exact readBytes_length hread

theorem readDouble_length {e : Endian} {stream rest : List UInt8} {w : UInt64}
    (h : readDouble e stream = some (w, rest)) : rest.length ≤ stream.length := by
  obtain ⟨⟨bytes, rest'⟩, hread, heq⟩ := Option.map_eq_some_iff.mp h
  cases heq
  exact readBytes_length hread

theorem readName_length {room : Nat} {stream name rest : List UInt8}
    (h : readName room stream = some (name, rest)) : rest.length ≤ stream.length := by
  induction room generalizing stream name with
  | zero => exact nomatch h
  | succ room ih =>
      simp only [readName, Option.bind_eq_bind, Option.bind_eq_some_iff, Prod.exists] at h
      obtain ⟨b, stream', hbyte, h⟩ := h
      have hlt := readInt8_length hbyte
      split_ifs at h
      · cases h
        exact Nat.le_of_lt hlt
      · simp only [Option.bind_eq_some_iff, Prod.exists] at h
        obtain ⟨name', rest', hname, heq⟩ := h
        cases heq
        exact Nat.le_trans (ih hname) (Nat.le_of_lt hlt)

theorem discardPending_length {pending : UInt32} {stream rest : List UInt8}
    (h : discardPending pending stream = some rest) : rest.length ≤ stream.length := by
  unfold discardPending at h
  split_ifs at h
  · obtain ⟨⟨bytes, rest'⟩, hread, heq⟩ := Option.map_eq_some_iff.mp h
    cases heq
    exact readBytes_length hread
  · cases h
    exact Nat.le_refl _

theorem readValue_length {e : Endian} {node node' : Node} {stream rest : List UInt8}
    {pending : UInt32} (h : readValue e node stream = some (node', pending, rest)) :
    rest.length ≤ stream.length := by
  unfold readValue at h
  split_ifs at h
  · simp only [Option.bind_eq_bind, Option.bind_eq_some_iff, Prod.exists] at h
    obtain ⟨i, rest', hread, heq⟩ := h
    cases heq
    exact readInt32_length hread
  · simp only [Option.bind_eq_bind, Option.bind_eq_some_iff, Prod.exists] at h
    obtain ⟨d, rest', hread, heq⟩ := h
    cases heq
    exact readDouble_length hread
  · simp only [Option.bind_eq_bind, Option.bind_eq_some_iff, Prod.exists] at h
    obtain ⟨len, rest', hread, heq⟩ := h
    cases heq
    exact readInt32_length hread
  · simp only [Option.bind_eq_bind, Option.bind_eq_some_iff, Prod.exists] at h
    obtain ⟨len, stream', hread, subtype, rest', hread', heq⟩ := h
    cases heq
    exact Nat.le_trans (Nat.le_of_lt (readInt8_length hread')) (readInt32_length hread)

/-- Every node takes at least its type byte. -/
theorem readNode_length {e : Endian} {decoder : Decoder} {stream rest : List UInt8} {node : Node}
    {pending : UInt32} (h : readNode e decoder stream = some (node, pending, rest)) :
    rest.length < stream.length := by
  simp only [readNode, Option.bind_eq_bind, Option.bind_eq_some_iff, Prod.exists] at h
  obtain ⟨stream', hdiscard, type, stream'', htype, h⟩ := h
  have hlt := Nat.lt_of_lt_of_le (readInt8_length htype) (discardPending_length hdiscard)
  split_ifs at h
  · cases h
    exact hlt
  · simp only [Option.bind_eq_some_iff, Prod.exists] at h
    obtain ⟨name, valueStream, hname, hvalue⟩ := h
    have hle := Nat.le_trans (readValue_length hvalue) (readName_length hname)
    exact Nat.lt_of_le_of_lt hle hlt

/-- The number of bytes that a decoder has left to read. -/
def Decoder.left (decoder : Decoder) : Nat := (decoder.fd.getD []).length

/-- A step of the decoder ends the decoding, or takes something from the stream and calls the
callback. -/
theorem bsonDecoderNext_cases {e : Endian} {σ : Type} (callback : Decoder → σ → Int × Decoder × σ)
    (decoder : Decoder) (priv : σ) :
    (∃ result decoder', result ≤ 0 ∧
        bsonDecoderNext e callback decoder priv = (result, decoder', priv)) ∨
      ∃ decoder', decoder'.left < decoder.left ∧
        bsonDecoderNext e callback decoder priv = callback decoder' priv := by
  unfold bsonDecoderNext
  cases hfd : decoder.fd with
  | none => exact .inl ⟨-1, decoder, by decide, rfl⟩
  | some stream =>
      simp only
      split_ifs
      · exact .inl ⟨0, _, Int.le_refl 0, rfl⟩
      · split
        · exact .inl ⟨-1, _, by decide, rfl⟩
        · rename_i node pending rest hread
          refine .inr ⟨_, ?_, rfl⟩
          unfold Decoder.left
          rw [hfd]
          exact readNode_length hread

theorem left_bsonDecoderCopyData (decoder : Decoder) :
    (bsonDecoderCopyData decoder).2.left ≤ decoder.left := by
  unfold bsonDecoderCopyData
  cases hfd : decoder.fd with
  | none => exact Nat.le_refl _
  | some stream =>
      simp only
      split_ifs
      · exact Nat.le_refl _
      · split
        · exact Nat.zero_le _
        · rename_i data rest hread
          unfold Decoder.left
          rw [hfd]
          exact readBytes_length hread

end Px4Firmware.Bson
