import Mathlib.Data.List.Forall2
import Px4Firmware.Bson.RoundTrip

/-!
# Px4Firmware.Bson.Document

**The codec round trip** for whole documents: any sequence of appends between `bson_encoder_init`
and `bson_encoder_fini`, decoded with any callback that copies the payloads it wants and ignores
the others (`document_round_trip`).

Between two calls of `bson_decoder_next` the decoder is about to skip what the callback has left of
a payload and then to read the rest of the document. `About` says this, and it is what the
induction over the appended nodes carries.
-/

namespace Px4Firmware.Bson

open Px4Firmware.Lib

/-! ### Writing a document -/

/-- A call of `bson_encoder_append_int`, `bson_encoder_append_double` or
`bson_encoder_append_binary`. The size of a payload is its length. -/
inductive Append
  | int (name : List UInt8) (value : UInt32)
  | double (name : List UInt8) (value : UInt64)
  | binary (name : List UInt8) (subtype : UInt8) (data : List UInt8)

namespace Append

/-- The name of the node. -/
def name : Append → List UInt8
  | int name _ => name
  | double name _ => name
  | binary name _ _ => name

/-- The payload of the node. -/
def payload : Append → List UInt8
  | binary _ _ data => data
  | _ => []

/-- A name without a NUL byte that leaves room for one, and a payload whose size is not
negative. -/
structure Valid (a : Append) : Prop where
  noNul : 0 ∉ a.name
  short : a.name.length < bsonMaxname
  size : a.payload.length < 2 ^ 31

/-- Make the call. -/
def run (e : Endian) (accept : List UInt8 → List UInt8 → Bool) : Append → Encode
  | int name value => bsonEncoderAppendInt e accept name value
  | double name value => bsonEncoderAppendDouble e accept name value
  | binary name subtype data => bsonEncoderAppendBinary e accept name subtype data.length data

end Append

/-- The bytes of a node with a payload of a given size. -/
def payloadNode (e : Endian) (name : List UInt8) (subtype : UInt8) (size : Nat)
    (data : List UInt8) : List UInt8 :=
  bsonBindata :: (name ++ 0 :: (e.bytes32 (UInt32.ofNat size) ++ subtype :: data))

/-- The bytes of a node with a payload. -/
def binaryNode (e : Endian) (name : List UInt8) (subtype : UInt8) (data : List UInt8) :
    List UInt8 :=
  bsonBindata :: (name ++ 0 :: (e.bytes32 (UInt32.ofNat data.length) ++ subtype :: data))

/-- The bytes of a node. -/
def Append.node (e : Endian) : Append → List UInt8
  | int name value => intNode e name value
  | double name value => doubleNode e name value
  | binary name subtype data => binaryNode e name subtype data

/-- The calls that write a document. -/
def encodeDocument (e : Endian) (accept : List UInt8 → List UInt8 → Bool)
    (appends : List Append) : Encode := do
  bsonEncoderInit e accept
  appends.forM (Append.run e accept)
  bsonEncoderFini accept

section

variable {e : Endian} {accept : List UInt8 → List UInt8 → Bool}

theorem writes_appendPayload (name : List UInt8) (subtype : UInt8) (size : Nat)
    (data : List UInt8) :
    Writes (bsonEncoderAppendBinary e accept name subtype size data)
      (payloadNode e name subtype size (data.take size)) := by
  have h := ((writes_writeBytes accept [bsonBindata]).bind ((writes_writeName accept name).bind
    ((writes_writeBytes accept (e.bytes32 (UInt32.ofNat size))).bind
      ((writes_writeBytes accept [subtype]).bind
        (writes_writeBytes accept (data.take size)))))).orKill
  have hbytes : [bsonBindata] ++ (name ++ [0] ++ (e.bytes32 (UInt32.ofNat size) ++
      ([subtype] ++ data.take size))) = payloadNode e name subtype size (data.take size) := by
    simp [payloadNode]
  rw [hbytes] at h
  exact h

theorem writes_appendBinary (name : List UInt8) (subtype : UInt8) (data : List UInt8) :
    Writes (bsonEncoderAppendBinary e accept name subtype data.length data)
      (binaryNode e name subtype data) := by
  have h : Writes (bsonEncoderAppendBinary e accept name subtype data.length data) _ :=
    writes_appendPayload name subtype data.length data
  rwa [List.take_length] at h

theorem writes_run (a : Append) : Writes (a.run e accept) (a.node e) := by
  cases a with
  | int name value => exact writes_appendInt name value
  | double name value => exact writes_appendDouble name value
  | binary name subtype data => exact writes_appendBinary name subtype data

theorem writes_runs (appends : List Append) :
    Writes (appends.forM (Append.run e accept)) (appends.flatMap (Append.node e)) := by
  induction appends with
  | nil =>
      intro encoder
      simp
  | cons a appends ih =>
      rw [List.flatMap_cons]
      exact (writes_run a).bind ih

/-- What is in the file when everything between the start and the end has been written. -/
theorem written_of_writes {x : Encode} {bs : List UInt8} (hx : Writes x bs) {encoder : Encoder}
    (h : (do bsonEncoderInit e accept; x; bsonEncoderFini accept : Encode)
      { fd := true, written := [] } = .ok () encoder) :
    encoder.written = e.bytes32 0 ++ (bs ++ [bsonEoo]) := by
  have hinit : Writes (bsonEncoderInit e accept) (e.bytes32 0) := by
    intro encoder
    exact (outcome_init e accept encoder).mono (fun _ _ hok => hok) fun _ _ _ => trivial
  have hall := (hinit.bind (hx.bind (writes_fini accept))) { fd := true, written := [] }
  unfold outcome at hall
  rw [h] at hall
  simpa using congrArg Encoder.written hall

/-- What is in the file when all calls have succeeded. -/
theorem encodeDocument_written {appends : List Append} {encoder : Encoder}
    (h : encodeDocument e accept appends { fd := true, written := [] } = .ok () encoder) :
    encoder.written =
      e.bytes32 0 ++ (appends.flatMap (Append.node e) ++ [bsonEoo]) :=
  written_of_writes (writes_runs appends) h

/-! ### Reading a document -/

/-- Calls of `bson_decoder_next` as long as the result is positive, with the data of the
callback. -/
def decodeDocument (e : Endian) {σ : Type} (callback : Decoder → σ → Int × Decoder × σ) :
    Nat → Decoder → σ → Option (Int × Decoder × σ)
  | 0, _, _ => none
  | fuel + 1, decoder, priv =>
      let (result, decoder, priv) := bsonDecoderNext e callback decoder priv
      if 0 < result then decodeDocument e callback fuel decoder priv
      else some (result, decoder, priv)

/-- A callback that also notes the decoder it is called with. -/
def noting {σ : Type} (callback : Decoder → σ → Int × Decoder × σ) (decoder : Decoder)
    (priv : σ × List Decoder) : Int × Decoder × (σ × List Decoder) :=
  let (result, decoder', priv') := callback decoder priv.1
  (result, decoder', (priv', priv.2 ++ [decoder]))

/-- A callback that returns a positive value and either copies the payload of a node or leaves
the decoder alone. -/
def Consumes {σ : Type} (callback : Decoder → σ → Int × Decoder × σ) : Prop :=
  ∀ decoder priv, 0 < (callback decoder priv).1 ∧
    ((callback decoder priv).2.1 = decoder ∨
      decoder.node.type = bsonBindata ∧
        (callback decoder priv).2.1 = (bsonDecoderCopyData decoder).2)

/-- What a callback is shown for an appended node: its name, its type and its value; of a payload
the size and the subtype, and the bytes if it copies them. -/
def Append.Shown (a : Append) (decoder : Decoder) : Prop :=
  decoder.node.name = a.name ∧
    match a with
    | int _ value => decoder.node.type = bsonInt ∧ decoder.node.i = value
    | double _ value => decoder.node.type = bsonDouble ∧ decoder.node.d = value
    | binary _ subtype data =>
        decoder.node.type = bsonBindata ∧ decoder.node.subtype = subtype ∧
          bsonDecoderDataPending decoder = data.length ∧
          (bsonDecoderCopyData decoder).1 = some data

/-- The decoder is inside the document, about to skip what is pending and to read `rest`. -/
structure About (decoder : Decoder) (rest : List UInt8) : Prop where
  nesting : decoder.nesting = 1
  type : decoder.node.type ≠ bsonEoo
  stream : ∃ stream, decoder.fd = some stream ∧ discardPending decoder.pending stream = some rest

/-- What is pending is read over. -/
theorem readNode_skip {decoder : Decoder} {stream rest : List UInt8}
    (h : discardPending decoder.pending stream = some rest) :
    readNode e decoder stream = readNode e { decoder with pending := 0 } rest := by
  unfold readNode
  rw [h, discardPending_zero]

/-- The decoder reads the next node and calls the callback. -/
theorem About.next {σ : Type} {callback : Decoder → σ → Int × Decoder × σ} {decoder : Decoder}
    {stream rest : List UInt8} {node : Node} {pending : UInt32} (h : About decoder stream)
    (hread : ∀ d : Decoder, d.pending = 0 → d.node = decoder.node →
      readNode e d stream = some (node, pending, rest)) (priv : σ) :
    bsonDecoderNext e callback decoder priv =
      callback { decoder with fd := some rest, node := node, pending := pending } priv := by
  obtain ⟨skipped, hfd, hskip⟩ := h.stream
  refine bsonDecoderNext_of_readNode hfd h.type ?_ priv
  intro d hpending hnode
  rw [← hpending] at hskip
  rw [readNode_skip hskip]
  exact hread { d with pending := 0 } rfl hnode

theorem toNat_length {data : List UInt8} (hsize : data.length < 2 ^ 31) :
    (UInt32.ofNat data.length).toNat = data.length := by
  rw [UInt32.toNat_ofNat']
  omega

/-- **A payload node is read back**, up to its payload. -/
theorem readNode_binaryNode {decoder : Decoder} (hpending : decoder.pending = 0)
    {name : List UInt8} (hname : 0 ∉ name) (hlen : name.length < bsonMaxname) (subtype : UInt8)
    (data rest : List UInt8) :
    readNode e decoder (binaryNode e name subtype data ++ rest) =
      some ({ decoder.node with type := bsonBindata, name := name, subtype := subtype },
        UInt32.ofNat data.length, data ++ rest) := by
  have hread := readName_append hname hlen
    (e.bytes32 (UInt32.ofNat data.length) ++ subtype :: (data ++ rest))
  have htype : bsonBindata ≠ bsonEoo := by decide
  have hint : bsonBindata ≠ bsonInt := by decide
  have hdouble : bsonBindata ≠ bsonDouble := by decide
  have hstring : bsonBindata ≠ bsonString := by decide
  simp only [readNode, hpending, discardPending_zero, binaryNode, List.cons_append,
    List.append_assoc, readInt8, Option.bind_eq_bind, Option.bind_some, if_neg htype, hread,
    readValue, if_neg hint, if_neg hdouble, if_neg hstring, readInt32_append, if_true]
  rfl

/-- A payload that has not been copied is skipped. -/
theorem discardPending_payload {data : List UInt8} (hsize : data.length < 2 ^ 31)
    (rest : List UInt8) :
    discardPending (UInt32.ofNat data.length) (data ++ rest) = some rest := by
  have hlength := toNat_length hsize
  have hpositive : data.length < 0x80000000 := by simpa using hsize
  unfold discardPending
  rw [hlength, if_pos hpositive, readBytes_append]
  rfl

/-- Copying a payload. -/
theorem bsonDecoderCopyData_payload {decoder : Decoder} {data rest : List UInt8}
    (hsize : data.length < 2 ^ 31) (hfd : decoder.fd = some (data ++ rest))
    (hpending : decoder.pending = UInt32.ofNat data.length) :
    bsonDecoderCopyData decoder = (some data, { decoder with fd := some rest, pending := 0 }) := by
  have hlength := toNat_length hsize
  unfold bsonDecoderCopyData
  rw [hfd, hpending]
  simp only [hlength, readBytes_append]
  by_cases hzero : UInt32.ofNat data.length = 0
  · -- nothing is copied of a payload of length zero
    rw [hzero] at hlength
    obtain rfl : data = [] := List.length_eq_zero_iff.mp hlength.symm
    rw [if_pos hzero]
    rw [List.nil_append] at hfd
    cases decoder
    cases hfd
    cases hpending
    rfl
  · rw [if_neg hzero]

/-- The node that is read for an appended node. -/
def Append.readInto (node : Node) : Append → Node
  | int name value => { node with type := bsonInt, name := name, i := value }
  | double name value => { node with type := bsonDouble, name := name, d := value }
  | binary name subtype _ =>
      { node with type := bsonBindata, name := name, subtype := subtype }

/-- **Every appended node is read back**, up to its payload. -/
theorem readNode_append {a : Append} (ha : a.Valid) {decoder : Decoder}
    (hpending : decoder.pending = 0) (rest : List UInt8) :
    readNode e decoder (a.node e ++ rest) =
      some (a.readInto decoder.node, UInt32.ofNat a.payload.length, a.payload ++ rest) := by
  cases a with
  | int name value => exact readNode_intNode hpending ha.noNul ha.short value rest
  | double name value => exact readNode_doubleNode hpending ha.noNul ha.short value rest
  | binary name subtype data =>
      exact readNode_binaryNode hpending ha.noNul ha.short subtype data rest

theorem Append.readInto_type (a : Append) (node : Node) : (a.readInto node).type ≠ bsonEoo := by
  have hint : bsonInt ≠ bsonEoo := by decide
  have hdouble : bsonDouble ≠ bsonEoo := by decide
  have hbindata : bsonBindata ≠ bsonEoo := by decide
  cases a with
  | int name value => exact hint
  | double name value => exact hdouble
  | binary name subtype data => exact hbindata

/-- The decoder that a callback is called with for an appended node. -/
def Append.showing (a : Append) (decoder : Decoder) (rest : List UInt8) : Decoder :=
  { decoder with
    fd := some (a.payload ++ rest)
    node := a.readInto decoder.node
    pending := UInt32.ofNat a.payload.length }

theorem Append.shown_showing {a : Append} (ha : a.Valid) (decoder : Decoder)
    (rest : List UInt8) : a.Shown (a.showing decoder rest) := by
  have hcopy : bsonDecoderCopyData (a.showing decoder rest) = (some a.payload, _) :=
    bsonDecoderCopyData_payload ha.size rfl rfl
  have hsize := toNat_length ha.size
  cases a with
  | int name value => exact ⟨rfl, rfl, rfl⟩
  | double name value => exact ⟨rfl, rfl, rfl⟩
  | binary name subtype data => exact ⟨rfl, rfl, rfl, hsize, congrArg Prod.fst hcopy⟩

/-- Where a callback leaves the decoder, whether it copies or ignores. -/
theorem About.consumed {σ : Type} {callback : Decoder → σ → Int × Decoder × σ}
    (hcallback : Consumes callback) {decoder : Decoder} (hnesting : decoder.nesting = 1)
    {a : Append} (ha : a.Valid) (rest : List UInt8) (priv : σ) :
    About (callback (a.showing decoder rest) priv).2.1 rest := by
  have htype := a.readInto_type decoder.node
  rcases (hcallback (a.showing decoder rest) priv).2 with hsame | ⟨-, hcopied⟩
  · rw [hsame]
    exact ⟨hnesting, htype, a.payload ++ rest, rfl, discardPending_payload ha.size rest⟩
  · rw [hcopied, bsonDecoderCopyData_payload ha.size rfl rfl]
    exact ⟨hnesting, htype, rest, rfl, discardPending_zero rest⟩

/-- After the end of the top-level document there is nothing more to read. -/
theorem bsonDecoderNext_done {σ : Type} {callback : Decoder → σ → Int × Decoder × σ}
    {decoder : Decoder} {stream : List UInt8} (hfd : decoder.fd = some stream)
    (hnesting : decoder.nesting = 1) (htype : decoder.node.type = bsonEoo) (priv : σ) :
    bsonDecoderNext e callback decoder priv =
      (0, { decoder with nesting := 0, fd := none }, priv) := by
  have hpop : popNesting decoder = 0 := by
    unfold popNesting
    rw [if_pos htype, hnesting]
  unfold bsonDecoderNext
  rw [hfd]
  simp only [hpop, htype]
  rfl

theorem decodeDocument_succ {σ : Type} {callback : Decoder → σ → Int × Decoder × σ} {fuel : Nat}
    {decoder decoder' : Decoder} {priv priv' : σ} {result : Int}
    (hnext : bsonDecoderNext e callback decoder priv = (result, decoder', priv'))
    (hpositive : 0 < result) :
    decodeDocument e callback (fuel + 1) decoder priv =
      decodeDocument e callback fuel decoder' priv' := by
  simp only [decodeDocument, hnext]
  exact if_pos hpositive

/-- The end of the document is shown once. -/
theorem decodeDocument_eoo {σ : Type} {callback : Decoder → σ → Int × Decoder × σ}
    (hcallback : Consumes callback) {fuel : Nat} {decoder : Decoder}
    (h : About decoder [bsonEoo]) (priv : σ) (log : List Decoder) :
    ∃ decoder' priv' last,
      decodeDocument e (noting callback) (fuel + 2) decoder (priv, log) =
        some (0, decoder', (priv', log ++ [last])) ∧
      last.node.type = bsonEoo := by
  have hdata : bsonEoo ≠ bsonBindata := by decide
  let last : Decoder :=
    { decoder with fd := some [], node := { decoder.node with type := bsonEoo }, pending := 0 }
  have hnext : bsonDecoderNext e (noting callback) decoder (priv, log) =
      noting callback last (priv, log) := by
    refine h.next ?_ (priv, log)
    intro d hpending hnode
    rw [← hnode]
    exact readNode_eoo hpending []
  obtain ⟨hpositive, hdecoder⟩ := hcallback last priv
  -- a callback leaves the decoder alone at the end of the document
  have hsame : (callback last priv).2.1 = last := by
    rcases hdecoder with hsame | ⟨hcopy, -⟩
    · exact hsame
    · exact absurd hcopy hdata
  have hdone : bsonDecoderNext e (noting callback) last
      ((callback last priv).2.2, log ++ [last]) =
        (0, { last with nesting := 0, fd := none }, ((callback last priv).2.2, log ++ [last])) :=
    bsonDecoderNext_done rfl (show last.nesting = 1 from h.nesting) rfl _
  refine ⟨{ last with nesting := 0, fd := none }, (callback last priv).2.2, last, ?_, rfl⟩
  rw [decodeDocument_succ hnext hpositive, hsame]
  simp only [decodeDocument, hdone]
  rfl

/-- **The loop over a document**: the callback is shown the nodes one after the other. -/
theorem decodeDocument_appends {σ : Type} {callback : Decoder → σ → Int × Decoder × σ}
    (hcallback : Consumes callback) {appends : List Append}
    (happends : ∀ a ∈ appends, a.Valid) {fuel : Nat} {decoder : Decoder}
    (h : About decoder (appends.flatMap (Append.node e) ++ [bsonEoo])) (priv : σ)
    (log : List Decoder) :
    ∃ decoder' priv' shown last,
      decodeDocument e (noting callback) (appends.length + fuel + 2) decoder (priv, log) =
        some (0, decoder', (priv', log ++ (shown ++ [last]))) ∧
      List.Forall₂ Append.Shown appends shown ∧ last.node.type = bsonEoo := by
  induction appends generalizing decoder priv log with
  | nil =>
      rw [List.length_nil, Nat.zero_add]
      obtain ⟨decoder', priv', last, hrun, hlast⟩ := decodeDocument_eoo hcallback h priv log
      exact ⟨decoder', priv', [], last, hrun, .nil, hlast⟩
  | cons a appends ih =>
      have ha := happends a List.mem_cons_self
      have hrest : ∀ a' ∈ appends, a'.Valid := by
        intro a' ha'
        exact happends a' (List.mem_cons_of_mem a ha')
      rw [List.flatMap_cons, List.append_assoc] at h
      let rest := appends.flatMap (Append.node e) ++ [bsonEoo]
      have hnext : bsonDecoderNext e (noting callback) decoder (priv, log) =
          noting callback (a.showing decoder rest) (priv, log) := by
        refine h.next ?_ (priv, log)
        intro d hpending hnode
        rw [← hnode]
        exact readNode_append ha hpending rest
      have hpositive := (hcallback (a.showing decoder rest) priv).1
      -- What the callback left of the payload is skipped before the next node.
      obtain ⟨decoder', priv', shown, last, hrun, hshown, hlast⟩ :=
        ih hrest (About.consumed hcallback h.nesting ha rest priv)
          (callback (a.showing decoder rest) priv).2.2 (log ++ [a.showing decoder rest])
      refine ⟨decoder', priv', a.showing decoder rest :: shown, last, ?_,
        .cons (Append.shown_showing ha decoder rest) hshown, hlast⟩
      have hfuel : (a :: appends).length + fuel + 2 = (appends.length + fuel + 2) + 1 := by
        rw [List.length_cons]
        omega
      rw [hfuel, decodeDocument_succ hnext hpositive]
      refine hrun.trans ?_
      simp

/-- **The codec round trip.** What a sequence of appends writes between `bson_encoder_init` and
`bson_encoder_fini`, if every write is complete, is decoded as these nodes: a callback that always
returns a positive value, and copies or ignores payloads as it likes, is shown them one by one and
in order, then the end of the document, and after that `bson_decoder_next` returns 0. -/
theorem document_round_trip {appends : List Append} (happends : ∀ a ∈ appends, a.Valid)
    {encoder : Encoder}
    (hwritten : encodeDocument e accept appends { fd := true, written := [] } = .ok () encoder)
    {σ : Type} {callback : Decoder → σ → Int × Decoder × σ} (hcallback : Consumes callback)
    (priv : σ) :
    ∃ decoder, bsonDecoderInit e encoder.written = (0, decoder) ∧
      ∀ fuel, appends.length + 2 ≤ fuel → ∃ decoder' priv' shown last,
        decodeDocument e (noting callback) fuel decoder (priv, []) =
          some (0, decoder', (priv', shown ++ [last])) ∧
        List.Forall₂ Append.Shown appends shown ∧ last.node.type = bsonEoo := by
  have hbytes := encodeDocument_written hwritten
  have hundefined : bsonUndefined ≠ bsonEoo := by decide
  refine ⟨{ Decoder.new encoder.written with
    fd := some (appends.flatMap (Append.node e) ++ [bsonEoo]) }, ?_, ?_⟩
  · unfold bsonDecoderInit
    rw [hbytes, readInt32_append]
  · intro fuel hfuel
    obtain ⟨extra, rfl⟩ := Nat.exists_eq_add_of_le hfuel
    rw [Nat.add_right_comm]
    exact decodeDocument_appends hcallback happends
      ⟨rfl, hundefined, _, rfl, discardPending_zero _⟩ priv []

end

/-- A node with a number and one with a payload. -/
def sampleAppends : List Append := [.int [97] 7, .binary [98] bsonBinBinary [1, 2, 3], .int [99] 8]

/-- A callback that copies what it gets. -/
def copyCallback (decoder : Decoder) (copied : List UInt8) : Int × Decoder × List UInt8 :=
  if decoder.node.type = bsonBindata then
    let (data, decoder) := bsonDecoderCopyData decoder
    (1, decoder, copied ++ data.getD [])
  else
    (1, decoder, copied)

theorem consumes_copyCallback : Consumes copyCallback := by
  intro decoder copied
  unfold copyCallback
  by_cases htype : decoder.node.type = bsonBindata
  · rw [if_pos htype]
    exact ⟨Int.one_pos, .inr ⟨htype, rfl⟩⟩
  · rw [if_neg htype]
    exact ⟨Int.one_pos, .inl rfl⟩

theorem document_round_trip_sample :
    ∃ decoder, bsonDecoderInit .little
        [0, 0, 0, 0, 16, 97, 0, 7, 0, 0, 0, 5, 98, 0, 3, 0, 0, 0, 0, 1, 2, 3,
          16, 99, 0, 8, 0, 0, 0, 0] = (0, decoder) ∧
      ∃ decoder' priv' shown last,
        decodeDocument .little (noting copyCallback) 5 decoder ([], []) =
          some (0, decoder', (priv', shown ++ [last])) ∧
        List.Forall₂ Append.Shown sampleAppends shown ∧ last.node.type = bsonEoo := by
  have hvalid : ∀ a ∈ sampleAppends, a.Valid := by
    intro a ha
    simp only [sampleAppends, List.mem_cons, List.not_mem_nil, or_false] at ha
    rcases ha with rfl | rfl | rfl
    · exact ⟨by decide, by decide, by decide⟩
    · exact ⟨by decide, by decide, by decide⟩
    · exact ⟨by decide, by decide, by decide⟩
  have hwritten : encodeDocument .little (fun _ _ => true) sampleAppends
      { fd := true, written := [] } = .ok () _ := rfl
  obtain ⟨decoder, hinit, hdecode⟩ :=
    document_round_trip hvalid hwritten consumes_copyCallback []
  exact ⟨decoder, hinit, hdecode 5 (by decide)⟩

end Px4Firmware.Bson
