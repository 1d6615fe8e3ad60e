import Px4Firmware.Bson.Strings

/-!
# Px4Firmware.Bson.Names

**Names.** The encoder takes a name of `BSON_MAXNAME` characters and writes it with its terminator;
the decoder has room for `BSON_MAXNAME` bytes with the terminator. A name that is longer is rejected
after its type byte has been written, and the encoder is dead then. `names_agree` says for which
calls the two agree.
-/

namespace Px4Firmware.Bson

open Px4Firmware.Lib

/-- The type byte that is written for the node. -/
def AppendCall.typeByte : AppendCall → UInt8
  | data (.int _ _) => bsonInt
  | data (.double _ _) => bsonDouble
  | data (.binary _ _ _) => bsonBindata
  | string _ _ _ => bsonDouble

/-- The file after more calls, whatever they return, and the end of the document. -/
def appendMore (e : Endian) (accept : List UInt8 → List UInt8 → Bool) (calls : List AppendCall)
    (encoder : Encoder) : Encoder :=
  after (bsonEncoderFini accept)
    (calls.foldl (fun encoder call => after (call.run e accept) encoder) encoder)

/-- **The law of the names**, for a call and what is written after its node. If the call succeeds,
the decoder that comes to the node calls its callback with a node of this name. If the name is too
long for the encoder, the decoder that comes to where the call started fails there, whatever is
appended afterwards. -/
structure NamesAgree (e : Endian) (call : AppendCall) (rest : List UInt8) : Prop where
  delivered : ∀ accept encoder encoder', call.run e accept encoder = .ok () encoder' →
    ∃ bytes, encoder'.written = encoder.written ++ bytes ∧
      ∀ decoder, About decoder (bytes ++ rest) →
        ∀ (σ : Type) (callback : Decoder → σ → Int × Decoder × σ) (priv : σ),
          ∃ decoder', decoder'.node.name = call.name ∧
            bsonDecoderNext e callback decoder priv = callback decoder' priv
  rejected : bsonMaxname < call.name.length → ∀ accept encoder later,
    ∃ encoder' bytes, call.run e accept encoder = .error () encoder' ∧
      (appendMore e accept later encoder').written = encoder.written ++ bytes ∧
      ∀ decoder, About decoder bytes →
        ∀ (σ : Type) (callback : Decoder → σ → Int × Decoder × σ) (priv : σ),
          ∃ decoder', bsonDecoderNext e callback decoder priv = (-1, decoder', priv)

/-- A call whose value is read to its end. The node of a string is read as a double, and has five
bytes and the characters of the string after its name. -/
def AppendCall.Readable (rest : List UInt8) : AppendCall → Prop
  | data _ => True
  | string _ _ s => 3 ≤ s.length + rest.length

section

variable {e : Endian} {accept : List UInt8 → List UInt8 → Bool} {call : AppendCall}
  {encoder : Encoder} {rest : List UInt8}

/-! ### Names that are accepted -/

/-- The node of a call is its type byte, its name and its value. -/
theorem node_eq (e : Endian) (call : AppendCall) :
    ∃ value, call.node e = call.typeByte :: (call.name ++ 0 :: value) ∧
      (∀ s name behind, call = .string name behind s → value.length = s.length + 5) := by
  cases call with
  | data a => cases a <;> exact ⟨_, rfl, nofun⟩
  | string name behind s =>
      refine ⟨_, rfl, ?_⟩
      rintro s' name' behind' ⟨⟩
      rw [List.length_append, Endian.bytes32_length, List.length_take, List.length_append,
        List.length_cons, List.length_map, List.length_range]
      omega

theorem typeByte_ne_eoo (call : AppendCall) : call.typeByte ≠ bsonEoo := by
  have hint : bsonInt ≠ bsonEoo := by decide
  have hdouble : bsonDouble ≠ bsonEoo := by decide
  have hbindata : bsonBindata ≠ bsonEoo := by decide
  cases call with
  | data a =>
      cases a with
      | int name value => exact hint
      | double name value => exact hdouble
      | binary name subtype data => exact hbindata
  | string name behind s => exact hdouble

/-- A complete call writes its node. -/
theorem written_of_run {encoder' : Encoder} (h : call.run e accept encoder = .ok () encoder') :
    encoder'.written = encoder.written ++ call.node e := by
  have hwrites : outcome (call.run e accept) _ _ encoder := writes_call call encoder
  unfold outcome at hwrites
  rw [h] at hwrites
  exact congrArg Encoder.written hwrites

/-- A file that takes everything takes the node of a call with a name that is not too long. -/
theorem run_accepting (e : Endian) (hlen : call.name.length ≤ bsonMaxname) :
    ∃ encoder', call.run e (fun _ _ => true) { fd := true, written := [] } = .ok () encoder' := by
  have hlong : ¬ bsonMaxname < call.name.length := Nat.not_lt.mpr hlen
  have hends : outcome (call.run e fun _ _ => true) (fun _ _ => True) (fun _ _ => False)
      { fd := true, written := [] } := by
    cases call with
    | data a =>
        cases a with
        | int name value =>
            have hname : ¬ bsonMaxname < name.length := hlong
            simp [AppendCall.run, Append.run, bsonEncoderAppendInt, coderCheck, orKill, writeInt8,
              writeInt32, writeName, writeBytes, hname]
        | double name value =>
            have hname : ¬ bsonMaxname < name.length := hlong
            simp [AppendCall.run, Append.run, bsonEncoderAppendDouble, coderCheck, orKill,
              writeInt8, writeDouble, writeName, writeBytes, hname]
        | binary name subtype data =>
            have hname : ¬ bsonMaxname < name.length := hlong
            simp [AppendCall.run, Append.run, bsonEncoderAppendBinary, coderCheck, orKill,
              writeInt8, writeInt32, writeName, writeBytes, hname]
    | string name behind s =>
        have hname : ¬ bsonMaxname < name.length := hlong
        simp [AppendCall.run, bsonEncoderAppendString, coderCheck, orKill, writeInt8,
          writeInt32, writeName, writeBytes, hname]
  unfold outcome at hends
  cases hrun : call.run e (fun _ _ => true) { fd := true, written := [] } with
  | ok u encoder' => exact ⟨encoder', rfl⟩
  | error err encoder' =>
      rw [hrun] at hends
      exact hends.elim

/-- A name that leaves no room for its terminator is not read. -/
theorem readName_overflow {name : List UInt8} (hname : 0 ∉ name) {room : Nat}
    (hroom : room ≤ name.length) (rest : List UInt8) : readName room (name ++ rest) = none := by
  induction name generalizing room with
  | nil =>
      obtain rfl : room = 0 := Nat.le_zero.mp hroom
      rfl
  | cons b name ih =>
      cases room with
      | zero => rfl
      | succ room =>
          rw [List.mem_cons, not_or] at hname
          have hrest := ih hname.2 (Nat.le_of_succ_le_succ hroom)
          have hb : b ≠ 0 := Ne.symm hname.1
          simp [readName, readInt8, hb, hrest]

/-- The decoder fails at a node whose name is not read. -/
theorem readNode_of_readName {decoder : Decoder} (hpending : decoder.pending = 0) {type : UInt8}
    (htype : type ≠ bsonEoo) {stream : List UInt8} (hname : readName bsonMaxname stream = none) :
    readNode e decoder (type :: stream) = none := by
  simp only [readNode, hpending, discardPending_zero, readInt8, Option.bind_eq_bind,
    Option.bind_some, if_neg htype, hname, Option.bind_none]

/-- A node whose name is short enough, and whose value is there, is read. -/
theorem readNode_call (hname : 0 ∉ call.name) (hlen : call.name.length < bsonMaxname)
    (hread : call.Readable rest) (node : Node) : ∃ node' pending rest',
      node'.name = call.name ∧ ∀ d : Decoder, d.pending = 0 → d.node = node →
        readNode e d (call.node e ++ rest) = some (node', pending, rest') := by
  cases call with
  | data a =>
      refine ⟨a.readInto node, UInt32.ofNat a.payload.length, a.payload ++ rest, ?_, ?_⟩
      · cases a <;> rfl
      · rintro d hpending rfl
        cases a with
        | int name value => exact readNode_intNode hpending hname hlen value rest
        | double name value => exact readNode_doubleNode hpending hname hlen value rest
        | binary name subtype data =>
            exact readNode_binaryNode hpending hname hlen subtype data rest
  | string name behind s =>
      obtain ⟨value, hnode, hvalue⟩ := node_eq e (.string name behind s)
      have hlong : 8 ≤ (value ++ rest).length := by
        have hread' : 3 ≤ s.length + rest.length := hread
        rw [List.length_append, hvalue s name behind rfl]
        omega
      have hdouble : readDouble e (value ++ rest) =
          some (e.word64 ((value ++ rest).take 8), (value ++ rest).drop 8) := by
        unfold readDouble readBytes
        rw [if_pos hlong]
        rfl
      refine ⟨{ node with
        type := bsonDouble, name := name, d := e.word64 ((value ++ rest).take 8) }, 0,
        (value ++ rest).drop 8, rfl, ?_⟩
      rintro d hpending rfl
      rw [hnode, List.cons_append, List.append_assoc, List.cons_append]
      refine (readNode_asDouble hpending hname hlen (value ++ rest)).trans ?_
      rw [hdouble]
      rfl

/-- A node that is not read: its name has no room, or its value is not there. -/
theorem readNode_unread (hname : 0 ∉ call.name)
    (h : call.name.length = bsonMaxname ∨
      call.name.length < bsonMaxname ∧ ¬ call.Readable rest)
    {decoder : Decoder} (hpending : decoder.pending = 0) :
    readNode e decoder (call.node e ++ rest) = none := by
  obtain ⟨value, hnode, hvalue⟩ := node_eq e call
  rw [hnode, List.cons_append, List.append_assoc, List.cons_append]
  rcases h with hlen | ⟨hlen, hunread⟩
  · exact readNode_of_readName hpending (typeByte_ne_eoo call)
      (readName_overflow hname (Nat.le_of_eq hlen.symm) _)
  · cases call with
    | data a => exact absurd trivial hunread
    | string name behind s =>
        have hshort : ¬ 8 ≤ (value ++ rest).length := by
          have hunread' : ¬ 3 ≤ s.length + rest.length := hunread
          rw [List.length_append, hvalue s name behind rfl]
          omega
        have hdouble : readDouble e (value ++ rest) = none := by
          unfold readDouble readBytes
          rw [if_neg hshort]
          rfl
        refine (readNode_asDouble hpending hname hlen (value ++ rest)).trans ?_
        rw [hdouble]
        rfl

/-! ### Names that are rejected -/

/-- What is left when a name is too long: the encoder is dead, and at most one byte has been
written. -/
def Rejected (type : UInt8) (encoder encoder' : Encoder) : Prop :=
  encoder'.fd = false ∧
    (encoder'.written = encoder.written ∨ encoder'.written = encoder.written ++ [type])

theorem outcome_rejected {name : List UInt8} (hlen : bsonMaxname < name.length) (type : UInt8)
    (value : Unit → Encode) (accept : List UInt8 → List UInt8 → Bool) (encoder : Encoder) :
    outcome (coderCheck >>= fun _ => orKill (writeInt8 accept type >>= fun _ =>
        writeName accept name >>= value))
      (fun _ _ => False) (fun _ encoder' => Rejected type encoder encoder') encoder := by
  simp only [coderCheck, orKill, writeInt8, writeBytes, writeName, if_pos hlen, outcome_bind,
    outcome_get, outcome_ite, outcome_pure, outcome_throw, outcome_tryCatch, outcome_modify]
  refine ⟨fun _ => ⟨fun _ => ⟨rfl, .inr rfl⟩, fun _ => ⟨rfl, .inl rfl⟩⟩, fun hdead => ?_⟩
  exact ⟨Bool.not_eq_true _ ▸ hdead, .inl rfl⟩

/-- A call with a name that is too long throws. -/
theorem run_rejected (hlen : bsonMaxname < call.name.length)
    (accept : List UInt8 → List UInt8 → Bool) (encoder : Encoder) :
    ∃ encoder', call.run e accept encoder = .error () encoder' ∧
      Rejected call.typeByte encoder encoder' := by
  have hrun : outcome (call.run e accept) (fun _ _ => False)
      (fun _ encoder' => Rejected call.typeByte encoder encoder') encoder := by
    cases call with
    | data a => cases a <;> exact outcome_rejected hlen _ _ accept encoder
    | string name behind s => exact outcome_rejected hlen bsonDouble _ accept encoder
  unfold outcome at hrun
  cases hcall : call.run e accept encoder with
  | ok u encoder' =>
      rw [hcall] at hrun
      exact hrun.elim
  | error err encoder' =>
      rw [hcall] at hrun
      exact ⟨encoder', rfl, hrun⟩

/-- A dead encoder does nothing. -/
theorem after_dead {x : Encode} (hdead : encoder.fd = false) :
    after (coderCheck >>= fun _ => x) encoder = encoder := by
  have hends : outcome (coderCheck >>= fun _ => x) (fun _ _ => False) (fun _ s => s = encoder)
      encoder := by
    simp [coderCheck, hdead]
  unfold outcome at hends
  unfold after
  cases hrun : (coderCheck >>= fun _ => x) encoder with
  | ok u encoder' =>
      rw [hrun] at hends
      exact hends.elim
  | error err encoder' =>
      rw [hrun] at hends
      exact hends

theorem appendMore_dead (hdead : encoder.fd = false) (later : List AppendCall) :
    appendMore e accept later encoder = encoder := by
  have hcalls : later.foldl (fun encoder call => after (call.run e accept) encoder) encoder =
      encoder := by
    induction later with
    | nil => rfl
    | cons call later ih =>
        have hcall : after (call.run e accept) encoder = encoder := by
          cases call with
          | data a => cases a <;> exact after_dead hdead
          | string name behind s => exact after_dead hdead
        rw [List.foldl_cons, hcall]
        exact ih
  unfold appendMore
  rw [hcalls]
  exact after_dead hdead

/-- Where a call has been rejected, nothing is read. -/
theorem readNode_rejected {type : UInt8} (htype : type ≠ bsonEoo) {bytes : List UInt8}
    (hbytes : bytes = [] ∨ bytes = [type]) {decoder : Decoder} (hpending : decoder.pending = 0) :
    readNode e decoder bytes = none := by
  rcases hbytes with rfl | rfl
  · simp only [readNode, hpending, discardPending_zero, readInt8, Option.bind_eq_bind,
      Option.bind_some, Option.bind_none]
  · exact readNode_of_readName hpending htype rfl

/-! ### Where the two agree -/

/-- The encoder writes a node that the decoder does not read. -/
theorem not_namesAgree (hname : 0 ∉ call.name) (h : call.name.length = bsonMaxname ∨
    call.name.length < bsonMaxname ∧ ¬ call.Readable rest) : ¬ NamesAgree e call rest := by
  intro hlaw
  have hshort : call.name.length ≤ bsonMaxname := by
    rcases h with hlen | ⟨hlen, -⟩
    · exact Nat.le_of_eq hlen
    · exact Nat.le_of_lt hlen
  -- a file that takes everything, and the decoder at the start of its document
  obtain ⟨encoder', hrun⟩ := run_accepting e hshort
  obtain ⟨bytes, hwritten, hdelivered⟩ := hlaw.delivered _ _ _ hrun
  obtain rfl : bytes = call.node e :=
    List.append_cancel_left (hwritten.symm.trans (written_of_run hrun))
  obtain ⟨decoder, -, habout⟩ := about_start e (call.node e ++ rest)
  obtain ⟨decoder', -, hnext⟩ := hdelivered decoder habout Unit ignoreCallback ()
  obtain ⟨decoder'', hfails⟩ := habout.fails (fun d hpending => readNode_unread hname h hpending) ()
  rw [hnext] at hfails
  have hresult : (1 : Int) = -1 := congrArg Prod.fst hfails
  exact absurd hresult (by decide)

/-- **Names.** For a name of any length, a value and what is written after it: encoder and decoder
agree exactly if the name does not have `BSON_MAXNAME` characters, and if the value of the node,
when its name is short enough, can be read. -/
theorem names_agree (e : Endian) (call : AppendCall) (rest : List UInt8) (hname : 0 ∉ call.name) :
    NamesAgree e call rest ↔
      call.name.length ≠ bsonMaxname ∧ (call.name.length < bsonMaxname → call.Readable rest) := by
  constructor
  · intro hlaw
    refine ⟨fun hlen => not_namesAgree hname (.inl hlen) hlaw, fun hlen => ?_⟩
    by_contra hunread
    exact not_namesAgree hname (.inr ⟨hlen, hunread⟩) hlaw
  · rintro ⟨hlen, hread⟩
    refine ⟨?_, ?_⟩
    · intro accept encoder encoder' hrun
      refine ⟨call.node e, written_of_run hrun, ?_⟩
      intro decoder habout σ callback priv
      have hshort : call.name.length < bsonMaxname := by
        by_contra hlong
        have hlonger : bsonMaxname < call.name.length :=
          Nat.lt_of_le_of_ne (Nat.le_of_not_lt hlong) (Ne.symm hlen)
        obtain ⟨_, herror, -⟩ := run_rejected (e := e) hlonger accept encoder
        rw [hrun] at herror
        exact nomatch herror
      obtain ⟨node, pending, rest', hnamed, hnode⟩ :=
        readNode_call hname hshort (hread hshort) decoder.node
      exact ⟨_, hnamed, habout.next hnode priv⟩
    · intro hlong accept encoder later
      obtain ⟨encoder', hrun, hdead, hwritten⟩ := run_rejected (e := e) hlong accept encoder
      have hbytes : ∃ bytes, encoder'.written = encoder.written ++ bytes ∧
          (bytes = [] ∨ bytes = [call.typeByte]) := by
        rcases hwritten with hwritten | hwritten
        · exact ⟨[], by rw [hwritten, List.append_nil], .inl rfl⟩
        · exact ⟨_, hwritten, .inr rfl⟩
      obtain ⟨bytes, hwritten, hcases⟩ := hbytes
      refine ⟨encoder', bytes, hrun, by rw [appendMore_dead hdead, hwritten], ?_⟩
      intro decoder habout σ callback priv
      exact habout.fails (fun d hpending =>
        readNode_rejected (typeByte_ne_eoo call) hcases hpending) priv

end

theorem names_agree_short : NamesAgree .little (.data (.int [97, 98] 7)) [bsonEoo] :=
  (names_agree .little (.data (.int [97, 98] 7)) [bsonEoo] (by decide)).mpr
    ⟨by decide, fun _ => trivial⟩

/-- A name of `BSON_MAXNAME` characters is written and not read. -/
theorem long_name_lost :
    ¬ ∀ (e : Endian) (call : AppendCall) (rest : List UInt8), 0 ∉ call.name →
      NamesAgree e call rest := by
  intro hclaim
  have hname : 0 ∉ (AppendCall.data (.int (List.replicate 32 97) 7)).name := by decide
  exact not_namesAgree hname (.inl rfl) (hclaim .little _ [bsonEoo] hname)

end Px4Firmware.Bson
