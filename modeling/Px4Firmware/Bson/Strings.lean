import Px4Firmware.Bson.Document

/-!
# Px4Firmware.Bson.Strings

**Strings.** `bson_encoder_append_string` writes the type of a double, and the bytes of the name in
place of those of the string. A document with a string in it is decoded as it has been appended up
to the string, and no further (`string_round_trip`).
-/

namespace Px4Firmware.Bson

open Px4Firmware.Lib

/-- A call of one of the four functions that append a node. -/
inductive AppendCall
  | data (a : Append)
  | string (name : List UInt8) (behind : Nat → UInt8) (s : List UInt8)

namespace AppendCall

/-- The name of the node. -/
def name : AppendCall → List UInt8
  | data a => a.name
  | string name _ _ => name

/-- Does the call append a string? -/
def isString : AppendCall → Bool
  | data _ => false
  | string _ _ _ => true

/-- The call has a name that leaves room for its terminator and a value whose size is not
negative. -/
def Valid : AppendCall → Prop
  | data a => a.Valid
  | string name _ s => 0 ∉ name ∧ name.length < bsonMaxname ∧ 0 ∉ s ∧ s.length + 1 < 2 ^ 31

/-- Make the call. -/
def run (e : Endian) (accept : List UInt8 → List UInt8 → Bool) : AppendCall → Encode
  | data a => a.run e accept
  | string name behind s => bsonEncoderAppendString e accept name behind s

/-- What a callback is to be shown for the node: of a string its name, and as the pending data its
characters and a NUL byte. -/
def Shown : AppendCall → Decoder → Prop
  | data a, decoder => a.Shown decoder
  | string name _ s, decoder =>
      decoder.node.name = name ∧ decoder.node.type = bsonString ∧
        bsonDecoderDataPending decoder = s.length + 1 ∧
        (bsonDecoderCopyData decoder).1 = some (s ++ [0])

end AppendCall

/-- The bytes of the node that is written for a string. -/
def stringNode (e : Endian) (name : List UInt8) (behind : Nat → UInt8) (s : List UInt8) :
    List UInt8 :=
  bsonDouble :: (name ++ 0 :: (e.bytes32 (UInt32.ofNat s.length) ++
    (name ++ 0 :: (List.range (s.length + 1)).map behind).take (s.length + 1)))

/-- The bytes of a node. -/
def AppendCall.node (e : Endian) : AppendCall → List UInt8
  | data a => a.node e
  | string name behind s => stringNode e name behind s

/-- The calls that write a document. -/
def encodeCalls (e : Endian) (accept : List UInt8 → List UInt8 → Bool)
    (calls : List AppendCall) : Encode := do
  bsonEncoderInit e accept
  calls.forM (AppendCall.run e accept)
  bsonEncoderFini accept

/-- **The law of the round trip**, for a document: every callback that returns a positive value, and
copies or ignores what is pending, is shown the nodes that have been appended, one by one and in
order, then the end of the document, and after that `bson_decoder_next` returns 0. -/
def RoundTrips (e : Endian) (calls : List AppendCall) (document : List UInt8) : Prop :=
  ∀ (σ : Type) (callback : Decoder → σ → Int × Decoder × σ) (priv : σ), Consumes callback →
    ∃ decoder, bsonDecoderInit e document = (0, decoder) ∧
      ∀ fuel, calls.length + 2 ≤ fuel → ∃ decoder' priv' shown last,
        decodeDocument e (noting callback) fuel decoder (priv, []) =
          some (0, decoder', (priv', shown ++ [last])) ∧
        List.Forall₂ AppendCall.Shown calls shown ∧ last.node.type = bsonEoo

section

variable {e : Endian} {accept : List UInt8 → List UInt8 → Bool}

theorem writes_appendString (name : List UInt8) (behind : Nat → UInt8) (s : List UInt8) :
    Writes (bsonEncoderAppendString e accept name behind s) (stringNode e name behind s) := by
  have h := ((writes_writeBytes accept [bsonDouble]).bind ((writes_writeName accept name).bind
    ((writes_writeBytes accept (e.bytes32 (UInt32.ofNat s.length))).bind
      (writes_writeBytes accept ((name ++ 0 :: (List.range (s.length + 1)).map behind).take
        (s.length + 1)))))).orKill
  have hbytes : [bsonDouble] ++ (name ++ [0] ++ (e.bytes32 (UInt32.ofNat s.length) ++
      (name ++ 0 :: (List.range (s.length + 1)).map behind).take (s.length + 1))) =
      stringNode e name behind s := by
    simp [stringNode]
  rw [hbytes] at h
  exact h

theorem writes_call (call : AppendCall) : Writes (call.run e accept) (call.node e) := by
  cases call with
  | data a => exact writes_run a
  | string name behind s => exact writes_appendString name behind s

theorem writes_calls (calls : List AppendCall) :
    Writes (calls.forM (AppendCall.run e accept)) (calls.flatMap (AppendCall.node e)) := by
  induction calls with
  | nil =>
      intro encoder
      simp
  | cons call calls ih =>
      rw [List.flatMap_cons]
      exact (writes_call call).bind ih

/-- What is in the file when all calls have succeeded. -/
theorem encodeCalls_written {calls : List AppendCall} {encoder : Encoder}
    (h : encodeCalls e accept calls { fd := true, written := [] } = .ok () encoder) :
    encoder.written = e.bytes32 0 ++ (calls.flatMap (AppendCall.node e) ++ [bsonEoo]) :=
  written_of_writes (writes_calls calls) h

/-- The decoder after the document size, and where it is. -/
theorem about_start (e : Endian) (body : List UInt8) :
    ∃ decoder, bsonDecoderInit e (e.bytes32 0 ++ body) = (0, decoder) ∧ About decoder body := by
  have hundefined : bsonUndefined ≠ bsonEoo := by decide
  refine ⟨{ Decoder.new (e.bytes32 0 ++ body) with fd := some body }, ?_,
    ⟨rfl, hundefined, _, rfl, discardPending_zero _⟩⟩
  unfold bsonDecoderInit
  rw [readInt32_append]

/-! ### Documents without a string -/

theorem exists_appends {calls : List AppendCall} (h : ∀ call ∈ calls, call.isString = false) :
    ∃ appends : List Append, calls = appends.map .data := by
  induction calls with
  | nil => exact ⟨[], rfl⟩
  | cons call calls ih =>
      obtain ⟨appends, rfl⟩ := ih fun call' hmem => h call' (List.mem_cons_of_mem call hmem)
      cases call with
      | data a => exact ⟨a :: appends, rfl⟩
      | string name behind s => exact nomatch h _ List.mem_cons_self

theorem roundTrips_appends {appends : List Append} (happends : ∀ a ∈ appends, a.Valid) :
    RoundTrips e (appends.map .data)
      (e.bytes32 0 ++ ((appends.map .data).flatMap (AppendCall.node e) ++ [bsonEoo])) := by
  intro σ callback priv hcallback
  have hnodes : (appends.map .data).flatMap (AppendCall.node e) =
      appends.flatMap (Append.node e) := List.flatMap_map _ _ _
  rw [hnodes]
  obtain ⟨decoder, hinit, habout⟩ := about_start e (appends.flatMap (Append.node e) ++ [bsonEoo])
  refine ⟨decoder, hinit, ?_⟩
  intro fuel hfuel
  rw [List.length_map] at hfuel
  obtain ⟨extra, rfl⟩ := Nat.exists_eq_add_of_le hfuel
  rw [Nat.add_right_comm]
  obtain ⟨decoder', priv', shown, last, hrun, hshown, hlast⟩ :=
    decodeDocument_appends hcallback happends habout priv []
  exact ⟨decoder', priv', shown, last, hrun, List.forall₂_map_left_iff.mpr hshown, hlast⟩

/-! ### The first string -/

/-- Whatever follows the name of a node with the type of a double is read as a double. -/
theorem readNode_asDouble {decoder : Decoder} (hpending : decoder.pending = 0) {name : List UInt8}
    (hname : 0 ∉ name) (hlen : name.length < bsonMaxname) (value : List UInt8) :
    readNode e decoder (bsonDouble :: (name ++ 0 :: value)) = (readDouble e value).map fun r =>
      ({ decoder.node with type := bsonDouble, name := name, d := r.1 }, 0, r.2) := by
  have hread := readName_append hname hlen value
  have htype : bsonDouble ≠ bsonEoo := by decide
  have hint : bsonDouble ≠ bsonInt := by decide
  simp only [readNode, hpending, discardPending_zero, readInt8, Option.bind_eq_bind,
    Option.bind_some, if_neg htype, hread, readValue, if_neg hint, if_true]
  cases readDouble e value <;> rfl

/-- Where nothing can be read, the decoder fails. -/
theorem About.fails {σ : Type} {callback : Decoder → σ → Int × Decoder × σ} {decoder : Decoder}
    {stream : List UInt8} (h : About decoder stream)
    (hread : ∀ d : Decoder, d.pending = 0 → readNode e d stream = none) (priv : σ) :
    ∃ decoder', bsonDecoderNext e callback decoder priv = (-1, decoder', priv) := by
  obtain ⟨skipped, hfd, hskip⟩ := h.stream
  have hnesting : popNesting decoder = decoder.nesting := if_neg h.type
  have hnone : readNode e { decoder with fd := some skipped } skipped = none :=
    (readNode_skip hskip).trans (hread _ rfl)
  unfold bsonDecoderNext
  rw [hfd]
  simp only [hnesting]
  rw [if_neg fun hdone => h.type hdone.1, hnone]
  exact ⟨_, rfl⟩

/-- A string is shown as a double, if it is shown at all. -/
theorem About.next_string {σ : Type} (callback : Decoder → σ → Int × Decoder × σ)
    {decoder : Decoder} {name s rest : List UInt8} {behind : Nat → UInt8} (hname : 0 ∉ name)
    (hlen : name.length < bsonMaxname) (h : About decoder (stringNode e name behind s ++ rest))
    (priv : σ) :
    (∃ decoder', bsonDecoderNext e callback decoder priv = (-1, decoder', priv)) ∨
      ∃ decoder', decoder'.node.type = bsonDouble ∧
        bsonDecoderNext e callback decoder priv = callback decoder' priv := by
  rw [stringNode, List.cons_append, List.append_assoc, List.cons_append] at h
  cases hdouble : readDouble e (e.bytes32 (UInt32.ofNat s.length) ++
      (name ++ 0 :: (List.range (s.length + 1)).map behind).take (s.length + 1) ++ rest) with
  | none =>
      refine .inl (h.fails ?_ priv)
      intro d hpending
      rw [readNode_asDouble hpending hname hlen, hdouble]
      rfl
  | some r =>
      let node : Node := { decoder.node with type := bsonDouble, name := name, d := r.1 }
      refine .inr ⟨{ decoder with fd := some r.2, node := node, pending := 0 }, rfl, ?_⟩
      refine h.next ?_ priv
      intro d hpending hnode
      rw [readNode_asDouble hpending hname hlen, hdouble, hnode]
      rfl

/-- The callback that looks at nothing. -/
def ignoreCallback (decoder : Decoder) (priv : Unit) : Int × Decoder × Unit := (1, decoder, priv)

theorem consumes_ignoreCallback : Consumes ignoreCallback := fun _ _ => ⟨Int.one_pos, .inl rfl⟩

/-- What has been noted stays noted. -/
theorem decodeDocument_noted {σ : Type} {callback : Decoder → σ → Int × Decoder × σ} {fuel : Nat}
    {decoder decoder' : Decoder} {priv priv' : σ} {log log' : List Decoder} {result : Int}
    (h : decodeDocument e (noting callback) fuel decoder (priv, log) =
      some (result, decoder', (priv', log'))) : ∃ more, log' = log ++ more := by
  induction fuel generalizing decoder priv log with
  | zero => exact nomatch h
  | succ fuel ih =>
      have hnext : ∃ r d p more, bsonDecoderNext e (noting callback) decoder (priv, log) =
          (r, d, (p, log ++ more)) := by
        rcases bsonDecoderNext_cases (e := e) (noting callback) decoder (priv, log) with
          ⟨r, d, -, hnext⟩ | ⟨d, -, hnext⟩
        · exact ⟨r, d, priv, [], by rw [hnext, List.append_nil]⟩
        · exact ⟨_, _, _, [d], hnext⟩
      obtain ⟨r, d, p, more, hnext⟩ := hnext
      simp only [decodeDocument, hnext] at h
      split_ifs at h
      · obtain ⟨more', hlog⟩ := ih h
        exact ⟨more ++ more', by rw [hlog, List.append_assoc]⟩
      · cases h
        exact ⟨more, rfl⟩

/-- **A document that is decoded as it has been appended has no string in it.** -/
theorem noString_of_shown {calls : List AppendCall} (hcalls : ∀ call ∈ calls, call.Valid)
    {fuel : Nat} {decoder decoder' last : Decoder} {log shown : List Decoder}
    (habout : About decoder (calls.flatMap (AppendCall.node e) ++ [bsonEoo]))
    (hrun : decodeDocument e (noting ignoreCallback) fuel decoder ((), log) =
      some (0, decoder', ((), log ++ (shown ++ [last]))))
    (hshown : List.Forall₂ AppendCall.Shown calls shown) :
    ∀ call ∈ calls, call.isString = false := by
  induction calls generalizing fuel decoder log shown with
  | nil =>
      intro call hmem
      cases hmem
  | cons call calls ih =>
      rw [List.flatMap_cons, List.append_assoc] at habout
      obtain ⟨x, hx, shown, hrest, rfl⟩ : ∃ x, call.Shown x ∧ ∃ shown',
          List.Forall₂ AppendCall.Shown calls shown' ∧ shown = x :: shown' := by
        cases hshown with
        | cons hx hrest => exact ⟨_, hx, _, hrest, rfl⟩
      cases fuel with
      | zero => cases hrun
      | succ fuel =>
          have hcall := hcalls call List.mem_cons_self
          have hfirst : ∀ d : Decoder, bsonDecoderNext e (noting ignoreCallback) decoder ((), log) =
              noting ignoreCallback d ((), log) → x = d ∧
                decodeDocument e (noting ignoreCallback) fuel d ((), log ++ [d]) =
                  some (0, decoder', ((), log ++ [d] ++ (shown ++ [last]))) := by
            intro d hnext
            rw [decodeDocument_succ hnext Int.one_pos] at hrun
            obtain ⟨more, hlog⟩ := decodeDocument_noted hrun
            rw [List.append_assoc] at hlog
            obtain ⟨rfl, -⟩ := List.cons.inj (List.append_cancel_left hlog)
            refine ⟨rfl, hrun.trans ?_⟩
            simp
          cases call with
          | data a =>
              have hnext : bsonDecoderNext e (noting ignoreCallback) decoder ((), log) =
                  noting ignoreCallback (a.showing decoder
                    (calls.flatMap (AppendCall.node e) ++ [bsonEoo])) ((), log) := by
                refine habout.next ?_ ((), log)
                intro d hpending hnode
                rw [← hnode]
                exact readNode_append hcall hpending _
              have hleft := About.consumed consumes_ignoreCallback habout.nesting hcall
                (calls.flatMap (AppendCall.node e) ++ [bsonEoo]) ()
              have hcalls' := ih (fun call' hmem => hcalls call' (List.mem_cons_of_mem _ hmem))
                hleft (hfirst _ hnext).2 hrest
              intro call' hmem
              rcases List.mem_cons.mp hmem with rfl | hmem
              · rfl
              · exact hcalls' call' hmem
          | string name behind s =>
              exfalso
              rcases habout.next_string (noting ignoreCallback) hcall.1 hcall.2.1 ((), log) with
                ⟨d, hfails⟩ | ⟨d, htype, hnext⟩
              · simp [decodeDocument, hfails] at hrun
              · have hstring : bsonDouble ≠ bsonString := by decide
                rw [(hfirst d hnext).1] at hx
                exact hstring (htype.symm.trans hx.2.1)

/-- **Strings do not round trip.** A document that has been written in full is decoded as it has
been appended exactly if no string has been appended. -/
theorem string_round_trip {calls : List AppendCall} (hcalls : ∀ call ∈ calls, call.Valid)
    {encoder : Encoder}
    (hwritten : encodeCalls e accept calls { fd := true, written := [] } = .ok () encoder) :
    RoundTrips e calls encoder.written ↔ ∀ call ∈ calls, call.isString = false := by
  rw [encodeCalls_written hwritten]
  constructor
  · intro hlaw
    obtain ⟨decoder, hinit, habout⟩ :=
      about_start e (calls.flatMap (AppendCall.node e) ++ [bsonEoo])
    obtain ⟨decoder', hinit', hdecode⟩ := hlaw Unit ignoreCallback () consumes_ignoreCallback
    rw [hinit] at hinit'
    obtain ⟨-, rfl⟩ := Prod.mk.inj hinit'
    obtain ⟨_, _, shown, last, hrun, hshown, -⟩ := hdecode (calls.length + 2) (Nat.le_refl _)
    exact noString_of_shown hcalls habout hrun hshown
  · intro hnone
    obtain ⟨appends, rfl⟩ := exists_appends hnone
    refine roundTrips_appends ?_
    intro a ha
    exact hcalls (.data a) (List.mem_map_of_mem ha)

end

/-- A document with a number and a payload, and no string. -/
def sampleCalls : List AppendCall :=
  [.data (.int [97] 7), .data (.binary [98] bsonBinBinary [1, 2])]

theorem string_round_trip_without :
    RoundTrips .little sampleCalls
      [0, 0, 0, 0, 16, 97, 0, 7, 0, 0, 0, 5, 98, 0, 2, 0, 0, 0, 0, 1, 2, 0] := by
  have hvalid : ∀ call ∈ sampleCalls, call.Valid := by
    intro call hmem
    simp only [sampleCalls, List.mem_cons, List.not_mem_nil, or_false] at hmem
    rcases hmem with rfl | rfl
    · exact ⟨by decide, by decide, by decide⟩
    · exact ⟨by decide, by decide, by decide⟩
  have hwritten : encodeCalls .little (fun _ _ => true) sampleCalls
      { fd := true, written := [] } = .ok () _ := rfl
  exact (string_round_trip hvalid hwritten).mpr (by decide)

/-- A document with one string, named like it is: the string is not decoded as a string. -/
theorem string_lost :
    ¬ ∀ (e : Endian) (accept : List UInt8 → List UInt8 → Bool) (calls : List AppendCall)
      (encoder : Encoder), (∀ call ∈ calls, call.Valid) →
        encodeCalls e accept calls { fd := true, written := [] } = .ok () encoder →
          RoundTrips e calls encoder.written := by
  intro hclaim
  let call : AppendCall := .string [97] (fun _ => 0) [97]
  have hvalid : ∀ c ∈ [call], c.Valid := by
    intro c hmem
    rw [List.mem_singleton] at hmem
    subst hmem
    exact ⟨by decide, by decide, by decide, by decide⟩
  have hwritten : encodeCalls .little (fun _ _ => true) [call]
      { fd := true, written := [] } = .ok () _ := rfl
  obtain ⟨decoder, hinit, hdecode⟩ :=
    hclaim _ _ _ _ hvalid hwritten Unit ignoreCallback () consumes_ignoreCallback
  obtain ⟨_, _, _, _, hrun, -⟩ := hdecode 3 (by decide)
  have hdecoder : decoder = (bsonDecoderInit .little _).2 := (congrArg Prod.snd hinit).symm
  subst hdecoder
  exact nomatch hrun

end Px4Firmware.Bson
