import Px4Firmware.Bson.RoundTrip

/-!
# Px4Firmware.Bson.Access

The decoder read by read: every call of `read`, every byte that is stored in the name of a node,
every copy into the buffer of a caller and every `CODER_KILL` is noted in a log. The functions have
the names they have in `Px4Firmware.Bson.Coder`, which says what they read; here it is said what
they do on the way (`Careful`), and that they read the same (`reads_readNode`).
-/

namespace Px4Firmware.Bson

open Px4Firmware.Lib

/-- What the decoder does to the file, to the name in its node and to the buffer of a caller. -/
inductive Access
  /-- `read` is called for so many bytes. -/
  | read (wanted : Nat)
  /-- A byte is stored in the name of the node. -/
  | store (index : Nat) (b : UInt8)
  /-- The type of a node has been read, at this nesting level. -/
  | node (type : UInt8) (nesting : Nat)
  /-- The pending data of a node goes to a buffer with this room. -/
  | copy (type : UInt8) (pending : UInt32) (room : Nat)
  /-- `CODER_KILL`. -/
  | kill

/-- A decoder and what it has done. -/
structure Watched where
  decoder : Decoder
  log : List Access

/-- A function of the decoder. It throws where the source returns -1. -/
abbrev Decode := EStateM Unit Watched

namespace Decode

/-- Note an access. -/
def note (access : Access) : Decode Unit :=
  modify fun w => { w with log := w.log ++ [access] }

/-- Change the decoder. -/
def setDecoder (f : Decoder → Decoder) : Decode Unit :=
  modify fun w => { w with decoder := f w.decoder }

/-- `read`, which has to be complete. -/
def read (wanted : Nat) : Decode (List UInt8) := do
  note (.read wanted)
  match (← get).decoder.fd.bind (readBytes wanted) with
  | none => throw ()
  | some (bytes, rest) =>
      setDecoder fun decoder => { decoder with fd := some rest }
      return bytes

/-- `CODER_KILL` after an error. -/
def orKill {α : Type} (x : Decode α) : Decode α :=
  tryCatch x fun _ => do
    note .kill
    setDecoder Decoder.kill
    throw ()

/-- `read_int8`. -/
def readInt8 : Decode UInt8 := do
  let bytes ← read 1
  return bytes.headD 0

/-- The loop of `bson_decoder_next` that discards so many pending bytes. -/
def discardPending : Nat → Decode Unit
  | 0 => pure ()
  | pending + 1 => do
      let _ ← readInt8
      setDecoder fun decoder => { decoder with pending := decoder.pending - 1 }
      discardPending pending

/-- The loop of `bson_decoder_next` that reads a name, at this index of it. -/
def readName (nlen : Nat) : Decode (List UInt8) :=
  if bsonMaxname ≤ nlen then
    throw ()
  else do
    let b ← readInt8
    note (.store nlen b)
    if b = 0 then
      return []
    else
      let name ← readName (nlen + 1)
      return b :: name
termination_by bsonMaxname - nlen

section

variable (e : Endian)

/-- `read_int32`. -/
def readInt32 : Decode UInt32 := do
  let bytes ← read 4
  return e.word32 bytes

/-- `read_double`. -/
def readDouble : Decode UInt64 := do
  let bytes ← read 8
  return e.word64 bytes

/-- The value of a node, after its type and its name. -/
def readValue (type : UInt8) : Decode Unit :=
  if type = bsonInt then do
    let i ← readInt32 e
    setDecoder fun decoder => { decoder with node := { decoder.node with i := i } }
  else if type = bsonDouble then do
    let d ← readDouble e
    setDecoder fun decoder => { decoder with node := { decoder.node with d := d } }
  else if type = bsonString then do
    let pending ← readInt32 e
    setDecoder fun decoder => { decoder with pending := pending }
  else if type = bsonBindata then do
    let pending ← readInt32 e
    setDecoder fun decoder => { decoder with pending := pending }
    let subtype ← readInt8
    setDecoder fun decoder => { decoder with node := { decoder.node with subtype := subtype } }
  else
    -- other types are not supported
    throw ()

/-- The pending count of a decoder, which is signed, as a number of bytes to discard. -/
def discarded (pending : UInt32) : Nat := if pending.toNat < 0x80000000 then pending.toNat else 0

/-- What `bson_decoder_next` reads before it calls the callback. -/
def readNode : Decode Unit := do
  discardPending (discarded (← get).decoder.pending)
  let type ← readInt8
  setDecoder fun decoder =>
    { decoder with node := { decoder.node with type := type }, pending := 0 }
  note (.node type (← get).decoder.nesting)
  if type = bsonEoo then
    pure ()
  else
    let name ← readName 0
    setDecoder fun decoder => { decoder with node := { decoder.node with name := name } }
    readValue e type

/-- `bson_decoder_init`. -/
def bsonDecoderInit : Decode Unit := orKill do
  let _ ← readInt32 e
  return ()

/-- `bson_decoder_next`, with the callback and its data. -/
def bsonDecoderNext {σ : Type} (callback : Watched → σ → Int × Watched × σ) (w : Watched)
    (priv : σ) : Int × Watched × σ :=
  match w.decoder.fd with
  | none => (-1, w, priv)
  | some _ =>
      let decoder := { w.decoder with nesting := popNesting w.decoder }
      if decoder.node.type = bsonEoo ∧ decoder.nesting = 0 then
        (0, { w with decoder := decoder.kill }, priv)
      else
        match orKill (readNode e) { w with decoder := decoder } with
        | .error _ w => (-1, w, priv)
        | .ok _ w => callback w priv

/-- `bson_decoder_copy_data`, into a buffer with this room. -/
def bsonDecoderCopyData (room : Nat) : Decode (List UInt8) := do
  let decoder := (← get).decoder
  match decoder.fd with
  | none => throw ()
  | some _ =>
      if decoder.pending = 0 then
        return []
      else
        note (.copy decoder.node.type decoder.pending room)
        let data ← orKill (read decoder.pending.toNat)
        setDecoder fun decoder => { decoder with pending := 0 }
        return data

end

end Decode

/-! ### What is noted -/

/-- A name stays in its buffer, and what is copied is the data of a `BSON_BINDATA` node, whose
length is not negative and fits the buffer. -/
def Access.Fine : Access → Prop
  | .store index _ => index < bsonMaxname
  | .copy type pending room =>
      type = bsonBindata ∧ pending.toNat < 0x80000000 ∧ pending.toNat ≤ room
  | _ => True

/-- A log without an access out of bounds, and without a read after the decoder has failed. -/
structure Careful (log : List Access) : Prop where
  fine : ∀ access ∈ log, access.Fine
  quiet : log.Pairwise fun before after => before = .kill → ∀ wanted, after ≠ .read wanted

/-- The decoder has been careful, and if it has failed, its file is closed. -/
structure Settled (w : Watched) : Prop where
  careful : Careful w.log
  dead : .kill ∈ w.log → w.decoder.fd = none

/-- Accesses have been added to the log, none of them out of bounds or a failure. -/
def Adds (w w' : Watched) : Prop :=
  ∃ added, w'.log = w.log ++ added ∧ ∀ access ∈ added, access.Fine ∧ access ≠ .kill

theorem Adds.refl (w : Watched) : Adds w w := ⟨[], (List.append_nil w.log).symm, nofun⟩

theorem Adds.of_log {w w' : Watched} (h : w'.log = w.log) : Adds w w' :=
  ⟨[], by rw [h, List.append_nil], nofun⟩

theorem Adds.trans {w w' w'' : Watched} (h : Adds w w') (h' : Adds w' w'') : Adds w w'' := by
  obtain ⟨added, hlog, hadded⟩ := h
  obtain ⟨more, hlog', hmore⟩ := h'
  refine ⟨added ++ more, by rw [hlog', hlog, List.append_assoc], ?_⟩
  intro access hmem
  rcases List.mem_append.mp hmem with hmem | hmem
  · exact hadded access hmem
  · exact hmore access hmem

theorem Adds.mem {w w' : Watched} (h : Adds w w') {access : Access} (hmem : access ∈ w.log) :
    access ∈ w'.log := by
  obtain ⟨added, hlog, -⟩ := h
  rw [hlog]
  exact List.mem_append_left added hmem

/-- A log without a failure that stays fine stays careful. -/
theorem Careful.of_adds {w w' : Watched} (hw : Careful w.log) (halive : .kill ∉ w.log)
    (h : Adds w w') : Careful w'.log ∧ .kill ∉ w'.log := by
  obtain ⟨added, hlog, hadded⟩ := h
  have hfine : ∀ access ∈ w'.log, access.Fine := by
    intro access hmem
    rw [hlog] at hmem
    rcases List.mem_append.mp hmem with hmem | hmem
    · exact hw.fine access hmem
    · exact (hadded access hmem).1
  have hstill : .kill ∉ w'.log := by
    intro hmem
    rw [hlog] at hmem
    rcases List.mem_append.mp hmem with hmem | hmem
    · exact halive hmem
    · exact (hadded .kill hmem).2 rfl
  refine ⟨⟨hfine, ?_⟩, hstill⟩
  rw [List.pairwise_iff_forall_sublist]
  intro before after hsub hkill
  subst hkill
  exact absurd (hsub.subset List.mem_cons_self) hstill

/-- The failure is the last access. -/
theorem Careful.kill {log : List Access} (h : Careful log) : Careful (log ++ [.kill]) where
  fine := by
    intro access hmem
    rcases List.mem_append.mp hmem with hmem | hmem
    · exact h.fine access hmem
    · rw [List.mem_singleton] at hmem
      subst hmem
      trivial
  quiet := by
    refine List.pairwise_append.mpr ⟨h.quiet, List.pairwise_singleton _ _, ?_⟩
    intro before _ after hafter _ wanted
    rw [List.mem_singleton] at hafter
    subst hafter
    nofun

/-- The program only adds to the log. -/
def Notes {α : Type} (x : Decode α) : Prop :=
  ∀ w, outcome x (fun _ w' => Adds w w') (fun _ w' => Adds w w') w

namespace Notes

variable {α β : Type}

theorem pure (a : α) : Notes (Pure.pure a : Decode α) := Adds.refl

theorem throw : Notes (MonadExcept.throw () : Decode α) := Adds.refl

theorem bind {x : Decode α} {f : α → Decode β} (hx : Notes x) (hf : ∀ a, Notes (f a)) :
    Notes (x >>= f) := by
  intro w
  rw [outcome_bind]
  refine (hx w).mono ?_ fun _ _ h => h
  intro a w' h
  exact (hf a w').mono (fun _ _ h' => h.trans h') fun _ _ h' => h.trans h'

theorem get : Notes (MonadState.get : Decode Watched) := Adds.refl

theorem ite {c : Prop} [Decidable c] {x y : Decode α} (hx : Notes x) (hy : Notes y) :
    Notes (if c then x else y) := by
  by_cases h : c
  · rw [if_pos h]
    exact hx
  · rw [if_neg h]
    exact hy

theorem note (access : Access) (hfine : access.Fine) (halive : access ≠ .kill) :
    Notes (Decode.note access) := by
  intro w
  refine ⟨[access], rfl, ?_⟩
  intro access' hmem
  rw [List.mem_singleton] at hmem
  subst hmem
  exact ⟨hfine, halive⟩

theorem setDecoder (f : Decoder → Decoder) : Notes (Decode.setDecoder f) := fun _ => .of_log rfl

theorem read (wanted : Nat) : Notes (Decode.read wanted) := by
  refine (note (.read wanted) trivial nofun).bind fun _ => get.bind fun w => ?_
  cases w.decoder.fd.bind (readBytes wanted) with
  | none => exact throw
  | some r => exact (setDecoder _).bind fun _ => pure r.1

theorem readInt8 : Notes Decode.readInt8 := (read 1).bind fun bytes => pure (bytes.headD 0)

theorem readInt32 (e : Endian) : Notes (Decode.readInt32 e) :=
  (read 4).bind fun bytes => pure (e.word32 bytes)

theorem readDouble (e : Endian) : Notes (Decode.readDouble e) :=
  (read 8).bind fun bytes => pure (e.word64 bytes)

theorem discardPending (pending : Nat) : Notes (Decode.discardPending pending) := by
  induction pending with
  | zero => exact pure ()
  | succ pending ih => exact readInt8.bind fun _ => (setDecoder _).bind fun _ => ih

/-- The bytes of a name are stored below `BSON_MAXNAME`. -/
theorem readName (nlen : Nat) : Notes (Decode.readName nlen) := by
  induction nlen using Decode.readName.induct with
  | case1 nlen hroom =>
      rw [Decode.readName, if_pos hroom]
      exact throw
  | case2 nlen hroom ih =>
      rw [Decode.readName, if_neg hroom]
      refine readInt8.bind fun b => (note (.store nlen b) (not_le.mp hroom) nofun).bind fun _ =>
        ite (pure []) ?_
      exact ih.bind fun name => pure (b :: name)

theorem readValue (e : Endian) (type : UInt8) : Notes (Decode.readValue e type) := by
  refine ite ((readInt32 e).bind fun _ => setDecoder _) ?_
  refine ite ((readDouble e).bind fun _ => setDecoder _) ?_
  refine ite ((readInt32 e).bind fun _ => setDecoder _) ?_
  refine ite ?_ throw
  exact (readInt32 e).bind fun _ => (setDecoder _).bind fun _ => readInt8.bind fun _ =>
    setDecoder _

end Notes

/-! ### What is read -/

section

variable {e : Endian} {α β : Type}

/-- The program reads from the file of an open decoder what the function takes from its stream,
and throws when the function finds too little there. -/
def ReadsAs (x : Decode α) (f : List UInt8 → Option (α × List UInt8)) : Prop :=
  ∀ w stream, w.decoder.fd = some stream → outcome x
    (fun a w' => ∃ rest, f stream = some (a, rest) ∧
      w'.decoder = { w.decoder with fd := some rest })
    (fun _ _ => f stream = none) w

theorem readsAs_read (wanted : Nat) : ReadsAs (Decode.read wanted) (readBytes wanted) := by
  intro w stream hfd
  simp only [Decode.read, Decode.note, Decode.setDecoder, outcome_bind, outcome_modify,
    outcome_get, hfd, Option.bind_some]
  cases hread : readBytes wanted stream with
  | none => simp
  | some r =>
      obtain ⟨bytes, rest⟩ := r
      simp

theorem ReadsAs.map {x : Decode α} {f : List UInt8 → Option (α × List UInt8)} (hx : ReadsAs x f)
    (g : α → β) : ReadsAs (x >>= fun a => pure (g a)) fun stream =>
      (f stream).map fun r => (g r.1, r.2) := by
  intro w stream hfd
  rw [outcome_bind]
  refine (hx w stream hfd).mono ?_ ?_
  · rintro a w' ⟨rest, hread, hdecoder⟩
    rw [outcome_pure]
    exact ⟨rest, by simp [hread], hdecoder⟩
  · intro _ _ hnone
    simp [hnone]

theorem readsAs_readInt8 : ReadsAs Decode.readInt8 readInt8 := by
  have hread := (readsAs_read 1).map fun bytes => bytes.headD 0
  have hsame : (fun stream => (readBytes 1 stream).map fun r => (r.1.headD 0, r.2)) = readInt8 := by
    funext stream
    cases stream <;> simp [readBytes, readInt8]
  rwa [hsame] at hread

theorem readsAs_readInt32 (e : Endian) : ReadsAs (Decode.readInt32 e) (readInt32 e) :=
  (readsAs_read 4).map e.word32

theorem readsAs_readDouble (e : Endian) : ReadsAs (Decode.readDouble e) (readDouble e) :=
  (readsAs_read 8).map e.word64

/-- The name is scanned with the room that is left behind the index. -/
theorem readsAs_readName (nlen : Nat) :
    ReadsAs (Decode.readName nlen) (readName (bsonMaxname - nlen)) := by
  induction nlen using Decode.readName.induct with
  | case1 nlen hroom =>
      intro w stream hfd
      rw [Decode.readName, if_pos hroom, Nat.sub_eq_zero_of_le hroom, outcome_throw]
      rfl
  | case2 nlen hroom ih =>
      intro w stream hfd
      have hsucc : bsonMaxname - nlen = (bsonMaxname - (nlen + 1)) + 1 := by omega
      rw [Decode.readName, if_neg hroom, outcome_bind, hsucc]
      refine (readsAs_readInt8 w stream hfd).mono ?_ ?_
      · rintro b w' ⟨rest, hbyte, hdecoder⟩
        have hfd' : ({ w' with log := w'.log ++ [.store nlen b] } : Watched).decoder.fd =
            some rest := by
          rw [hdecoder]
        simp only [Decode.note, outcome_bind, outcome_modify, outcome_ite, outcome_pure, readName,
          hbyte, Option.bind_eq_bind, Option.bind_some]
        refine ⟨fun hb => ⟨rest, by rw [if_pos hb]; rfl, hdecoder⟩, fun hb => ?_⟩
        refine (ih _ rest hfd').mono ?_ ?_
        · rintro name w'' ⟨rest', hname, hdecoder'⟩
          refine ⟨rest', by rw [if_neg hb, hname]; rfl, ?_⟩
          rw [hdecoder', hdecoder]
        · intro _ _ hname
          rw [if_neg hb, hname]
          rfl
      · intro _ _ hbyte
        simp only [readName, hbyte, Option.bind_eq_bind, Option.bind_none]

/-- The pending bytes are read one by one. -/
theorem reads_discardPending (pending : Nat) {w : Watched} {stream : List UInt8}
    (hfd : w.decoder.fd = some stream) : outcome (Decode.discardPending pending)
      (fun _ w' => ∃ bytes rest left, readBytes pending stream = some (bytes, rest) ∧
        w'.decoder = { w.decoder with fd := some rest, pending := left })
      (fun _ _ => readBytes pending stream = none) w := by
  induction pending generalizing w stream with
  | zero =>
      rw [Decode.discardPending, outcome_pure]
      exact ⟨[], stream, w.decoder.pending, by simp [readBytes], by rw [← hfd]⟩
  | succ pending ih =>
      rw [Decode.discardPending, outcome_bind]
      refine (readsAs_readInt8 w stream hfd).mono ?_ ?_
      · rintro b w' ⟨rest, hbyte, hdecoder⟩
        obtain rfl : stream = b :: rest := by
          cases stream with
          | nil => cases hbyte
          | cons c stream =>
              cases hbyte
              rfl
        have hcons : readBytes (pending + 1) (b :: rest) =
            (readBytes pending rest).map fun r => (b :: r.1, r.2) := by
          unfold readBytes
          by_cases hlen : pending ≤ rest.length <;> simp [hlen]
        simp only [Decode.setDecoder, outcome_bind, outcome_modify]
        refine (ih (by rw [hdecoder])).mono ?_ ?_
        · rintro _ w'' ⟨bytes, rest', left, hread, hdecoder'⟩
          refine ⟨b :: bytes, rest', left, by rw [hcons, hread]; rfl, ?_⟩
          rw [hdecoder', hdecoder]
        · intro _ _ hread
          rw [hcons, hread]
          rfl
      · intro _ _ hbyte
        cases stream with
        | nil => rfl
        | cons c stream => cases hbyte

theorem discardPending_eq (pending : UInt32) (stream : List UInt8) :
    discardPending pending stream =
      (readBytes (Decode.discarded pending) stream).map Prod.snd := by
  unfold discardPending Decode.discarded
  by_cases hpending : pending.toNat < 0x80000000
  · rw [if_pos hpending, if_pos hpending]
  · rw [if_neg hpending, if_neg hpending]
    simp [readBytes]

theorem reads_readValue (type : UInt8) {w : Watched} {stream : List UInt8}
    (hfd : w.decoder.fd = some stream) (htype : w.decoder.node.type = type)
    (hpending : w.decoder.pending = 0) : outcome (Decode.readValue e type)
      (fun _ w' => ∃ node pending rest,
        readValue e w.decoder.node stream = some (node, pending, rest) ∧ node.type = type ∧
        w'.decoder = { w.decoder with fd := some rest, node := node, pending := pending })
      (fun _ _ => readValue e w.decoder.node stream = none) w := by
  subst htype
  unfold Decode.readValue readValue
  split_ifs with hint hdouble hstring hbindata
  · rw [outcome_bind]
    refine (readsAs_readInt32 e w stream hfd).mono ?_ ?_
    · rintro i w' ⟨rest, hread, hdecoder⟩
      exact ⟨{ w.decoder.node with i := i }, 0, rest, by rw [hread]; rfl, rfl, by
        simp [hdecoder, hpending]⟩
    · intro _ _ hread
      rw [hread]
      rfl
  · rw [outcome_bind]
    refine (readsAs_readDouble e w stream hfd).mono ?_ ?_
    · rintro d w' ⟨rest, hread, hdecoder⟩
      exact ⟨{ w.decoder.node with d := d }, 0, rest, by rw [hread]; rfl, rfl, by
        simp [hdecoder, hpending]⟩
    · intro _ _ hread
      rw [hread]
      rfl
  · rw [outcome_bind]
    refine (readsAs_readInt32 e w stream hfd).mono ?_ ?_
    · rintro pending w' ⟨rest, hread, hdecoder⟩
      exact ⟨_, pending, rest, by rw [hread]; rfl, rfl, by simp [hdecoder]⟩
    · intro _ _ hread
      rw [hread]
      rfl
  · rw [outcome_bind]
    refine (readsAs_readInt32 e w stream hfd).mono ?_ ?_
    · rintro pending w' ⟨rest, hread, hdecoder⟩
      simp only [Decode.setDecoder, outcome_bind, outcome_modify]
      refine (readsAs_readInt8 _ rest (by rw [hdecoder])).mono ?_ ?_
      · rintro subtype w'' ⟨rest', hsubtype, hdecoder'⟩
        refine ⟨{ w.decoder.node with subtype := subtype }, pending, rest', ?_, rfl, ?_⟩
        · rw [hread]
          simp [hsubtype]
        · simp [hdecoder', hdecoder]
      · intro _ _ hsubtype
        rw [hread]
        simp [hsubtype]
    · intro _ _ hread
      rw [hread]
      rfl
  · rfl

/-- **The decoder reads, read by read, what `readNode` takes from the stream**, and has noted the
type of the node. -/
theorem reads_readNode {w : Watched} {stream : List UInt8} (hfd : w.decoder.fd = some stream) :
    outcome (Decode.readNode e)
      (fun _ w' => ∃ node pending rest, readNode e w.decoder stream = some (node, pending, rest) ∧
        w'.decoder = { w.decoder with fd := some rest, node := node, pending := pending } ∧
        .node node.type w.decoder.nesting ∈ w'.log)
      (fun _ _ => readNode e w.decoder stream = none) w := by
  simp only [Decode.readNode, outcome_bind, outcome_get]
  refine (reads_discardPending (Decode.discarded w.decoder.pending) hfd).mono ?_ ?_
  · rintro _ w₁ ⟨bytes, rest₁, left, hdiscard, hdecoder₁⟩
    have hskip : discardPending w.decoder.pending stream = some rest₁ := by
      rw [discardPending_eq, hdiscard]
      rfl
    refine (readsAs_readInt8 w₁ rest₁ (by rw [hdecoder₁])).mono ?_ ?_
    · rintro type w₂ ⟨rest₂, htype, hdecoder₂⟩
      simp only [Decode.setDecoder, Decode.note, outcome_modify, outcome_ite, outcome_pure,
        outcome_bind]
      have hnoted : (Access.node type w₂.decoder.nesting) ∈
          w₂.log ++ [.node type w₂.decoder.nesting] :=
        List.mem_append_right _ List.mem_cons_self
      have hnesting : w₂.decoder.nesting = w.decoder.nesting := by rw [hdecoder₂, hdecoder₁]
      rw [hnesting] at hnoted ⊢
      refine ⟨fun heoo => ?_, fun heoo => ?_⟩
      · refine ⟨{ w.decoder.node with type := type }, 0, rest₂, ?_, ?_, hnoted⟩
        · simp [readNode, hskip, htype, heoo]
        · simp [hdecoder₂, hdecoder₁]
      · refine ((readsAs_readName 0 _ rest₂ (by simp [hdecoder₂])).and
          (Notes.readName 0 _)).mono ?_ ?_
        · rintro name w₃ ⟨⟨rest₃, hname, hdecoder₃⟩, hadds₃⟩
          rw [Nat.sub_zero] at hname
          have hpure : readNode e w.decoder stream =
              readValue e { w.decoder.node with type := type, name := name } rest₃ := by
            simp [readNode, hskip, htype, heoo, hname]
          have hfd₃ : w₃.decoder.fd = some rest₃ := by simp [hdecoder₃]
          refine ((reads_readValue (w := { w₃ with decoder := { w₃.decoder with
            node := { w₃.decoder.node with name := name } } }) type hfd₃
            (by simp [hdecoder₃]) (by simp [hdecoder₃])).and (Notes.readValue e type _)).mono ?_ ?_
          · rintro _ w₄ ⟨⟨node, pending, rest, hvalue, htyped, hdecoder₄⟩, hadds₄⟩
            refine ⟨node, pending, rest, ?_, ?_, ?_⟩
            · rw [hpure, ← hvalue]
              simp [hdecoder₃, hdecoder₂, hdecoder₁]
            · simp [hdecoder₄, hdecoder₃, hdecoder₂, hdecoder₁]
            · rw [htyped]
              exact hadds₄.mem (hadds₃.mem hnoted)
          · rintro _ _ ⟨hvalue, -⟩
            rw [hpure, ← hvalue]
            simp [hdecoder₃, hdecoder₂, hdecoder₁]
        · rintro _ _ ⟨hname, -⟩
          rw [Nat.sub_zero] at hname
          simp [readNode, hskip, htype, heoo, hname]
    · intro _ _ htype
      simp [readNode, hskip, htype]
  · intro _ _ hdiscard
    have hskip : discardPending w.decoder.pending stream = none := by
      rw [discardPending_eq, hdiscard]
      rfl
    simp [readNode, hskip]

theorem notes_readNode (e : Endian) : Notes (Decode.readNode e) := by
  refine Notes.get.bind fun w => (Notes.discardPending _).bind fun _ => ?_
  refine Notes.readInt8.bind fun type => (Notes.setDecoder _).bind fun _ => ?_
  refine Notes.get.bind fun w => ?_
  refine (Notes.note (.node type w.decoder.nesting) trivial nofun).bind fun _ => ?_
  refine (Notes.pure ()).ite ((Notes.readName 0).bind fun name => ?_)
  exact (Notes.setDecoder _).bind fun _ => Notes.readValue e type

/-! ### Steps of the decoder -/

/-- **A failure closes the file**, and is noted after everything that has been read. -/
theorem Settled.orKill {x : Decode α} (hx : Notes x) {w : Watched} (hw : Settled w)
    (hfd : w.decoder.fd ≠ none) :
    outcome (Decode.orKill x) (fun _ w' => Settled w' ∧ Adds w w')
      (fun _ w' => Settled w' ∧ w'.decoder.fd = none) w := by
  have halive : .kill ∉ w.log := fun hkill => hfd (hw.dead hkill)
  simp only [Decode.orKill, Decode.note, Decode.setDecoder, outcome_tryCatch, outcome_bind,
    outcome_modify, outcome_throw]
  refine (hx w).mono ?_ ?_
  · intro _ w' hadds
    obtain ⟨hcareful, hstill⟩ := hw.careful.of_adds halive hadds
    exact ⟨⟨hcareful, fun hkill => absurd hkill hstill⟩, hadds⟩
  · intro _ w' hadds
    obtain ⟨hcareful, -⟩ := hw.careful.of_adds halive hadds
    exact ⟨⟨hcareful.kill, fun _ => rfl⟩, rfl⟩

theorem outcome_orKill {x : Decode α} {Q : α → Watched → Prop} {q : Prop} {w : Watched}
    (h : outcome x Q (fun _ _ => q) w) : outcome (Decode.orKill x) Q (fun _ _ => q) w := by
  simp only [Decode.orKill, Decode.note, Decode.setDecoder, outcome_tryCatch, outcome_bind,
    outcome_modify, outcome_throw]
  exact h

theorem settled_new (stream : List UInt8) : Settled { decoder := Decoder.new stream, log := [] } :=
  ⟨⟨nofun, List.Pairwise.nil⟩, nofun⟩

/-- **A step of the decoder** fails, or finds the document done, or calls the callback with the node
that the functions on streams read, whose type has been noted. -/
theorem bsonDecoderNext_watched {σ : Type} (callback : Watched → σ → Int × Watched × σ)
    (callback' : Decoder → σ → Int × Decoder × σ) {w : Watched} (hw : Settled w) (priv : σ) :
    (∃ w' decoder, Settled w' ∧ Decode.bsonDecoderNext e callback w priv = (-1, w', priv) ∧
        bsonDecoderNext e callback' w.decoder priv = (-1, decoder, priv)) ∨
      (w.decoder.node.type = bsonEoo ∧ ∃ w' decoder, Settled w' ∧
        Decode.bsonDecoderNext e callback w priv = (0, w', priv) ∧
        bsonDecoderNext e callback' w.decoder priv = (0, decoder, priv)) ∨
      ∃ w', Settled w' ∧ w'.decoder.nesting = popNesting w.decoder ∧
        .node w'.decoder.node.type w'.decoder.nesting ∈ w'.log ∧
        Decode.bsonDecoderNext e callback w priv = callback w' priv ∧
        bsonDecoderNext e callback' w.decoder priv = callback' w'.decoder priv := by
  unfold Decode.bsonDecoderNext bsonDecoderNext
  cases hfd : w.decoder.fd with
  | none => exact .inl ⟨w, w.decoder, hw, rfl, rfl⟩
  | some stream =>
      simp only
      split_ifs with hdone
      · exact .inr (.inl ⟨hdone.1, { w with decoder := Decoder.kill _ }, _,
          ⟨hw.careful, fun _ => rfl⟩, rfl, rfl⟩)
      · let popped : Watched :=
          { w with decoder := { w.decoder with nesting := popNesting w.decoder } }
        have hopen : popped.decoder.fd = some stream := hfd
        have hsame : popped.decoder =
            { w.decoder with fd := some stream, nesting := popNesting w.decoder } := by
          rw [← hfd]
        have hpopped : Settled popped := ⟨hw.careful, hw.dead⟩
        have hread := outcome_orKill (reads_readNode (e := e) hopen)
        have hstep := hread.and (hpopped.orKill (notes_readNode e) (by rw [hopen]; nofun))
        unfold outcome at hstep
        cases hrun : Decode.orKill (Decode.readNode e) popped with
        | error err w' =>
            rw [hrun] at hstep
            obtain ⟨hnone, hsettled, -⟩ := hstep
            refine .inl ⟨w', popped.decoder.kill, hsettled, ?_, ?_⟩
            · rfl
            · rw [hsame] at hnone ⊢
              rw [hnone]
        | ok u w' =>
            rw [hrun] at hstep
            obtain ⟨⟨node, pending, rest, hnode, hdecoder, hnoted⟩, hsettled, -⟩ := hstep
            refine .inr (.inr ⟨w', hsettled, by rw [hdecoder], ?_, ?_, ?_⟩)
            · rw [hdecoder]
              exact hnoted
            · rfl
            · rw [hsame] at hnode hdecoder
              rw [hnode, hdecoder]

/-- **Copying**, of data that may be copied into the buffer. -/
theorem bsonDecoderCopyData_watched {w : Watched} (hw : Settled w) {room : Nat}
    (hfine : (Access.copy w.decoder.node.type w.decoder.pending room).Fine) :
    outcome (Decode.bsonDecoderCopyData room)
      (fun data w' => Settled w' ∧ bsonDecoderCopyData w.decoder = (some data, w'.decoder))
      (fun _ w' => Settled w' ∧ (bsonDecoderCopyData w.decoder).1 = none) w := by
  simp only [Decode.bsonDecoderCopyData, bsonDecoderCopyData, outcome_bind, outcome_get]
  cases hfd : w.decoder.fd with
  | none => exact ⟨hw, rfl⟩
  | some stream =>
      simp only
      have hopen : w.decoder.fd ≠ none := by
        rw [hfd]
        exact Option.some_ne_none stream
      by_cases hpending : w.decoder.pending = 0
      · rw [if_pos hpending, if_pos hpending]
        exact ⟨hw, rfl⟩
      · rw [if_neg hpending, if_neg hpending]
        let access := Access.copy w.decoder.node.type w.decoder.pending room
        let noted : Watched := { w with log := w.log ++ [access] }
        have hnoted : Settled noted := by
          have hkill : access ≠ .kill := by simp [access]
          have hkeeps := (Notes.note access hfine hkill) w
          obtain ⟨hcareful, halive⟩ :=
            hw.careful.of_adds (fun hkill => hopen (hw.dead hkill)) hkeeps
          exact ⟨hcareful, fun hkill => absurd hkill halive⟩
        have hread := outcome_orKill (readsAs_read w.decoder.pending.toNat noted stream hfd)
        have hkeeps := hnoted.orKill (Notes.read w.decoder.pending.toNat) hopen
        simp only [Decode.note, Decode.setDecoder, outcome_bind, outcome_modify, outcome_pure]
        refine (hread.and hkeeps).mono ?_ ?_
        · rintro data w' ⟨⟨rest, hbytes, hdecoder⟩, hsettled, -⟩
          rw [hbytes]
          refine ⟨⟨hsettled.careful, hsettled.dead⟩, ?_⟩
          rw [hdecoder]
        · rintro _ w' ⟨hbytes, hsettled, -⟩
          rw [hbytes]
          exact ⟨hsettled, rfl⟩

/-- What `bson_decoder_init` reads, and notes. -/
theorem bsonDecoderInit_watched (stream : List UInt8) :
    outcome (Decode.bsonDecoderInit e)
      (fun _ w' => Settled w' ∧ bsonDecoderInit e stream = (0, w'.decoder))
      (fun _ w' => Settled w' ∧ (bsonDecoderInit e stream).1 = -1)
      { decoder := Decoder.new stream, log := [] } := by
  have hread := ((readsAs_readInt32 e).map fun _ => ()) { decoder := Decoder.new stream, log := [] }
    stream rfl
  have hkeeps := (settled_new stream).orKill
    ((Notes.readInt32 e).bind fun _ => Notes.pure ()) nofun
  refine ((outcome_orKill hread).and hkeeps).mono ?_ ?_
  · rintro _ w' ⟨⟨rest, hjunk, hdecoder⟩, hsettled, -⟩
    obtain ⟨⟨junk, rest'⟩, hword, heq⟩ := Option.map_eq_some_iff.mp hjunk
    cases heq
    refine ⟨hsettled, ?_⟩
    unfold bsonDecoderInit
    rw [hword, hdecoder]
  · rintro _ w' ⟨hjunk, hsettled, -⟩
    refine ⟨hsettled, ?_⟩
    unfold bsonDecoderInit
    rw [Option.map_eq_none_iff.mp hjunk]

end

end Px4Firmware.Bson
