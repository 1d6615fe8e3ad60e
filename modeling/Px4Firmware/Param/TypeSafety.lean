import Px4Firmware.Param.History

/-!
# Px4Firmware.Param.TypeSafety

**What a file can do to the parameters.** The types are checked for the nodes that hold an integer
or a double, and the size for those that hold binary data; that binary data is for a structure is
not checked. So a node of binary data sets a scalar, if it has the right size (`Confuses`). But for
these nodes an import is type safe (`import_type_safety`), and its copies have room in any case.

To say that there is room, the blocks that the store has allocated are kept beside it.
-/

namespace Px4Firmware.Param

open Px4Firmware.Lib
open Px4Firmware.Bson

/-! ### What has been allocated -/

/-- The addresses and the sizes of blocks. -/
abbrev Blocks := List (UInt32 × Nat)

/-- What `param_set_internal` allocates. -/
def setBlocks (env : Env) (param : ParamT) (s : Store) : Blocks :=
  match paramType env param with
  | .struct size =>
      if pointer param s = 0 then (env.malloc s.mallocs).toList.map fun p => (p, size.val) else []
  | _ => []

/-- What a call allocates for good. -/
def Call.blocks (env : Env) : Call → Store → Blocks
  | .set param _, s => setBlocks env param s
  | .node _ decoder, s =>
      match importNode env decoder s.mallocs with
      | (.set param _, _, mallocs) => setBlocks env param { s with mallocs := mallocs }
      | _ => []
  | _, _ => []

/-- The store, with all that has been allocated for it. -/
def storeWithBlocks (env : Env) : LTS (Store × Blocks) Call :=
  (storeCalls env).observe [] fun blocks s call _ => blocks ++ call.blocks env s

/-- A structure is stored in a block that has been allocated with its size. -/
structure Owned (env : Env) (s : Store) (blocks : Blocks) : Prop where
  wellFormed : WellFormed env s
  block : ∀ q size, paramType env q = .struct size → pointer q s ≠ 0 →
    (pointer q s, size.val) ∈ blocks

section

variable {env : Env} {s t : Store} {blocks : Blocks} {param : ParamT}

/-- After a set, a structure is where it was, or in the block that has been allocated. -/
theorem SetEnds.block {val : List UInt8} {markSaved : Bool} {result : Int} (hs : Sorted s)
    (h : SetEnds env param val markSaved s result t) {q : ParamT} {size : Fin 16385}
    (hq : paramType env q = .struct size) :
    pointer q t = pointer q s ∨ (pointer q t, size.val) ∈ setBlocks env param s := by
  by_cases hqp : q = param
  · subst hqp
    cases h with
    | outOfRange _ harray => exact .inl (pointer_of_changed (changed_of_array harray q))
    | untyped _ _ harray => exact .inl (pointer_of_entered hs harray q)
    | noMemory _ _ _ harray => exact .inl (pointer_of_entered hs harray q)
    | scalar hscalar => exact absurd hq (hscalar.ne_struct size)
    | overwritten _ _ _ _ hwritten => exact .inl hwritten.pointer
    | allocated htype hnull hmalloc _ _ hwritten =>
        obtain rfl := ParamType.struct.inj (hq.symm.trans htype)
        rw [hwritten.pointer, setBlocks, htype]
        exact .inr (by simp [hnull, hmalloc])
  · exact .inl (pointer_of_changed (h.others hs hqp))

theorem Owned.set (h : Owned env s blocks) (param : ParamT) (val : List UInt8)
    (markSaved : Bool) :
    Owned env (paramSetInternal env param val markSaved s).2
      (blocks ++ setBlocks env param s) := by
  refine ⟨h.wellFormed.set param val markSaved, fun q size hq hpointer => ?_⟩
  have hsorted := h.wellFormed.sorted
  rcases (paramSetInternal_ends env hsorted param val markSaved).block hsorted hq with
    hsame | hblock
  · rw [hsame] at hpointer ⊢
    exact List.mem_append_left _ (h.block q size hq hpointer)
  · exact List.mem_append_right _ hblock

/-- What leaves the pointers as they are, or takes them away. -/
theorem Owned.of_pointer (h : Owned env s blocks) (ht : WellFormed env t)
    (hpointer : ∀ q, pointer q t = pointer q s ∨ pointer q t = 0) (blocks' : Blocks) :
    Owned env t (blocks ++ blocks') := by
  refine ⟨ht, fun q size hq hne => ?_⟩
  rcases hpointer q with hsame | hnull
  · rw [hsame] at hne ⊢
    exact List.mem_append_left _ (h.block q size hq hne)
  · exact absurd hnull hne

theorem pointer_paramReset (hs : Sorted s) (param q : ParamT) :
    pointer q (paramReset env param s) = pointer q s ∨ pointer q (paramReset env param s) = 0 := by
  by_cases hrange : handleInRange env param = true
  · have hreset := (paramReset_spec env hs hrange).2 q
    by_cases hqp : q = param
    · rw [if_pos hqp] at hreset
      unfold pointer
      rw [hreset]
      exact .inr rfl
    · rw [if_neg hqp] at hreset
      exact .inl (pointer_of_changed hreset)
  · rw [show paramReset env param s = s from if_neg hrange]
    exact .inl rfl

theorem pointer_paramExport (onlyUnsaved : Bool) (s : Store) (q : ParamT) :
    pointer q (paramExport env onlyUnsaved s).2.1 = pointer q s := by
  have harray := (paramExport_array env onlyUnsaved s).1
  have hlookup := congrArg (lookupKey ParamWbuf.param q) harray
  rw [lookupKey_map (f := ParamWbuf.saved) fun _ => rfl,
    lookupKey_map (f := ParamWbuf.saved) fun _ => rfl, ← changed_eq, ← changed_eq] at hlookup
  have hval := congrArg (Option.map ParamWbuf.val) hlookup
  rw [Option.map_map, Option.map_map] at hval
  exact congrArg (Option.getD · 0) hval

/-- What a node allocates for good is what its set allocates. -/
theorem blocks_node {markSaved : Bool} {decoder : Decoder} {val : List UInt8} {k : Nat}
    (haction : (importNode env decoder s.mallocs).1 = .set param val)
    (hmallocs : (importNode env decoder s.mallocs).2.2 = k) :
    Call.blocks env (.node markSaved decoder) s = setBlocks env param { s with mallocs := k } := by
  simp only [Call.blocks]
  cases himport : importNode env decoder s.mallocs with
  | mk action rest =>
      rw [himport] at haction hmallocs
      simp only at haction hmallocs
      subst haction hmallocs
      rfl

/-- Every call keeps the blocks of the structures allocated. -/
theorem Owned.call (h : Owned env s blocks) (call : Call) :
    Owned env (call.apply env s) (blocks ++ call.blocks env s) := by
  have hwellFormed := h.wellFormed.call call
  have hsorted := h.wellFormed.sorted
  cases call with
  | set param val => exact h.set param val false
  | reset param => exact h.of_pointer hwellFormed (pointer_paramReset hsorted param) []
  | resetAll => exact h.of_pointer hwellFormed (fun q => .inr rfl) []
  | exportTo onlyUnsaved =>
      exact h.of_pointer hwellFormed (fun q => .inl (pointer_paramExport onlyUnsaved s q)) []
  | node markSaved decoder =>
      rcases paramImportCallback_store env markSaved decoder s with
        ⟨k, hstore, -⟩ | ⟨param, val, k, haction, hmallocs, hstore⟩
      · refine h.of_pointer hwellFormed (fun q => .inl ?_) _
        show pointer q (paramImportCallback env markSaved decoder s).2.2 = pointer q s
        rw [hstore]
        rfl
      · have hcounted : Owned env { s with mallocs := k } blocks :=
          ⟨h.wellFormed.of_values rfl, h.block⟩
        show Owned env (paramImportCallback env markSaved decoder s).2.2 _
        rw [hstore, blocks_node haction hmallocs]
        exact hcounted.set param val markSaved

theorem owned_of_reachable {p : Store × Blocks} (h : (storeWithBlocks env).Reachable p) :
    Owned env p.1 p.2 := by
  refine h.invariant (I := fun p => Owned env p.1 p.2) ?_ ?_
  · rintro ⟨s, blocks⟩ ⟨hinit, rfl⟩
    refine ⟨.of_values_none hinit, fun q size _ hpointer => absurd ?_ hpointer⟩
    unfold pointer
    rw [changed_of_values_none hinit q]
    rfl
  · rintro ⟨s, blocks⟩ call ⟨t, blocks'⟩ hs ⟨hstep, hblocks⟩
    obtain rfl : call.apply env s = t := hstep
    obtain rfl : blocks' = blocks ++ call.blocks env s := hblocks
    exact hs.call call

end

/-! ### What a node asks for -/

/-- The kind of a node matches the type of the parameter it names. -/
inductive Matches (env : Env) (decoder : Decoder) (param : ParamT) : Prop
  | int32 : paramFind env decoder.node.name = param → paramType env param = .int32 →
      decoder.node.type = bsonInt → Matches env decoder param
  | float : paramFind env decoder.node.name = param → paramType env param = .float →
      decoder.node.type = bsonDouble → Matches env decoder param
  | struct {size : Fin 16385} : paramFind env decoder.node.name = param →
      paramType env param = .struct size → decoder.node.type = bsonBindata →
      bsonDecoderDataPending decoder = size → Matches env decoder param

/-- The node is binary data of the size of the parameter it names, and the data is there. -/
structure Binary (env : Env) (decoder : Decoder) (mallocs : Nat) (param : ParamT)
    (data : List UInt8) : Prop where
  name : paramFind env decoder.node.name = param
  known : param ≠ paramInvalid
  type : decoder.node.type = bsonBindata
  subtype : decoder.node.subtype = bsonBinBinary
  size : bsonDecoderDataPending decoder = paramSize env param
  buffer : (env.malloc mallocs).isSome
  data : (bsonDecoderCopyData decoder).1 = some data

/-- The ends of `param_import_callback` before `param_set_internal`: what it asks for, the decoder
and the calls of `malloc`. -/
inductive NodeEnds (env : Env) (decoder : Decoder) (mallocs : Nat) :
    NodeAction → Decoder → Nat → Prop
  | none {action : NodeAction} {mallocs' : Nat} : (∀ param val, action ≠ .set param val) →
      NodeEnds env decoder mallocs action decoder mallocs'
  | scalar {param : ParamT} {val : List UInt8} : Matches env decoder param → Scalar env param →
      val.length = 4 → NodeEnds env decoder mallocs (.set param val) decoder mallocs
  | short : bsonDecoderDataPending decoder = paramSize env (paramFind env decoder.node.name) →
      NodeEnds env decoder mallocs .reject (bsonDecoderCopyData decoder).2 (mallocs + 1)
  | binary {param : ParamT} {data : List UInt8} : Binary env decoder mallocs param data →
      NodeEnds env decoder mallocs (.set param data) (bsonDecoderCopyData decoder).2 (mallocs + 1)

section

variable {env : Env} {decoder : Decoder}

theorem length_bsonDecoderCopyData {data : List UInt8}
    (h : (bsonDecoderCopyData decoder).1 = some data) :
    data.length = bsonDecoderDataPending decoder := by
  unfold bsonDecoderCopyData at h
  unfold bsonDecoderDataPending
  cases hfd : decoder.fd with
  | none =>
      rw [hfd] at h
      exact nomatch h
  | some stream =>
      simp only [hfd] at h
      by_cases hpending : decoder.pending = 0
      · rw [if_pos hpending] at h
        cases h
        rw [hpending]
        rfl
      · rw [if_neg hpending] at h
        cases hread : readBytes decoder.pending.toNat stream with
        | none =>
            rw [hread] at h
            exact nomatch h
        | some r =>
            rw [hread] at h
            cases h
            unfold readBytes at hread
            split_ifs at hread with hle
            cases hread
            exact List.length_take_of_le hle

theorem importBindata_ends {mallocs : Nat} (hparam : paramFind env decoder.node.name ≠ paramInvalid)
    (htype : decoder.node.type = bsonBindata) :
    NodeEnds env decoder mallocs
      (importBindata env (paramFind env decoder.node.name) decoder mallocs).1
      (importBindata env (paramFind env decoder.node.name) decoder mallocs).2.1
      (importBindata env (paramFind env decoder.node.name) decoder mallocs).2.2 := by
  unfold importBindata
  by_cases hsubtype : decoder.node.subtype = bsonBinBinary
  · rw [if_neg (not_not.mpr hsubtype)]
    by_cases hsize : bsonDecoderDataPending decoder =
        paramSize env (paramFind env decoder.node.name)
    · rw [if_neg (not_not.mpr hsize)]
      cases hmalloc : env.malloc mallocs with
      | none => exact .none nofun
      | some p =>
          simp only
          cases hcopy : bsonDecoderCopyData decoder with
          | mk copied decoder' =>
              have hdecoder : decoder' = (bsonDecoderCopyData decoder).2 := by rw [hcopy]
              subst hdecoder
              cases copied with
              | none => exact .short hsize
              | some data =>
                  exact .binary ⟨rfl, hparam, htype, hsubtype, hsize, by rw [hmalloc]; rfl,
                    by rw [hcopy]⟩
    · rw [if_pos hsize]
      exact .none nofun
  · rw [if_pos hsubtype]
    exact .none nofun

/-- **A node leaves the parameters alone, sets a scalar of its kind, or is binary data.** -/
theorem importNode_ends (env : Env) (decoder : Decoder) (mallocs : Nat) :
    NodeEnds env decoder mallocs (importNode env decoder mallocs).1
      (importNode env decoder mallocs).2.1 (importNode env decoder mallocs).2.2 := by
  have hnone : ∀ action, (∀ param val, action ≠ .set param val) →
      NodeEnds env decoder mallocs action decoder mallocs := fun _ h => .none h
  unfold importNode
  by_cases heoo : decoder.node.type = bsonEoo
  · rw [if_pos heoo]
    exact hnone _ nofun
  rw [if_neg heoo]
  simp only
  by_cases hparam : paramFind env decoder.node.name = paramInvalid
  · rw [if_pos hparam]
    exact hnone _ nofun
  rw [if_neg hparam]
  by_cases hint : decoder.node.type = bsonInt
  · rw [if_pos hint]
    by_cases htype : paramType env (paramFind env decoder.node.name) = .int32
    · rw [if_neg (not_not.mpr htype)]
      exact .scalar (.int32 rfl htype hint) (.inl htype) (Endian.bytes32_length ..)
    · rw [if_pos htype]
      exact hnone _ nofun
  rw [if_neg hint]
  by_cases hdouble : decoder.node.type = bsonDouble
  · rw [if_pos hdouble]
    by_cases htype : paramType env (paramFind env decoder.node.name) = .float
    · rw [if_neg (not_not.mpr htype)]
      exact .scalar (.float rfl htype hdouble) (.inr htype) (Endian.bytes32_length ..)
    · rw [if_pos htype]
      exact hnone _ nofun
  rw [if_neg hdouble]
  by_cases hbindata : decoder.node.type = bsonBindata
  · rw [if_pos hbindata]
    exact importBindata_ends hparam hbindata
  · rw [if_neg hbindata]
    exact hnone _ nofun

theorem importNode_set {mallocs : Nat} {param : ParamT} {val : List UInt8}
    (h : (importNode env decoder mallocs).1 = .set param val) :
    (Matches env decoder param ∧ Scalar env param ∧ val.length = 4) ∨
      Binary env decoder mallocs param val := by
  have hends := importNode_ends env decoder mallocs
  generalize importNode env decoder mallocs = r at hends h
  obtain ⟨action, decoder', mallocs'⟩ := r
  simp only at h
  subst h
  cases hends with
  | none hset => exact absurd rfl (hset param val)
  | scalar hmatches hscalar hlength => exact .inl ⟨hmatches, hscalar, hlength⟩
  | binary hbinary => exact .inr hbinary

/-- Data is read only if it has the size of the parameter. -/
theorem importNode_reads {mallocs : Nat} (h : (importNode env decoder mallocs).2.1 ≠ decoder) :
    bsonDecoderDataPending decoder = paramSize env (paramFind env decoder.node.name) := by
  have hends := importNode_ends env decoder mallocs
  generalize importNode env decoder mallocs = r at hends h
  obtain ⟨action, decoder', mallocs'⟩ := r
  cases hends with
  | none => exact absurd rfl h
  | scalar => exact absurd rfl h
  | short hsize => exact hsize
  | binary hbinary => exact hbinary.name ▸ hbinary.size

/-- Binary data is set, whatever the type of the parameter. -/
theorem Binary.importNode {mallocs : Nat} {param : ParamT} {data : List UInt8}
    (h : Binary env decoder mallocs param data) :
    (importNode env decoder mallocs).1 = .set param data ∧
      (Param.importNode env decoder mallocs).2.2 = mallocs + 1 := by
  obtain ⟨hname, hknown, htype, hsubtype, hsize, hbuffer, hdata⟩ := h
  obtain ⟨p, hp⟩ := Option.isSome_iff_exists.mp hbuffer
  have heoo : bsonBindata ≠ bsonEoo := by decide
  have hint : bsonBindata ≠ bsonInt := by decide
  have hdouble : bsonBindata ≠ bsonDouble := by decide
  subst hname
  unfold Param.importNode
  simp only [htype, if_neg heoo, if_neg hknown, if_neg hint, if_neg hdouble, if_true]
  unfold importBindata
  rw [if_neg (not_not.mpr hsubtype), if_neg (not_not.mpr hsize)]
  simp only [hp]
  cases hcopy : bsonDecoderCopyData decoder with
  | mk copied decoder' =>
      rw [hcopy] at hdata
      simp only at hdata
      subst hdata
      exact ⟨rfl, rfl⟩

/-- What is set has the size of the parameter. -/
theorem length_importNode {mallocs : Nat} {param : ParamT} {val : List UInt8}
    (h : (importNode env decoder mallocs).1 = .set param val) :
    val.length = paramSize env param := by
  rcases importNode_set h with ⟨-, hscalar, hlength⟩ | hbinary
  · rw [hlength, hscalar.paramSize]
  · exact (length_bsonDecoderCopyData hbinary.data).trans hbinary.size

end

/-! ### The law and its condition -/

/-- An import as a system: each node that is decoded is a step. -/
def importing (env : Env) (markSaved : Bool) : LTS (Store × Blocks) Decoder where
  init := (storeWithBlocks env).Reachable
  step p decoder q := (storeWithBlocks env).step p (.node markSaved decoder) q

/-- **A node is handled as its type says.** Only a parameter that it names and matches is changed,
and only the storage of that parameter is written to. Data is read into the buffer only if it has
room there, and what is set has room in the parameter: in the value, or in the block that has been
allocated for the structure. -/
structure TypeSafe (env : Env) (p : Store × Blocks) (decoder : Decoder) (q : Store × Blocks) :
    Prop where
  entry : ∀ param, changed param q.1 ≠ changed param p.1 → Matches env decoder param
  storage : ∀ a, q.1.memory a ≠ p.1.memory a →
    ∃ param, Matches env decoder param ∧ pointer param q.1 = a
  buffer : (importNode env decoder p.1.mallocs).2.1 ≠ decoder →
    bsonDecoderDataPending decoder ≤ paramSize env (paramFind env decoder.node.name)
  value : ∀ param val, (importNode env decoder p.1.mallocs).1 = .set param val →
    val.length ≤ paramSize env param
  block : ∀ param val size, (importNode env decoder p.1.mallocs).1 = .set param val →
    paramType env param = .struct size → pointer param q.1 ≠ 0 →
      ∃ room, (pointer param q.1, room) ∈ q.2 ∧ val.length ≤ room

/-- The node is binary data for a parameter that is not a structure, and it has the size of that
parameter, but it is not what the entry of the parameter holds. -/
def Confuses (env : Env) (markSaved : Bool) (decoder : Decoder) (s : Store) : Prop :=
  ∃ param data, Binary env decoder s.mallocs param data ∧
    (Scalar env param ∧ changed param s ≠
        some { param := param, val := env.endian.word32 (data.take 4), unsaved := !markSaved } ∨
      paramType env param = .unknown ∧ changed param s = none)

section

variable {env : Env} {decoder : Decoder} {s t : Store} {blocks : Blocks}

/-- Binary data matches structures only. -/
theorem Matches.struct_of_bindata {param : ParamT} (h : Matches env decoder param)
    (htype : decoder.node.type = bsonBindata) : ∃ size, paramType env param = .struct size := by
  cases h with
  | int32 _ _ hint => exact absurd (htype.symm.trans hint) (by decide)
  | float _ _ hdouble => exact absurd (htype.symm.trans hdouble) (by decide)
  | struct _ hstruct => exact ⟨_, hstruct⟩

theorem Binary.matches_struct {mallocs : Nat} {param : ParamT} {data : List UInt8}
    {size : Fin 16385} (h : Binary env decoder mallocs param data)
    (htype : paramType env param = .struct size) : Matches env decoder param := by
  exact .struct h.name htype h.type (h.size.trans (paramSize_struct htype))

theorem handleInRange_paramFind {name : List UInt8} (h : paramFind env name ≠ paramInvalid) :
    handleInRange env (paramFind env name) = true := by
  unfold paramFind at h ⊢
  cases hfind : env.table.info.findIdx? fun info => info.name = name with
  | none =>
      rw [hfind] at h
      exact absurd rfl h
  | some param =>
      obtain ⟨hlt, -⟩ := List.findIdx?_eq_some_iff_getElem.mp hfind
      exact decide_eq_true hlt

/-- A set that the node is not confused about changes what the node matches. -/
theorem matches_of_changed {param : ParamT} {val : List UInt8} {markSaved : Bool} {result : Int}
    {k : Nat} (hs : Sorted s) (haction : (importNode env decoder s.mallocs).1 = .set param val)
    (hends : SetEnds env param val markSaved { s with mallocs := k } result t)
    (hclear : ¬ Confuses env markSaved decoder s)
    (hchanged : changed param t ≠ changed param s) : Matches env decoder param := by
  rcases importNode_set haction with ⟨hmatches, -, -⟩ | hbinary
  · exact hmatches
  cases hends with
  | outOfRange _ harray =>
      exact absurd (changed_of_array (s := { s with mallocs := k }) harray param) hchanged
  | untyped _ htype harray =>
      have hentered := changed_of_entered (s := { s with mallocs := k }) hs harray param
      rw [if_pos rfl] at hentered
      cases hentry : changed param s with
      | none => exact absurd ⟨param, val, hbinary, .inr ⟨htype, hentry⟩⟩ hclear
      | some w =>
          -- the parameter has an entry, which is left as it is
          have hentry' : changed param { s with mallocs := k } = some w := hentry
          rw [hentry'] at hentered
          exact absurd (hentered.trans hentry.symm) hchanged
  | scalar hscalar _ _ hwritten =>
      have hdiffers : changed param s ≠ some
          { param := param, val := env.endian.word32 (val.take 4), unsaved := !markSaved } := by
        rw [← hwritten.entry]
        exact Ne.symm hchanged
      exact absurd ⟨param, val, hbinary, .inl ⟨hscalar, hdiffers⟩⟩ hclear
  | noMemory htype => exact hbinary.matches_struct htype
  | overwritten htype => exact hbinary.matches_struct htype
  | allocated htype => exact hbinary.matches_struct htype

/-- A node changes nothing, or it asks for a set, which ends in one of its ways. -/
theorem node_cases (env : Env) (markSaved : Bool) (decoder : Decoder) (hs : Sorted s) :
    (∀ q, changed q ((Call.node markSaved decoder).apply env s) = changed q s) ∧
        ((Call.node markSaved decoder).apply env s).memory = s.memory ∨
      ∃ param val k result, (importNode env decoder s.mallocs).1 = .set param val ∧
        SetEnds env param val markSaved { s with mallocs := k } result
          ((Call.node markSaved decoder).apply env s) := by
  show (∀ q, changed q (paramImportCallback env markSaved decoder s).2.2 = changed q s) ∧
      (paramImportCallback env markSaved decoder s).2.2.memory = s.memory ∨
    ∃ param val k result, (importNode env decoder s.mallocs).1 = .set param val ∧
      SetEnds env param val markSaved { s with mallocs := k } result
        (paramImportCallback env markSaved decoder s).2.2
  rcases paramImportCallback_store env markSaved decoder s with
    ⟨k, hstore, -⟩ | ⟨param, val, k, haction, -, hstore⟩
  · left
    rw [hstore]
    exact ⟨fun _ => rfl, rfl⟩
  · right
    rw [hstore]
    exact ⟨param, val, k, _, haction,
      paramSetInternal_ends env (s := { s with mallocs := k }) hs param val markSaved⟩

/-- **A node that is not confused is handled as its type says.** -/
theorem typeSafe_of_clear {markSaved : Bool} (hs : Owned env s blocks)
    (hclear : ¬ Confuses env markSaved decoder s) :
    TypeSafe env (s, blocks) decoder ((Call.node markSaved decoder).apply env s,
      blocks ++ (Call.node markSaved decoder).blocks env s) := by
  have howned := hs.call (.node markSaved decoder)
  have hsorted := hs.wellFormed.sorted
  refine ⟨?_, ?_, fun h => Nat.le_of_eq (importNode_reads h),
    fun param val h => Nat.le_of_eq (length_importNode h), ?_⟩
  · intro q hchanged
    rcases node_cases env markSaved decoder hsorted with
      ⟨hsame, -⟩ | ⟨param, val, k, result, haction, hends⟩
    · exact absurd (hsame q) hchanged
    · by_cases hq : q = param
      · subst hq
        exact matches_of_changed hsorted haction hends hclear hchanged
      · exact absurd (hends.others (s := { s with mallocs := k }) hsorted hq) hchanged
  · intro a ha
    rcases node_cases env markSaved decoder hsorted with
      ⟨-, hmemory⟩ | ⟨param, val, k, result, haction, hends⟩
    · exact absurd (congrFun hmemory a) ha
    · obtain ⟨⟨size, htype⟩, hpointer⟩ := hends.storage ha
      refine ⟨param, ?_, hpointer⟩
      rcases importNode_set haction with ⟨hmatches, -, -⟩ | hbinary
      · exact hmatches
      · exact hbinary.matches_struct htype
  · intro param val size haction htype hpointer
    refine ⟨size, howned.block param size htype hpointer, Nat.le_of_eq ?_⟩
    rw [length_importNode haction, paramSize_struct htype]

/-- A node that is confused changes a parameter that it does not match. -/
theorem not_typeSafe_of_confuses {markSaved : Bool} {blocks' : Blocks} (hs : Sorted s)
    (hconfuses : Confuses env markSaved decoder s) :
    ¬ TypeSafe env (s, blocks) decoder ((Call.node markSaved decoder).apply env s, blocks') := by
  intro hsafe
  obtain ⟨param, data, hbinary, htype⟩ := hconfuses
  have hstruct : ∀ size, paramType env param ≠ .struct size := by
    intro size hsize
    rcases htype with ⟨hscalar, -⟩ | ⟨hunknown, -⟩
    · exact hscalar.ne_struct size hsize
    · exact nomatch hunknown.symm.trans hsize
  have hchanged : changed param (paramImportCallback env markSaved decoder s).2.2 ≠
      changed param s := by
    obtain ⟨haction, hmallocs⟩ := hbinary.importNode
    rcases paramImportCallback_store env markSaved decoder s with
      ⟨k, -, hnone⟩ | ⟨param', val, k, haction', -, hstore⟩
    · exact absurd haction (hnone param data)
    · obtain ⟨rfl, rfl⟩ := NodeAction.set.inj (haction'.symm.trans haction)
      rw [hstore]
      rcases htype with ⟨hscalar, hdiffers⟩ | ⟨-, hnone⟩
      · have hset := (paramSetInternal_scalar (s := { s with mallocs := k }) hs hscalar val
          markSaved).2.2 param'
        rw [hset, if_pos rfl]
        exact Ne.symm hdiffers
      · have hrange : handleInRange env param' = true := by
          rw [← hbinary.name]
          exact handleInRange_paramFind (hbinary.name ▸ hbinary.known)
        rw [hnone]
        exact (paramSetInternal_ends env (s := { s with mallocs := k }) hs param' val
          markSaved).entry (s := { s with mallocs := k }) hs hrange
  obtain ⟨size, hsize⟩ := (hsafe.entry param hchanged).struct_of_bindata hbinary.type
  exact hstruct size hsize

/-- A step of an import is type safe exactly if its node is not confused. -/
theorem typeSafe_iff {markSaved : Bool} {p q : Store × Blocks}
    (hp : (storeWithBlocks env).Reachable p) (hstep : (importing env markSaved).step p decoder q) :
    TypeSafe env p decoder q ↔ ¬ Confuses env markSaved decoder p.1 := by
  have howned := owned_of_reachable hp
  obtain ⟨s, blocks⟩ := p
  obtain ⟨t, blocks'⟩ := q
  obtain ⟨hstore, hblocks⟩ := hstep
  obtain rfl : (Call.node markSaved decoder).apply env s = t := hstore
  obtain rfl : blocks' = blocks ++ (Call.node markSaved decoder).blocks env s := hblocks
  constructor
  · intro hsafe hconfuses
    exact not_typeSafe_of_confuses howned.wellFormed.sorted hconfuses hsafe
  · intro hclear
    exact typeSafe_of_clear howned hclear

/-- Importing leads from states of the store to states of the store. -/
theorem reachable_of_importing {markSaved : Bool} {C : Store × Blocks → Decoder → Prop}
    {p : Store × Blocks} (h : ((importing env markSaved).restrict C).Reachable p) :
    (storeWithBlocks env).Reachable p := by
  refine h.invariant (I := (storeWithBlocks env).Reachable) (fun _ hp => hp) ?_
  rintro p decoder q hp ⟨-, hstep⟩
  exact hp.step hstep

/-- The nodes of an import lead from its store to the one that it leaves. -/
theorem importing_run {markSaved : Bool} {nodes : List Decoder}
    (h : (storeCalls env).Run s (nodes.map (Call.node markSaved)) t) (blocks : Blocks) :
    ∃ blocks', (importing env markSaved).Run (s, blocks) nodes (t, blocks') := by
  induction nodes generalizing s blocks with
  | nil =>
      cases h
      exact ⟨blocks, .nil _⟩
  | cons decoder nodes ih =>
      cases h with
      | cons hstep hrest =>
          obtain ⟨blocks', hrun⟩ :=
            ih hrest (blocks ++ (Call.node markSaved decoder).blocks env s)
          exact ⟨blocks', .cons ⟨hstep, rfl⟩ hrun⟩

/-- **Imports are type safe but for confused nodes.** An import of any file into a store of any
history handles every node as its type says, exactly if it comes to no node of binary data of the
size of a parameter that is not a structure and that does not hold that data already. -/
theorem import_type_safety {p : Store × Blocks} (hp : (storeWithBlocks env).Reachable p)
    (stream : List UInt8) :
    ∃ result q, paramImport env stream p.1 = some (result, q.1) ∧
      (importing env false).Run p (importedNodes env false stream p.1) q ∧
      (((importing env false).obeying (TypeSafe env)).Run p (importedNodes env false stream p.1) q ↔
        ((importing env false).restrict fun p decoder => ¬ Confuses env false decoder p.1).Run p
          (importedNodes env false stream p.1) q) := by
  obtain ⟨⟨result, t⟩, himport⟩ : ∃ r, paramImport env stream p.1 = some r :=
    paramImport_ends stream p.1
  obtain ⟨blocks, hrun⟩ := importing_run (importInternal_run himport) p.2
  refine ⟨result, (t, blocks), himport, hrun, LTS.run_obeying_iff ?_ hp⟩
  intro p decoder q hreachable hstep
  exact typeSafe_iff (reachable_of_importing hreachable) hstep

end

/-- A file with an integer for the first parameter of the sample. -/
def integerFile : List UInt8 := [0, 0, 0, 0, 16, 65, 0, 9, 0, 0, 0, 0]

theorem import_type_safety_integer :
    ∃ result q, paramImport sampleEnv integerFile sampleStart = some (result, q.1) ∧
      ((importing sampleEnv false).obeying (TypeSafe sampleEnv)).Run (sampleStart, [])
        (importedNodes sampleEnv false integerFile sampleStart) q := by
  have hstart : (storeWithBlocks sampleEnv).Reachable (sampleStart, []) := .of_init ⟨rfl, rfl⟩
  obtain ⟨result, q, himport, hrun, hsafe⟩ := import_type_safety hstart integerFile
  refine ⟨result, q, himport, hsafe.mpr ?_⟩
  have hclear : ∀ decoder s, decoder.node.type ≠ bsonBindata →
      ¬ Confuses sampleEnv false decoder s := by
    rintro decoder s htype ⟨param, data, hbinary, -⟩
    exact htype hbinary.type
  cases hrun with
  | cons hint hrest =>
      cases hrest with
      | cons hend hnil =>
          cases hnil
          exact .cons ⟨hclear _ _ (by decide), hint⟩ (.cons ⟨hclear _ _ (by decide), hend⟩ (.nil _))

/-- A file with four bytes of binary data for the first parameter of the sample. -/
def binaryFile : List UInt8 := [0, 0, 0, 0, 5, 65, 0, 4, 0, 0, 0, 0, 9, 0, 0, 0, 0]

/-- The decoder when it has read the node of this file. -/
def binaryDecoder : Decoder where
  fd := some [9, 0, 0, 0, 0]
  nesting := 1
  node := { name := [65], type := 5, subtype := 0, i := 0, d := 0 }
  pending := 4

/-- The first parameter is set to nine, though the node is not an integer. -/
theorem binary_sets_integer :
    ¬ ∀ (env : Env) (p q : Store × Blocks) (stream : List UInt8) (result : Int),
      (storeWithBlocks env).Reachable p → paramImport env stream p.1 = some (result, q.1) →
        (importing env false).Run p (importedNodes env false stream p.1) q →
          ((importing env false).obeying (TypeSafe env)).Run p
            (importedNodes env false stream p.1) q := by
  intro hclaim
  have hstart : (storeWithBlocks sampleEnv).Reachable (sampleStart, []) := .of_init ⟨rfl, rfl⟩
  obtain ⟨⟨result, t⟩, himport⟩ : ∃ r, paramImport sampleEnv binaryFile sampleStart = some r :=
    paramImport_ends binaryFile sampleStart
  obtain ⟨blocks, hrun⟩ := importing_run (importInternal_run himport) []
  have hobeys :=
    hclaim sampleEnv (sampleStart, []) (t, blocks) binaryFile result hstart himport hrun
  have hnodes : importedNodes sampleEnv false binaryFile sampleStart = [binaryDecoder,
      { binaryDecoder with
        fd := some [], node := { binaryDecoder.node with type := 0 }, pending := 0 }] := rfl
  rw [hnodes] at hobeys
  have hbinary : Binary sampleEnv binaryDecoder 0 0 [9, 0, 0, 0] :=
    ⟨rfl, by decide, rfl, rfl, rfl, rfl, rfl⟩
  have hconfuses : Confuses sampleEnv false binaryDecoder sampleStart :=
    ⟨0, [9, 0, 0, 0], hbinary, .inl ⟨.inl rfl, nofun⟩⟩
  cases hobeys with
  | cons hstep _ =>
      have hsafe := (typeSafe_iff hstart hstep.1).mp hstep.2
      exact hsafe hconfuses

end Px4Firmware.Param
