import Px4Firmware.Param.Export

/-!
# Px4Firmware.Param.RoundTrip

**The parameter file round trip.** What a complete export writes is one node for each entry of the
array, in its order (`paramExport_written`); a load reads the nodes back, finds the parameters by
their names and sets them (`importLoop_entries`). So a load of an exported file restores what the
exporting store read (`load_of_export`).
-/

namespace Px4Firmware.Param

open Px4Firmware.Lib
open Px4Firmware.Bson

/-- All parameters are scalars, with different names that fit into a node. -/
structure ScalarTable (env : Env) : Prop where
  scalar : ∀ info ∈ env.table.info, info.type = .int32 ∨ info.type = .float
  names : (env.table.info.map ParamInfo.name).Nodup
  short : ∀ info ∈ env.table.info, info.name.length ≤ 31

section

variable {env : Env} {s : Store}

/-! ### Every reachable store -/

/-- The array is sorted, and its handles are valid. -/
structure WellFormed (env : Env) (s : Store) : Prop where
  sorted : Sorted s
  inRange : ∀ q, changed q s ≠ none → handleInRange env q = true

theorem WellFormed.of_values_none (h : s.values = none) : WellFormed env s where
  sorted := (Agrees.of_values_none env h).sorted
  inRange q hq := absurd (changed_of_values_none h q) hq

theorem WellFormed.of_values {t : Store} (h : WellFormed env s) (hvalues : t.values = s.values) :
    WellFormed env t where
  sorted := by
    unfold Sorted Store.array
    rw [hvalues]
    exact h.sorted
  inRange q hq := h.inRange q (changed_of_values hvalues q ▸ hq)

theorem WellFormed.set (h : WellFormed env s) (param : ParamT) (val : List UInt8)
    (markSaved : Bool) : WellFormed env (paramSetInternal env param val markSaved s).2 := by
  obtain ⟨hsorted, hother, -⟩ := paramSetInternal_spec env h.sorted param val markSaved
  refine ⟨hsorted, fun q hq => ?_⟩
  by_cases hqp : q = param
  · subst hqp
    by_cases hrange : handleInRange env q = true
    · exact hrange
    · unfold paramSetInternal at hq
      rw [if_neg hrange, changed_setArray_array] at hq
      exact h.inRange q hq
  · rw [hother q hqp] at hq
    exact h.inRange q hq

theorem WellFormed.reset (h : WellFormed env s) (param : ParamT) :
    WellFormed env (paramReset env param s) := by
  by_cases hrange : handleInRange env param = true
  · obtain ⟨hsorted, hchanged⟩ := paramReset_spec env h.sorted hrange
    refine ⟨hsorted, fun q hq => h.inRange q ?_⟩
    rw [hchanged q] at hq
    split_ifs at hq with hqp
    · exact absurd rfl hq
    · exact hq
  · have hsame : paramReset env param s = s := if_neg hrange
    rwa [hsame]

/-- Importing any file, with any outcome. -/
theorem WellFormed.importInternal (h : WellFormed env s) {markSaved : Bool} {stream : List UInt8}
    {result : Int} {t : Store}
    (himport : Param.importInternal env (paramImportCallback env markSaved) stream s =
      some (result, t)) : WellFormed env t := by
  have halike : Alike (fun s t => s = t ∧ WellFormed env s) (paramImportCallback env markSaved)
      (paramImportCallback env markSaved) := by
    rintro decoder s _ ⟨rfl, hs⟩
    refine ⟨rfl, rfl, rfl, ?_⟩
    unfold paramImportCallback
    have hmallocs : WellFormed env { s with mallocs := (importNode env decoder s.mallocs).2.2 } :=
      hs.of_values rfl
    cases haction : (importNode env decoder s.mallocs).1 with
    | finish => simpa only [haction] using hmallocs
    | ignore => simpa only [haction] using hmallocs
    | reject => simpa only [haction] using hmallocs
    | set param val => simpa only [haction] using hmallocs.set param val markSaved
  obtain ⟨t', -, -, ht⟩ := importInternal_rel halike ⟨rfl, h⟩ himport
  exact ht

/-- Exporting to any file, with any outcome. -/
theorem WellFormed.export (h : WellFormed env s) (onlyUnsaved : Bool) :
    WellFormed env (paramExport env onlyUnsaved s).2.1 := by
  obtain ⟨hsame, -⟩ := paramExport_array env onlyUnsaved s
  refine ⟨sorted_of_saved hsame h.sorted, fun q hq => h.inRange q ?_⟩
  have hkeys := congrArg (List.map ParamWbuf.param) hsame
  rw [List.map_map, List.map_map] at hkeys
  rw [changed_eq, Ne, lookupKey_eq_none_iff] at hq ⊢
  exact fun hmem => hq fun hmem' => hmem ((hkeys : _ = List.map ParamWbuf.param _) ▸ hmem')

theorem wellFormed_of_reachable (h : (paramStore env).Reachable s) : WellFormed env s := by
  refine h.invariant (fun s hs => .of_values_none hs) ?_
  rintro s ⟨op, result⟩ t hs hends
  cases op with
  | set param val =>
      have hset := hs.set param val false
      have hpair : paramSetInternal env param val false s = (result, t) := hends
      rwa [hpair] at hset
  | reset param =>
      obtain rfl : t = paramReset env param s := hends
      exact hs.reset param
  | resetAll =>
      obtain rfl : t = paramResetAll s := hends
      exact .of_values_none rfl
  | importFrom stream => exact hs.importInternal hends
  | load stream =>
      have hreset : WellFormed env (paramResetAll s) := .of_values_none rfl
      exact hreset.importInternal hends
  | exportTo onlyUnsaved =>
      obtain ⟨-, rfl⟩ := hends
      exact hs.export onlyUnsaved

/-! ### Scalar tables -/

theorem paramType_eq {param : ParamT} {info : ParamInfo} (h : env.table.info[param]? = some info) :
    paramType env param = info.type := by
  unfold paramType
  rw [h]

theorem ScalarTable.scalar_of_inRange (htable : ScalarTable env) {param : ParamT}
    (h : handleInRange env param = true) : Scalar env param := by
  have hlt : param < env.table.info.length := of_decide_eq_true h
  have hinfo := List.getElem?_eq_getElem hlt
  unfold Scalar
  rw [paramType_eq hinfo]
  exact htable.scalar _ (List.getElem_mem hlt)

/-- What a scalar is called: a name that fits into a node and belongs to no other parameter. -/
theorem ScalarTable.paramName_eq (htable : ScalarTable env) {param : ParamT}
    (h : handleInRange env param = true) :
    ∃ name, paramName env param = some name ∧ 0 ∉ name ∧ name.length < bsonMaxname ∧
      paramFind env name = param ∧ param ≠ paramInvalid := by
  have hlt : param < env.table.info.length := of_decide_eq_true h
  have hinfo := List.getElem?_eq_getElem hlt
  refine ⟨env.table.info[param].name, ?_, env.table.info[param].noNul, ?_, ?_, ?_⟩
  · unfold paramName
    rw [hinfo]
    rfl
  · exact Nat.lt_succ_of_le (htable.short _ (List.getElem_mem hlt))
  · have hfind : env.table.info.findIdx? (fun info => info.name = env.table.info[param].name) =
        some param := indexOfKey_of_getElem? htable.names hinfo
    unfold paramFind
    rw [hfind]
  · exact Nat.ne_of_lt (Nat.lt_of_lt_of_le hlt env.table.fits)

/-! ### What is written -/

/-- The node of an entry. -/
def entryNode (env : Env) (w : ParamWbuf) : List UInt8 :=
  let name := (paramName env w.param).getD []
  if paramType env w.param = .int32 then intNode env.endian name w.val
  else doubleNode env.endian name (env.widen w.val)

/-- A scalar is written as the node of its entry. -/
theorem exportedNode_entry {w : ParamWbuf} (hscalar : Scalar env w.param)
    (hw : changed w.param s = some w) : exportedNode env s w.param = entryNode env w := by
  have hget := paramGet_scalar hscalar (marked w.param s)
  rw [changed_marked, hw, Option.map_some, Option.map_some, Option.getD_some] at hget
  unfold exportedNode paramNode entryNode
  simp only [hget, Option.getD_some, Endian.word32_bytes32]
  rcases hscalar with htype | htype
  · rw [htype]
    rfl
  · rw [htype]
    rfl

/-- **What a complete export writes**: the document size, the nodes of the entries, and the end. -/
theorem paramExport_written {t : Store} {bytes : List UInt8} (hs : Sorted s)
    (hscalar : ∀ w ∈ s.array, Scalar env w.param)
    (h : paramExport env false s = (0, t, bytes)) :
    bytes = env.endian.bytes32 0 ++ (s.array.flatMap (entryNode env) ++ [bsonEoo]) := by
  have hall : s.array.filter (selected false) = s.array := List.filter_true s.array
  have hentries : s.array.flatMap (fun w => exportedNode env s w.param) =
      s.array.flatMap (entryNode env) := by
    refine List.flatMap_congr fun w hw => exportedNode_entry (hscalar w hw) ?_
    rw [changed_eq]
    exact lookupKey_of_mem hs.nodup hw
  rw [paramExport_nodes hs h, hall, hentries]

/-! ### What is read -/

theorem entryNode_length_pos (env : Env) (w : ParamWbuf) : 0 < (entryNode env w).length := by
  unfold entryNode intNode doubleNode
  simp only
  split_ifs
  · exact Nat.zero_lt_succ _
  · exact Nat.zero_lt_succ _

/-- Reading the node of an entry calls for its parameter to be set to its value. -/
theorem readNode_entryNode (htable : ScalarTable env)
    (hexact : ∀ f, env.narrow (env.widen f) = f) {w : ParamWbuf}
    (hrange : handleInRange env w.param = true) (previous : Node) (rest : List UInt8) :
    ∃ node, (∀ d : Decoder, d.pending = 0 → d.node = previous →
        readNode env.endian d (entryNode env w ++ rest) = some (node, 0, rest)) ∧
      node.type ≠ bsonEoo ∧ ∀ d : Decoder, d.node = node → ∀ k,
        importNode env d k = (.set w.param (env.endian.bytes32 w.val), d, k) := by
  obtain ⟨name, hname, hnul, hlen, hfind, hvalid⟩ := htable.paramName_eq hrange
  unfold entryNode
  simp only [hname, Option.getD_some]
  rcases htable.scalar_of_inRange hrange with htype | htype
  · have hint : bsonInt ≠ bsonEoo := by decide
    refine ⟨{ previous with type := bsonInt, name := name, i := w.val }, ?_, hint, ?_⟩
    · rintro d hpending rfl
      rw [if_pos htype]
      exact readNode_intNode hpending hnul hlen w.val rest
    · rintro d hd k
      simp only [importNode, hd, hfind, htype]
      rw [if_neg hint, if_neg hvalid]
      rfl
  · have hdouble : bsonDouble ≠ bsonEoo := by decide
    have hne : paramType env w.param ≠ .int32 := by
      rw [htype]
      decide
    refine ⟨{ previous with type := bsonDouble, name := name, d := env.widen w.val }, ?_,
      hdouble, ?_⟩
    · rintro d hpending rfl
      rw [if_neg hne]
      exact readNode_doubleNode hpending hnul hlen (env.widen w.val) rest
    · rintro d hd k
      simp only [importNode, hd, hfind, htype, hexact]
      rw [if_neg hdouble, if_neg hvalid]
      rfl

/-- The callback on a node that calls for a scalar to be set. -/
theorem paramImportCallback_set {decoder : Decoder} {param : ParamT} {val : List UInt8}
    (hscalar : Scalar env param) (hs : Sorted s)
    (hnode : importNode env decoder s.mallocs = (.set param val, decoder, s.mallocs))
    (markSaved : Bool) :
    paramImportCallback env markSaved decoder s =
      (1, decoder, (paramSetInternal env param val markSaved s).2) := by
  have hresult := (paramSetInternal_scalar hs hscalar val markSaved).1
  unfold paramImportCallback
  simp only [hnode]
  rw [if_pos hresult]

/-- The decoder after it has read a node. -/
def afterNode (decoder : Decoder) (node : Node) (rest : List UInt8) : Decoder :=
  { decoder with fd := some rest, node := node, pending := 0 }

/-- The import loop sets the parameters of the entries. -/
theorem importLoop_entries (htable : ScalarTable env)
    (hexact : ∀ f, env.narrow (env.widen f) = f) {l : List ParamWbuf} {fuel : Nat}
    {decoder : Decoder} (hkeys : (l.map ParamWbuf.param).Nodup)
    (hrange : ∀ w ∈ l, handleInRange env w.param = true)
    (hfd : decoder.fd = some (l.flatMap (entryNode env) ++ [bsonEoo]))
    (hpending : decoder.pending = 0) (htype : decoder.node.type ≠ bsonEoo)
    (hfuel : (l.flatMap (entryNode env)).length < fuel) (hs : Sorted s) :
    ∃ t, importLoop env (paramImportCallback env true) fuel decoder s = some (0, t) ∧
      ∀ q, changed q t =
        ((lookupKey ParamWbuf.param q l).map ParamWbuf.saved).or (changed q s) := by
  induction l generalizing fuel decoder s with
  | nil =>
      obtain ⟨fuel, rfl⟩ := Nat.exists_eq_succ_of_ne_zero (Nat.ne_of_gt hfuel)
      have hnext : bsonDecoderNext env.endian (paramImportCallback env true) decoder s =
          (0, afterNode decoder { decoder.node with type := bsonEoo } [], s) :=
        bsonDecoderNext_of_readNode hfd htype
          (fun d hp hd => hd ▸ readNode_eoo (hp.trans hpending) []) s
      refine ⟨s, ?_, fun q => rfl⟩
      simp only [importLoop, hnext]
      rfl
  | cons w l ih =>
      obtain ⟨fuel, rfl⟩ := Nat.exists_eq_succ_of_ne_zero (Nat.ne_of_gt (Nat.zero_lt_of_lt hfuel))
      rw [List.flatMap_cons, List.append_assoc] at hfd
      rw [List.map_cons, List.nodup_cons] at hkeys
      have hw := hrange w List.mem_cons_self
      have hscalar := htable.scalar_of_inRange hw
      -- The first node is read and handed to the callback, which sets its parameter.
      obtain ⟨node, hread, hnode, himport⟩ := readNode_entryNode htable hexact hw decoder.node
        (l.flatMap (entryNode env) ++ [bsonEoo])
      have hnext : bsonDecoderNext env.endian (paramImportCallback env true) decoder s =
          paramImportCallback env true
            (afterNode decoder node (l.flatMap (entryNode env) ++ [bsonEoo])) s :=
        bsonDecoderNext_of_readNode hfd htype (fun d hp hd => hread d (hp.trans hpending) hd) s
      have hcallback := paramImportCallback_set hscalar hs
        (himport (afterNode decoder node (l.flatMap (entryNode env) ++ [bsonEoo])) rfl
          s.mallocs) true
      obtain ⟨-, hsorted, hset⟩ :=
        paramSetInternal_scalar hs hscalar (env.endian.bytes32 w.val) true
      have hfuel' : (l.flatMap (entryNode env)).length < fuel := by
        -- A node is not empty, so the fuel still exceeds what is left.
        have hpos := entryNode_length_pos env w
        rw [List.flatMap_cons, List.length_append] at hfuel
        omega
      obtain ⟨t, hloop, hchanged⟩ :=
        ih hkeys.2 (fun w' hw' => hrange w' (List.mem_cons_of_mem w hw'))
          (show (afterNode decoder node _).fd = _ from rfl) rfl hnode hfuel' hsorted
      refine ⟨t, ?_, fun q => ?_⟩
      · simp only [importLoop, hnext, hcallback]
        exact hloop
      · rw [hchanged q, hset q, lookupKey_cons]
        by_cases hq : w.param = q
        · -- no later entry is for the same parameter
          subst hq
          have hlater : lookupKey ParamWbuf.param w.param l = none :=
            lookupKey_eq_none_iff.mpr hkeys.1
          have htake : (env.endian.bytes32 w.val).take 4 = env.endian.bytes32 w.val :=
            List.take_of_length_le (Nat.le_of_eq (env.endian.bytes32_length w.val))
          rw [hlater, if_pos rfl, if_pos rfl, htake, Endian.word32_bytes32]
          rfl
        · rw [if_neg hq, if_neg (Ne.symm hq)]

/-! ### The round trip -/

/-- **A load restores what was exported.** A complete export of any reachable store is read back
by a load into any store: it succeeds, every parameter reads as it did in the exporting store,
the modified parameters are the same, and none is marked as unsaved. -/
theorem load_of_export (htable : ScalarTable env)
    (hexact : ∀ f, env.narrow (env.widen f) = f) {S S' : Store} {bytes : List UInt8}
    (hreachable : (paramStore env).Reachable S) (hexport : paramExport env false S = (0, S', bytes))
    (T : Store) :
    ∃ T', paramLoad env bytes T = some (0, T') ∧
      (∀ p, handleInRange env p = true → paramGet env p true T' = paramGet env p true S) ∧
      (∀ p, paramValueIsDefault p T' = paramValueIsDefault p S) ∧
      ∀ p, paramValueUnsaved p T' = false := by
  obtain ⟨hsorted, hinRange⟩ := wellFormed_of_reachable hreachable
  have hrange : ∀ w ∈ S.array, handleInRange env w.param = true := by
    intro w hw
    refine hinRange w.param ?_
    rw [changed_eq, lookupKey_of_mem hsorted.nodup hw]
    exact Option.some_ne_none w
  have hscalar : ∀ w ∈ S.array, Scalar env w.param := fun w hw =>
    htable.scalar_of_inRange (hrange w hw)
  have hbytes := paramExport_written hsorted hscalar hexport
  -- the loop starts after the document size, in an empty store
  have hinit : bsonDecoderInit env.endian bytes =
      (0, { Decoder.new bytes with
        fd := some (S.array.flatMap (entryNode env) ++ [bsonEoo]) }) := by
    unfold bsonDecoderInit
    rw [hbytes, readInt32_append]
  have hundefined : bsonUndefined ≠ bsonEoo := by decide
  have hfuel : (S.array.flatMap (entryNode env)).length < bytes.length + 1 := by
    rw [hbytes, List.length_append, List.length_append]
    omega
  have hreset : WellFormed env (paramResetAll T) := .of_values_none rfl
  obtain ⟨T', hloop, hchanged⟩ := importLoop_entries htable hexact hsorted.nodup hrange
    (show ({ Decoder.new bytes with fd := some _ } : Decoder).fd = _ from rfl) rfl hundefined hfuel
    hreset.sorted
  have hentry : ∀ q, changed q T' = (changed q S).map ParamWbuf.saved := by
    intro q
    rw [hchanged q, changed_of_values_none (s := paramResetAll T) rfl q, Option.or_none,
      ← changed_eq]
  refine ⟨T', ?_, fun p hp => ?_, fun p => ?_, fun p => ?_⟩
  · unfold paramLoad Param.importInternal
    rw [hinit]
    exact hloop
  · have hscalarAt := htable.scalar_of_inRange hp
    rw [paramGet_scalar hscalarAt, paramGet_scalar hscalarAt, hentry p]
    cases changed p S <;> rfl
  · rw [paramValueIsDefault_eq, paramValueIsDefault_eq, hentry p]
    cases changed p S <;> rfl
  · unfold paramValueUnsaved
    rw [hentry p]
    cases changed p S <;> rfl

end

theorem sampleEnv_exact (f : UInt32) : sampleEnv.narrow (sampleEnv.widen f) = f := by
  have hlt := f.toNat_lt
  unfold sampleEnv
  refine UInt32.toNat_inj.mp ?_
  simp only [UInt64.toNat_toUInt32, UInt64.toNat_shiftRight, UInt64.toNat_shiftLeft,
    UInt32.toNat_toUInt64, UInt64.reduceToNat, Nat.reduceMod, Nat.shiftLeft_eq, Nat.reducePow,
    Nat.shiftRight_eq_div_pow]
  omega

theorem load_of_export_sample :
    ∃ T', paramLoad sampleEnv
        [0, 0, 0, 0, 16, 65, 0, 5, 0, 0, 0, 1, 66, 0, 0, 0, 0, 0, 0, 0, 0, 128, 0] sampleStore =
          some (0, T') ∧
      paramGet sampleEnv 0 true T' = some [5, 0, 0, 0] ∧ paramValueIsDefault 0 T' = false ∧
      paramGet sampleEnv 1 true T' = some [0, 0, 0, 128] ∧ paramValueUnsaved 1 T' = false := by
  have htable : ScalarTable sampleEnv := ⟨by decide, by decide, by decide⟩
  have hstart : (paramStore sampleEnv).Reachable sampleStart := .of_init rfl
  have hset : (paramStore sampleEnv).Reachable sampleStore :=
    hstart.step (e := ⟨.set 0 [5, 0, 0, 0], 0⟩) rfl
  have hboth :
      (paramStore sampleEnv).Reachable (paramSet sampleEnv 1 [0, 0, 0, 128] sampleStore).2 :=
    hset.step (e := ⟨.set 1 [0, 0, 0, 128], 0⟩) rfl
  obtain ⟨T', hload, hget, hdefault, hsaved⟩ :=
    load_of_export htable sampleEnv_exact hboth rfl sampleStore
  exact ⟨T', hload, hget 0 rfl, hdefault 0, hget 1 rfl, hsaved 1⟩

end Px4Firmware.Param
