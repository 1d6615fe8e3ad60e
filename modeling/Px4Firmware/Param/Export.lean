import Px4Firmware.Bson.Document
import Px4Firmware.Param.Refinement

/-!
# Px4Firmware.Param.Export

**What an export writes**, for parameters of every type: one node for each entry that is selected,
in the order of the array (`paramExport_nodes`).

When the export comes to an entry, the entries up to it have been marked as saved. This matters for
a structure, which may be written with what is behind its value in memory (`marked`).
-/

namespace Px4Firmware.Param

open Px4Firmware.Lib
open Px4Firmware.Bson

/-- The entries that an export writes. -/
def selected (onlyUnsaved : Bool) (w : ParamWbuf) : Bool := !(onlyUnsaved && !w.unsaved)

/-- The store when an export comes to the entry of a parameter. -/
def marked (param : ParamT) (s : Store) : Store :=
  s.setArray (s.array.map fun w => if w.param ≤ param then w.saved else w)

/-- The node that is appended for a parameter. -/
def paramNode (env : Env) (s : Store) (param : ParamT) : List UInt8 :=
  let name := (paramName env param).getD []
  match paramType env param with
  | .int32 => intNode env.endian name (env.endian.word32 ((paramGet env param true s).getD []))
  | .float =>
      doubleNode env.endian name
        (env.widen (env.endian.word32 ((paramGet env param true s).getD [])))
  | .struct size =>
      payloadNode env.endian name bsonBinBinary size
        (((paramGetValuePtr env param s).getD []).take size)
  | .unknown => []

/-- The node of a parameter in an export. -/
def exportedNode (env : Env) (s : Store) (param : ParamT) : List UInt8 :=
  paramNode env (marked param s) param

section

variable {env : Env} {s t : Store} {onlyUnsaved : Bool}

theorem writes_appendParam (env : Env) (s : Store) (param : ParamT) :
    Writes (appendParam env param s) (paramNode env s param) := by
  unfold appendParam paramNode
  cases paramType env param with
  | int32 => exact writes_appendInt _ _
  | float => exact writes_appendDouble _ _
  | struct size => exact writes_appendPayload _ _ _ _
  | unknown => exact fun _ => trivial

/-- The entry of a parameter, when the export comes to it. -/
theorem changed_marked (param : ParamT) (s : Store) :
    changed param (marked param s) = (changed param s).map ParamWbuf.saved := by
  have hkey : ∀ w : ParamWbuf, (if w.param ≤ param then w.saved else w).param = w.param := by
    intro w
    split_ifs <;> rfl
  rw [changed_eq, changed_eq, marked, array_setArray, lookupKey_map hkey]
  cases hlookup : lookupKey ParamWbuf.param param s.array with
  | none => rfl
  | some w =>
      have hw : w.param = param := key_of_lookupKey hlookup
      rw [Option.map_some, Option.map_some, if_pos (Nat.le_of_eq hw)]

theorem saved_of_unsaved {w : ParamWbuf} (h : w.unsaved = false) : w.saved = w := by
  unfold ParamWbuf.saved
  rw [← h]

/-- An entry is skipped only when it is marked as saved already. -/
theorem saved_of_not_selected {w : ParamWbuf} (h : selected onlyUnsaved w = false) :
    w.saved = w := by
  simp only [selected, Bool.not_eq_false', Bool.and_eq_true, Bool.not_eq_true'] at h
  exact saved_of_unsaved h.2

/-- A round of the export loop. -/
theorem exportLoop_cons (env : Env) (onlyUnsaved : Bool) (s : Store) (done : List ParamWbuf)
    (w : ParamWbuf) (rest : List ParamWbuf) (encoder : Encoder) :
    exportLoop env onlyUnsaved s done (w :: rest) encoder =
      if selected onlyUnsaved w then
        match appendParam env w.param (s.setArray (done ++ w.saved :: rest)) encoder with
        | .ok _ encoder => exportLoop env onlyUnsaved s (done ++ [w.saved]) rest encoder
        | .error _ encoder => (false, s.setArray (done ++ w.saved :: rest), encoder)
      else exportLoop env onlyUnsaved s (done ++ [w.saved]) rest encoder := by
  cases hselected : selected onlyUnsaved w with
  | true =>
      have hskip : (onlyUnsaved && !w.unsaved) = false := by
        simpa only [selected, Bool.not_eq_true'] using hselected
      rw [exportLoop]
      simp only [hskip, if_true]
      rfl
  | false =>
      have hskip : (onlyUnsaved && !w.unsaved) = true := by
        simpa only [selected, Bool.not_eq_false'] using hselected
      rw [exportLoop]
      simp only [hskip, if_true, saved_of_not_selected hselected]
      rfl

/-- The store in a round of the loop. -/
theorem setArray_eq_marked {done rest : List ParamWbuf} {w : ParamWbuf}
    (hs : SortedByKey ParamWbuf.param (done ++ w :: rest)) (harray : s.array = done ++ w :: rest) :
    s.setArray (done.map ParamWbuf.saved ++ w.saved :: rest) = marked w.param s := by
  obtain ⟨-, hrest, hdone⟩ := List.pairwise_append.mp hs
  have hlater := (List.pairwise_cons.mp hrest).1
  unfold marked
  rw [harray, List.map_append, List.map_cons, if_pos (Nat.le_refl _)]
  have hbefore : done.map (fun w' => if w'.param ≤ w.param then w'.saved else w') =
      done.map ParamWbuf.saved := by
    refine List.map_congr_left fun w' hw' => ?_
    exact if_pos (Nat.le_of_lt (hdone w' hw' w List.mem_cons_self))
  have hafter : rest.map (fun w' => if w'.param ≤ w.param then w'.saved else w') = rest := by
    refine (List.map_congr_left fun w' hw' => ?_).trans (List.map_id' rest)
    exact if_neg (Nat.not_le.mpr (hlater w' hw'))
  rw [hbefore, hafter]

/-- The export loop writes the nodes of the entries that are selected, if it goes through. -/
theorem exportLoop_nodes (done : List ParamWbuf) {rest : List ParamWbuf} {encoder : Encoder}
    (hs : SortedByKey ParamWbuf.param (done ++ rest)) (harray : s.array = done ++ rest)
    (h : (exportLoop env onlyUnsaved s (done.map ParamWbuf.saved) rest encoder).1 = true) :
    (exportLoop env onlyUnsaved s (done.map ParamWbuf.saved) rest encoder).2.2 =
      { encoder with written := encoder.written ++
          (rest.filter (selected onlyUnsaved)).flatMap fun w => exportedNode env s w.param } := by
  induction rest generalizing done encoder with
  | nil => simp [exportLoop]
  | cons w rest ih =>
      have hdone : done.map ParamWbuf.saved ++ [w.saved] = (done ++ [w]).map ParamWbuf.saved := by
        rw [List.map_append]
        rfl
      have happend : done ++ w :: rest = done ++ [w] ++ rest := by simp
      rw [exportLoop_cons, setArray_eq_marked hs harray, hdone] at h ⊢
      rw [happend] at hs harray
      cases hselected : selected onlyUnsaved w with
      | false =>
          rw [hselected] at h
          rw [List.filter_cons_of_neg (by simp [hselected])]
          exact ih (done ++ [w]) hs harray h
      | true =>
          rw [hselected] at h
          rw [List.filter_cons_of_pos hselected]
          simp only [if_true] at h ⊢
          have hrun := writes_appendParam env (marked w.param s) w.param encoder
          unfold outcome at hrun
          cases hencoder : appendParam env w.param (marked w.param s) encoder with
          | error err encoder' =>
              -- A node that cannot be written ends the loop, and the loop says so.
              rw [hencoder] at h
              cases h
          | ok u encoder' =>
              rw [hencoder] at h hrun
              simp only at h hrun
              subst hrun
              refine (ih (done ++ [w]) hs harray h).trans ?_
              simp [exportedNode]

/-- The encoder when the loop starts. -/
def exportStart (env : Env) : Encoder :=
  after (bsonEncoderInit env.endian env.write) { fd := true, written := [] }

/-- The loop is over the entries of the array, also where there is none. -/
theorem paramExport_eq (env : Env) (onlyUnsaved : Bool) (s : Store) :
    (paramExport env onlyUnsaved s).1 =
        (if (exportLoop env onlyUnsaved s [] s.array (exportStart env)).1 &&
            ends (bsonEncoderFini env.write)
              (exportLoop env onlyUnsaved s [] s.array (exportStart env)).2.2 then 0 else -1) ∧
      (paramExport env onlyUnsaved s).2.1.array =
        (exportLoop env onlyUnsaved s [] s.array (exportStart env)).2.1.array ∧
      (paramExport env onlyUnsaved s).2.2 =
        if (exportLoop env onlyUnsaved s [] s.array (exportStart env)).1 then
          (after (bsonEncoderFini env.write)
            (exportLoop env onlyUnsaved s [] s.array (exportStart env)).2.2).written
        else (exportLoop env onlyUnsaved s [] s.array (exportStart env)).2.2.written := by
  have hstart : after (bsonEncoderInit env.endian env.write) { fd := true, written := [] } =
      exportStart env := rfl
  unfold paramExport
  rw [hstart]
  cases hvalues : s.values with
  | none =>
      have harray : s.array = [] := by
        unfold Store.array
        rw [hvalues]
        rfl
      rw [harray]
      exact ⟨rfl, harray, rfl⟩
  | some values =>
      have harray : s.array = values := by
        unfold Store.array
        rw [hvalues]
        rfl
      rw [harray]
      simp only
      generalize exportLoop env onlyUnsaved s [] values (exportStart env) = r
      obtain ⟨exported, t, encoder⟩ := r
      cases exported with
      | true => exact ⟨rfl, rfl, rfl⟩
      | false => exact ⟨rfl, rfl, rfl⟩

/-- An export succeeds if its loop goes through and the document can be finished. -/
theorem paramExport_complete {bytes : List UInt8}
    (h : paramExport env onlyUnsaved s = (0, t, bytes)) :
    (exportLoop env onlyUnsaved s [] s.array (exportStart env)).1 = true ∧
      ends (bsonEncoderFini env.write)
        (exportLoop env onlyUnsaved s [] s.array (exportStart env)).2.2 = true ∧
      (after (bsonEncoderFini env.write)
        (exportLoop env onlyUnsaved s [] s.array (exportStart env)).2.2).written = bytes := by
  obtain ⟨hresult, -, hbytes⟩ := paramExport_eq env onlyUnsaved s
  rw [h] at hresult hbytes
  simp only at hresult hbytes
  split_ifs at hresult with hcomplete
  obtain ⟨hexported, hends⟩ := Bool.and_eq_true_iff.mp hcomplete
  rw [if_pos hexported] at hbytes
  exact ⟨hexported, hends, hbytes.symm⟩

/-- **What a complete export writes**: the document size, the nodes of the entries that are
selected, and the end. -/
theorem paramExport_nodes {bytes : List UInt8} (hs : Sorted s)
    (h : paramExport env onlyUnsaved s = (0, t, bytes)) :
    bytes = env.endian.bytes32 0 ++ ((s.array.filter (selected onlyUnsaved)).flatMap
      (fun w => exportedNode env s w.param) ++ [bsonEoo]) := by
  obtain ⟨hexported, hends, rfl⟩ := paramExport_complete h
  have hentries : SortedByKey ParamWbuf.param ([] ++ s.array) := hs
  have hnodes := exportLoop_nodes [] hentries rfl hexported
  rw [List.map_nil] at hnodes
  rw [hnodes] at hends ⊢
  have halive := alive_of_fini hends
  have hstart : (exportStart env).written = [] ++ env.endian.bytes32 0 := written_of_init rfl halive
  rw [written_of_fini hends, hstart]
  simp

/-! ### What an export reads -/

theorem paramGetValuePtr_congr (harray : t.array = s.array) (hmemory : t.memory = s.memory)
    (q : ParamT) : paramGetValuePtr env q t = paramGetValuePtr env q s := by
  unfold paramGetValuePtr
  rw [changed_of_array harray, harray, hmemory]

theorem paramGet_congr (harray : t.array = s.array) (hmemory : t.memory = s.memory) (q : ParamT)
    (wanted : Bool) : paramGet env q wanted t = paramGet env q wanted s := by
  unfold paramGet
  rw [paramGetValuePtr_congr harray hmemory]

theorem appendParam_congr (harray : t.array = s.array) (hmemory : t.memory = s.memory)
    (q : ParamT) : appendParam env q t = appendParam env q s := by
  unfold appendParam
  rw [paramGet_congr harray hmemory, paramGetValuePtr_congr harray hmemory]

/-- An export reads nothing but the array and the memory. -/
theorem exportLoop_congr (env : Env) (hmemory : t.memory = s.memory) (onlyUnsaved : Bool)
    (rest done : List ParamWbuf) (encoder : Encoder) :
    (exportLoop env onlyUnsaved t done rest encoder).1 =
        (exportLoop env onlyUnsaved s done rest encoder).1 ∧
      (exportLoop env onlyUnsaved t done rest encoder).2.2 =
        (exportLoop env onlyUnsaved s done rest encoder).2.2 := by
  induction rest generalizing done encoder with
  | nil => exact ⟨rfl, rfl⟩
  | cons w rest ih =>
      have happend : appendParam env w.param (t.setArray (done ++ w.saved :: rest)) =
          appendParam env w.param (s.setArray (done ++ w.saved :: rest)) :=
        appendParam_congr (s := s.setArray (done ++ w.saved :: rest))
          (t := t.setArray (done ++ w.saved :: rest)) rfl hmemory w.param
      rw [exportLoop_cons, exportLoop_cons, happend]
      cases selected onlyUnsaved w with
      | false => exact ih (done ++ [w.saved]) encoder
      | true =>
          simp only [if_true]
          cases appendParam env w.param (s.setArray (done ++ w.saved :: rest)) encoder with
          | ok _ encoder' => exact ih (done ++ [w.saved]) encoder'
          | error _ encoder' => exact ⟨rfl, rfl⟩

theorem paramExport_congr (harray : t.array = s.array) (hmemory : t.memory = s.memory)
    (onlyUnsaved : Bool) :
    (paramExport env onlyUnsaved t).1 = (paramExport env onlyUnsaved s).1 ∧
      (paramExport env onlyUnsaved t).2.2 = (paramExport env onlyUnsaved s).2.2 := by
  obtain ⟨hresult, -, hbytes⟩ := paramExport_eq env onlyUnsaved s
  obtain ⟨hresult', -, hbytes'⟩ := paramExport_eq env onlyUnsaved t
  obtain ⟨hexported, hencoder⟩ :=
    exportLoop_congr env hmemory onlyUnsaved s.array [] (exportStart env)
  rw [harray, hexported, hencoder] at hresult' hbytes'
  exact ⟨hresult'.trans hresult.symm, hbytes'.trans hbytes.symm⟩

end

end Px4Firmware.Param
