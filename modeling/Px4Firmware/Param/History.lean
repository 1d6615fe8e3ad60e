import Px4Firmware.Param.RoundTrip

/-!
# Px4Firmware.Param.History

How a call of `param_set_internal` ends (`SetEnds`), read off the function once, and the parameter
store as a system of its calls. An import is not one call here but the calls of its callback, one
for each node (`importInternal_run`), so that what a single node does can be said of every history.
-/

namespace Px4Firmware.Param

open Px4Firmware.Lib
open Px4Firmware.Bson

variable {env : Env} {s t : Store} {param : ParamT}

/-! ### Setting a parameter -/

/-- The pointer that `param_set_internal` finds in the entry of a structure. A new entry has the
null pointer. -/
def pointer (param : ParamT) (s : Store) : ParamValue :=
  ((changed param s).map ParamWbuf.val).getD 0

/-- The entry of the parameter has been written, and no other. -/
structure Written (param : ParamT) (val : ParamValue) (markSaved : Bool) (s t : Store) : Prop where
  sorted : Sorted t
  entry : changed param t = some { param := param, val := val, unsaved := !markSaved }
  others : ∀ q, q ≠ param → changed q t = changed q s

/-- The ends of `param_set_internal`, with the result and the store. -/
inductive SetEnds (env : Env) (param : ParamT) (val : List UInt8) (markSaved : Bool) (s : Store) :
    Int → Store → Prop
  | outOfRange {t : Store} : handleInRange env param = false → t.array = s.array →
      t.memory = s.memory → t.mallocs = s.mallocs → SetEnds env param val markSaved s (-1) t
  | untyped {t : Store} : handleInRange env param = true → paramType env param = .unknown →
      t.array = (enterChanged param s).array → t.memory = s.memory → t.mallocs = s.mallocs →
      SetEnds env param val markSaved s (-1) t
  | noMemory {size : Fin 16385} {t : Store} : paramType env param = .struct size →
      pointer param s = 0 → env.malloc s.mallocs = none →
      t.array = (enterChanged param s).array → t.memory = s.memory →
      t.mallocs = s.mallocs + 1 → SetEnds env param val markSaved s (-1) t
  | scalar {t : Store} : Scalar env param → t.memory = s.memory → t.mallocs = s.mallocs →
      Written param (env.endian.word32 (val.take 4)) markSaved s t →
      SetEnds env param val markSaved s 0 t
  | overwritten {size : Fin 16385} {t : Store} : paramType env param = .struct size →
      pointer param s ≠ 0 →
      t.memory = Function.update s.memory (pointer param s) (val.take size) →
      t.mallocs = s.mallocs → Written param (pointer param s) markSaved s t →
      SetEnds env param val markSaved s 0 t
  | allocated {size : Fin 16385} {p : UInt32} {t : Store} : paramType env param = .struct size →
      pointer param s = 0 → env.malloc s.mallocs = some p →
      t.memory = Function.update s.memory p (val.take size) →
      t.mallocs = s.mallocs + 1 → Written param p markSaved s t →
      SetEnds env param val markSaved s 0 t

theorem memory_enterChanged (param : ParamT) (s : Store) :
    (enterChanged param s).memory = s.memory := by
  unfold enterChanged
  cases paramFindChanged param s <;> rfl

theorem mallocs_enterChanged (param : ParamT) (s : Store) :
    (enterChanged param s).mallocs = s.mallocs := by
  unfold enterChanged
  cases paramFindChanged param s <;> rfl

/-- The entry is found where it has been made. -/
theorem pointer_enterChanged (hs : Sorted s) {i : Nat}
    (hi : paramFindChanged param (enterChanged param s) = some i) :
    ((enterChanged param s).array[i]?.map ParamWbuf.val).getD 0 = pointer param s := by
  have hfound : changed param (enterChanged param s) = (enterChanged param s).array[i]? := by
    unfold changed
    rw [hi, Option.bind_some]
  rw [← hfound, (enterChanged_spec hs param).2 param, if_pos rfl]
  unfold pointer
  cases changed param s <;> rfl

theorem written_finishSet (hs : Sorted s) {i : Nat}
    (hi : paramFindChanged param (enterChanged param s) = some i)
    (ht : t.values = (enterChanged param s).values) (val : ParamValue) (markSaved : Bool) :
    Written param val markSaved s (finishSet i val markSaved t) := by
  obtain ⟨hsorted, hset⟩ := finishSet_enterChanged hs hi ht val markSaved
  refine ⟨hsorted, ?_, fun q hq => ?_⟩
  · rw [hset param, if_pos rfl]
  · rw [hset q, if_neg hq]

/-- **A call of `param_set_internal` ends in one of six ways.** -/
theorem paramSetInternal_ends (env : Env) (hs : Sorted s) (param : ParamT) (val : List UInt8)
    (markSaved : Bool) :
    SetEnds env param val markSaved s (paramSetInternal env param val markSaved s).1
      (paramSetInternal env param val markSaved s).2 := by
  obtain ⟨i, hi⟩ := paramFindChanged_enterChanged hs param
  have hwritten : ∀ (t : Store) v, t.values = (enterChanged param s).values →
      Written param v markSaved s (finishSet i v markSaved t) := fun t v ht =>
    written_finishSet hs hi ht v markSaved
  have hmemory := memory_enterChanged param s
  have hmallocs := mallocs_enterChanged param s
  unfold paramSetInternal
  by_cases hrange : handleInRange env param = true
  · rw [if_pos hrange]
    simp only [hi]
    cases htype : paramType env param with
    | int32 => exact .scalar (.inl htype) hmemory hmallocs (hwritten _ _ rfl)
    | float => exact .scalar (.inr htype) hmemory hmallocs (hwritten _ _ rfl)
    | unknown => exact .untyped hrange htype rfl hmemory hmallocs
    | struct size =>
        simp only [setStruct, pointer_enterChanged hs hi, hmemory, hmallocs]
        by_cases hpointer : pointer param s = 0
        · simp only [if_pos hpointer]
          cases hmalloc : env.malloc s.mallocs with
          | none => exact .noMemory htype hpointer hmalloc rfl rfl rfl
          | some p => exact .allocated htype hpointer hmalloc rfl rfl (hwritten _ _ rfl)
        · simp only [if_neg hpointer]
          exact .overwritten htype hpointer rfl rfl (hwritten _ _ rfl)
  · rw [if_neg hrange]
    exact .outOfRange (Bool.eq_false_iff.mpr hrange) rfl rfl rfl

/-- What a set leaves of the array: it is as it was, the parameter is entered, or its entry is
written. -/
theorem SetEnds.array_cases {val : List UInt8} {markSaved : Bool} {result : Int}
    (h : SetEnds env param val markSaved s result t) :
    handleInRange env param = false ∧ t.array = s.array ∨
      t.array = (enterChanged param s).array ∨ ∃ v, Written param v markSaved s t := by
  cases h with
  | outOfRange hout harray => exact .inl ⟨hout, harray⟩
  | untyped _ _ harray => exact .inr (.inl harray)
  | noMemory _ _ _ harray => exact .inr (.inl harray)
  | scalar _ _ _ hwritten => exact .inr (.inr ⟨_, hwritten⟩)
  | overwritten _ _ _ _ hwritten => exact .inr (.inr ⟨_, hwritten⟩)
  | allocated _ _ _ _ _ hwritten => exact .inr (.inr ⟨_, hwritten⟩)

/-- A set keeps the array sorted. -/
theorem SetEnds.sorted {val : List UInt8} {markSaved : Bool} {result : Int} (hs : Sorted s)
    (h : SetEnds env param val markSaved s result t) : Sorted t := by
  rcases h.array_cases with ⟨-, harray⟩ | harray | ⟨v, hwritten⟩
  · unfold Sorted
    rw [harray]
    exact hs
  · unfold Sorted
    rw [harray]
    exact (enterChanged_spec hs param).1
  · exact hwritten.sorted

/-- A failed set leaves the entry that was there, or a new one. -/
theorem changed_of_entered (hs : Sorted s) (h : t.array = (enterChanged param s).array)
    (q : ParamT) : changed q t =
      if q = param then some ((changed param s).getD { param := param, val := 0, unsaved := false })
      else changed q s :=
  (changed_of_array h q).trans ((enterChanged_spec hs param).2 q)

theorem pointer_of_changed {q : ParamT} (h : changed q t = changed q s) :
    pointer q t = pointer q s := by
  unfold pointer
  rw [h]

theorem pointer_of_entered (hs : Sorted s) (h : t.array = (enterChanged param s).array)
    (q : ParamT) : pointer q t = pointer q s := by
  unfold pointer
  rw [changed_of_entered hs h q]
  split_ifs with hq
  · subst hq
    cases changed q s <;> rfl
  · rfl

/-- A set changes no other entry. -/
theorem SetEnds.others {val : List UInt8} {markSaved : Bool} {result : Int} (hs : Sorted s)
    (h : SetEnds env param val markSaved s result t) {q : ParamT} (hq : q ≠ param) :
    changed q t = changed q s := by
  rcases h.array_cases with ⟨-, harray⟩ | harray | ⟨v, hwritten⟩
  · exact changed_of_array harray q
  · rw [changed_of_entered hs harray, if_neg hq]
  · exact hwritten.others q hq

/-- After a set of any outcome a parameter of the table has an entry. -/
theorem SetEnds.entry {val : List UInt8} {markSaved : Bool} {result : Int} (hs : Sorted s)
    (hrange : handleInRange env param = true)
    (h : SetEnds env param val markSaved s result t) : changed param t ≠ none := by
  rcases h.array_cases with ⟨hout, -⟩ | harray | ⟨v, hwritten⟩
  · exact absurd hrange (Bool.eq_false_iff.mp hout)
  · rw [changed_of_entered hs harray, if_pos rfl]
    exact Option.some_ne_none _
  · rw [hwritten.entry]
    exact Option.some_ne_none _

theorem Written.pointer {val : ParamValue} {markSaved : Bool}
    (h : Written param val markSaved s t) : pointer param t = val := by
  unfold Param.pointer
  rw [h.entry]
  rfl

/-- A set writes to no memory but the storage of the structure that is set. -/
theorem SetEnds.storage {val : List UInt8} {markSaved : Bool} {result : Int}
    (h : SetEnds env param val markSaved s result t) {a : UInt32} (ha : t.memory a ≠ s.memory a) :
    (∃ size, paramType env param = .struct size) ∧ pointer param t = a := by
  have hupdated : ∀ {p : UInt32} {data : List UInt8},
      t.memory = Function.update s.memory p data → p = a := by
    intro p data hmemory
    by_contra hne
    rw [hmemory, Function.update_of_ne (Ne.symm hne)] at ha
    exact ha rfl
  cases h with
  | outOfRange _ _ hmemory => exact absurd (congrFun hmemory a) ha
  | untyped _ _ _ hmemory => exact absurd (congrFun hmemory a) ha
  | noMemory _ _ _ _ hmemory => exact absurd (congrFun hmemory a) ha
  | scalar _ hmemory => exact absurd (congrFun hmemory a) ha
  | overwritten htype _ hmemory _ hwritten =>
      exact ⟨⟨_, htype⟩, hwritten.pointer.trans (hupdated hmemory)⟩
  | allocated htype _ _ hmemory _ hwritten =>
      exact ⟨⟨_, htype⟩, hwritten.pointer.trans (hupdated hmemory)⟩

/-! ### The calls -/

/-- A call that can change the store. A node is the call of `param_import_callback` with it. -/
inductive Call
  | set (param : ParamT) (val : List UInt8)
  | reset (param : ParamT)
  | resetAll
  | node (markSaved : Bool) (decoder : Decoder)
  | exportTo (onlyUnsaved : Bool)

/-- What a call leaves of the store. -/
def Call.apply (env : Env) : Call → Store → Store
  | .set param val, s => (paramSet env param val s).2
  | .reset param, s => paramReset env param s
  | .resetAll, s => paramResetAll s
  | .node markSaved decoder, s => (paramImportCallback env markSaved decoder s).2.2
  | .exportTo onlyUnsaved, s => (paramExport env onlyUnsaved s).2.1

/-- The store as the system of its calls. It starts without an array. -/
def storeCalls (env : Env) : LTS Store Call where
  init s := s.values = none
  step s call t := call.apply env s = t

/-- What the callback does to the store: nothing but count the calls of `malloc`, or set a
parameter. -/
theorem paramImportCallback_store (env : Env) (markSaved : Bool) (decoder : Decoder) (s : Store) :
    (∃ k, (paramImportCallback env markSaved decoder s).2.2 = { s with mallocs := k } ∧
        ∀ param val, (importNode env decoder s.mallocs).1 ≠ .set param val) ∨
      ∃ param val k, (importNode env decoder s.mallocs).1 = .set param val ∧
        (importNode env decoder s.mallocs).2.2 = k ∧
        (paramImportCallback env markSaved decoder s).2.2 =
          (paramSetInternal env param val markSaved { s with mallocs := k }).2 := by
  unfold paramImportCallback
  cases haction : (importNode env decoder s.mallocs).1 with
  | finish => exact .inl ⟨_, by simp only [haction]; rfl, nofun⟩
  | ignore => exact .inl ⟨_, by simp only [haction]; rfl, nofun⟩
  | reject => exact .inl ⟨_, by simp only [haction]; rfl, nofun⟩
  | set param val => exact .inr ⟨param, val, _, rfl, rfl, by simp only [haction]⟩

theorem WellFormed.call (hs : WellFormed env s) (call : Call) :
    WellFormed env (call.apply env s) := by
  cases call with
  | set param val => exact hs.set param val false
  | reset param => exact hs.reset param
  | resetAll => exact .of_values_none rfl
  | exportTo onlyUnsaved => exact hs.export onlyUnsaved
  | node markSaved decoder =>
      show WellFormed env (paramImportCallback env markSaved decoder s).2.2
      rcases paramImportCallback_store env markSaved decoder s with
        ⟨k, hstore, -⟩ | ⟨param, val, k, -, -, hstore⟩
      · rw [hstore]
        exact hs.of_values rfl
      · rw [hstore]
        have hmallocs : WellFormed env { s with mallocs := k } := hs.of_values rfl
        exact hmallocs.set param val markSaved

theorem wellFormed_of_history (h : (storeCalls env).Reachable s) : WellFormed env s := by
  refine h.invariant (fun s hs => .of_values_none hs) ?_
  rintro s call t hs rfl
  exact hs.call call

/-! ### An import is a run of its nodes -/

/-- The callback, and the decoders it has been called with. -/
def recordCallback (env : Env) (markSaved : Bool) (decoder : Decoder)
    (p : Store × List Decoder) : Int × Decoder × (Store × List Decoder) :=
  let (result, decoder', s) := paramImportCallback env markSaved decoder p.1
  (result, decoder', s, p.2 ++ [decoder])

/-- The decoders, one for each node that is decoded, with which an import calls the callback. -/
def importedNodes (env : Env) (markSaved : Bool) (stream : List UInt8) (s : Store) :
    List Decoder :=
  match importInternal env (recordCallback env markSaved) stream (s, []) with
  | some (_, _, nodes) => nodes
  | none => []

theorem alike_recordCallback (env : Env) (markSaved : Bool) (s₀ : Store) :
    Alike (fun s p => s = p.1 ∧
        (storeCalls env).Run s₀ (p.2.map (Call.node markSaved)) s)
      (paramImportCallback env markSaved) (recordCallback env markSaved) := by
  rintro decoder s ⟨_, nodes⟩ ⟨rfl, hrun⟩
  refine ⟨rfl, rfl, rfl, ?_⟩
  show (storeCalls env).Run s₀ ((nodes ++ [decoder]).map (Call.node markSaved)) _
  rw [List.map_append]
  exact hrun.snoc rfl

/-- **An import is a run** of the callback over the nodes that are decoded. -/
theorem importInternal_run {markSaved : Bool} {stream : List UInt8} {result : Int}
    (h : importInternal env (paramImportCallback env markSaved) stream s = some (result, t)) :
    (storeCalls env).Run s
      ((importedNodes env markSaved stream s).map (Call.node markSaved)) t := by
  obtain ⟨⟨_, nodes⟩, hnodes, rfl, hrun⟩ :=
    importInternal_rel (alike_recordCallback env markSaved s) (t := (s, [])) ⟨rfl, .nil s⟩ h
  unfold importedNodes
  rw [hnodes]
  exact hrun

/-- A table with one parameter, a structure. -/
def structTable (size : Fin 16385) : ParamTable where
  info := [{ name := [83], type := .struct size, val := 0x08001000, noNul := by decide }]
  fits := by
    rw [List.length_singleton]
    decide

end Px4Firmware.Param
