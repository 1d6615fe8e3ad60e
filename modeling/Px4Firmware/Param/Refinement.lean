import Px4Firmware.Lib.Transition
import Px4Firmware.Param.Import

/-!
# Px4Firmware.Param.Refinement

**The parameter store is a finite map.** Next to the store runs the map it stands for: which
parameters have been set since they were last reset, to which value, and whether that has been
written to a file (`Settings`). Parameters are set and reset, imported, loaded and exported in any
order; the store agrees with the map in every state (`Agrees`), and so reads as the map does
(`store_refines_settings`).
-/

namespace Px4Firmware.Param

open Px4Firmware.Lib
open Px4Firmware.Bson

/-! ### The map -/

/-- What a parameter has been set to. -/
structure Setting where
  value : ParamValue
  unsaved : Bool
deriving DecidableEq

/-- What has been set, and not been reset since. -/
abbrev Settings := ParamT → Option Setting

namespace Settings

/-- Nothing is set. -/
def empty : Settings := fun _ => none

/-- Set a parameter. -/
def set (param : ParamT) (value : ParamValue) (unsaved : Bool) (m : Settings) : Settings :=
  Function.update m param (some { value := value, unsaved := unsaved })

/-- Reset a parameter. -/
def reset (param : ParamT) (m : Settings) : Settings := Function.update m param none

/-- Everything has been written to a file. -/
def markSaved (m : Settings) : Settings :=
  fun param => (m param).map fun s => { s with unsaved := false }

/-- Set the parameters that are set from a file, one after the other. -/
def setAll (env : Env) (unsaved : Bool) (sets : List (ParamT × List UInt8)) (m : Settings) :
    Settings :=
  sets.foldl (fun m s => m.set s.1 (env.endian.word32 (s.2.take 4)) unsaved) m

end Settings

/-! ### The system -/

/-- A call of the interface. A file is given by its bytes. -/
inductive Op
  | set (param : ParamT) (val : List UInt8)
  | reset (param : ParamT)
  | resetAll
  | importFrom (stream : List UInt8)
  | load (stream : List UInt8)
  | exportTo (onlyUnsaved : Bool)

/-- A call and its result. A reset has none. -/
structure Event where
  op : Op
  result : Int

/-- The call takes the store from one state to another. -/
def Event.Ends (env : Env) (e : Event) (s t : Store) : Prop :=
  match e.op with
  | .set param val => paramSet env param val s = (e.result, t)
  | .reset param => t = paramReset env param s
  | .resetAll => t = paramResetAll s
  | .importFrom stream => paramImport env stream s = some (e.result, t)
  | .load stream => paramLoad env stream s = some (e.result, t)
  | .exportTo onlyUnsaved =>
      (paramExport env onlyUnsaved s).1 = e.result ∧ t = (paramExport env onlyUnsaved s).2.1

/-- The parameter store as a transition system. It starts without an array. -/
def paramStore (env : Env) : LTS Store Event where
  init s := s.values = none
  step s e t := e.Ends env s t

/-- The handles that are set and reset are those of scalars, and exports are complete. -/
def Proper (env : Env) (_ : Store) (e : Event) : Prop :=
  match e.op with
  | .set param _ => Scalar env param
  | .reset param => Scalar env param
  | .exportTo _ => e.result = 0
  | _ => True

/-- What a call does to the map. -/
def record (env : Env) (m : Settings) (e : Event) : Settings :=
  match e.op with
  | .set param val =>
      if e.result = 0 then m.set param (env.endian.word32 (val.take 4)) true else m
  | .reset param => m.reset param
  | .resetAll => .empty
  | .importFrom stream => m.setAll env true (importedSets env stream)
  | .load stream => Settings.empty.setAll env false (importedSets env stream)
  | .exportTo _ => m.markSaved

/-- The runs of the store with proper calls, with the map beside it. -/
def storeWithSettings (env : Env) : LTS (Store × Settings) Event :=
  ((paramStore env).restrict (Proper env)).observe .empty fun m _ e _ => record env m e

/-! ### The simulation -/

/-- **The store agrees with the map**: its array is sorted, and the entry of a scalar is its
setting. -/
structure Agrees (env : Env) (s : Store) (m : Settings) : Prop where
  sorted : Sorted s
  entry : ∀ q, Scalar env q →
    changed q s = (m q).map fun x => { param := q, val := x.value, unsaved := x.unsaved }

section

variable {env : Env} {s : Store} {m : Settings}

theorem changed_of_values {s t : Store} (h : t.values = s.values) (q : ParamT) :
    changed q t = changed q s := by
  unfold changed paramFindChanged Store.array
  rw [h]

theorem changed_of_values_none (h : s.values = none) (q : ParamT) : changed q s = none := by
  unfold changed paramFindChanged
  rw [h]
  rfl

theorem Agrees.of_values_none (env : Env) (h : s.values = none) : Agrees env s .empty where
  sorted := by
    unfold Sorted Store.array
    rw [h]
    exact List.Pairwise.nil
  entry q _ := changed_of_values_none h q

/-- Only the array counts. -/
theorem Agrees.of_values {t : Store} (h : Agrees env s m) (hvalues : t.values = s.values) :
    Agrees env t m where
  sorted := by
    unfold Sorted Store.array
    rw [hvalues]
    exact h.sorted
  entry q hq := (changed_of_values hvalues q).trans (h.entry q hq)

/-- Setting a parameter, a scalar or not. -/
theorem Agrees.set (h : Agrees env s m) (param : ParamT) (val : List UInt8) (markSaved : Bool) :
    Agrees env (paramSetInternal env param val markSaved s).2
      (m.set param (env.endian.word32 (val.take 4)) !markSaved) := by
  obtain ⟨hsorted, hother, -⟩ := paramSetInternal_spec env h.sorted param val markSaved
  refine ⟨hsorted, fun q hq => ?_⟩
  by_cases hqp : q = param
  · subst hqp
    obtain ⟨-, -, hchanged⟩ := paramSetInternal_scalar h.sorted hq val markSaved
    rw [hchanged q, if_pos rfl, Settings.set, Function.update_self]
    rfl
  · rw [hother q hqp, Settings.set, Function.update_of_ne hqp]
    exact h.entry q hq

theorem Agrees.reset (h : Agrees env s m) {param : ParamT}
    (hparam : handleInRange env param = true) :
    Agrees env (paramReset env param s) (m.reset param) := by
  obtain ⟨hsorted, hchanged⟩ := paramReset_spec env h.sorted hparam
  refine ⟨hsorted, fun q hq => ?_⟩
  rw [hchanged q, Settings.reset]
  split_ifs with hqp
  · rw [hqp, Function.update_self]
    rfl
  · rw [Function.update_of_ne hqp]
    exact h.entry q hq

/-! ### Import -/

theorem Settings.setAll_concat (unsaved : Bool) (sets : List (ParamT × List UInt8))
    (param : ParamT) (val : List UInt8) (m : Settings) :
    m.setAll env unsaved (sets ++ [(param, val)]) =
      (m.setAll env unsaved sets).set param (env.endian.word32 (val.take 4)) unsaved :=
  List.foldl_concat ..

/-- The callback of the store and the one that notes the settings answer alike, and the store
keeps agreeing with the map that has the noted settings. -/
theorem alike_noteCallback (halloc : Allocates env) (markSaved : Bool) (m₀ : Settings) :
    Alike (fun s noted => Agrees env s (m₀.setAll env (!markSaved) noted))
      (paramImportCallback env markSaved) (noteCallback env) := by
  intro decoder s noted h
  obtain ⟨haction, hdecoder⟩ := importNode_mallocs halloc decoder s.mallocs 0
  have hmallocs : ∀ k, Agrees env { s with mallocs := k } (m₀.setAll env (!markSaved) noted) :=
    fun _ => h.of_values rfl
  unfold paramImportCallback noteCallback
  simp only [haction, hdecoder]
  cases (importNode env decoder 0).1 with
  | finish => exact ⟨rfl, rfl, hmallocs _⟩
  | ignore => exact ⟨rfl, rfl, hmallocs _⟩
  | reject => exact ⟨rfl, rfl, hmallocs _⟩
  | set param val =>
      have hs := hmallocs (importNode env decoder s.mallocs).2.2
      have hset := hs.set param val markSaved
      simp only [paramSetInternal_result hs.sorted halloc param val markSaved]
      by_cases htype : paramType env param = .unknown
      · simp only [if_pos htype]
        refine ⟨rfl, trivial, hset.sorted, fun q hq => ?_⟩
        -- no scalar has been set
        have hne : q ≠ param := by
          rintro rfl
          unfold Scalar at hq
          simp [htype] at hq
        have hentry := hset.entry q hq
        rw [Settings.set, Function.update_of_ne hne] at hentry
        exact hentry
      · simp only [if_neg htype]
        refine ⟨if_pos trivial, trivial, ?_⟩
        rw [Settings.setAll_concat]
        exact hset

/-- **An import sets what the file says**, one node after the other. -/
theorem Agrees.importInternal (halloc : Allocates env) (h : Agrees env s m) {markSaved : Bool}
    {stream : List UInt8} {result : Int} {t : Store}
    (himport : Param.importInternal env (paramImportCallback env markSaved) stream s =
      some (result, t)) :
    Agrees env t (m.setAll env (!markSaved) (importedSets env stream)) := by
  obtain ⟨noted, hnoted, hagrees⟩ :=
    importInternal_rel (alike_noteCallback halloc markSaved m) (t := []) h himport
  unfold importedSets
  rw [hnoted]
  exact hagrees

/-! ### Export -/

/-- An entry that has been written. -/
def ParamWbuf.saved (w : ParamWbuf) : ParamWbuf := { w with unsaved := false }

/-- What an export leaves alone: the handles and the values. If it is complete, it has marked
all entries as saved. -/
theorem exportLoop_array (env : Env) (onlyUnsaved : Bool) (s : Store)
    (rest done : List ParamWbuf) (encoder : Encoder) :
    (exportLoop env onlyUnsaved s done rest encoder).2.1.array.map ParamWbuf.saved =
        (done ++ rest).map ParamWbuf.saved ∧
      ((exportLoop env onlyUnsaved s done rest encoder).1 = true →
        (exportLoop env onlyUnsaved s done rest encoder).2.1.array =
          done ++ rest.map ParamWbuf.saved) := by
  induction rest generalizing done encoder with
  | nil => simp [exportLoop]
  | cons w rest ih =>
      unfold exportLoop
      split_ifs with hskip
      -- An entry is skipped only when it is marked already.
      · have hsaved : w.saved = w := by
          unfold ParamWbuf.saved
          simp only [Bool.and_eq_true, Bool.not_eq_true'] at hskip
          rw [← hskip.2]
        obtain ⟨harray, hdone⟩ := ih (done ++ [w]) encoder
        refine ⟨?_, fun h => ?_⟩
        · rw [harray, List.append_assoc]
          rfl
        · rw [hdone h, List.append_assoc, List.map_cons, hsaved]
          rfl
      · simp only
        split
        · rename_i encoder' _
          obtain ⟨harray, hdone⟩ := ih (done ++ [w.saved]) encoder'
          refine ⟨?_, fun h => ?_⟩
          · refine harray.trans ?_
            simp [ParamWbuf.saved]
          · refine (hdone h).trans ?_
            simp [ParamWbuf.saved]
        · refine ⟨?_, nofun⟩
          simp [ParamWbuf.saved]

/-- The store after an export, and what the export says of it. -/
theorem paramExport_array (env : Env) (onlyUnsaved : Bool) (s : Store) :
    (paramExport env onlyUnsaved s).2.1.array.map ParamWbuf.saved = s.array.map ParamWbuf.saved ∧
      ((paramExport env onlyUnsaved s).1 = 0 →
        (paramExport env onlyUnsaved s).2.1.array = s.array.map ParamWbuf.saved) := by
  unfold paramExport
  cases hvalues : s.values with
  | none =>
      have harray : s.array = [] := by
        unfold Store.array
        rw [hvalues]
        rfl
      simp [harray]
  | some values =>
      have harray : s.array = values := by
        unfold Store.array
        rw [hvalues]
        rfl
      obtain ⟨hsame, hdone⟩ := exportLoop_array env onlyUnsaved s values []
        (after (bsonEncoderInit env.endian env.write) { fd := true, written := [] })
      rw [harray]
      simp only
      by_cases hexported : (exportLoop env onlyUnsaved s [] values
          (after (bsonEncoderInit env.endian env.write) { fd := true, written := [] })).1 = true
      · rw [if_pos hexported]
        exact ⟨hsame, fun _ => hdone hexported⟩
      · rw [if_neg hexported]
        have hfailed : ¬ (-1 : Int) = 0 := by decide
        exact ⟨hsame, fun h => absurd h hfailed⟩

theorem sorted_of_saved {l l' : List ParamWbuf}
    (h : l'.map ParamWbuf.saved = l.map ParamWbuf.saved) (hl : SortedByKey ParamWbuf.param l) :
    SortedByKey ParamWbuf.param l' := by
  have hkeys : l'.map ParamWbuf.param = l.map ParamWbuf.param := by
    have h' := congrArg (List.map ParamWbuf.param) h
    rwa [List.map_map, List.map_map] at h'
  have hpairs : (l'.map ParamWbuf.param).Pairwise (· < ·) := by
    rw [hkeys, List.pairwise_map]
    exact hl
  rwa [List.pairwise_map] at hpairs

/-- A complete export marks everything as saved. -/
theorem Agrees.export (h : Agrees env s m) {onlyUnsaved : Bool}
    (hresult : (paramExport env onlyUnsaved s).1 = 0) :
    Agrees env (paramExport env onlyUnsaved s).2.1 m.markSaved := by
  obtain ⟨hsame, hsaved⟩ := paramExport_array env onlyUnsaved s
  refine ⟨sorted_of_saved hsame h.sorted, fun q hq => ?_⟩
  rw [changed_eq, hsaved hresult, lookupKey_map (f := ParamWbuf.saved) fun _ => rfl, ← changed_eq,
    h.entry q hq, Settings.markSaved]
  cases m q <;> rfl

/-! ### Runs -/

/-- **The simulation.** One call, and the map takes the same step. -/
theorem Agrees.step (halloc : Allocates env) (h : Agrees env s m) {e : Event} {t : Store}
    (hproper : Proper env s e) (hends : e.Ends env s t) : Agrees env t (record env m e) := by
  obtain ⟨op, result⟩ := e
  cases op with
  | set param val =>
      have hset := h.set param val false
      obtain ⟨hresult, -, -⟩ := paramSetInternal_scalar h.sorted hproper val false
      have hpair : paramSetInternal env param val false s = (result, t) := hends
      rw [hpair] at hset hresult
      rw [show record env m ⟨.set param val, result⟩ = _ from if_pos hresult]
      exact hset
  | reset param =>
      obtain rfl : t = paramReset env param s := hends
      exact h.reset hproper.inRange
  | resetAll =>
      obtain rfl : t = paramResetAll s := hends
      exact .of_values_none env rfl
  | importFrom stream => exact h.importInternal halloc hends
  | load stream =>
      have hreset : Agrees env (paramResetAll s) .empty := .of_values_none env rfl
      exact hreset.importInternal halloc hends
  | exportTo onlyUnsaved =>
      obtain ⟨hresult, rfl⟩ := hends
      exact h.export (hresult.trans hproper)

theorem agrees_of_reachable (halloc : Allocates env) {p : Store × Settings}
    (h : (storeWithSettings env).Reachable p) : Agrees env p.1 p.2 := by
  refine h.invariant (I := fun p => Agrees env p.1 p.2) ?_ ?_
  · rintro ⟨s, m⟩ ⟨hinit, rfl⟩
    exact .of_values_none env hinit
  · rintro ⟨s, m⟩ e ⟨t, m'⟩ hs ⟨⟨hproper, hends⟩, hm'⟩
    obtain rfl : m' = record env m e := hm'
    exact hs.step halloc hproper hends

/-- The value a scalar reads in a map. -/
def Settings.read (env : Env) (m : Settings) (param : ParamT) : ParamValue :=
  match m param with
  | some x => x.value
  | none => paramDefault env param

/-- What a store reads that agrees with a map. -/
theorem Agrees.reads (h : Agrees env s m) {q : ParamT} (hq : Scalar env q) :
    paramGet env q true s = some (env.endian.bytes32 (m.read env q)) ∧
      paramValueIsDefault q s = (m q).isNone ∧
      paramValueUnsaved q s = (m q).any Setting.unsaved := by
  rw [paramGet_scalar hq, paramValueIsDefault_eq]
  unfold paramValueUnsaved Settings.read
  rw [h.entry q hq]
  cases m q <;> exact ⟨rfl, rfl, rfl⟩

/-- The handle that a call sets or resets. -/
def Op.handle : Op → Option ParamT
  | .set param _ => some param
  | .reset param => some param
  | _ => none

/-- Setting or resetting one handle leaves the others as they are. -/
theorem read_record_of_ne {op : Op} {result : Int} {p q : ParamT} (hhandle : op.handle = some p)
    (hqp : q ≠ p) : (record env m ⟨op, result⟩).read env q = m.read env q := by
  unfold Settings.read
  cases op with
  | set param val =>
      cases hhandle
      simp only [record]
      split_ifs
      · rw [Settings.set, Function.update_of_ne hqp]
      · rfl
  | reset param =>
      cases hhandle
      simp only [record]
      rw [Settings.reset, Function.update_of_ne hqp]
  | resetAll => exact nomatch hhandle
  | importFrom stream => exact nomatch hhandle
  | load stream => exact nomatch hhandle
  | exportTo onlyUnsaved => exact nomatch hhandle

/-- **The scalar parameter store refines a finite map.** In every run of the store: a scalar reads
the value it was last set to since its last reset, by a call or by a file, or else its default; it
is reported as default or unsaved exactly if the map says so; setting or resetting one handle
changes no other; and the array of modified values is strictly sorted by handle. -/
theorem store_refines_settings (halloc : Allocates env)
    (h : (storeWithSettings env).Reachable (s, m)) :
    (∀ q, Scalar env q →
        paramGet env q true s = some (env.endian.bytes32 (m.read env q)) ∧
          paramValueIsDefault q s = (m q).isNone ∧
          paramValueUnsaved q s = (m q).any Setting.unsaved) ∧
      (∀ e t p q, ((paramStore env).restrict (Proper env)).step s e t → e.op.handle = some p →
        q ≠ p → Scalar env q → paramGet env q true t = paramGet env q true s) ∧
      s.array.Pairwise fun a b => a.param < b.param := by
  have hagrees := agrees_of_reachable halloc h
  refine ⟨fun q hq => hagrees.reads hq, ?_, hagrees.sorted⟩
  rintro ⟨op, result⟩ t p q ⟨hproper, hends⟩ hhandle hqp hq
  have hafter := hagrees.step halloc hproper hends
  rw [(hafter.reads hq).1, (hagrees.reads hq).1, read_record_of_ne hhandle hqp]

end

/-- Two parameters, an integer and a float, on a little-endian machine. -/
def sampleEnv : Env where
  table :=
    { info := [
        { name := [65], type := .int32, val := 7, noNul := by decide },
        { name := [66], type := .float, val := 0x3f800000, noNul := by decide }]
      fits := by decide }
  endian := .little
  -- as the conversions are for the zeros
  widen f := f.toUInt64 <<< 32
  narrow d := (d >>> 32).toUInt32
  malloc k := some (UInt32.ofNat (0x20000000 + 64 * k))
  behind _ _ := []
  write _ _ := true

/-- The store when the program starts. -/
def sampleStart : Store where
  values := none
  memory _ := []
  mallocs := 0
  changes := 0

/-- The store after the first parameter has been set. -/
def sampleStore : Store := (paramSet sampleEnv 0 [5, 0, 0, 0] sampleStart).2

/-- A file with the integer nine for the first parameter. -/
def nineFile : List UInt8 := [0, 0, 0, 0, 16, 65, 0, 9, 0, 0, 0, 0]

/-- The calls of a longer run, and their results: both parameters are set and exported, the float
is reset, another file is imported, the exported one is loaded, and the float is set again. -/
def sampleCalls : List Event :=
  [⟨.set 0 [5, 0, 0, 0], 0⟩, ⟨.set 1 [0, 0, 0, 128], 0⟩, ⟨.exportTo false, 0⟩, ⟨.reset 1, 0⟩,
    ⟨.importFrom nineFile, 0⟩,
    ⟨.load [0, 0, 0, 0, 16, 65, 0, 5, 0, 0, 0, 1, 66, 0, 0, 0, 0, 0, 0, 0, 0, 128, 0], 0⟩,
    ⟨.set 1 [0, 0, 0, 64], 0⟩]

/-- The store after a call. -/
def Op.apply (env : Env) (op : Op) (s : Store) : Store :=
  match op with
  | .set param val => (paramSet env param val s).2
  | .reset param => paramReset env param s
  | .resetAll => paramResetAll s
  | .importFrom stream => ((paramImport env stream s).map Prod.snd).getD s
  | .load stream => ((paramLoad env stream s).map Prod.snd).getD s
  | .exportTo onlyUnsaved => (paramExport env onlyUnsaved s).2.1

/-- In the end the integer is the one of the loaded file and saved, and the float is the one that
was set last and unsaved. -/
theorem store_refines_settings_calls :
    ∃ s m, (storeWithSettings sampleEnv).Run (sampleStart, .empty) sampleCalls (s, m) ∧
      paramGet sampleEnv 0 true s = some [5, 0, 0, 0] ∧
      paramValueIsDefault 0 s = false ∧ paramValueUnsaved 0 s = false ∧
      paramGet sampleEnv 1 true s = some [0, 0, 0, 64] ∧
      paramValueIsDefault 1 s = false ∧ paramValueUnsaved 1 s = true ∧
      s.array.Pairwise fun a b => a.param < b.param := by
  have halloc : Allocates sampleEnv := fun _ => rfl
  have hint : Scalar sampleEnv 0 := .inl rfl
  have hfloat : Scalar sampleEnv 1 := .inr rfl
  have hstep : ∀ {s m e}, Proper sampleEnv s e → e.Ends sampleEnv s (e.op.apply sampleEnv s) →
      (storeWithSettings sampleEnv).step (s, m) e
        (e.op.apply sampleEnv s, record sampleEnv m e) := fun hproper hends =>
    ⟨⟨hproper, hends⟩, rfl⟩
  have hrun : (storeWithSettings sampleEnv).Run (sampleStart, .empty) sampleCalls
      (sampleCalls.foldl (fun s e => e.op.apply sampleEnv s) sampleStart,
        sampleCalls.foldl (record sampleEnv) .empty) :=
    .cons (hstep hint rfl) <| .cons (hstep hfloat rfl) <| .cons (hstep rfl ⟨rfl, rfl⟩) <|
      .cons (hstep hfloat rfl) <| .cons (hstep trivial rfl) <| .cons (hstep trivial rfl) <|
      .cons (hstep hfloat rfl) <| .nil _
  obtain ⟨hreads, -, hsorted⟩ :=
    store_refines_settings halloc ⟨(sampleStart, .empty), sampleCalls, ⟨rfl, rfl⟩, hrun⟩
  obtain ⟨hget, hdefault, hunsaved⟩ := hreads 0 hint
  obtain ⟨hget', hdefault', hunsaved'⟩ := hreads 1 hfloat
  exact ⟨_, _, hrun, hget, hdefault, hunsaved, hget', hdefault', hunsaved', hsorted⟩

end Px4Firmware.Param
