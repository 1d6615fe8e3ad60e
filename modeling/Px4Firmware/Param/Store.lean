import Px4Firmware.Lib.Bytes
import Px4Firmware.Lib.Keyed

/-!
# Px4Firmware.Param.Store

The parameter store of `systemlib/param/param.c`: the table of compiled-in parameters, the
array of modified values, and the functions that look up, get, set and reset a parameter.

`union param_value_u` is the 32-bit word that its members share: the integer, the bits of the
float, or the address of a structure. What a `const void *` points to is the list of bytes from
there on, and `memcpy` takes the first of them. A pointer into the array is an index.

`utarray_new` and `utarray_push_back` do not return when memory runs out, so their allocations
are not modelled; the storage of a structure is.
-/

namespace Px4Firmware.Param

open Px4Firmware.Lib

/-! ### The table -/

/-- `param_t`. -/
abbrev ParamT := Nat

/-- `PARAM_INVALID`. -/
def paramInvalid : ParamT := 0xffffffff

/-- `param_type_t`. The size of a structure is part of its type; `unknown` is every value that
is none of the others. -/
inductive ParamType
  | int32
  | float
  | struct (size : Fin 16385)
  | unknown
deriving DecidableEq

/-- `union param_value_u`. -/
abbrev ParamValue := UInt32

/-- `struct param_info_s`. The name is a C string, without its terminator. -/
structure ParamInfo where
  name : List UInt8
  type : ParamType
  val : ParamValue
  noNul : 0 ∉ name
deriving DecidableEq

/-- The table from `__param_start` to `__param_end`. -/
structure ParamTable where
  info : List ParamInfo
  fits : info.length ≤ paramInvalid

/-- `struct param_wbuf_s`. -/
structure ParamWbuf where
  param : ParamT
  val : ParamValue
  unsaved : Bool
deriving DecidableEq

/-- What the code is compiled with and runs on: the table, the machine, the conversions between
`float` and `double`, the outcome of each call of `malloc`, the memory behind the value of a
parameter, where the array holds these entries, and whether a write to a file is complete, given
what the file holds. -/
structure Env where
  table : ParamTable
  endian : Endian
  widen : UInt32 → UInt64
  narrow : UInt64 → UInt32
  malloc : Nat → Option UInt32
  behind : List ParamWbuf → ParamT → List UInt8
  write : List UInt8 → List UInt8 → Bool

section

variable (env : Env)

/-- `param_count`. -/
def paramCount : Nat := env.table.info.length

/-- `handle_in_range`. -/
def handleInRange (param : ParamT) : Bool := param < paramCount env

/-- `param_find`: the first parameter with this name. -/
def paramFind (name : List UInt8) : ParamT :=
  match env.table.info.findIdx? fun info => info.name = name with
  | some param => param
  | none => paramInvalid

/-- `param_name`. -/
def paramName (param : ParamT) : Option (List UInt8) := env.table.info[param]?.map ParamInfo.name

/-- `param_type`. -/
def paramType (param : ParamT) : ParamType :=
  match env.table.info[param]? with
  | some info => info.type
  | none => .unknown

/-- `param_size`. -/
def paramSize (param : ParamT) : Nat :=
  match paramType env param with
  | .int32 => 4
  | .float => 4
  | .struct size => size
  | .unknown => 0

end

/-! ### The array of modified values -/

/-- `param_compare_values`. -/
def paramCompareValues (a b : ParamWbuf) : Int :=
  if a.param < b.param then -1 else if a.param > b.param then 1 else 0

/-- `param_values`, the memory, the number of calls of `malloc` and the number of changes that
were announced. -/
structure Store where
  values : Option (List ParamWbuf)
  memory : UInt32 → List UInt8
  mallocs : Nat
  changes : Nat

namespace Store

/-- The array, which is empty as long as there is none. -/
def array (s : Store) : List ParamWbuf := s.values.getD []

/-- Change the array. -/
def setArray (values : List ParamWbuf) (s : Store) : Store := { s with values := some values }

/-- `param_notify_changes`. -/
def paramNotifyChanges (s : Store) : Store := { s with changes := s.changes + 1 }

end Store

/-- `param_find_changed`. -/
def paramFindChanged (param : ParamT) (s : Store) : Option Nat :=
  s.values.bind (indexOfKey ParamWbuf.param param)

/-- The entry that `param_find_changed` points to. -/
def changed (param : ParamT) (s : Store) : Option ParamWbuf :=
  (paramFindChanged param s).bind fun i => s.array[i]?

/-- `param_value_is_default`. -/
def paramValueIsDefault (param : ParamT) (s : Store) : Bool := (paramFindChanged param s).isNone

/-- `param_value_unsaved`. -/
def paramValueUnsaved (param : ParamT) (s : Store) : Bool := (changed param s).any ParamWbuf.unsaved

/-- A new entry, pushed back and sorted in. -/
def pushBackAndSort (param : ParamT) (values : List ParamWbuf) : List ParamWbuf :=
  let buf : ParamWbuf := { param := param, val := 0, unsaved := false }
  (values ++ [buf]).insertionSort fun a b => paramCompareValues a b ≤ 0

/-- The first half of `param_set_internal`: make sure that there is an array and that the
parameter has an entry in it. -/
def enterChanged (param : ParamT) (s : Store) : Store :=
  match paramFindChanged param s with
  | some _ => s.setArray s.array
  | none => s.setArray (pushBackAndSort param s.array)

/-! ### Getting and setting -/

section

variable (env : Env)

/-- `param_get_value_ptr`. Only the type `PARAM_TYPE_STRUCT` itself, a structure of size zero, is
followed to its storage. -/
def paramGetValuePtr (param : ParamT) (s : Store) : Option (List UInt8) :=
  match env.table.info[param]? with
  | none => none
  | some info =>
      let v := match changed param s with
        | some w => w.val
        | none => info.val
      if info.type = .struct 0 then
        some (s.memory v)
      else
        some (env.endian.bytes32 v ++ env.behind s.array param)

/-- `param_get`: what is copied, if there is somewhere to copy it to. -/
def paramGet (param : ParamT) (wanted : Bool) (s : Store) : Option (List UInt8) :=
  if wanted then
    some (((paramGetValuePtr env param s).getD []).take (paramSize env param))
  else none

/-- The storage of a structure in `param_set_internal`: allocated if there is none, and filled. -/
def setStruct (i : Nat) (size : Nat) (val : List UInt8) (s : Store) : Option (UInt32 × Store) :=
  let p := (s.array[i]?.map ParamWbuf.val).getD 0
  if p = 0 then
    match env.malloc s.mallocs with
    | none => none
    | some p =>
        some (p, { s with
          memory := Function.update s.memory p (val.take size)
          mallocs := s.mallocs + 1 })
  else
    some (p, { s with memory := Function.update s.memory p (val.take size) })

/-- The end of a successful `param_set_internal`. -/
def finishSet (i : Nat) (val : ParamValue) (markSaved : Bool) (s : Store) : Store :=
  (s.setArray (s.array.modify i fun w => { w with val := val, unsaved := !markSaved }))
    |>.paramNotifyChanges

/-- `param_set_internal`. -/
def paramSetInternal (param : ParamT) (val : List UInt8) (markSaved : Bool) (s : Store) :
    Int × Store :=
  if handleInRange env param then
    let s := enterChanged param s
    match paramFindChanged param s with
    -- it was pushed back if it was not there
    | none => (-1, s)
    | some i =>
        match paramType env param with
        | .int32 => (0, finishSet i (env.endian.word32 (val.take 4)) markSaved s)
        | .float => (0, finishSet i (env.endian.word32 (val.take 4)) markSaved s)
        | .struct size =>
            match setStruct env i size val s with
            | none => (-1, { s with mallocs := s.mallocs + 1 })
            | some (p, s) => (0, finishSet i p markSaved s)
        | .unknown => (-1, s)
  else
    (-1, s.setArray s.array)

/-- `param_set`. -/
def paramSet (param : ParamT) (val : List UInt8) (s : Store) : Int × Store :=
  paramSetInternal env param val false s

/-- `param_reset`. -/
def paramReset (param : ParamT) (s : Store) : Store :=
  if handleInRange env param then
    match paramFindChanged param s with
    | some pos => (s.setArray (s.array.eraseIdx pos)).paramNotifyChanges
    | none => s
  else
    s

/-- `param_reset_all`. -/
def paramResetAll (s : Store) : Store := Store.paramNotifyChanges { s with values := none }

end

/-! ### What the functions do to the array -/

/-- The array is strictly sorted by handle. -/
def Sorted (s : Store) : Prop := SortedByKey ParamWbuf.param s.array

@[simp] theorem array_setArray (values : List ParamWbuf) (s : Store) :
    (s.setArray values).array = values := rfl

theorem paramFindChanged_eq (param : ParamT) (s : Store) :
    paramFindChanged param s = indexOfKey ParamWbuf.param param s.array := by
  unfold paramFindChanged Store.array
  cases s.values <;> rfl

theorem changed_eq (param : ParamT) (s : Store) :
    changed param s = lookupKey ParamWbuf.param param s.array := by
  unfold changed
  rw [paramFindChanged_eq]
  cases h : indexOfKey ParamWbuf.param param s.array with
  | none => exact (indexOfKey_eq_none_iff.mp h).symm
  | some i => exact getElem?_of_indexOfKey h

theorem changed_of_array {s t : Store} (h : t.array = s.array) (param : ParamT) :
    changed param t = changed param s := by
  rw [changed_eq, changed_eq, h]

theorem changed_setArray_array (param : ParamT) (s : Store) :
    changed param (s.setArray s.array) = changed param s :=
  changed_of_array (array_setArray s.array s) param

theorem paramValueIsDefault_eq (param : ParamT) (s : Store) :
    paramValueIsDefault param s = (changed param s).isNone := by
  unfold paramValueIsDefault
  rw [changed_eq, paramFindChanged_eq, Bool.eq_iff_iff, Option.isNone_iff_eq_none,
    Option.isNone_iff_eq_none, indexOfKey_eq_none_iff]

theorem paramCompareValues_le_zero (a b : ParamWbuf) :
    paramCompareValues a b ≤ 0 ↔ a.param ≤ b.param := by
  unfold paramCompareValues
  rcases lt_trichotomy a.param b.param with hlt | heq | hgt
  · simp [hlt, hlt.le]
  · simp [heq]
  · simp [hgt, hgt.not_gt]

/-- The handles of the array after a new one has been pushed back. -/
theorem nodup_pushBack {l : List ParamWbuf} (h : SortedByKey ParamWbuf.param l) {param : ParamT}
    (hnew : lookupKey ParamWbuf.param param l = none) :
    ((l ++ [({ param := param, val := 0, unsaved := false } : ParamWbuf)]).map
      ParamWbuf.param).Nodup := by
  rw [List.map_append, List.nodup_append]
  refine ⟨h.nodup, by simp, ?_⟩
  intro a ha b hb hab
  rw [lookupKey_eq_none_iff] at hnew
  rw [List.map_singleton, List.mem_singleton] at hb
  subst hab hb
  exact hnew ha

theorem sorted_pushBackAndSort {l : List ParamWbuf} (h : SortedByKey ParamWbuf.param l)
    {param : ParamT} (hnew : lookupKey ParamWbuf.param param l = none) :
    SortedByKey ParamWbuf.param (pushBackAndSort param l) :=
  sortedByKey_insertionSort paramCompareValues_le_zero (nodup_pushBack h hnew)

/-- A new entry is found after sorting, and the others are where they can be found, too. -/
theorem lookupKey_pushBackAndSort {l : List ParamWbuf} (h : SortedByKey ParamWbuf.param l)
    {param : ParamT} (hnew : lookupKey ParamWbuf.param param l = none) (q : ParamT) :
    lookupKey ParamWbuf.param q (pushBackAndSort param l) =
      if q = param then some { param := param, val := 0, unsaved := false }
      else lookupKey ParamWbuf.param q l := by
  have hkeys := nodup_pushBack h hnew
  unfold pushBackAndSort
  rw [← lookupKey_perm (List.perm_insertionSort _ _).symm hkeys, lookupKey_append, lookupKey_cons]
  by_cases hq : q = param
  · subst hq
    rw [hnew, if_pos rfl, if_pos rfl]
    rfl
  · rw [if_neg (Ne.symm hq), if_neg hq]
    exact Option.or_none

/-- After the first half of `param_set_internal` the parameter has an entry: the one it had, or
a new one. -/
theorem enterChanged_spec {s : Store} (hs : Sorted s) (param : ParamT) :
    Sorted (enterChanged param s) ∧ ∀ q, changed q (enterChanged param s) =
      if q = param then some ((changed param s).getD { param := param, val := 0, unsaved := false })
      else changed q s := by
  unfold enterChanged
  cases hfind : paramFindChanged param s with
  | some i =>
      refine ⟨hs, fun q => ?_⟩
      by_cases hq : q = param
      · subst hq
        rw [if_pos rfl, changed_eq, array_setArray, changed_eq]
        cases hlookup : lookupKey ParamWbuf.param q s.array with
        | some w => rfl
        | none =>
            rw [paramFindChanged_eq, indexOfKey_eq_none_iff.mpr hlookup] at hfind
            exact nomatch hfind
      · rw [if_neg hq, changed_setArray_array]
  | none =>
      rw [paramFindChanged_eq, indexOfKey_eq_none_iff] at hfind
      refine ⟨sorted_pushBackAndSort hs hfind, fun q => ?_⟩
      rw [changed_eq, array_setArray, lookupKey_pushBackAndSort hs hfind, changed_eq, hfind,
        changed_eq]
      rfl

/-- Writing a value into an entry. -/
theorem finishSet_spec {s : Store} (hs : Sorted s) {param : ParamT} {i : Nat}
    (hi : paramFindChanged param s = some i) (val : ParamValue) (markSaved : Bool) :
    Sorted (finishSet i val markSaved s) ∧ ∀ q, changed q (finishSet i val markSaved s) =
      if q = param then some { param := param, val := val, unsaved := !markSaved }
      else changed q s := by
  rw [paramFindChanged_eq] at hi
  have harray : (finishSet i val markSaved s).array = s.array.map fun w =>
      if w.param = param then { w with val := val, unsaved := !markSaved } else w :=
    modify_eq_map hs.nodup hi _
  have hkey : ∀ w : ParamWbuf, (if w.param = param then
      { w with val := val, unsaved := !markSaved } else w).param = w.param := by
    intro w
    split_ifs <;> rfl
  refine ⟨?_, fun q => ?_⟩
  · unfold Sorted
    rw [harray]
    exact hs.map hkey
  · rw [changed_eq, harray, lookupKey_map hkey, changed_eq]
    cases hlookup : lookupKey ParamWbuf.param q s.array with
    | none =>
        have hq : q ≠ param := by
          rintro rfl
          rw [indexOfKey_eq_none_iff.mpr hlookup] at hi
          exact nomatch hi
        rw [if_neg hq]
        rfl
    | some w =>
        have hw : w.param = q := key_of_lookupKey hlookup
        by_cases hq : q = param
        · subst hq
          rw [if_pos rfl, Option.map_some, if_pos hw, hw]
        · rw [if_neg hq, Option.map_some, if_neg (fun h => hq (hw.symm.trans h))]

/-- Resetting a parameter removes its entry. -/
theorem paramReset_spec (env : Env) {s : Store} (hs : Sorted s) {param : ParamT}
    (hparam : handleInRange env param = true) :
    Sorted (paramReset env param s) ∧ ∀ q, changed q (paramReset env param s) =
      if q = param then none else changed q s := by
  unfold paramReset
  rw [if_pos hparam]
  cases hfind : paramFindChanged param s with
  | none =>
      refine ⟨hs, fun q => ?_⟩
      split_ifs with hq
      · subst hq
        unfold changed
        rw [hfind]
        rfl
      · rfl
  | some pos =>
      rw [paramFindChanged_eq] at hfind
      have harray : ((s.setArray (s.array.eraseIdx pos)).paramNotifyChanges).array =
          s.array.filter fun w => w.param ≠ param := eraseIdx_eq_filter hs.nodup hfind
      refine ⟨?_, fun q => ?_⟩
      · unfold Sorted
        rw [harray]
        exact hs.filter _
      · rw [changed_eq, harray, changed_eq]
        split_ifs with hq
        · subst hq
          exact lookupKey_filter_self q s.array
        · exact lookupKey_filter_of_ne hq s.array

/-- A parameter whose value is an integer or a float. -/
def Scalar (env : Env) (param : ParamT) : Prop :=
  paramType env param = .int32 ∨ paramType env param = .float

instance (env : Env) (param : ParamT) : Decidable (Scalar env param) :=
  inferInstanceAs (Decidable (_ ∨ _))

theorem handleInRange_of_type {env : Env} {param : ParamT} (h : paramType env param ≠ .unknown) :
    handleInRange env param = true := by
  unfold paramType at h
  cases hinfo : env.table.info[param]? with
  | none =>
      rw [hinfo] at h
      exact absurd rfl h
  | some info =>
      obtain ⟨hlt, -⟩ := List.getElem?_eq_some_iff.mp hinfo
      exact decide_eq_true hlt

theorem Scalar.ne_unknown {env : Env} {param : ParamT} (h : Scalar env param) :
    paramType env param ≠ .unknown := by
  rcases h with h | h <;> rw [h] <;> nofun

theorem Scalar.ne_struct {env : Env} {param : ParamT} (h : Scalar env param) (size : Fin 16385) :
    paramType env param ≠ .struct size := by
  rcases h with h | h <;> rw [h] <;> nofun

theorem Scalar.paramSize {env : Env} {param : ParamT} (h : Scalar env param) :
    Param.paramSize env param = 4 := by
  unfold Param.paramSize
  rcases h with h | h <;> rw [h]

theorem paramSize_struct {env : Env} {param : ParamT} {size : Fin 16385}
    (htype : paramType env param = .struct size) : paramSize env param = size := by
  rw [paramSize, htype]

theorem Scalar.inRange {env : Env} {param : ParamT} (h : Scalar env param) :
    handleInRange env param = true :=
  handleInRange_of_type h.ne_unknown

theorem paramFindChanged_enterChanged {s : Store} (hs : Sorted s) (param : ParamT) :
    ∃ i, paramFindChanged param (enterChanged param s) = some i := by
  have hself := (enterChanged_spec hs param).2 param
  rw [if_pos rfl] at hself
  unfold changed at hself
  cases hfind : paramFindChanged param (enterChanged param s) with
  | none =>
      rw [hfind] at hself
      exact nomatch hself
  | some i => exact ⟨i, rfl⟩

/-- The entry of a parameter is entered if need be, and written. -/
theorem finishSet_enterChanged {s t : Store} (hs : Sorted s) {param : ParamT} {i : Nat}
    (hi : paramFindChanged param (enterChanged param s) = some i)
    (ht : t.values = (enterChanged param s).values) (val : ParamValue) (markSaved : Bool) :
    Sorted (finishSet i val markSaved t) ∧ ∀ q, changed q (finishSet i val markSaved t) =
      if q = param then some { param := param, val := val, unsaved := !markSaved }
      else changed q s := by
  obtain ⟨hsorted, hentered⟩ := enterChanged_spec hs param
  have harray : t.array = (enterChanged param s).array := by
    unfold Store.array
    rw [ht]
  have hsorted' : Sorted t := by
    unfold Sorted
    rw [harray]
    exact hsorted
  have hi' : paramFindChanged param t = some i := by
    rw [paramFindChanged_eq, harray, ← paramFindChanged_eq]
    exact hi
  obtain ⟨hfinished, hset⟩ := finishSet_spec hsorted' hi' val markSaved
  refine ⟨hfinished, fun q => ?_⟩
  rw [hset q]
  split_ifs with hq
  · rfl
  · rw [changed_eq, harray, ← changed_eq, hentered q, if_neg hq]

/-- **Setting a scalar.** It succeeds, the parameter has the new value, the array stays sorted
and the other entries are as they were. -/
theorem paramSetInternal_scalar {env : Env} {s : Store} (hs : Sorted s) {param : ParamT}
    (hparam : Scalar env param) (val : List UInt8) (markSaved : Bool) :
    (paramSetInternal env param val markSaved s).1 = 0 ∧
      Sorted (paramSetInternal env param val markSaved s).2 ∧
      ∀ q, changed q (paramSetInternal env param val markSaved s).2 =
        if q = param then
          some { param := param, val := env.endian.word32 (val.take 4), unsaved := !markSaved }
        else changed q s := by
  obtain ⟨i, hi⟩ := paramFindChanged_enterChanged hs param
  have hset := finishSet_enterChanged hs hi rfl (env.endian.word32 (val.take 4)) markSaved
  unfold paramSetInternal
  rw [if_pos hparam.inRange]
  simp only [hi]
  rcases hparam with htype | htype
  · rw [htype]
    exact ⟨rfl, hset⟩
  · rw [htype]
    exact ⟨rfl, hset⟩

theorem setStruct_values {env : Env} {i size : Nat} {val : List UInt8} {s t : Store} {p : UInt32}
    (h : setStruct env i size val s = some (p, t)) : t.values = s.values := by
  unfold setStruct at h
  simp only at h
  split_ifs at h
  · split at h
    · exact nomatch h
    · cases h
      rfl
  · cases h
    rfl

/-- **Setting a parameter of any type** keeps the array sorted and leaves the other entries as
they were, whether it succeeds or not. If it succeeds, the parameter has an entry. -/
theorem paramSetInternal_spec (env : Env) {s : Store} (hs : Sorted s) (param : ParamT)
    (val : List UInt8) (markSaved : Bool) :
    Sorted (paramSetInternal env param val markSaved s).2 ∧
      (∀ q, q ≠ param → changed q (paramSetInternal env param val markSaved s).2 = changed q s) ∧
      ((paramSetInternal env param val markSaved s).1 = 0 →
        ∃ v, changed param (paramSetInternal env param val markSaved s).2 =
          some { param := param, val := v, unsaved := !markSaved }) := by
  obtain ⟨i, hi⟩ := paramFindChanged_enterChanged hs param
  obtain ⟨hsorted, hentered⟩ := enterChanged_spec hs param
  have hfailed : ∀ q, q ≠ param → changed q (enterChanged param s) = changed q s := fun q hq => by
    rw [hentered q, if_neg hq]
  have hdone : ∀ (t : Store) v, t.values = (enterChanged param s).values →
      Sorted (finishSet i v markSaved t) ∧
        (∀ q, q ≠ param → changed q (finishSet i v markSaved t) = changed q s) ∧
        ((0 : Int) = 0 → ∃ v', changed param (finishSet i v markSaved t) =
          some { param := param, val := v', unsaved := !markSaved }) := by
    intro t v ht
    obtain ⟨hset, hchanged⟩ := finishSet_enterChanged hs hi ht v markSaved
    exact ⟨hset, fun q hq => by rw [hchanged q, if_neg hq], fun _ => ⟨v, by
      rw [hchanged param, if_pos rfl]⟩⟩
  have hresult : ∀ {p : Prop}, (-1 : Int) = 0 → p := fun h => absurd h (by decide)
  unfold paramSetInternal
  by_cases hrange : handleInRange env param = true
  · rw [if_pos hrange]
    simp only [hi]
    cases htype : paramType env param with
    | int32 => exact hdone _ _ rfl
    | float => exact hdone _ _ rfl
    | unknown => exact ⟨hsorted, hfailed, hresult⟩
    | struct size =>
        simp only
        -- Without the memory for a structure, the entry is there and has no new value.
        cases hstruct : setStruct env i size val (enterChanged param s) with
        | none => exact ⟨hsorted, hfailed, hresult⟩
        | some r =>
            obtain ⟨p, t⟩ := r
            exact hdone t p (setStruct_values hstruct)
  · rw [if_neg hrange]
    exact ⟨hs, fun q _ => changed_setArray_array q s, hresult⟩

/-! ### What a parameter reads -/

/-- The default of a parameter. -/
def paramDefault (env : Env) (param : ParamT) : ParamValue :=
  match env.table.info[param]? with
  | some info => info.val
  | none => 0

/-- A scalar reads the value of its entry, or its default if it has none. -/
theorem paramGet_scalar {env : Env} {param : ParamT} (hparam : Scalar env param) (s : Store) :
    paramGet env param true s = some (env.endian.bytes32
      (((changed param s).map ParamWbuf.val).getD (paramDefault env param))) := by
  cases hinfo : env.table.info[param]? with
  | none =>
      have hunknown : paramType env param = .unknown := by
        unfold paramType
        rw [hinfo]
      exact absurd hunknown hparam.ne_unknown
  | some info =>
      have htype : paramType env param = info.type := by
        unfold paramType
        rw [hinfo]
      have hstruct : info.type ≠ .struct 0 := htype ▸ hparam.ne_struct 0
      unfold paramGet paramGetValuePtr paramDefault
      rw [if_pos rfl, hinfo, hparam.paramSize]
      simp only [if_neg hstruct, Option.getD_some]
      cases changed param s <;> simp

end Px4Firmware.Param
