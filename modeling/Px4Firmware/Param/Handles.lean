import Px4Firmware.Param.FailedSet

/-!
# Px4Firmware.Param.Handles

**Handles that are not in the table.** Callers pass on what `param_find` returns, and each function
tests the handle on its own. All of them reject one that is out of range, except `param_get`: the
storage that it looks up is the null pointer then, and it does not test for that. It copies nothing
from there and returns zero (`invalid_handle_rejected`).
-/

namespace Px4Firmware.Param

open Px4Firmware.Lib

/-- What the functions that only ask about a parameter answer. -/
structure HandleInfo where
  name : Option (List UInt8)
  type : ParamType
  size : Nat
  isDefault : Bool
  unsaved : Bool
deriving DecidableEq

/-- What is answered about a handle. -/
def handleInfo (env : Env) (param : ParamT) (s : Store) : HandleInfo where
  name := paramName env param
  type := paramType env param
  size := paramSize env param
  isDefault := paramValueIsDefault param s
  unsaved := paramValueUnsaved param s

/-- What is answered about a handle that is not in the table. -/
def noParameter : HandleInfo where
  name := none
  type := .unknown
  size := 0
  isDefault := true
  unsaved := false

/-- The handle is rejected by every function: by `param_get`, with somewhere to copy the value to
or without, by `param_set` with this value, by `param_reset`, and by those that only answer. -/
structure Rejected (env : Env) (param : ParamT) (wanted : Bool) (val : List UInt8) (s : Store) :
    Prop where
  getFails : paramGet env param wanted s = none
  /-- No storage is looked up, and so none is read. -/
  noStorage : paramGetValuePtr env param s = none
  setFails : (paramSet env param val s).1 = -1
  setUnseen : LooksLike env s (paramSet env param val s).2
  setMemory : (paramSet env param val s).2.memory = s.memory
  setMallocs : (paramSet env param val s).2.mallocs = s.mallocs
  setQuiet : (paramSet env param val s).2.changes = s.changes
  reset : paramReset env param s = s
  answers : handleInfo env param s = noParameter
  /-- No parameter is answered about in this way. -/
  identified : ∀ q, handleInRange env q = true → handleInfo env q s ≠ handleInfo env param s

section

variable {env : Env} {s : Store} {param : ParamT}

theorem info_of_outOfRange (hparam : handleInRange env param = false) :
    env.table.info[param]? = none :=
  List.getElem?_eq_none (not_lt.mp (of_decide_eq_false hparam))

/-- Only a parameter of the table has a name. -/
theorem paramName_of_inRange (hparam : handleInRange env param = true) :
    paramName env param ≠ none := by
  unfold paramName
  rw [List.getElem?_eq_getElem (of_decide_eq_true hparam)]
  exact Option.some_ne_none _

/-- Whatever has happened to the store, a handle that is not in the table has no entry. -/
theorem changed_of_outOfRange (hs : WellFormed env s) (hparam : handleInRange env param = false) :
    changed param s = none := by
  by_contra hentry
  have hrange := hs.inRange param hentry
  rw [hparam] at hrange
  exact nomatch hrange

theorem handleInfo_of_outOfRange (hs : WellFormed env s)
    (hparam : handleInRange env param = false) : handleInfo env param s = noParameter := by
  have hinfo := info_of_outOfRange hparam
  have htype : paramType env param = .unknown := by
    unfold paramType
    rw [hinfo]
  have hentry := changed_of_outOfRange hs hparam
  unfold handleInfo noParameter
  congr
  · unfold paramName
    rw [hinfo]
    rfl
  · unfold paramSize
    rw [htype]
  · rw [paramValueIsDefault_eq, hentry]
    rfl
  · unfold paramValueUnsaved
    rw [hentry]
    rfl

theorem paramGetValuePtr_of_outOfRange (hparam : handleInRange env param = false) :
    paramGetValuePtr env param s = none := by
  unfold paramGetValuePtr
  rw [info_of_outOfRange hparam]

/-- All that `param_set` does is to make sure that there is an array. -/
theorem paramSet_of_outOfRange (hparam : handleInRange env param = false) (val : List UInt8) :
    paramSet env param val s = (-1, s.setArray s.array) := by
  unfold paramSet paramSetInternal
  rw [if_neg (Bool.eq_false_iff.mp hparam)]

theorem paramReset_of_outOfRange (hparam : handleInRange env param = false) :
    paramReset env param s = s := by
  unfold paramReset
  rw [if_neg (Bool.eq_false_iff.mp hparam)]

/-- **Invalid handles.** In every store that a history leads to, a handle that is not in the table
is rejected by every function, exactly if `param_get` is not given anything to copy to. -/
theorem invalid_handle_rejected (hs : (storeCalls env).Reachable s)
    (hparam : handleInRange env param = false) (wanted : Bool) (val : List UInt8) :
    Rejected env param wanted val s ↔ wanted = false := by
  constructor
  · intro hrejected
    by_contra hwanted
    have hget := hrejected.getFails
    unfold paramGet at hget
    rw [if_pos (Bool.not_eq_false _ ▸ hwanted)] at hget
    exact nomatch hget
  · rintro rfl
    have hwell := wellFormed_of_history hs
    have hanswers := handleInfo_of_outOfRange hwell hparam
    have hset := paramSet_of_outOfRange (s := s) hparam val
    refine
      { getFails := rfl
        noStorage := paramGetValuePtr_of_outOfRange hparam
        setFails := by rw [hset]
        setUnseen := ?_
        setMemory := by rw [hset]; rfl
        setMallocs := by rw [hset]; rfl
        setQuiet := by rw [hset]; rfl
        reset := paramReset_of_outOfRange hparam
        answers := hanswers
        identified := ?_ }
    · rw [hset]
      exact .of_same env rfl rfl
    · intro q hq hsame
      have hname : paramName env q = none := congrArg HandleInfo.name (hsame.trans hanswers)
      exact paramName_of_inRange hq hname

end

theorem invalid_handle_rejected_start :
    handleInRange sampleEnv paramInvalid = false ∧
      Rejected sampleEnv paramInvalid false [1, 0, 0, 0] sampleStore := by
  have hstart : (storeCalls sampleEnv).Reachable sampleStart := .of_init rfl
  have hstore : (storeCalls sampleEnv).Reachable sampleStore :=
    hstart.step (e := .set 0 [5, 0, 0, 0]) rfl
  have hparam : handleInRange sampleEnv paramInvalid = false := by decide
  exact ⟨hparam, (invalid_handle_rejected hstore hparam false [1, 0, 0, 0]).mpr rfl⟩

/-- What `param_find` returns for an unknown name is taken by `param_get`. -/
theorem invalid_handle_read :
    ¬ ∀ (env : Env) (s : Store) (param : ParamT) (wanted : Bool) (val : List UInt8),
      (storeCalls env).Reachable s → handleInRange env param = false →
        Rejected env param wanted val s := by
  intro hclaim
  have hstart : (storeCalls sampleEnv).Reachable sampleStart := .of_init rfl
  have hfails := (hclaim sampleEnv sampleStart (paramFind sampleEnv [67]) true [] hstart
    (by decide)).getFails
  exact nomatch hfails

end Px4Firmware.Param
