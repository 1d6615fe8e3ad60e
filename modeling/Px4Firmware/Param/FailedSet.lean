import Px4Firmware.Param.History

/-!
# Px4Firmware.Param.FailedSet

**Sets that fail.** `param_set_internal` enters a parameter into the array before it knows whether
it can set it, and does not take the entry out again. A failed set can be seen, then, unless there
was an entry before or the handle is not in the table (`failed_set_invisible`).
-/

namespace Px4Firmware.Param

open Px4Firmware.Lib
open Px4Firmware.Bson

/-- What can be observed of a store: what the parameters read, whether they are reported as default
and unsaved, and what an export to any file returns and writes. -/
structure LooksLike (env : Env) (s t : Store) : Prop where
  get : ∀ q wanted, paramGet env q wanted t = paramGet env q wanted s
  isDefault : ∀ q, paramValueIsDefault q t = paramValueIsDefault q s
  unsaved : ∀ q, paramValueUnsaved q t = paramValueUnsaved q s
  result : ∀ write onlyUnsaved, (paramExport { env with write := write } onlyUnsaved t).1 =
    (paramExport { env with write := write } onlyUnsaved s).1
  bytes : ∀ write onlyUnsaved, (paramExport { env with write := write } onlyUnsaved t).2.2 =
    (paramExport { env with write := write } onlyUnsaved s).2.2

section

variable {env : Env} {s t : Store} {param : ParamT}

/-- Nothing but the array and the memory is observed. -/
theorem LooksLike.of_same (env : Env) (harray : t.array = s.array)
    (hmemory : t.memory = s.memory) : LooksLike env s t where
  get := paramGet_congr harray hmemory
  isDefault q := by
    rw [paramValueIsDefault_eq, paramValueIsDefault_eq, changed_of_array harray]
  unsaved q := by
    unfold paramValueUnsaved
    rw [changed_of_array harray]
  result write onlyUnsaved := (paramExport_congr harray hmemory onlyUnsaved).1
  bytes write onlyUnsaved := (paramExport_congr harray hmemory onlyUnsaved).2

/-! ### Failed sets -/

/-- A parameter that has an entry is not entered again. -/
theorem array_enterChanged (h : paramValueIsDefault param s = false) :
    (enterChanged param s).array = s.array := by
  unfold paramValueIsDefault at h
  unfold enterChanged
  cases hfind : paramFindChanged param s with
  | none =>
      rw [hfind] at h
      exact nomatch h
  | some i => rfl

/-- A failed set of a parameter that has an entry leaves the array as it is. -/
theorem SetEnds.failed {val : List UInt8} {markSaved : Bool} {result : Int}
    (h : SetEnds env param val markSaved s result t) (hresult : result ≠ 0)
    (hentry : handleInRange env param = false ∨ paramValueIsDefault param s = false) :
    t.array = s.array ∧ t.memory = s.memory := by
  have hentered : handleInRange env param = true → t.array = (enterChanged param s).array →
      t.array = s.array := by
    intro hrange harray
    rcases hentry with hout | hentry
    · rw [hrange] at hout
      exact nomatch hout
    · rw [harray, array_enterChanged hentry]
  cases h with
  | outOfRange _ harray hmemory => exact ⟨harray, hmemory⟩
  | untyped hrange _ harray hmemory => exact ⟨hentered hrange harray, hmemory⟩
  | noMemory htype _ _ harray hmemory =>
      exact ⟨hentered (handleInRange_of_type (htype ▸ nofun)) harray, hmemory⟩
  | scalar => exact absurd rfl hresult
  | overwritten => exact absurd rfl hresult
  | allocated => exact absurd rfl hresult

/-- **When a failed set is invisible.** After any history of the store, a set that returns an error
leaves everything that can be observed as it was, exactly if the handle is not in the table or the
parameter has an entry already. -/
theorem failed_set_invisible (hs : (storeCalls env).Reachable s) {val : List UInt8}
    (hresult : (paramSet env param val s).1 ≠ 0) :
    LooksLike env s (paramSet env param val s).2 ↔
      handleInRange env param = false ∨ paramValueIsDefault param s = false := by
  have hsorted := (wellFormed_of_history hs).sorted
  have hends := paramSetInternal_ends env hsorted param val false
  constructor
  · intro hlooks
    have hdefault := hlooks.isDefault param
    cases hrange : handleInRange env param with
    | false => exact .inl rfl
    | true =>
        -- it has an entry now, and so it had one before
        have hentry := hends.entry hsorted hrange
        rw [← hdefault, paramValueIsDefault_eq]
        exact .inr (Option.isNone_eq_false_iff.mpr (Option.isSome_iff_ne_none.mpr hentry))
  · intro hentry
    obtain ⟨harray, hmemory⟩ := hends.failed hresult hentry
    exact .of_same env harray hmemory

end

/-- One parameter, a structure of eight bytes, and no memory. -/
def fullEnv : Env where
  table := structTable ⟨8, by decide⟩
  endian := .little
  widen f := f.toUInt64 <<< 32
  narrow d := (d >>> 32).toUInt32
  malloc _ := none
  behind _ _ := [0, 0, 0, 0]
  write _ _ := true

/-- The store after the structure could not be set. -/
def fullStore : Store := (paramSet fullEnv 0 [1, 2, 3, 4, 5, 6, 7, 8] sampleStart).2

theorem failed_set_invisible_again :
    (paramSet fullEnv 0 [8, 7, 6, 5, 4, 3, 2, 1] fullStore).1 = -1 ∧
      LooksLike fullEnv fullStore (paramSet fullEnv 0 [8, 7, 6, 5, 4, 3, 2, 1] fullStore).2 := by
  have hstart : (storeCalls fullEnv).Reachable sampleStart := .of_init rfl
  have hfull : (storeCalls fullEnv).Reachable fullStore :=
    hstart.step (e := .set 0 [1, 2, 3, 4, 5, 6, 7, 8]) rfl
  have hresult : (paramSet fullEnv 0 [8, 7, 6, 5, 4, 3, 2, 1] fullStore).1 = -1 := rfl
  have hfailed : (paramSet fullEnv 0 [8, 7, 6, 5, 4, 3, 2, 1] fullStore).1 ≠ 0 := by
    rw [hresult]
    decide
  exact ⟨hresult, (failed_set_invisible hfull hfailed).mpr (.inr rfl)⟩

/-- The first set without memory makes the structure look as if it had been set. -/
theorem failed_set_seen :
    ¬ ∀ (env : Env) (s : Store) (param : ParamT) (val : List UInt8),
      (storeCalls env).Reachable s → (paramSet env param val s).1 ≠ 0 →
        LooksLike env s (paramSet env param val s).2 := by
  intro hclaim
  have hstart : (storeCalls fullEnv).Reachable sampleStart := .of_init rfl
  have hresult : (paramSet fullEnv 0 [1, 2, 3, 4, 5, 6, 7, 8] sampleStart).1 = -1 := rfl
  have hlooks := hclaim fullEnv sampleStart 0 [1, 2, 3, 4, 5, 6, 7, 8] hstart (by
    rw [hresult]
    decide)
  have hdefault : paramValueIsDefault 0 fullStore = true := hlooks.isDefault 0
  exact absurd hdefault (by decide)

end Px4Firmware.Param
