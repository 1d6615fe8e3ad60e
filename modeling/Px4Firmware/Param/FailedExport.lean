import Mathlib.Data.List.TakeWhile
import Px4Firmware.Param.History

/-!
# Px4Firmware.Param.FailedExport

**Exports that fail.** `param_export` marks an entry as saved before it writes it. When it fails
after it has come to the first unsaved entry, that entry is lost: a later export of the unsaved
parameters does not write it. Nothing is lost only when nothing was unsaved, or when one of the
saved entries ahead of the first unsaved one could not be written (`failed_export`).
-/

namespace Px4Firmware.Param

open Px4Firmware.Lib
open Px4Firmware.Bson

/-- The saved entries ahead of the first one that is unsaved. -/
def savedAhead (s : Store) : List ParamWbuf := s.array.takeWhile fun w => !w.unsaved

/-- The nodes of these entries can be written after the start of the document. -/
def writesAhead (env : Env) (s : Store) : Bool :=
  ends ((savedAhead s).forM fun w => appendParam env w.param s) (exportStart env)

/-- Every parameter that was unsaved is unsaved still, and a later export of the unsaved
parameters, to any file, contains it if it succeeds. -/
structure NothingLost (env : Env) (s t : Store) : Prop where
  unsaved : ∀ q, paramValueUnsaved q s = true → paramValueUnsaved q t = true
  later : ∀ q write t' bytes, paramValueUnsaved q s = true →
    paramExport { env with write := write } true t = (0, t', bytes) →
      ∃ before after : List ParamWbuf,
        bytes = env.endian.bytes32 0 ++ (before.flatMap (fun w => exportedNode env t w.param) ++
          (exportedNode env t q ++ after.flatMap fun w => exportedNode env t w.param) ++ [bsonEoo])

section

variable {env : Env} {s t : Store} {onlyUnsaved : Bool}

/-! ### How far an export comes -/

/-- The entries that are done stay as they are. -/
theorem exportLoop_done (env : Env) (onlyUnsaved : Bool) (s : Store) (rest done : List ParamWbuf)
    (encoder : Encoder) :
    ∃ l, (exportLoop env onlyUnsaved s done rest encoder).2.1.array = done ++ l := by
  induction rest generalizing done encoder with
  | nil => exact ⟨[], (List.append_nil done).symm⟩
  | cons w rest ih =>
      have hmore : ∀ encoder', ∃ l, (exportLoop env onlyUnsaved s (done ++ [w.saved]) rest
          encoder').2.1.array = done ++ l := by
        intro encoder'
        obtain ⟨l, hl⟩ := ih (done ++ [w.saved]) encoder'
        exact ⟨w.saved :: l, by rw [hl, List.append_assoc]; rfl⟩
      rw [exportLoop_cons]
      cases selected onlyUnsaved w with
      | false => exact hmore encoder
      | true =>
          simp only [if_true]
          cases appendParam env w.param (s.setArray (done ++ w.saved :: rest)) encoder with
          | ok _ encoder' => exact hmore encoder'
          | error _ encoder' => exact ⟨w.saved :: rest, rfl⟩

/-- When the loop comes to an unsaved entry, it is saved from then on. -/
theorem exportLoop_saves (env : Env) (onlyUnsaved : Bool) (s : Store) (done : List ParamWbuf)
    {w : ParamWbuf} (hw : w.unsaved = true) (rest : List ParamWbuf) (encoder : Encoder) :
    w.saved ∈ (exportLoop env onlyUnsaved s done (w :: rest) encoder).2.1.array := by
  have hselected : selected onlyUnsaved w = true := by simp [selected, hw]
  rw [exportLoop_cons, if_pos hselected]
  cases appendParam env w.param (s.setArray (done ++ w.saved :: rest)) encoder with
  | ok _ encoder' =>
      obtain ⟨l, hl⟩ := exportLoop_done env onlyUnsaved s rest (done ++ [w.saved]) encoder'
      simp only [hl]
      simp
  | error _ encoder' =>
      show w.saved ∈ done ++ w.saved :: rest
      simp

/-- An export of the unsaved parameters skips the saved ones. -/
theorem exportLoop_skips (env : Env) {ahead : List ParamWbuf}
    (hahead : ∀ w ∈ ahead, w.unsaved = false) (s : Store) (done rest : List ParamWbuf)
    (encoder : Encoder) :
    exportLoop env true s done (ahead ++ rest) encoder =
      exportLoop env true s (done ++ ahead) rest encoder := by
  induction ahead generalizing done with
  | nil => rw [List.nil_append, List.append_nil]
  | cons w ahead ih =>
      have hw := hahead w List.mem_cons_self
      have hselected : selected true w = false := by simp [selected, hw]
      rw [List.cons_append, exportLoop_cons, hselected, saved_of_unsaved hw]
      refine (ih (fun w' hw' => hahead w' (List.mem_cons_of_mem w hw')) (done ++ [w])).trans ?_
      rw [List.append_assoc]
      rfl

/-- A full export writes the saved entries, and if it fails with one of them the array is as it
was. -/
theorem exportLoop_ahead (env : Env) {ahead : List ParamWbuf}
    (hahead : ∀ w ∈ ahead, w.unsaved = false) (done : List ParamWbuf) {rest : List ParamWbuf}
    (harray : s.array = done ++ (ahead ++ rest)) (encoder : Encoder) :
    outcome (ahead.forM fun w => appendParam env w.param s)
      (fun _ encoder' => exportLoop env false s done (ahead ++ rest) encoder =
        exportLoop env false s (done ++ ahead) rest encoder')
      (fun _ _ => (exportLoop env false s done (ahead ++ rest) encoder).2.1.array = s.array)
      encoder := by
  induction ahead generalizing done encoder with
  | nil =>
      show exportLoop env false s done ([] ++ rest) encoder = _
      rw [List.nil_append, List.append_nil]
  | cons w ahead ih =>
      have hw := hahead w List.mem_cons_self
      have happend : done ++ w :: (ahead ++ rest) = done ++ [w] ++ (ahead ++ rest) := by simp
      -- the array of this round is the one of the start
      have hround : s.setArray (done ++ w :: (ahead ++ rest)) = s.setArray s.array := by
        rw [harray]
        rfl
      have hsame : appendParam env w.param (s.setArray s.array) = appendParam env w.param s :=
        appendParam_congr (s := s) (t := s.setArray s.array) rfl rfl w.param
      have hselected : selected false w = true := rfl
      show outcome (appendParam env w.param s >>= fun _ =>
        ahead.forM fun w => appendParam env w.param s) _ _ encoder
      rw [outcome_bind, List.cons_append, exportLoop_cons, if_pos hselected, saved_of_unsaved hw,
        hround, hsame]
      unfold outcome
      cases hrun : appendParam env w.param s encoder with
      | error _ encoder' => rfl
      | ok u encoder' =>
          have hrest := ih (fun w' hw' => hahead w' (List.mem_cons_of_mem w hw'))
            (done ++ [w]) (harray.trans happend) encoder'
          simp only
          rw [List.append_assoc done [w] ahead] at hrest
          exact hrest

/-! ### What is left of the unsaved entries -/

theorem unsaved_iff (hs : Sorted s) (q : ParamT) :
    paramValueUnsaved q s = true ↔ ∃ w ∈ s.array, w.param = q ∧ w.unsaved = true := by
  unfold paramValueUnsaved
  rw [changed_eq, Option.any_eq_true]
  constructor
  · rintro ⟨w, hlookup, hw⟩
    exact ⟨w, mem_of_lookupKey hlookup, key_of_lookupKey hlookup, hw⟩
  · rintro ⟨w, hmem, rfl, hw⟩
    exact ⟨w, lookupKey_of_mem hs.nodup hmem, hw⟩

/-- A complete export of the unsaved parameters contains every one of them. -/
theorem paramExport_contains (env : Env) (hs : Sorted s) {q : ParamT}
    (hq : paramValueUnsaved q s = true) {bytes : List UInt8}
    (h : paramExport env true s = (0, t, bytes)) :
    ∃ before after : List ParamWbuf,
      bytes = env.endian.bytes32 0 ++ (before.flatMap (fun w => exportedNode env s w.param) ++
        (exportedNode env s q ++ after.flatMap fun w => exportedNode env s w.param) ++
          [bsonEoo]) := by
  obtain ⟨w, hmem, rfl, hw⟩ := (unsaved_iff hs q).mp hq
  have hselected : w ∈ s.array.filter (selected true) :=
    List.mem_filter.mpr ⟨hmem, by simp [selected, hw]⟩
  obtain ⟨before, after, hsplit⟩ := List.append_of_mem hselected
  refine ⟨before, after, ?_⟩
  rw [paramExport_nodes hs h, hsplit, List.flatMap_append, List.flatMap_cons]

theorem NothingLost.of_unsaved (env : Env) (ht : Sorted t)
    (h : ∀ q, paramValueUnsaved q s = true → paramValueUnsaved q t = true) :
    NothingLost env s t where
  unsaved := h
  later q write _ _ hq hexport :=
    paramExport_contains { env with write := write } ht (h q hq) hexport

/-- The array in front of the first unsaved entry, and from there on. -/
theorem array_split (s : Store) : (∀ w ∈ s.array, w.unsaved = false) ∨
    ∃ w rest, s.array = savedAhead s ++ w :: rest ∧ w.unsaved = true := by
  have hsplit : savedAhead s ++ s.array.dropWhile (fun w => !w.unsaved) = s.array :=
    List.takeWhile_append_dropWhile
  cases hdrop : s.array.dropWhile fun w => !w.unsaved with
  | nil =>
      refine .inl fun w hw => ?_
      have hsaved := List.dropWhile_eq_nil_iff.mp hdrop w hw
      simpa using hsaved
  | cons w rest =>
      have hfirst := List.head?_dropWhile_not (fun w : ParamWbuf => !w.unsaved) s.array
      rw [hdrop] at hfirst hsplit
      exact .inr ⟨w, rest, hsplit.symm, by simpa using hfirst⟩

theorem savedAhead_unsaved {w : ParamWbuf} (hw : w ∈ savedAhead s) : w.unsaved = false := by
  have hsaved := List.mem_takeWhile_imp hw
  simpa using hsaved

/-- An export that comes to an unsaved entry loses it. -/
theorem not_nothingLost (hs : WellFormed env s) {w : ParamWbuf} (hmem : w ∈ s.array)
    (hw : w.unsaved = true) (hsaved : w.saved ∈ (paramExport env onlyUnsaved s).2.1.array) :
    ¬ NothingLost env s (paramExport env onlyUnsaved s).2.1 := by
  intro hlost
  have ht := (hs.export onlyUnsaved).sorted
  have hunsaved := hlost.unsaved w.param ((unsaved_iff hs.sorted w.param).mpr ⟨w, hmem, rfl, hw⟩)
  obtain ⟨w', hmem', hparam, hw'⟩ := (unsaved_iff ht w.param).mp hunsaved
  -- there is only one entry for the parameter
  have hlookup := lookupKey_of_mem ht.nodup hmem'
  rw [hparam] at hlookup
  replace hlookup := (lookupKey_of_mem ht.nodup hsaved).symm.trans hlookup
  obtain rfl : w.saved = w' := Option.some.inj hlookup
  exact nomatch hw'

/-- An export of the unsaved parameters comes to the first unsaved entry. -/
theorem paramExport_saves_unsaved (env : Env) {w : ParamWbuf} {rest : List ParamWbuf}
    (hsplit : s.array = savedAhead s ++ w :: rest) (hw : w.unsaved = true) :
    w.saved ∈ (paramExport env true s).2.1.array := by
  obtain ⟨-, harray, -⟩ := paramExport_eq env true s
  have hahead : ∀ w ∈ savedAhead s, w.unsaved = false := fun _ => savedAhead_unsaved
  have hskips := exportLoop_skips env hahead s [] (w :: rest) (exportStart env)
  have hsaved := exportLoop_saves env true s ([] ++ savedAhead s) hw rest (exportStart env)
  rw [← hskips, ← hsplit, ← harray] at hsaved
  exact hsaved

/-- A full export comes to it if the entries ahead can be written, and otherwise leaves the array
as it was. -/
theorem paramExport_full (env : Env) {w : ParamWbuf} {rest : List ParamWbuf}
    (hsplit : s.array = savedAhead s ++ w :: rest) (hw : w.unsaved = true) :
    (writesAhead env s = true → w.saved ∈ (paramExport env false s).2.1.array) ∧
      (writesAhead env s = false → (paramExport env false s).2.1.array = s.array) := by
  obtain ⟨-, harray, -⟩ := paramExport_eq env false s
  have hloop := exportLoop_ahead env (fun _ => savedAhead_unsaved) [] hsplit (exportStart env)
  rw [← hsplit] at hloop
  unfold outcome at hloop
  unfold writesAhead ends
  cases hrun : (savedAhead s).forM (fun w => appendParam env w.param s) (exportStart env) with
  | ok u encoder =>
      rw [hrun] at hloop
      simp only at hloop
      refine ⟨fun _ => ?_, nofun⟩
      have hsaved := exportLoop_saves env false s ([] ++ savedAhead s) hw rest encoder
      rw [← hloop, ← harray] at hsaved
      exact hsaved
  | error u encoder =>
      rw [hrun] at hloop
      exact ⟨nofun, fun _ => harray.trans hloop⟩

/-- **When a failed export loses nothing.** After any history of the store, an export that fails
leaves every unsaved parameter unsaved, so that a later export of the unsaved parameters contains
it, exactly if there was none, or if all parameters were to be exported and the saved ones ahead of
the first that was unsaved could not all be written. -/
theorem failed_export (hs : (storeCalls env).Reachable s)
    (hfailed : (paramExport env onlyUnsaved s).1 ≠ 0) :
    NothingLost env s (paramExport env onlyUnsaved s).2.1 ↔
      (∀ w ∈ s.array, w.unsaved = false) ∨ onlyUnsaved = false ∧ writesAhead env s = false := by
  have hwellFormed := wellFormed_of_history hs
  have ht := (hwellFormed.export onlyUnsaved).sorted
  rcases array_split s with hnone | ⟨w, rest, hsplit, hw⟩
  · refine ⟨fun _ => .inl hnone, fun _ => .of_unsaved env ht fun q hq => ?_⟩
    obtain ⟨w, hmem, -, hw⟩ := (unsaved_iff hwellFormed.sorted q).mp hq
    exact absurd ((hnone w hmem).symm.trans hw) (by decide)
  have hmem : w ∈ s.array := by
    rw [hsplit]
    simp
  have hsome : ¬ ∀ w ∈ s.array, w.unsaved = false := fun hnone =>
    absurd ((hnone w hmem).symm.trans hw) (by decide)
  rw [or_iff_right hsome]
  cases onlyUnsaved with
  | true =>
      have hsaved := paramExport_saves_unsaved env hsplit hw
      exact iff_of_false (not_nothingLost hwellFormed hmem hw hsaved) fun h => nomatch h.1
  | false =>
      obtain ⟨hsaves, hstops⟩ := paramExport_full env hsplit hw
      cases hahead : writesAhead env s with
      | true =>
          exact iff_of_false (not_nothingLost hwellFormed hmem hw (hsaves hahead))
            fun h => nomatch h.2
      | false =>
          refine iff_of_true (.of_unsaved env ht fun q hq => ?_) ⟨rfl, rfl⟩
          unfold paramValueUnsaved at hq ⊢
          rw [changed_of_array (hstops hahead)]
          exact hq

end

/-- The sample, with a file that has room for the start of a document. -/
def shortEnv : Env := { sampleEnv with write := fun written _ => written.length < 4 }

/-- The first parameter has been set. -/
def setOne : Store := (paramSet shortEnv 0 [5, 0, 0, 0] sampleStart).2

/-- The first parameter is saved, and the second has been set after it. -/
def setBoth : Store :=
  (paramSet shortEnv 1 [0, 0, 0, 128] (paramExport shortEnv false setOne).2.1).2

theorem failed_export_ahead :
    (paramExport shortEnv false setBoth).1 = -1 ∧
      NothingLost shortEnv setBoth (paramExport shortEnv false setBoth).2.1 := by
  have hstart : (storeCalls shortEnv).Reachable sampleStart := .of_init rfl
  have hone : (storeCalls shortEnv).Reachable setOne := hstart.step (e := .set 0 [5, 0, 0, 0]) rfl
  have hsaved : (storeCalls shortEnv).Reachable (paramExport shortEnv false setOne).2.1 :=
    hone.step (e := .exportTo false) rfl
  have hboth : (storeCalls shortEnv).Reachable setBoth :=
    hsaved.step (e := .set 1 [0, 0, 0, 128]) rfl
  have hresult : (paramExport shortEnv false setBoth).1 = -1 := rfl
  have hfailed : (paramExport shortEnv false setBoth).1 ≠ 0 := by
    rw [hresult]
    decide
  exact ⟨hresult, (failed_export hboth hfailed).mpr (.inr ⟨rfl, rfl⟩)⟩

/-- An export that cannot write the first parameter marks it as saved. -/
theorem failed_export_loses :
    ¬ ∀ (env : Env) (s : Store) (onlyUnsaved : Bool), (storeCalls env).Reachable s →
      (paramExport env onlyUnsaved s).1 ≠ 0 →
        NothingLost env s (paramExport env onlyUnsaved s).2.1 := by
  intro hclaim
  have hstart : (storeCalls shortEnv).Reachable sampleStart := .of_init rfl
  have hone : (storeCalls shortEnv).Reachable setOne := hstart.step (e := .set 0 [5, 0, 0, 0]) rfl
  have hresult : (paramExport shortEnv true setOne).1 = -1 := rfl
  have hlost := hclaim shortEnv setOne true hone (by
    rw [hresult]
    decide)
  have hunsaved : paramValueUnsaved 0 (paramExport shortEnv true setOne).2.1 = true :=
    hlost.unsaved 0 rfl
  exact absurd hunsaved (by decide)

end Px4Firmware.Param
