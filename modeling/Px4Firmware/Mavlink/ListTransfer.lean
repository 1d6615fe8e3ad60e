import Mathlib.Data.List.Induction
import Px4Firmware.Mavlink.Parameters

/-!
# Px4Firmware.Mavlink.ListTransfer

**A list of all parameters.** A PARAM_REQUEST_LIST sets the queue index to zero, and the main thread
then sends one parameter with each call of `mavlink_pm_queued_send`. The request is handled in the
receive thread, and nothing keeps it out of such a call, which reads the index, sends for a while,
and reads and writes the index again to count it up.

`list_complete_iff` says which requests get all parameters: those that do not arrive between the
moment when the index of a parameter is read and the one when it is counted up.
-/

namespace Px4Firmware.Mavlink

open Px4Firmware.Param

/-! ### Two threads -/

/-- Where the main thread is in `mavlink_pm_queued_send`: before the test of the index, before it is
read for `param_for_index`, before the parameter is sent, and before `++` reads and writes the
index. What it has read in the last step is kept with its place. -/
inductive SendPlace
  | test
  | pick
  | send (param : ParamT)
  | load
  | store (index : UInt32)
deriving DecidableEq

/-- `mavlink_param_queue_index`, and the place of the main thread. -/
structure Transfer where
  queueIndex : UInt32
  place : SendPlace
deriving DecidableEq

/-- The thread that takes a step. -/
inductive Thread
  | main
  | receive

section

variable (env : Env)

/-- The next call of `mavlink_pm_queued_send` returns 1. -/
def Transfer.Exhausted (t : Transfer) : Prop :=
  t.place = .test ∧ paramCount env ≤ t.queueIndex.toNat

/-- A step of the main thread. A call that returns 1 does nothing else. -/
def Transfer.queuedSend (t : Transfer) : Transfer :=
  match t.place with
  | .test =>
      if t.queueIndex.toNat < paramCount env then { t with place := .pick } else t
  | .pick => { t with place := .send (paramForIndex env t.queueIndex) }
  | .send _ => { t with place := .load }
  | .load => { t with place := .store t.queueIndex }
  | .store index => { queueIndex := index + 1, place := .test }

/-- The parameter that is sent in this step. -/
def Transfer.sends (t : Transfer) : List ParamT :=
  match t.place with
  | .send param => [param]
  | _ => []

/-- `mavlink_pm_start_queued_send`. -/
def Transfer.startQueuedSend (t : Transfer) : Transfer := { t with queueIndex := 0 }

/-- A step of one of the threads. -/
def Transfer.step (t : Transfer) : Thread → Transfer
  | .main => t.queuedSend env
  | .receive => t.startQueuedSend

/-- The state after these steps from the start of the app. -/
def Transfer.run (threads : List Thread) : Transfer :=
  threads.foldl (Transfer.step env) { queueIndex := 0, place := .test }

/-! ### The law and its condition -/

/-- Without another request, the main thread sends these parameters from here on until a call of
`mavlink_pm_queued_send` returns 1. -/
inductive Transfer.Finishes : Transfer → List ParamT → Prop
  | exhausted {t : Transfer} : t.Exhausted env → Finishes t []
  | step {t : Transfer} {params : List ParamT} : ¬ t.Exhausted env →
      Finishes (t.queuedSend env) params → Finishes t (t.sends ++ params)

/-- The law for a request that is the last one: `mavlink_pm_queued_send` comes to return 1, and all
parameters have been sent by then. -/
def Transfer.ListComplete (t : Transfer) : Prop :=
  ∃ params, t.startQueuedSend.Finishes env params ∧ ∀ i < paramCount env, i ∈ params

/-- The condition: the main thread has not read the index of a parameter that it is still to count
up from. If it has read index zero and not sent that parameter yet, nothing is lost. -/
def Transfer.Undisturbed (t : Transfer) : Prop :=
  match t.place with
  | .test => True
  | .pick => True
  | .send param => param = 0
  | .load => False
  | .store _ => False

/-! ### The index -/

/-- The index stays in the list, with what the main thread has read of it. -/
def Transfer.Sound (t : Transfer) : Prop :=
  t.queueIndex.toNat ≤ paramCount env ∧
    match t.place with
    | .test => True
    | .pick => t.queueIndex.toNat < paramCount env
    | .send _ => t.queueIndex.toNat < paramCount env
    | .load => t.queueIndex.toNat < paramCount env
    | .store index => index.toNat < paramCount env

theorem toNat_add_one {index : UInt32} (h : index.toNat < paramCount env) :
    (index + 1).toNat = index.toNat + 1 := by
  have hfits : paramCount env ≤ 0xffffffff := env.table.fits
  rw [UInt32.toNat_add]
  exact Nat.mod_eq_of_lt (by simp only [UInt32.reduceToNat]; omega)

theorem sound_step {t : Transfer} (h : t.Sound env) (thread : Thread) :
    (t.step env thread).Sound env := by
  obtain ⟨index, place⟩ := t
  obtain ⟨hle, hplace⟩ := h
  cases thread with
  | receive =>
      refine ⟨Nat.zero_le _, ?_⟩
      cases place with
      | test => trivial
      | pick => exact Nat.zero_lt_of_lt hplace
      | send param => exact Nat.zero_lt_of_lt hplace
      | load => exact Nat.zero_lt_of_lt hplace
      | store old => exact hplace
  | main =>
      cases place with
      | test =>
          simp only [Transfer.step, Transfer.queuedSend]
          split
          · next hlt => exact ⟨hle, hlt⟩
          · exact ⟨hle, trivial⟩
      | pick => exact ⟨hle, hplace⟩
      | send param => exact ⟨hle, hplace⟩
      | load => exact ⟨hle, hplace⟩
      | store old =>
          refine ⟨?_, trivial⟩
          simp only [Transfer.step, Transfer.queuedSend, toNat_add_one env hplace]
          exact hplace

theorem sound_run (threads : List Thread) : (Transfer.run env threads).Sound env := by
  unfold Transfer.run
  have hstart : ({ queueIndex := 0, place := .test } : Transfer).Sound env :=
    ⟨Nat.zero_le _, trivial⟩
  induction threads using List.reverseRecOn with
  | nil => exact hstart
  | append_singleton threads thread ih =>
      rw [List.foldl_append]
      exact sound_step env ih thread

/-! ### The rest of a transfer -/

/-- What is sent from here on is determined. -/
theorem Transfer.Finishes.unique {t : Transfer} {params params' : List ParamT}
    (h : t.Finishes env params) (h' : t.Finishes env params') : params = params' := by
  induction h generalizing params' with
  | exhausted hend =>
      cases h' with
      | exhausted => rfl
      | step hnot => exact absurd hend hnot
  | step hnot _ ih =>
      cases h' with
      | exhausted hend => exact absurd hend hnot
      | step _ hrest => rw [ih hrest]

/-- One step that is not the last one. -/
theorem Transfer.Finishes.of_place {t u : Transfer} {params : List ParamT}
    (hplace : t.place ≠ .test) (hstep : t.queuedSend env = u) (h : u.Finishes env params) :
    t.Finishes env (t.sends ++ params) :=
  .step (fun hend => hplace hend.1) (hstep ▸ h)

/-- What is left of a call, and the calls after it. -/
theorem finishes_of_store {index : UInt32} {params : List ParamT}
    (h : Transfer.Finishes env { queueIndex := index + 1, place := .test } params)
    (queueIndex : UInt32) :
    Transfer.Finishes env { queueIndex := queueIndex, place := .store index } params :=
  .of_place env (by simp) rfl h

theorem finishes_of_load {index : UInt32} {params : List ParamT}
    (h : Transfer.Finishes env { queueIndex := index + 1, place := .test } params) :
    Transfer.Finishes env { queueIndex := index, place := .load } params :=
  .of_place env (by simp) rfl (finishes_of_store env h index)

theorem finishes_of_send {index : UInt32} {params : List ParamT}
    (h : Transfer.Finishes env { queueIndex := index + 1, place := .test } params)
    (param : ParamT) :
    Transfer.Finishes env { queueIndex := index, place := .send param } (param :: params) :=
  .of_place env (by simp) rfl (finishes_of_load env h)

theorem finishes_of_pick (index : UInt32) {params : List ParamT}
    (hlt : index.toNat < paramCount env)
    (h : Transfer.Finishes env { queueIndex := index + 1, place := .test } params) :
    Transfer.Finishes env { queueIndex := index, place := .pick } (index.toNat :: params) := by
  have hparam : paramForIndex env index = index.toNat := if_pos hlt
  refine .of_place env (by simp) ?_ (finishes_of_send env h index.toNat)
  simp only [Transfer.queuedSend, hparam]

/-- From the test on, all parameters are sent whose index has not been reached. -/
theorem finishes_of_test (index : UInt32) {rest : Nat}
    (h : index.toNat + rest = paramCount env) :
    Transfer.Finishes env { queueIndex := index, place := .test }
      (List.range' index.toNat rest) := by
  induction rest generalizing index with
  | zero => exact .exhausted ⟨rfl, Nat.le_of_eq h.symm⟩
  | succ rest ih =>
      have hlt : index.toNat < paramCount env := by omega
      have hnext := toNat_add_one env hlt
      have hrest := ih (index + 1) (by omega)
      rw [hnext] at hrest
      rw [List.range'_succ]
      refine .step (t := { queueIndex := index, place := .test })
        (fun hend => absurd hend.2 (Nat.not_le.mpr hlt)) ?_
      simp only [Transfer.queuedSend, if_pos hlt]
      exact finishes_of_pick env index hlt hrest

/-- The calls after one that counts the index up to one. -/
theorem finishes_of_one (h : 0 < paramCount env) :
    Transfer.Finishes env { queueIndex := 0 + 1, place := .test }
      (List.range' 1 (paramCount env - 1)) :=
  finishes_of_test env (0 + 1) (by simp only [UInt32.reduceAdd, UInt32.reduceToNat]; omega)

/-- A transfer without parameter zero is not complete. -/
theorem not_listComplete {t : Transfer} {params : List ParamT} (hcount : 0 < paramCount env)
    (h : t.startQueuedSend.Finishes env params) (hzero : 0 ∉ params) : ¬ t.ListComplete env := by
  rintro ⟨params', h', hall⟩
  rw [h'.unique env h] at hall
  exact hzero (hall 0 hcount)

/-- **A list of all parameters is complete**, whatever the threads did before the last request,
exactly if the request does not arrive while the index is being counted up. -/
theorem list_complete_iff (threads : List Thread) :
    (Transfer.run env threads).ListComplete env ↔ (Transfer.run env threads).Undisturbed := by
  obtain ⟨hle, hplace⟩ := sound_run env threads
  revert hle hplace
  generalize Transfer.run env threads = t
  intro hle hplace
  obtain ⟨index, place⟩ := t
  cases place with
  | test =>
      have hsent := finishes_of_test env 0 (Nat.zero_add _)
      refine iff_of_true ⟨_, hsent, fun i hi => ?_⟩ trivial
      exact List.mem_range'_1.mpr ⟨Nat.zero_le i, by simpa using hi⟩
  | pick =>
      have hcount : 0 < paramCount env := Nat.zero_lt_of_lt hplace
      have hsent := finishes_of_pick env 0 hcount (finishes_of_one env hcount)
      refine iff_of_true ⟨_, hsent, fun i hi => ?_⟩ trivial
      rw [UInt32.toNat_zero, List.mem_cons, List.mem_range'_1]
      omega
  | send param =>
      have hcount : 0 < paramCount env := Nat.zero_lt_of_lt hplace
      have hsent := finishes_of_send env (finishes_of_one env hcount) param
      by_cases hparam : param = 0
      · subst hparam
        refine iff_of_true ⟨_, hsent, fun i hi => ?_⟩ rfl
        rw [List.mem_cons, List.mem_range'_1]
        omega
      · refine iff_of_false (not_listComplete env hcount hsent ?_) hparam
        rw [List.mem_cons, List.mem_range'_1]
        rintro (hzero | ⟨hone, -⟩)
        · exact hparam hzero.symm
        · exact absurd hone (by decide)
  | load =>
      have hcount : 0 < paramCount env := Nat.zero_lt_of_lt hplace
      have hsent := finishes_of_load env (finishes_of_one env hcount)
      refine iff_of_false (not_listComplete env hcount hsent ?_) id
      rw [List.mem_range'_1]
      omega
  | store old =>
      have hcount : 0 < paramCount env := Nat.zero_lt_of_lt hplace
      have hnext := toNat_add_one env hplace
      have hold : old.toNat < paramCount env := hplace
      have hrest : (old + 1).toNat + (paramCount env - (old.toNat + 1)) = paramCount env := by
        omega
      have hsent := finishes_of_store env (finishes_of_test env _ hrest) 0
      refine iff_of_false (not_listComplete env hcount hsent ?_) id
      rw [List.mem_range'_1, hnext]
      omega

/-! ### A call without interruption -/

/-- Five steps of the main thread are a call of `mavlink_pm_queued_send`. -/
theorem queuedSend_steps {m : Pm} (h : m.queueIndex.toNat < paramCount env) :
    (Transfer.queuedSend env)^[5] { queueIndex := m.queueIndex, place := .test } =
        { queueIndex := (m.queuedSend env).2.queueIndex, place := .test } ∧
      (m.queuedSend env).2.accesses = m.accesses ++
        ((Transfer.queuedSend env)^[2] { queueIndex := m.queueIndex, place := .test }).sends.flatMap
          (Mavlink.sends env) := by
  constructor
  · simp only [Function.iterate_succ, Function.iterate_zero, Function.comp, id_eq,
      Transfer.queuedSend, if_pos h, Pm.queuedSend, (sendParam_frame env _ m).2]
  · simp only [Function.iterate_succ, Function.iterate_zero, Function.comp, id_eq,
      Transfer.queuedSend, if_pos h, Pm.queuedSend, sendParam_accesses, Transfer.sends,
      List.flatMap_cons, List.flatMap_nil, List.append_nil]

end

/-- The main thread has sent the first of two parameters and not counted the index up. -/
def firstSent : Transfer := { queueIndex := 0, place := .load }

/-- A request that arrives now does not get the first parameter. -/
theorem request_loses_first :
    ¬ ∀ (env : Env) (threads : List Thread), (Transfer.run env threads).ListComplete env := by
  intro hcomplete
  have hrun : Transfer.run linkEnv [.main, .main, .main] = firstSent := by decide
  have hfirst := hcomplete linkEnv [.main, .main, .main]
  rw [hrun] at hfirst
  have hsent : firstSent.startQueuedSend.Finishes linkEnv [1] :=
    finishes_of_load linkEnv (finishes_of_one linkEnv (by decide))
  exact not_listComplete linkEnv (by decide) hsent (by decide) hfirst

end Px4Firmware.Mavlink
