import Px4Firmware.Commander.StateMachine

/-!
# Px4Firmware.Commander.Transition

What `doStateUpdate` can do, said once. A request is either accepted (`accepts`),
and then the app ends in `committed` (or never returns, for a reboot), or it is
refused; a refused request still commits when it names another state than the
current one. The results about the state machine cite
`doStateUpdate_accepted`, `doStateUpdate_reboot` and `doStateUpdate_refused` and
never unfold the function.

The last section states when a state update is all or nothing.
-/

namespace Px4Firmware.Commander

/-- Does `doStateUpdate` find the request `new` valid in the state `old`? -/
def accepts (old : CommanderState) : CommanderState → Prop
  | .preflight | .reboot => old = .standby ∨ old = .preflight
  | .other _ => False
  | _ => True

instance (old new : CommanderState) : Decidable (accepts old new) := by
  cases new <;> unfold accepts <;> infer_instance

/-- The armed flag a state prescribes. -/
def armedOf : CommanderState → Bool
  | .groundReady | .manual | .stabilized | .auto | .missionAbort | .emcyLanding => true
  | _ => false

/-- The text with which an accepted request is announced. -/
def announcement : CommanderState → String
  | .emcyLanding => "[commander] EMERGENCY LANDING!"
  | .emcyCutoff => "[commander] EMERGENCY MOTOR CUTOFF!"
  | .groundError => "[commander] GROUND ERROR, locking down propulsion system"
  | .preflight => "[commander] Switched to PREFLIGHT state"
  | .reboot => "[commander] REBOOTING SYSTEM"
  | .standby => "[commander] Switched to STANDBY state"
  | .groundReady => "[commander] Switched to GROUND READY state"
  | .auto => "[commander] Switched to FLYING / AUTO mode"
  | .stabilized => "[commander] Switched to FLYING / STABILIZED mode"
  | .manual => "[commander] Switched to FLYING / MANUAL mode"
  | _ => ""

/-- The texts with which a request is refused, in the switch. -/
def refusal : CommanderState → List Sent
  | .preflight => [.logCritical "[commander] REFUSED to switch to PREFLIGHT state"]
  | .reboot => [.logCritical "[commander] REFUSED to REBOOT"]
  | _ => []

/-- The armed flag is set and the transition announced; nothing is published. -/
def announced (c : App) (new : CommanderState) : App :=
  { c with
    status := { c.status with flagSystemArmed := armedOf new }
    sent := c.sent ++ [.logCritical (announcement new)] }

section

variable (clock : Nat → UInt64)

/-- The new state is stored and both topics are published. -/
def committed (c : App) (new : CommanderState) : App :=
  let s := { c.status with
    stateMachine := new
    counter := c.status.counter + 1
    timestamp := clock c.clockReads }
  { status := s
    sent := c.sent ++ [.vehicleStatus s] ++ [.actuatorArmed (armedStatus s)]
      ++ [.actuatorArmed (armedStatus s)]
    clockReads := c.clockReads + 1 }

/-- What happens before an accepted request is committed. -/
def prepared (c : App) : CommanderState → App
  | .missionAbort => committed clock (announced c .emcyLanding) .emcyLanding
  | new => announced c new

/-- The final text of a refused request. -/
def rejected (c : App) : App :=
  { c with sent := c.sent ++ [.logCritical "[commander] REJECTING invalid state transition"] }

/-- A request was refused in the switch. -/
def refused (c : App) (new : CommanderState) : App :=
  { c with sent := c.sent ++ refusal new }

/-- Read the state, then go on: how the guarded cases of the switch reduce. -/
theorem get_bind_apply {α : Type} (f : App → Exec α) (c : App) :
    (get >>= f) c = f c c := rfl

theorem doStateUpdate_accepted {new : CommanderState} {c : App}
    (h : accepts c.status.stateMachine new) (hreboot : new ≠ .reboot) :
    doStateUpdate clock new c = .ok ok (committed clock (prepared clock c new) new) := by
  cases new with
  | preflight =>
      have hold : c.status.stateMachine = .standby ∨ c.status.stateMachine = .preflight := h
      unfold doStateUpdate stateUpdateSwitch
      simp only [get_bind_apply]
      rw [if_pos hold]
      rfl
  | reboot => exact absurd rfl hreboot
  | other k => exact absurd h id
  | _ => rfl

/-- An accepted reboot does not return. -/
theorem doStateUpdate_reboot {c : App} (h : accepts c.status.stateMachine .reboot) :
    doStateUpdate clock .reboot c = .error .reboot (announced c .reboot) := by
  have hold : c.status.stateMachine = .standby ∨ c.status.stateMachine = .preflight := h
  unfold doStateUpdate stateUpdateSwitch
  simp only [get_bind_apply]
  rw [if_pos hold]
  rfl

/-- A refused request reports an error, and commits unless the requested state is
the current one. -/
theorem doStateUpdate_refused {new : CommanderState} {c : App}
    (h : ¬ accepts c.status.stateMachine new) :
    doStateUpdate clock new c = .ok error (rejected
      (if c.status.stateMachine = new then refused c new
        else committed clock (refused c new) new)) := by
  cases new with
  | preflight =>
      have hold : ¬ (c.status.stateMachine = .standby ∨ c.status.stateMachine = .preflight) := h
      have hne : c.status.stateMachine ≠ .preflight := fun heq => hold (Or.inr heq)
      unfold doStateUpdate stateUpdateSwitch
      simp only [get_bind_apply]
      rw [if_neg hold, if_neg hne]
      simp only [hne, ne_eq, not_false_eq_true, or_true, if_true]
      rfl
  | reboot =>
      have hold : ¬ (c.status.stateMachine = .standby ∨ c.status.stateMachine = .preflight) := h
      unfold doStateUpdate stateUpdateSwitch
      simp only [get_bind_apply]
      rw [if_neg hold]
      by_cases heq : c.status.stateMachine = .reboot
      · simp only [heq, ne_eq, not_true_eq_false, or_false, if_true]
        rfl
      · simp only [heq, ne_eq, not_false_eq_true, or_true, if_true, if_false]
        rfl
  | other k =>
      have hsent : refused c (.other k) = c := by simp [refused, refusal]
      unfold doStateUpdate stateUpdateSwitch
      simp only [get_bind_apply]
      rw [hsent]
      by_cases heq : c.status.stateMachine = .other k
      · simp only [heq, ne_eq, not_true_eq_false, or_false, if_true]
        rfl
      · simp only [heq, ne_eq, not_false_eq_true, or_true, if_true, if_false]
        rfl
  | _ => exact absurd trivial h

/-! ### All or nothing -/

/-- What was sent between `c` and `c'`. -/
def newlySent (c c' : App) : List Sent := c'.sent.drop c.sent.length

/-- A state update is all or nothing: a refusal leaves the status alone and
publishes nothing, and a success stores the requested state with its armed flag
and publishes both topics with them. -/
def UpdateAtomic (new : CommanderState) (c : App) : Prop :=
  match doStateUpdate clock new c with
  | .ok ret c' =>
      (ret = error → c'.status = c.status ∧ ∀ e ∈ newlySent c c', e.isPublication = false) ∧
      (ret = ok → c'.status.stateMachine = new ∧ c'.status.flagSystemArmed = armedOf new ∧
        .vehicleStatus c'.status ∈ newlySent c c' ∧
        .actuatorArmed (armedStatus c'.status) ∈ newlySent c c')
  | .error _ _ => True

@[simp] theorem refusal_isPublication {new : CommanderState} {e : Sent} (h : e ∈ refusal new) :
    e.isPublication = false := by
  cases new <;> simp [refusal] at h <;> subst h <;> rfl

/-- A refused request for another state than the current one changes the state. -/
theorem refused_commits {new : CommanderState} {c : App}
    (h : ¬ accepts c.status.stateMachine new) (hne : c.status.stateMachine ≠ new) :
    ∃ c', doStateUpdate clock new c = .ok error c' ∧ c'.status.stateMachine = new := by
  have hrun := doStateUpdate_refused clock h
  rw [if_neg hne] at hrun
  exact ⟨_, hrun, rfl⟩

/-- An accepted request is carried out completely. -/
theorem updateAtomic_of_accepts {new : CommanderState} {c : App}
    (h : accepts c.status.stateMachine new) : UpdateAtomic clock new c := by
  unfold UpdateAtomic
  by_cases hreboot : new = .reboot
  · subst hreboot
    rw [doStateUpdate_reboot clock h]
    trivial
  · have harmed : (prepared clock c new).status.flagSystemArmed = armedOf new := by
      cases new <;> rfl
    have hlen : c.sent.length ≤ (prepared clock c new).sent.length := by
      cases new <;> simp [prepared, announced, committed]
    rw [doStateUpdate_accepted clock h hreboot]
    refine ⟨fun heq => absurd heq (by decide), fun _ => ⟨rfl, harmed, ?_, ?_⟩⟩ <;>
      simp [newlySent, committed, List.drop_append_of_le_length hlen]

/-- A refused request for the current state does nothing but say so. -/
theorem updateAtomic_of_refused_same {new : CommanderState} {c : App}
    (h : ¬ accepts c.status.stateMachine new) (hsame : c.status.stateMachine = new) :
    UpdateAtomic clock new c := by
  unfold UpdateAtomic
  rw [doStateUpdate_refused clock h, if_pos hsame]
  refine ⟨fun _ => ⟨rfl, ?_⟩, fun heq => absurd heq (by decide)⟩
  intro e he
  simp only [newlySent, rejected, refused, List.append_assoc, List.drop_left,
    List.mem_append, List.mem_singleton] at he
  rcases he with he | rfl
  · exact refusal_isPublication he
  · rfl

/-- **When a state update is all or nothing**: exactly when the request is one the
switch accepts in the current state, or names the current state. On any other
request the update is refused and carried out. -/
theorem updateAtomic_iff (new : CommanderState) (c : App) :
    UpdateAtomic clock new c ↔
      accepts c.status.stateMachine new ∨ c.status.stateMachine = new := by
  constructor
  · intro hatomic
    refine Decidable.byContradiction fun hcon => ?_
    obtain ⟨hrefuse, hne⟩ := not_or.mp hcon
    obtain ⟨c', hrun, hnew⟩ := refused_commits clock hrefuse hne
    unfold UpdateAtomic at hatomic
    rw [hrun] at hatomic
    have hstatus : c'.status = c.status := (hatomic.1 rfl).1
    exact hne (by rw [← hstatus, hnew])
  · rintro (h | hsame)
    · exact updateAtomic_of_accepts clock h
    · by_cases h : accepts c.status.stateMachine new
      · exact updateAtomic_of_accepts clock h
      · exact updateAtomic_of_refused_same clock h hsame

end

/-- A vehicle flying manually. -/
def manualFlight : App :=
  { initialCommander with
    status := { initialStatus with stateMachine := .manual, flagSystemArmed := true } }

/-- Asked for the preflight state while flying, the app answers with an error and
is in the preflight state, still armed. -/
theorem updateAtomic_fails_in_flight : ¬ UpdateAtomic (fun _ => 0) .preflight manualFlight := by
  intro h
  have hstatus := (h.1 rfl).1
  exact absurd (congrArg VehicleStatus.stateMachine hstatus) (by decide)

end Px4Firmware.Commander
