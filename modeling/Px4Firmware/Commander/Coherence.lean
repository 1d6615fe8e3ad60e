import Px4Firmware.Lib.Hoare
import Px4Firmware.Lib.Transition
import Px4Firmware.Commander.Transition

/-!
# Px4Firmware.Commander.Coherence

**The armed flag is the one that the state prescribes.** In every run of the entry points of the
state machine, after each of them, the flag is `armedOf` the state, and the latest publication of
`actuator_armed` carries this flag (`armed_coherent`).

Every entry point asks for accepted transitions only, and an accepted transition sets the flag and
publishes it. An entry point keeps an invariant because its parts do: the transitions, the
publications, and the changes of other flags (`KeptByParts`).
-/

namespace Px4Firmware.Commander

open Px4Firmware.Lib

/-! ### The system -/

/-- The entry points of the state machine. -/
inductive Update
  | gotPositionFix
  | noPositionFix
  | arm
  | disarm
  | modeManual
  | modeStabilized
  | modeAuto
  | modeRequest (mode : UInt8)
  | customModeRequest (customMode : UInt8)
  | emergency
  | emergencyAlwaysCritical

section

variable (clock : Nat → UInt64)

/-- Call an entry point. -/
def Update.exec : Update → Exec Unit
  | gotPositionFix => updateStateMachineGotPositionFix clock
  | noPositionFix => updateStateMachineNoPositionFix clock
  | arm => updateStateMachineArm clock
  | disarm => updateStateMachineDisarm clock
  | modeManual => updateStateMachineModeManual clock
  | modeStabilized => updateStateMachineModeStabilized clock
  | modeAuto => updateStateMachineModeAuto clock
  | modeRequest mode => discard <| updateStateMachineModeRequest clock mode
  | customModeRequest customMode => discard <| updateStateMachineCustomModeRequest clock customMode
  | emergency => stateMachineEmergency clock
  | emergencyAlwaysCritical => stateMachineEmergencyAlwaysCritical clock

/-- The state machine as a transition system. It starts disarmed in preflight, with nothing sent; a
call that reboots does not return. -/
def updates : LTS App Update where
  init c := c.status.stateMachine = .preflight ∧ c.status.flagSystemArmed = false ∧ c.sent = []
  step c update c' := update.exec clock c = .ok () c'

end

/-! ### The invariant -/

/-- The publication of `actuator_armed`, if it is one. -/
def Sent.armed? : Sent → Option ActuatorArmed
  | actuatorArmed a => some a
  | _ => none

/-- The latest publication of `actuator_armed`. -/
def latestArmed (sent : List Sent) : Option ActuatorArmed := (sent.filterMap Sent.armed?).getLast?

/-- The flag is the one of the state, and so is the one that was published last. -/
def Coherent (c : App) : Prop :=
  c.status.flagSystemArmed = armedOf c.status.stateMachine ∧
    ∀ a ∈ latestArmed c.sent, a.armed = c.status.flagSystemArmed

theorem latestArmed_append (sent : List Sent) (e : Sent) :
    latestArmed (sent ++ [e]) = e.armed?.or (latestArmed sent) := by
  unfold latestArmed
  rw [List.filterMap_append]
  cases e <;> simp [Sent.armed?]

/-- A publication of the armed flag makes the publications agree with it. -/
theorem Coherent.of_published {c : App} (sent : List Sent)
    (hflag : c.status.flagSystemArmed = armedOf c.status.stateMachine)
    (hsent : c.sent = sent ++ [.actuatorArmed (armedStatus c.status)]) : Coherent c := by
  refine ⟨hflag, ?_⟩
  intro a ha
  rw [hsent, latestArmed_append] at ha
  cases ha
  rfl

/-- Whatever else changes: the flag, the state and the publications of the flag are the same. -/
theorem Coherent.congr {c c' : App} (h : Coherent c)
    (hflag : c'.status.flagSystemArmed = c.status.flagSystemArmed)
    (hstate : c'.status.stateMachine = c.status.stateMachine)
    (hsent : latestArmed c'.sent = latestArmed c.sent) : Coherent c' := by
  refine ⟨?_, ?_⟩
  · rw [hflag, hstate]
    exact h.1
  · rw [hsent, hflag]
    exact h.2

section

variable (clock : Nat → UInt64)

/-- An accepted transition ends coherent, wherever it starts. -/
theorem doStateUpdate_coherent {new : CommanderState} (hreboot : new ≠ .reboot) {c : App}
    (h : accepts c.status.stateMachine new) :
    outcome (doStateUpdate clock new) (fun _ c' => Coherent c') (fun _ _ => True) c := by
  have hflag : (prepared clock c new).status.flagSystemArmed = armedOf new := by
    cases new <;> rfl
  unfold outcome
  rw [doStateUpdate_accepted clock h hreboot]
  exact Coherent.of_published _ hflag rfl

/-- What the parts of the entry points keep: the transitions that are accepted everywhere, the
accepted reboot, which does not return, the publications, and the changes of flags that concern
neither the arming nor a calibration. -/
structure KeptByParts (I : App → Prop) : Prop where
  update : ∀ new, new ≠ .reboot → (∀ old, accepts old new) → Preserves I (doStateUpdate clock new)
  publish : Preserves I (stateMachinePublish clock)
  publishArmed : Preserves I publishArmedStatus
  mode : ∀ mode, Preserves I (modifyStatus fun s => { s with
    flightMode := mode
    flagControlManualEnabled := true
    flagControlAttitudeEnabled := true
    flagControlRatesEnabled := false })
  hil : Preserves I (modifyStatus fun s => { s with flagHilEnabled := true })

/-- The coherence is kept. -/
theorem keptByParts_coherent : KeptByParts clock Coherent where
  update _ hreboot h c _ := doStateUpdate_coherent clock hreboot (h c.status.stateMachine)
  publish c hc := hc.congr rfl rfl (latestArmed_append c.sent (.vehicleStatus _))
  publishArmed c hc :=
    Coherent.of_published (c.sent ++ [.actuatorArmed (armedStatus c.status)]) hc.1 rfl
  mode _ _ hc := hc.congr rfl rfl rfl
  hil _ hc := hc.congr rfl rfl rfl

/-! ### The entry points -/

section

variable {clock} {I : App → Prop} (hI : KeptByParts clock I)

include hI

theorem preserves_updateFrom (sources : List CommanderState) {new : CommanderState}
    (hreboot : new ≠ .reboot) (h : ∀ old, accepts old new) :
    Preserves I (updateFrom clock sources new) :=
  .get_bind fun c hc => Preserves.ite (hI.update new hreboot h).discard (.pure ()) c hc

theorem preserves_updateStateMachineMode (mode : FlightMode) (sources : List CommanderState)
    {new : CommanderState} (hreboot : new ≠ .reboot) (h : ∀ old, accepts old new) :
    Preserves I (updateStateMachineMode clock mode sources new) := by
  unfold updateStateMachineMode
  have hfrom := preserves_updateFrom hI sources hreboot h
  refine .get_bind fun c hc => ?_
  exact Preserves.bind (hI.mode mode)
    (fun _ => .ite (.bind hI.publish fun _ => hfrom) hfrom) c hc

theorem preserves_updateStateMachineDisarm : Preserves I (updateStateMachineDisarm clock) := by
  have hstandby := hI.update .standby (by decide) fun _ => trivial
  exact .get_bind fun c hc =>
    Preserves.ite hstandby.discard (.ite hstandby.discard (.pure ())) c hc

theorem preserves_stateMachineEmergencyAlwaysCritical :
    Preserves I (stateMachineEmergencyAlwaysCritical clock) := by
  have hground := hI.update .groundError (by decide) fun _ => trivial
  have habort := hI.update .missionAbort (by decide) fun _ => trivial
  exact .get_bind fun c hc =>
    Preserves.ite hground.discard (.ite habort.discard (.pure ())) c hc

theorem preserves_stateMachineEmergency : Preserves I (stateMachineEmergency clock) :=
  .get_bind fun c hc =>
    Preserves.ite (preserves_stateMachineEmergencyAlwaysCritical hI) (.pure ()) c hc

theorem preserves_armOnRequest (mode ret : UInt8) :
    Preserves I (armOnRequest clock mode ret) := by
  have harm := hI.update .groundReady (by decide) fun _ => trivial
  unfold armOnRequest
  refine .get_bind fun c hc => ?_
  refine Preserves.ite (.get_bind fun c' hc' => ?_) (.pure ret) c hc
  exact Preserves.ite (.bind harm.discard fun _ => .pure 0) (.pure ret) c' hc'

theorem preserves_disarmOnRequest (mode ret : UInt8) :
    Preserves I (disarmOnRequest clock mode ret) := by
  have hdisarm := hI.update .standby (by decide) fun _ => trivial
  unfold disarmOnRequest
  refine .get_bind fun c hc => ?_
  refine Preserves.ite (.get_bind fun c' hc' => ?_) (.pure ret) c hc
  exact Preserves.ite (.bind hdisarm.discard fun _ => .pure 0) (.pure ret) c' hc'

theorem preserves_enableHilOnRequest (mode ret : UInt8) :
    Preserves I (enableHilOnRequest clock mode ret) := by
  unfold enableHilOnRequest
  refine .get_bind fun c hc => ?_
  refine Preserves.ite ?_ (.pure ret) c hc
  exact .bind hI.hil fun _ => .bind hI.publish fun _ => .bind hI.publishArmed fun _ => .pure 0

theorem preserves_updateStateMachineModeRequest (mode : UInt8) :
    Preserves I (updateStateMachineModeRequest clock mode) := by
  unfold updateStateMachineModeRequest
  refine .bind (preserves_armOnRequest hI mode 1) fun ret => ?_
  refine .bind (preserves_disarmOnRequest hI mode ret) fun ret => ?_
  refine .bind (preserves_enableHilOnRequest hI mode ret) fun ret => ?_
  unfold denyHilOff
  exact .get_bind fun c hc => Preserves.ite (.pure 255) (.pure ret) c hc

/-- The one transition that may be refused is asked for where it is accepted. -/
theorem preserves_updateStateMachineCustomModeRequest (customMode : UInt8) :
    Preserves I (updateStateMachineCustomModeRequest clock customMode) := by
  have hauto := hI.update .auto (by decide) fun _ => trivial
  have hmanual := hI.update .manual (by decide) fun _ => trivial
  unfold updateStateMachineCustomModeRequest
  refine .get_bind fun c hc => ?_
  dsimp only
  split
  · by_cases hground : c.status.stateMachine = .standby ∨ c.status.stateMachine = .preflight
    · rw [if_pos hground]
      -- The reboot is accepted, and does not return.
      show outcome (Functor.discard (doStateUpdate clock .reboot) >>= fun _ => pure 0) _ _ c
      rw [outcome_bind]
      show outcome (Function.const Int () <$> doStateUpdate clock .reboot) _ _ c
      rw [outcome_map]
      unfold outcome
      rw [doStateUpdate_reboot clock hground]
      trivial
    · rw [if_neg hground]
      exact hc
  · exact Preserves.ite (.bind hauto.discard fun _ => .pure 0) (.pure 1) c hc
  · exact Preserves.ite (.bind hmanual.discard fun _ => .pure 0) (.pure 1) c hc
  · exact hc

/-- **The step lemma**: an entry point keeps what its parts keep. -/
theorem preserves_exec (update : Update) : Preserves I (update.exec clock) := by
  cases update with
  | gotPositionFix => exact preserves_updateFrom hI _ (by decide) fun _ => trivial
  | noPositionFix =>
      exact .get_bind fun c hc =>
        Preserves.ite (preserves_stateMachineEmergency hI) (.pure ()) c hc
  | arm => exact preserves_updateFrom hI _ (by decide) fun _ => trivial
  | disarm => exact preserves_updateStateMachineDisarm hI
  | modeManual => exact preserves_updateStateMachineMode hI _ _ (by decide) fun _ => trivial
  | modeStabilized => exact preserves_updateStateMachineMode hI _ _ (by decide) fun _ => trivial
  | modeAuto => exact preserves_updateStateMachineMode hI _ _ (by decide) fun _ => trivial
  | modeRequest mode => exact (preserves_updateStateMachineModeRequest hI mode).discard
  | customModeRequest customMode =>
      exact (preserves_updateStateMachineCustomModeRequest hI customMode).discard
  | emergency => exact preserves_stateMachineEmergency hI
  | emergencyAlwaysCritical => exact preserves_stateMachineEmergencyAlwaysCritical hI

end

/-- **The armed flag is coherent.** In every run of the entry points, the armed flag is the one that
the state prescribes, and it is the one that was published last. -/
theorem armed_coherent {c : App} (h : (updates clock).Reachable c) :
    c.status.flagSystemArmed = armedOf c.status.stateMachine ∧
      ∀ a ∈ latestArmed c.sent, a.armed = c.status.flagSystemArmed := by
  refine h.invariant (I := Coherent) ?_ ?_
  · intro c ⟨hstate, hflag, hsent⟩
    refine ⟨?_, ?_⟩
    · rw [hflag, hstate]
      rfl
    · intro a ha
      rw [hsent] at ha
      cases ha
  · intro c update c' hc hrun
    exact (preserves_exec (keptByParts_coherent clock) update).of_ok hc hrun

end

/-- A position fix and an arming request: the vehicle is ready on the ground, armed. -/
theorem armed_coherent_groundReady :
    ∃ c, (updates fun _ => 0).Reachable c ∧ c.status.stateMachine = .groundReady ∧
      c.status.flagSystemArmed = true := by
  let next (c : App) (update : Update) : Option App :=
    if ends (update.exec fun _ => 0) c then some (after (update.exec fun _ => 0) c) else none
  have hnext : ∀ c update c', next c update = some c' →
      (updates fun _ => 0).step c update c' := by
    intro c update c' h
    by_cases hends : ends (update.exec fun _ => 0) c = true
    · rw [show next c update = _ from if_pos hends] at h
      cases h
      exact ends_iff.mp hends
    · rw [show next c update = _ from if_neg hends] at h
      cases h
  obtain ⟨c, hc⟩ := Option.isSome_iff_exists.mp
    (show ([Update.gotPositionFix, .arm].foldlM next initialCommander).isSome = true by decide)
  have hstate : ∀ c ∈ [Update.gotPositionFix, .arm].foldlM next initialCommander,
      c.status.stateMachine = .groundReady := by decide
  have hreach : (updates fun _ => 0).Reachable c :=
    ⟨initialCommander, _, ⟨rfl, rfl, rfl⟩, LTS.Run.of_foldlM hnext hc⟩
  refine ⟨c, hreach, hstate c hc, ?_⟩
  rw [(armed_coherent _ hreach).1, hstate c hc]
  rfl

end Px4Firmware.Commander
