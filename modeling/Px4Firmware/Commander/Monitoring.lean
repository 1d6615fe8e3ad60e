import Px4Firmware.Commander.Calibration

/-!
# Px4Firmware.Commander.Monitoring

**The commander between the calls of its entry points.** The main loop finds out whether the signals
of the RC receiver and of an offboard computer are there, writes it into the status, and publishes
the armed flag and the status at the end of an iteration. `commander` is the system of the entry
points and of these parts, in any order.

The parts that watch the signals are quiet: they publish nothing and change neither the state nor
the flags of arming and of HIL.
-/

namespace Px4Firmware.Commander

open Px4Firmware.Lib

/-! ### The signals -/

/-- `enum OFFBOARD_CONTROL_MODE`. -/
inductive OffboardControlMode
  | direct
  | directRates
  | directAttitude
  | directVelocity
  | directPosition
  | attYawRate
  | attYawPos
  | multirotorSimple
  deriving DecidableEq

/-- Do these offboard commands ask for attitude control? -/
def OffboardControlMode.attitudeCtrlEnabled (mode : OffboardControlMode) : Bool :=
  mode = directAttitude || mode = directVelocity || mode = directPosition

/-- There is a recent RC input. -/
def rcSignalFound : Exec Unit := do
  if (← get).status.rcSignalFoundOnce = false then
    modifyStatus fun s => { s with rcSignalFoundOnce := true }
    mavlinkLogCritical "[commander] DETECTED RC SIGNAL FIRST TIME."
  else if (← get).status.rcSignalLost = true then
    mavlinkLogCritical "[commander] RECOVERY - RC SIGNAL GAINED!"
  modifyStatus fun s => { s with
    rcSignalCuttingOff := false
    rcSignalLost := false
    rcSignalLostInterval := 0 }

/-- There is a recent offboard command. -/
def offboardSignalFound (mode : OffboardControlMode) : Exec Unit := do
  modifyStatus fun s => { s with
    flagControlAttitudeEnabled := mode.attitudeCtrlEnabled
    flagControlRatesEnabled := true }
  if (← get).status.offboardControlSignalFoundOnce = false then
    modifyStatus fun s => { s with
      offboardControlSignalFoundOnce := true
      flagControlManualEnabled := false
      flagControlOffboardEnabled := true }
    mavlinkLogCritical "[commander] DETECTED OFFBOARD CONTROL SIGNAL FIRST TIME."
  else if (← get).status.offboardControlSignalLost = true then
    mavlinkLogCritical "[commander] RECOVERY - OFFBOARD CONTROL SIGNAL GAINED!"
  modifyStatus fun s => { s with
    offboardControlSignalWeak := false
    offboardControlSignalLost := false
    offboardControlSignalLostInterval := 0 }

section

variable (clock : Nat → UInt64)

/-- The latest RC input is too old. `again` says whether the last complaint is more than five
seconds ago. -/
def rcSignalMissing (timestamp : UInt64) (again : Bool) : Exec Unit := do
  if (← get).status.rcSignalCuttingOff = false ∨ again = true then
    modifyStatus fun s => { s with rcSignalCuttingOff := true }
    mavlinkLogCritical "[commander] CRITICAL - NO REMOTE SIGNAL!"
  let now ← hrtAbsoluteTime clock
  modifyStatus fun s => { s with rcSignalLostInterval := now - timestamp }
  if 1000000 < (← get).status.rcSignalLostInterval then
    modifyStatus fun s => { s with
      rcSignalLost := true
      failsaveLowlevel := true }

/-- The latest offboard command is too old. -/
def offboardSignalMissing (timestamp : UInt64) (again : Bool) : Exec Unit := do
  if (← get).status.offboardControlSignalWeak = false ∨ again = true then
    modifyStatus fun s => { s with offboardControlSignalWeak := true }
    mavlinkLogCritical "[commander] CRITICAL - NO OFFBOARD CONTROL SIGNAL!"
  let now ← hrtAbsoluteTime clock
  modifyStatus fun s => { s with offboardControlSignalLostInterval := now - timestamp }
  if 100000 < (← get).status.offboardControlSignalLostInterval then
    let start ← hrtAbsoluteTime clock
    modifyStatus fun s => { s with
      offboardControlSignalLost := true
      failsaveLowlevelStartTime := start
      failsaveLowlevel := true }

/-- The end of an iteration that publishes. -/
def monitoringPublish : Exec Unit := do
  let now ← hrtAbsoluteTime clock
  modifyStatus fun s => { s with
    counter := s.counter + 1
    timestamp := now }
  publishArmedStatus
  send (.vehicleStatus (← get).status)

/-! ### The system -/

/-- What happens in the app: a call of an entry point, or a part of the main loop. -/
inductive CommanderEvent
  | call (entry : Update)
  | standby
  | rcFound
  | rcMissing (timestamp : UInt64) (again : Bool)
  | offboardFound (mode : OffboardControlMode)
  | offboardMissing (timestamp : UInt64) (again : Bool)
  | publish

/-- What it runs. -/
def CommanderEvent.exec : CommanderEvent → Exec Unit
  | call entry => entry.exec clock
  | standby => standbyWhenClean clock
  | rcFound => rcSignalFound
  | rcMissing timestamp again => rcSignalMissing clock timestamp again
  | offboardFound mode => offboardSignalFound mode
  | offboardMissing timestamp again => offboardSignalMissing clock timestamp again
  | publish => monitoringPublish clock

/-- The app as a transition system. It starts with its status set up; a call that reboots does not
return. -/
def commander : LTS App CommanderEvent where
  init c := c = initialCommander
  step c e c' := e.exec clock c = .ok () c'

/-- The next state, if the app does not reboot. -/
def CommanderEvent.next (c : App) (e : CommanderEvent) : Option App := completes (e.exec clock) c

theorem CommanderEvent.step_of_next {c c' : App} {e : CommanderEvent}
    (h : CommanderEvent.next clock c e = some c') : (commander clock).step c e c' :=
  completes_eq_some.mp h

end

/-! ### Quiet programs -/

/-- Nothing has happened but texts for the ground station and changes of other flags. -/
structure Quiet (c c' : App) : Prop where
  state : c'.status.stateMachine = c.status.stateMachine
  armed : c'.status.flagSystemArmed = c.status.flagSystemArmed
  hil : c'.status.flagHilEnabled = c.status.flagHilEnabled
  sent : ∃ texts : List String, c'.sent = c.sent ++ texts.map Sent.logCritical

theorem Quiet.refl (c : App) : Quiet c c where
  state := rfl
  armed := rfl
  hil := rfl
  sent := ⟨[], (List.append_nil _).symm⟩

theorem Quiet.log (text : String) {c : App} :
    Preserves (Quiet c) (mavlinkLogCritical text) := by
  intro c₁ h
  obtain ⟨texts, htexts⟩ := h.sent
  refine ⟨h.state, h.armed, h.hil, texts ++ [text], ?_⟩
  show c₁.sent ++ [.logCritical text] = _
  rw [htexts, List.map_append, List.append_assoc]
  rfl

theorem Quiet.clock (clock : Nat → UInt64) {c : App} :
    Preserves (Quiet c) (hrtAbsoluteTime clock) := by
  intro c₁ h
  exact ⟨h.state, h.armed, h.hil, h.sent⟩

/-- A change of other flags. -/
theorem Quiet.modifyStatus {f : VehicleStatus → VehicleStatus}
    (hf : ∀ s, (f s).stateMachine = s.stateMachine ∧ (f s).flagSystemArmed = s.flagSystemArmed ∧
      (f s).flagHilEnabled = s.flagHilEnabled) {c : App} :
    Preserves (Quiet c) (Commander.modifyStatus f) := by
  intro c₁ h
  obtain ⟨hstate, harmed, hhil⟩ := hf c₁.status
  exact ⟨hstate.trans h.state, harmed.trans h.armed, hhil.trans h.hil, h.sent⟩

theorem Quiet.get {c : App} : Preserves (Quiet c) (MonadState.get : Exec App) := fun _ h => h

/-- A complaint, if it is due, before the rest of a program. -/
theorem Quiet.complain {p : Prop} [Decidable p] {f : VehicleStatus → VehicleStatus} {text : String}
    {rest : Exec Unit} {c : App}
    (hf : ∀ s, (f s).stateMachine = s.stateMachine ∧ (f s).flagSystemArmed = s.flagSystemArmed ∧
      (f s).flagHilEnabled = s.flagHilEnabled) (hrest : Preserves (Quiet c) rest) :
    Preserves (Quiet c) (if p then
        Commander.modifyStatus f >>= fun _ => mavlinkLogCritical text >>= fun _ => rest
      else rest) := by
  refine .ite ?_ hrest
  exact (Quiet.modifyStatus hf).bind fun _ => (Quiet.log text).bind fun _ => hrest

theorem quiet_rcSignalFound {c : App} : Preserves (Quiet c) rcSignalFound := by
  have hlast : Preserves (Quiet c) (modifyStatus fun s => { s with
      rcSignalCuttingOff := false
      rcSignalLost := false
      rcSignalLostInterval := 0 }) :=
    Quiet.modifyStatus (by intro; exact ⟨rfl, rfl, rfl⟩)
  unfold rcSignalFound
  refine Quiet.get.bind fun c₁ => ?_
  refine .ite ?_ (Quiet.get.bind fun c₂ => .ite ?_ hlast)
  · refine Preserves.bind ?_ fun _ => .bind (Quiet.log _) fun _ => hlast
    exact Quiet.modifyStatus (by intro; exact ⟨rfl, rfl, rfl⟩)
  · exact .bind (Quiet.log _) fun _ => hlast

theorem quiet_offboardSignalFound (mode : OffboardControlMode) {c : App} :
    Preserves (Quiet c) (offboardSignalFound mode) := by
  have hlast : Preserves (Quiet c) (modifyStatus fun s => { s with
      offboardControlSignalWeak := false
      offboardControlSignalLost := false
      offboardControlSignalLostInterval := 0 }) :=
    Quiet.modifyStatus (by intro; exact ⟨rfl, rfl, rfl⟩)
  unfold offboardSignalFound
  refine Preserves.bind ?_ fun _ => Quiet.get.bind fun c₁ => ?_
  · exact Quiet.modifyStatus (by intro; exact ⟨rfl, rfl, rfl⟩)
  · refine .ite ?_ (Quiet.get.bind fun c₂ => .ite ?_ hlast)
    · refine Preserves.bind ?_ fun _ => .bind (Quiet.log _) fun _ => hlast
      exact Quiet.modifyStatus (by intro; exact ⟨rfl, rfl, rfl⟩)
    · exact .bind (Quiet.log _) fun _ => hlast

section

variable (clock : Nat → UInt64)

theorem quiet_rcSignalMissing (timestamp : UInt64) (again : Bool) {c : App} :
    Preserves (Quiet c) (rcSignalMissing clock timestamp again) := by
  unfold rcSignalMissing
  refine Quiet.get.bind fun c₁ => Quiet.complain (by intro; exact ⟨rfl, rfl, rfl⟩) ?_
  refine (Quiet.clock clock).bind fun now =>
    Preserves.bind ?_ fun _ => Quiet.get.bind fun c₂ => ?_
  · exact Quiet.modifyStatus (by intro; exact ⟨rfl, rfl, rfl⟩)
  · exact .ite (Quiet.modifyStatus (by intro; exact ⟨rfl, rfl, rfl⟩)) (.pure ())

theorem quiet_offboardSignalMissing (timestamp : UInt64) (again : Bool) {c : App} :
    Preserves (Quiet c) (offboardSignalMissing clock timestamp again) := by
  unfold offboardSignalMissing
  refine Quiet.get.bind fun c₁ => Quiet.complain (by intro; exact ⟨rfl, rfl, rfl⟩) ?_
  refine (Quiet.clock clock).bind fun now =>
    Preserves.bind ?_ fun _ => Quiet.get.bind fun c₂ => ?_
  · exact Quiet.modifyStatus (by intro; exact ⟨rfl, rfl, rfl⟩)
  · refine .ite ((Quiet.clock clock).bind fun start => ?_) (.pure ())
    exact Quiet.modifyStatus (by intro; exact ⟨rfl, rfl, rfl⟩)

/-- **The step lemma**: what the entry points keep by their parts, what quiet programs keep and the
publication keeps, every step of the app keeps. -/
theorem preserves_commander {I : App → Prop} (hI : KeptByParts clock I)
    (hquiet : ∀ c c', I c → Quiet c c' → I c') (hpublish : Preserves I (monitoringPublish clock))
    {c c' : App} {e : CommanderEvent} (hc : I c) (h : (commander clock).step c e c') : I c' := by
  cases e with
  | call entry => exact (preserves_exec hI entry).of_ok hc h
  | standby => exact (preserves_standbyWhenClean clock hI).of_ok hc h
  | rcFound => exact hquiet c c' hc (quiet_rcSignalFound.of_ok (.refl c) h)
  | rcMissing timestamp again =>
      exact hquiet c c' hc ((quiet_rcSignalMissing clock timestamp again).of_ok (.refl c) h)
  | offboardFound mode =>
      exact hquiet c c' hc ((quiet_offboardSignalFound mode).of_ok (.refl c) h)
  | offboardMissing timestamp again =>
      exact hquiet c c' hc ((quiet_offboardSignalMissing clock timestamp again).of_ok (.refl c) h)
  | publish => exact hpublish.of_ok hc h

theorem latestArmed_logs (sent : List Sent) (texts : List String) :
    latestArmed (sent ++ texts.map Sent.logCritical) = latestArmed sent := by
  have hnone : (texts.map Sent.logCritical).filterMap Sent.armed? = [] := by
    simp [List.filterMap_eq_nil_iff, Sent.armed?]
  unfold latestArmed
  rw [List.filterMap_append, hnone, List.append_nil]

/-- The armed flag stays coherent. -/
theorem commander_coherent {c : App} (h : (commander clock).Reachable c) : Coherent c := by
  refine h.invariant (I := Coherent) ?_ ?_
  · rintro c rfl
    exact ⟨rfl, nofun⟩
  · intro c e c' hc hstep
    refine preserves_commander clock (keptByParts_coherent clock) ?_ ?_ hc hstep
    · intro c c' hc hquiet
      obtain ⟨texts, htexts⟩ := hquiet.sent
      refine hc.congr hquiet.armed hquiet.state ?_
      rw [htexts, latestArmed_logs]
    · intro c hc
      have hpublished := (keptByParts_coherent clock).publishArmed
        { c with status := { c.status with
          counter := c.status.counter + 1
          timestamp := clock c.clockReads } } hc
      exact hpublished.congr rfl rfl (latestArmed_append _ (.vehicleStatus _))

end

end Px4Firmware.Commander
