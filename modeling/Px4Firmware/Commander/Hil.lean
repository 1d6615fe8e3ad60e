import Px4Firmware.Commander.Monitoring

/-!
# Px4Firmware.Commander.Hil

**Hardware in the loop locks the actuators.** The flag of HIL is never cleared, and what is
published about arming while it is set has the lockdown set: this holds in every run, because the
entry points and the main loop keep it with each thing they send (`SendLaw`).

A mode request with the flags of HIL and of arming, made in standby, arms first and is then no
longer in standby, so HIL stays off. The vehicle is armed for real, if not at once, then as soon as
there is a signal. `hil_lock_out` says that the runs that obey the law are those in which no such
request is made before HIL is enabled.
-/

namespace Px4Firmware.Commander

open Px4Firmware.Lib

/-! ### The law and its condition -/

/-- The publication of `vehicle_status`, if it is one. -/
def Sent.status? : Sent → Option VehicleStatus
  | vehicleStatus s => some s
  | _ => none

/-- Has the status that was published last the flag of HIL? -/
def hilPublished (sent : List Sent) : Bool :=
  (sent.filterMap Sent.status?).getLast?.any fun s => s.flagHilEnabled

/-- The app as long as the vehicle is armed. -/
def whileArmed (clock : Nat → UInt64) : LTS App CommanderEvent :=
  (commander clock).restrict fun c _ => c.status.flagSystemArmed = true

/-- The law, for a step. A publication of the armed flag counts as made while HIL is enabled when
the status published before it says so, or when HIL was enabled before the step. What a request
leads to is the state after it and all later states, for as long as the vehicle stays armed. -/
structure HilLockOut (clock : Nat → UInt64) (c : App) (e : CommanderEvent) (c' : App) : Prop where
  stays : c.status.flagHilEnabled = true → c'.status.flagHilEnabled = true
  locked : ∀ before a, before ++ [.actuatorArmed a] <+: c'.sent →
    hilPublished before = true ∨
      c.status.flagHilEnabled = true ∧ c.sent.length ≤ before.length → a.lockdown = true
  request : ∀ mode, e = .call (.modeRequest mode) →
    hasFlag mode vehicleModeFlagHilEnabled = true → c.status.stateMachine = .standby →
    ∀ es later, (whileArmed clock).Run c' es later →
      (armedStatus later.status).armed = true → (armedStatus later.status).lockdown = true

/-- The condition on a step: no request for HIL and arming at once, in standby and with HIL off. -/
def HilCareful (c : App) : CommanderEvent → Prop
  | .call (.modeRequest mode) =>
      hasFlag mode vehicleModeFlagHilEnabled = true →
        hasFlag mode vehicleModeFlagSafetyArmed = true → c.status.stateMachine = .standby →
        c.status.flagHilEnabled = true
  | _ => True

instance (c : App) (e : CommanderEvent) : Decidable (HilCareful c e) := by
  unfold HilCareful
  split <;> infer_instance

/-! ### What is sent -/

/-- A law about what is sent and the flag of HIL, kept by whatever the app does. -/
structure SendLaw (Q : List Sent → Bool → Prop) : Prop where
  log : ∀ sent hil text, Q sent hil → Q (sent ++ [.logCritical text]) hil
  status : ∀ sent s, Q sent s.flagHilEnabled → Q (sent ++ [.vehicleStatus s]) s.flagHilEnabled
  armed : ∀ sent s, Q sent s.flagHilEnabled →
    Q (sent ++ [.actuatorArmed (armedStatus s)]) s.flagHilEnabled
  enable : ∀ sent hil, Q sent hil → Q sent true

/-- With HIL enabled, the lockdown is set. -/
theorem armedStatus_lockdown {s : VehicleStatus} (h : s.flagHilEnabled = true) :
    (armedStatus s).lockdown = true := by
  simp [armedStatus, h]

namespace SendLaw

variable {Q : List Sent → Bool → Prop} (hQ : SendLaw Q)

include hQ

theorem logs {sent : List Sent} {hil : Bool} (h : Q sent hil) (texts : List String) :
    Q (sent ++ texts.map Sent.logCritical) hil := by
  induction texts generalizing sent with
  | nil =>
      rw [List.map_nil, List.append_nil]
      exact h
  | cons text texts ih =>
      rw [List.map_cons, List.append_cons]
      exact ih (hQ.log _ _ _ h)

/-- The publications of an accepted transition. -/
theorem committed (clock : Nat → UInt64) {c : App} (h : Q c.sent c.status.flagHilEnabled)
    (new : CommanderState) :
    Q (committed clock c new).sent (committed clock c new).status.flagHilEnabled := by
  have hstatus := hQ.status c.sent (Commander.committed clock c new).status h
  exact hQ.armed _ _ (hQ.armed _ _ hstatus)

theorem keptByParts (clock : Nat → UInt64) :
    KeptByParts clock fun c => Q c.sent c.status.flagHilEnabled where
  update new hreboot haccepts c hc := by
    have hannounced : ∀ new, Q (announced c new).sent (announced c new).status.flagHilEnabled :=
      fun new => hQ.log _ _ _ hc
    have hprepared :
        Q (prepared clock c new).sent (prepared clock c new).status.flagHilEnabled := by
      cases new with
      | missionAbort => exact hQ.committed clock (hannounced _) _
      | _ => exact hannounced _
    unfold outcome
    rw [doStateUpdate_accepted clock (haccepts _) hreboot]
    exact hQ.committed clock hprepared new
  publish c hc := hQ.status c.sent { c.status with
    counter := c.status.counter + 1
    timestamp := clock c.clockReads } hc
  publishArmed c hc := hQ.armed _ c.status (hQ.armed _ c.status hc)
  mode _ _ hc := hc
  hil _ hc := hQ.enable _ _ hc

/-- The law is kept by every step of the app. -/
theorem step (clock : Nat → UInt64) {c c' : App} {e : CommanderEvent}
    (hc : Q c.sent c.status.flagHilEnabled) (h : (commander clock).step c e c') :
    Q c'.sent c'.status.flagHilEnabled := by
  refine preserves_commander clock (hQ.keptByParts clock) ?_ ?_ hc h
  · intro c c' hc hquiet
    obtain ⟨texts, htexts⟩ := hquiet.sent
    rw [htexts, hquiet.hil]
    exact hQ.logs hc texts
  · intro c hc
    let s : VehicleStatus := { c.status with
      counter := c.status.counter + 1
      timestamp := clock c.clockReads }
    exact hQ.status _ s (hQ.armed _ s (hQ.armed _ s hc))

end SendLaw

/-! ### The two laws -/

theorem hilPublished_append (sent : List Sent) (e : Sent) :
    hilPublished (sent ++ [e]) =
      (e.status?.map VehicleStatus.flagHilEnabled).getD (hilPublished sent) := by
  unfold hilPublished
  rw [List.filterMap_append]
  cases e <;> simp [Sent.status?]

/-- Once the published status has the flag of HIL, what is published about arming is locked. -/
def HilLocked (sent : List Sent) : Prop :=
  ∀ before a, before ++ [.actuatorArmed a] <+: sent → hilPublished before = true → a.lockdown = true

theorem HilLocked.append {sent : List Sent} {e : Sent} (h : HilLocked sent)
    (he : ∀ a, e = .actuatorArmed a → hilPublished sent = true → a.lockdown = true) :
    HilLocked (sent ++ [e]) := by
  intro before a hprefix hhil
  rcases List.prefix_concat_iff.mp hprefix with heq | hprefix
  · obtain ⟨rfl, hlast⟩ := List.append_inj' heq rfl
    cases hlast
    exact he a rfl hhil
  · exact h before a hprefix hhil

theorem sendLaw_hilLocked :
    SendLaw fun sent hil => HilLocked sent ∧ (hilPublished sent = true → hil = true) where
  log sent hil text := by
    rintro ⟨hlocked, hpublished⟩
    refine ⟨hlocked.append nofun, ?_⟩
    rw [hilPublished_append]
    exact hpublished
  status sent s := by
    rintro ⟨hlocked, hpublished⟩
    refine ⟨hlocked.append nofun, ?_⟩
    rw [hilPublished_append]
    exact id
  armed sent s := by
    rintro ⟨hlocked, hpublished⟩
    refine ⟨hlocked.append ?_, ?_⟩
    · rintro a ⟨⟩ hhil
      exact armedStatus_lockdown (hpublished hhil)
    · rw [hilPublished_append]
      exact hpublished
  enable sent hil h := ⟨h.1, fun _ => rfl⟩

/-- Everything about arming that was sent since then is locked, and HIL is enabled. -/
def LockedSince (start : List Sent) (sent : List Sent) (hil : Bool) : Prop :=
  hil = true ∧ ∃ new, sent = start ++ new ∧ ∀ a, .actuatorArmed a ∈ new → a.lockdown = true

theorem LockedSince.append {start sent : List Sent} {hil : Bool} {e : Sent}
    (h : LockedSince start sent hil)
    (he : ∀ a, e = .actuatorArmed a → hil = true → a.lockdown = true) :
    LockedSince start (sent ++ [e]) hil := by
  obtain ⟨hhil, new, rfl, hnew⟩ := h
  refine ⟨hhil, new ++ [e], List.append_assoc .., ?_⟩
  intro a ha
  rcases List.mem_append.mp ha with ha | ha
  · exact hnew a ha
  · exact he a (List.mem_singleton.mp ha).symm hhil

theorem sendLaw_lockedSince (start : List Sent) : SendLaw (LockedSince start) where
  log _ _ _ h := h.append nofun
  status _ _ h := h.append nofun
  armed _ _ h := h.append fun | _, rfl, hhil => armedStatus_lockdown hhil
  enable _ _ h := ⟨rfl, h.2⟩

/-! ### Mode requests in standby -/

section

variable (clock : Nat → UInt64)

theorem armOnRequest_standby {c : App} {mode : UInt8} (ret : UInt8)
    (hstate : c.status.stateMachine = .standby) (harmed : c.status.flagSystemArmed = false)
    (hmode : hasFlag mode vehicleModeFlagSafetyArmed = true) :
    armOnRequest clock mode ret c =
      .ok 0 (committed clock (announced c .groundReady) .groundReady) := by
  unfold armOnRequest
  simp only [get_bind_apply]
  rw [if_pos (by simp [harmed, hmode])]
  simp only [get_bind_apply]
  rw [if_pos (Or.inl hstate)]
  rfl

theorem armOnRequest_of_not {c : App} {mode : UInt8} (ret : UInt8)
    (hmode : hasFlag mode vehicleModeFlagSafetyArmed = false) :
    armOnRequest clock mode ret c = .ok ret c := by
  unfold armOnRequest
  rw [get_bind_apply, if_neg (by simp [hmode])]
  rfl

theorem disarmOnRequest_of_flag {c : App} {mode : UInt8} (ret : UInt8)
    (hmode : hasFlag mode vehicleModeFlagSafetyArmed = true) :
    disarmOnRequest clock mode ret c = .ok ret c := by
  unfold disarmOnRequest
  rw [get_bind_apply, if_neg (by simp [hmode])]
  rfl

theorem disarmOnRequest_of_disarmed {c : App} {mode : UInt8} (ret : UInt8)
    (harmed : c.status.flagSystemArmed = false) :
    disarmOnRequest clock mode ret c = .ok ret c := by
  unfold disarmOnRequest
  rw [get_bind_apply, if_neg (by simp [harmed])]
  rfl

theorem enableHilOnRequest_of_ne {c : App} {mode : UInt8} (ret : UInt8)
    (hstate : c.status.stateMachine ≠ .standby) :
    enableHilOnRequest clock mode ret c = .ok ret c := by
  unfold enableHilOnRequest
  simp only [get_bind_apply]
  rw [if_neg fun h => hstate h.1]
  rfl

/-- Enabling HIL does not concern the armed flag. -/
theorem enableHilOnRequest_armed (mode ret : UInt8) (armed : Bool) :
    Preserves (fun c => c.status.flagSystemArmed = armed) (enableHilOnRequest clock mode ret) := by
  refine .get_bind fun c hc => ?_
  refine Preserves.ite ?_ (.pure ret) c hc
  exact fun c hc => hc

theorem denyHilOff_keeps (mode ret : UInt8) (c : App) :
    Preserves (fun c' => c' = c) (denyHilOff mode ret) :=
  .get_bind fun c' hc' => Preserves.ite (.pure 255) (.pure ret) c' hc'

/-- In standby, a request with the flag of arming arms and does nothing else. -/
theorem modeRequest_arms {c c' : App} {mode : UInt8}
    (hstate : c.status.stateMachine = .standby) (harmed : c.status.flagSystemArmed = false)
    (hmode : hasFlag mode vehicleModeFlagSafetyArmed = true)
    (h : (commander clock).step c (.call (.modeRequest mode)) c') :
    c' = committed clock (announced c .groundReady) .groundReady := by
  let armed := committed clock (announced c .groundReady) .groundReady
  have hne : armed.status.stateMachine ≠ .standby := fun heq => by cases heq
  have hrun : outcome (updateStateMachineModeRequest clock mode) (fun _ c' => c' = armed)
      (fun _ _ => True) c := by
    unfold updateStateMachineModeRequest
    rw [outcome_bind, outcome_of_ok (armOnRequest_standby clock 1 hstate harmed hmode),
      outcome_bind, outcome_of_ok (disarmOnRequest_of_flag clock 0 hmode),
      outcome_bind, outcome_of_ok (enableHilOnRequest_of_ne clock 0 hne)]
    exact denyHilOff_keeps mode 0 armed armed rfl
  exact hrun.of_discard h

/-- In standby, a request without the flag of arming leaves the vehicle disarmed. -/
theorem modeRequest_disarmed {c c' : App} {mode : UInt8}
    (harmed : c.status.flagSystemArmed = false)
    (hmode : hasFlag mode vehicleModeFlagSafetyArmed = false)
    (h : (commander clock).step c (.call (.modeRequest mode)) c') :
    c'.status.flagSystemArmed = false := by
  have hrun : outcome (updateStateMachineModeRequest clock mode)
      (fun _ c' => c'.status.flagSystemArmed = false) (fun _ _ => True) c := by
    unfold updateStateMachineModeRequest
    rw [outcome_bind, outcome_of_ok (armOnRequest_of_not clock 1 hmode),
      outcome_bind, outcome_of_ok (disarmOnRequest_of_disarmed clock 1 harmed), outcome_bind]
    refine (enableHilOnRequest_armed clock mode 1 false c harmed).mono ?_ fun _ _ h => h
    intro ret c₁ harmed
    refine (denyHilOff_keeps mode ret c₁ c₁ rfl).mono ?_ fun _ _ h => h
    rintro ret c₂ rfl
    exact harmed
  exact hrun.of_discard h

/-! ### The lock-out -/

/-- What is published about arming is locked, in every run. -/
theorem HilLocked.reachable {c : App} (h : (commander clock).Reachable c) :
    HilLocked c.sent ∧ (hilPublished c.sent = true → c.status.flagHilEnabled = true) := by
  refine h.invariant (I := fun c => HilLocked c.sent ∧
    (hilPublished c.sent = true → c.status.flagHilEnabled = true)) ?_ ?_
  · rintro c rfl
    refine ⟨?_, nofun⟩
    intro before a hprefix
    have hnil := List.prefix_nil.mp hprefix
    simp at hnil
  · intro c e c' hc hstep
    exact sendLaw_hilLocked.step clock hc hstep

/-- HIL is never switched off. -/
theorem hilEnabled_of_run {c c' : App} {es : List CommanderEvent}
    (h : (commander clock).Run c es c') (hhil : c.status.flagHilEnabled = true) :
    c'.status.flagHilEnabled = true := by
  refine h.invariant (I := fun c => c.status.flagHilEnabled = true) ?_ hhil
  intro c e c' hhil hstep
  exact ((sendLaw_lockedSince c.sent).step clock
        ⟨hhil, [], (List.append_nil _).symm, nofun⟩ hstep).1

/-- The signal of the RC receiver is found, and nothing changes about arming and HIL. -/
theorem rcFound_step (c : App) : ∃ c', (commander clock).step c .rcFound c' ∧
    c'.status.rcSignalLost = false ∧ c'.status.flagSystemArmed = c.status.flagSystemArmed ∧
      c'.status.flagHilEnabled = c.status.flagHilEnabled := by
  have hends : ∃ c', rcSignalFound c = .ok () c' ∧ c'.status.rcSignalLost = false := by
    unfold rcSignalFound
    simp only [get_bind_apply]
    by_cases hfirst : c.status.rcSignalFoundOnce = false
    · rw [if_pos hfirst]
      exact ⟨_, rfl, rfl⟩
    · rw [if_neg hfirst]
      by_cases hlost : c.status.rcSignalLost = true
      · simp only [get_bind_apply, if_pos hlost]
        exact ⟨_, rfl, rfl⟩
      · simp only [get_bind_apply, if_neg hlost]
        exact ⟨_, rfl, rfl⟩
  obtain ⟨c', hstep, hfound⟩ := hends
  have hquiet : Quiet c c' := quiet_rcSignalFound.of_ok (.refl c) hstep
  exact ⟨c', hstep, hfound, hquiet.armed, hquiet.hil⟩

/-- A vehicle that is armed with HIL off loses its lockdown when there is a signal. -/
theorem unlocked_later {c : App} (harmed : c.status.flagSystemArmed = true)
    (hhil : c.status.flagHilEnabled = false) : ∃ es later, (whileArmed clock).Run c es later ∧
      (armedStatus later.status).armed = true ∧ (armedStatus later.status).lockdown = false := by
  obtain ⟨c', hstep, hfound, harmed', hhil'⟩ := rcFound_step clock c
  refine ⟨[.rcFound], c', .cons ⟨harmed, hstep⟩ (.nil c'), harmed'.trans harmed, ?_⟩
  simp [armedStatus, hfound, hhil', hhil]

/-- In standby a request with both flags leads to a vehicle that is armed without lockdown at some
time exactly when HIL was off before. -/
theorem request_careful_iff {c c' : App} {mode : UInt8} (hcoherent : Coherent c)
    (hstate : c.status.stateMachine = .standby)
    (h : (commander clock).step c (.call (.modeRequest mode)) c') :
    (∀ es later, (whileArmed clock).Run c' es later →
        (armedStatus later.status).armed = true → (armedStatus later.status).lockdown = true) ↔
      (hasFlag mode vehicleModeFlagSafetyArmed = true → c.status.flagHilEnabled = true) := by
  have harmed : c.status.flagSystemArmed = false := by
    rw [hcoherent.1, hstate]
    rfl
  cases hmode : hasFlag mode vehicleModeFlagSafetyArmed with
  | true =>
      constructor
      · intro hlaw _
        by_contra hhil
        obtain rfl := modeRequest_arms clock hstate harmed hmode h
        obtain ⟨es, later, hrun, harmed', hunlocked⟩ :=
          unlocked_later clock (c := committed clock (announced c .groundReady) .groundReady) rfl
            (Bool.eq_false_iff.mpr hhil)
        rw [hlaw es later hrun harmed'] at hunlocked
        cases hunlocked
      · intro hcareful es later hrun _
        have hrun' : (commander clock).Run c (.call (.modeRequest mode) :: es) later :=
          .cons h hrun.of_restrict
        exact armedStatus_lockdown (hilEnabled_of_run clock hrun' (hcareful rfl))
  | false =>
      have hoff : c'.status.flagSystemArmed = false := modeRequest_disarmed clock harmed hmode h
      refine ⟨fun _ => nofun, fun _ es later hrun harmed' => ?_⟩
      -- The vehicle is not armed, so it does not stay armed either.
      cases hrun with
      | nil =>
          rw [show (armedStatus c'.status).armed = false from hoff] at harmed'
          cases harmed'
      | cons hstep _ =>
          have hstays : c'.status.flagSystemArmed = true := hstep.1
          rw [hoff] at hstays
          cases hstays

/-- **The step lemma**: a step of a run obeys the law exactly when it meets the condition. -/
theorem hilLockOut_iff {c c' : App} {e : CommanderEvent} (hc : (commander clock).Reachable c)
    (h : (commander clock).step c e c') : HilLockOut clock c e c' ↔ HilCareful c e := by
  constructor
  · intro hlaw
    unfold HilCareful
    split
    · next mode =>
        intro hhil hmode hstate
        have hrequest := hlaw.request mode rfl hhil hstate
        exact (request_careful_iff clock (commander_coherent clock hc) hstate h).mp hrequest hmode
    · trivial
  · intro hcareful
    have hsince (hhil : c.status.flagHilEnabled = true) :
        LockedSince c.sent c'.sent c'.status.flagHilEnabled :=
      (sendLaw_lockedSince c.sent).step clock ⟨hhil, [], (List.append_nil _).symm, nofun⟩ h
    refine ⟨fun hhil => (hsince hhil).1, ?_, ?_⟩
    · rintro before a hprefix (hhil | ⟨hhil, hlength⟩)
      · exact (HilLocked.reachable clock (hc.step h)).1 before a hprefix hhil
      · obtain ⟨new, hnew, hlocked⟩ := (hsince hhil).2
        refine hlocked a ?_
        rw [hnew] at hprefix
        obtain ⟨mid, rfl⟩ := List.prefix_of_prefix_length_le (List.prefix_append _ _)
          ((List.prefix_append before _).trans hprefix) hlength
        rw [List.append_assoc, List.prefix_append_right_inj] at hprefix
        exact hprefix.subset (by simp)
    · rintro mode rfl hhil hstate
      refine (request_careful_iff clock (commander_coherent clock hc) hstate h).mpr ?_
      exact fun hmode => hcareful hhil hmode hstate

/-- **HIL locks the actuators.** In every run of the commander, HIL stays enabled, what is published
about arming meanwhile is locked, and no request for HIL in standby leads to a vehicle that is armed
without lockdown, then or later, exactly when no request for HIL and arming at once is made in
standby with HIL off. -/
theorem hil_lock_out {c c' : App} {es : List CommanderEvent} (hinit : (commander clock).init c) :
    ((commander clock).obeying (HilLockOut clock)).Run c es c' ↔
      ((commander clock).restrict HilCareful).Run c es c' := by
  refine LTS.run_obeying_iff ?_ hinit
  intro c e c' hc hstep
  exact hilLockOut_iff clock hc.of_restrict hstep

end

/-- A position fix, a request for HIL, and then one for HIL and arming at once: all locked. -/
theorem hil_lock_out_simulation :
    ∃ c, ((commander fun _ => 0).obeying (HilLockOut fun _ => 0)).Run initialCommander
        [.rcFound, .call .gotPositionFix, .call (.modeRequest 0x20), .call (.modeRequest 0xA0),
          .publish] c ∧
      c.status.flagSystemArmed = true ∧ c.status.flagHilEnabled = true := by
  let next (c : App) (e : CommanderEvent) : Option App :=
    if HilCareful c e then CommanderEvent.next (fun _ => 0) c e else none
  let events : List CommanderEvent :=
    [.rcFound, .call .gotPositionFix, .call (.modeRequest 0x20), .call (.modeRequest 0xA0),
      .publish]
  obtain ⟨c, hc⟩ := Option.isSome_iff_exists.mp
    (show (events.foldlM next initialCommander).isSome = true by decide)
  have hflags : ∀ c ∈ events.foldlM next initialCommander,
      c.status.flagSystemArmed = true ∧ c.status.flagHilEnabled = true := by decide
  have hrun : ((commander fun _ => 0).restrict HilCareful).Run initialCommander events c :=
    LTS.Run.restrict_of_foldlM (fun _ _ _ => CommanderEvent.step_of_next _) hc
  exact ⟨c, (hil_lock_out _ rfl).mpr hrun, hflags c hc⟩

/-- With the RC signal there, a request for HIL and arming at once arms for real. -/
theorem hil_arms : ¬ ∀ c e c', (commander fun _ => 0).Reachable c →
    (commander fun _ => 0).step c e c' → HilLockOut (fun _ => 0) c e c' := by
  intro hlaw
  let next (c : App) (e : CommanderEvent) : Option App := CommanderEvent.next (fun _ => 0) c e
  let events : List CommanderEvent := [.rcFound, .call .gotPositionFix]
  obtain ⟨c, hc⟩ := Option.isSome_iff_exists.mp
    (show (events.foldlM next initialCommander).isSome = true by decide)
  have hstandby : ∀ c ∈ events.foldlM next initialCommander,
      c.status.stateMachine = .standby := by decide
  have harms : ∀ c ∈ events.foldlM next initialCommander,
      ∃ c' ∈ next c (.call (.modeRequest 0xA0)),
        (armedStatus c'.status).armed = true ∧ (armedStatus c'.status).lockdown = false := by decide
  obtain ⟨c', hc', harmed, hlockdown⟩ := harms c hc
  have hreach : (commander fun _ => 0).Reachable c :=
    ⟨initialCommander, events, rfl,
      LTS.Run.of_foldlM (fun _ _ _ => CommanderEvent.step_of_next _) hc⟩
  have hstep := hlaw c (.call (.modeRequest 0xA0)) c' hreach (CommanderEvent.step_of_next _ hc')
  have hlocked := hstep.request 0xA0 rfl (by decide) (hstandby c hc) [] c' (.nil c') harmed
  rw [hlockdown] at hlocked
  cases hlocked

end Px4Firmware.Commander
