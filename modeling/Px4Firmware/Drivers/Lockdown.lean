import Px4Firmware.Commander.Monitoring

/-!
# Px4Firmware.Drivers.Lockdown

**The lockdown and the actuators.** The commander publishes whether the vehicle is armed and whether
the actuators are locked down; the FMU servo task and the AR.Drone interface follow the topic. The
AR.Drone interface drives its motors only when armed and not locked down. The servo task looks at
the armed flag alone, so a publication that is armed and locked down starts its timers.

`lockdown_honoured` says that this is the only way in which an output is on although its driver has
seen a lockdown.
-/

namespace Px4Firmware.Drivers

open Px4Firmware.Lib Px4Firmware.Commander

/-! ### The FMU servo task -/

/-- The PWM servo outputs: the enable bit of the timer, which is the only one configured, and the
compare registers of its channels. -/
structure Servos where
  enabled : Bool
  compare : List UInt16

/-- `up_pwm_servo_arm`. -/
def Servos.upPwmServoArm (armed : Bool) (servos : Servos) : Servos :=
  { servos with enabled := armed }

/-- `up_pwm_servo_set`. -/
def Servos.upPwmServoSet (servos : Servos) (channel : Nat) (value : UInt16) : Servos :=
  { servos with compare := servos.compare.set channel (if 0 < value then value - 1 else value) }

/-- Set the servos to the mixed and scaled controls. -/
def Servos.iterateActuators (servos : Servos) (outputs : List UInt16) : Servos :=
  outputs.zipIdx.foldl (fun servos (value, channel) => servos.upPwmServoSet channel value) servos

/-- An iteration of `FMUServo::task_main`: what to do with a control update, and what with an arming
update. -/
def Servos.taskMain (servos : Servos) (outputs : Option (List UInt16)) (aa : Option ActuatorArmed) :
    Servos :=
  let mixed := match outputs with
    | some outputs => servos.iterateActuators outputs
    | none => servos
  match aa with
  | some aa => mixed.upPwmServoArm aa.armed
  | none => mixed

/-! ### The AR.Drone interface -/

/-- The commands of the four motors. -/
structure Motors where
  motor1 : UInt16
  motor2 : UInt16
  motor3 : UInt16
  motor4 : UInt16
  deriving DecidableEq

/-- All motors off. -/
def Motors.zero : Motors := ⟨0, 0, 0, 0⟩

/-- The interface: its arguments, its local copy of `actuator_armed`, and the commands that were
written last. -/
structure ArDrone where
  motorTestMode : Bool
  testMotor : Int
  armed : ActuatorArmed
  motors : Motors

/-- `min_motor_interval`. -/
def minMotorInterval : UInt64 := 4900

/-- `last_motor_time`, which is never written. -/
def lastMotorTime : UInt64 := 0

/-- `ardrone_write_motor_commands`. -/
def ArDrone.writeMotorCommands (ardrone : ArDrone) (now : UInt64) (motors : Motors) : ArDrone :=
  if minMotorInterval < now - lastMotorTime then { ardrone with motors := motors } else ardrone

/-- The commands of the motor test. -/
def testMotors (testMotor : Int) : Motors :=
  if testMotor = 1 then ⟨10, 0, 0, 0⟩
  else if testMotor = 2 then ⟨0, 10, 0, 0⟩
  else if testMotor = 3 then ⟨0, 0, 10, 0⟩
  else if testMotor = 4 then ⟨0, 0, 0, 10⟩
  else ⟨10, 10, 10, 10⟩

/-- An iteration of the loop of `ardrone_interface_thread_main`. `published` is what is there to be
copied, if anything was published; `mixed` is what `ardrone_mixing_and_output` makes of the
controls. -/
def ArDrone.loop (ardrone : ArDrone) (now : UInt64) (published : Option ActuatorArmed)
    (mixed : Motors) : ArDrone :=
  if ardrone.motorTestMode then
    ardrone.writeMotorCommands now (testMotors ardrone.testMotor)
  else
    let armed := published.getD ardrone.armed
    let ardrone := { ardrone with armed := armed }
    if armed.armed && !armed.lockdown then
      ardrone.writeMotorCommands now mixed
    else
      ardrone.writeMotorCommands now .zero

/-! ### The vehicle -/

/-- The commander, how much of what it sends has been published, and the two drivers. -/
structure Vehicle where
  app : App
  published : Nat
  servos : Servos
  ardrone : ArDrone

/-- What `actuator_armed` holds, if it has been published. -/
def Vehicle.actuatorArmed (v : Vehicle) : Option ActuatorArmed :=
  latestArmed (v.app.sent.take v.published)

/-- What happens next: something in the commander, the next publication of what it sends, or an
iteration of a driver. -/
inductive Event
  | commander (e : CommanderEvent)
  | publish
  | fmu (outputs : Option (List UInt16)) (updated : Bool)
  | ardrone (now : UInt64) (mixed : Motors)

/-- The publication that the servo task processes: `poll` reports an update of the topic. -/
def Event.fmuProcesses (v : Vehicle) : Event → Option ActuatorArmed
  | fmu _ true => v.actuatorArmed
  | _ => none

/-- The publication that the AR.Drone interface processes, outside of its motor test. -/
def Event.ardroneProcesses (v : Vehicle) : Event → Option ActuatorArmed
  | ardrone _ _ => if v.ardrone.motorTestMode then none else v.actuatorArmed
  | _ => none

section

variable (clock : Nat → UInt64)

/-- The next state. The commander goes on when its publications are out. The loop of the AR.Drone
interface starts when the motors are initialised, which takes more than a second. -/
def Vehicle.next (v : Vehicle) (e : Event) : Option Vehicle :=
  match e with
  | .commander event =>
      if v.published = v.app.sent.length then
        (event.next clock v.app).map fun app => { v with app := app }
      else
        none
  | .publish =>
      if v.published < v.app.sent.length then some { v with published := v.published + 1 } else none
  | .fmu outputs _ =>
      some { v with servos := v.servos.taskMain outputs (e.fmuProcesses v) }
  | .ardrone now mixed =>
      if 1000000 < now then
        some { v with ardrone := v.ardrone.loop now v.actuatorArmed mixed }
      else
        none

/-- The vehicle as a transition system. It starts with a new commander, the servo timer disabled and
the motors off. -/
def vehicle : LTS Vehicle Event where
  init v := v.app = initialCommander ∧ v.published = 0 ∧ v.servos.enabled = false ∧
    v.ardrone.armed.armed = false ∧ v.ardrone.motors = .zero
  step v e v' := v.next clock e = some v'

end

/-! ### The law and its condition -/

/-- Has a driver seen a lockdown, and since then nothing that arms without lockdown? This is how a
publication that it processes changes it. -/
def seesLockdown (locked : Bool) : Option ActuatorArmed → Bool
  | none => locked
  | some a => if a.lockdown then true else if a.armed then false else locked

/-- Which of the drivers are locked down. -/
structure Locked where
  fmu : Bool
  ardrone : Bool

/-- Watch what the drivers process. -/
def Locked.watch (locked : Locked) (v : Vehicle) (e : Event) (_ : Vehicle) : Locked where
  fmu := seesLockdown locked.fmu (e.fmuProcesses v)
  ardrone := seesLockdown locked.ardrone (e.ardroneProcesses v)

/-- The vehicle, with the drivers that are locked down. -/
def lockdowns (clock : Nat → UInt64) : LTS (Vehicle × Locked) Event :=
  (vehicle clock).observe ⟨false, false⟩ Locked.watch

/-- The law: the outputs of a driver that is locked down are off. -/
def OutputsOff (p : Vehicle × Locked) : Prop :=
  (p.2.fmu = true → p.1.servos.enabled = false) ∧
    (p.2.ardrone = true → p.1.ardrone.motors = .zero)

/-- The condition: the servo task processes no publication that is armed and locked down. -/
def LockdownCareful (p : Vehicle × Locked) (e : Event) : Prop :=
  ∀ a ∈ e.fmuProcesses p.1, a.armed = true → a.lockdown = false

instance (p : Vehicle × Locked) (e : Event) : Decidable (LockdownCareful p e) := by
  unfold LockdownCareful
  infer_instance

/-! ### The servo task -/

@[simp] theorem iterateActuators_enabled (servos : Servos) (outputs : List UInt16) :
    (servos.iterateActuators outputs).enabled = servos.enabled := by
  unfold Servos.iterateActuators
  generalize outputs.zipIdx = l
  induction l generalizing servos with
  | nil => rfl
  | cons p l ih =>
      rw [List.foldl_cons, ih]
      rfl

/-- The timer follows the armed flag alone. -/
theorem taskMain_enabled (servos : Servos) (outputs : Option (List UInt16))
    (aa : Option ActuatorArmed) :
    (servos.taskMain outputs aa).enabled = (aa.map ActuatorArmed.armed).getD servos.enabled := by
  cases aa with
  | some aa => rfl
  | none =>
      cases outputs with
      | none => rfl
      | some outputs => exact iterateActuators_enabled servos outputs

/-- An iteration of the servo task obeys the law exactly when it processes no publication that is
armed and locked down. -/
theorem fmu_off_iff {servos : Servos} {locked : Bool} (h : locked = true → servos.enabled = false)
    (outputs : Option (List UInt16)) (aa : Option ActuatorArmed) :
    (seesLockdown locked aa = true → (servos.taskMain outputs aa).enabled = false) ↔
      ∀ a ∈ aa, a.armed = true → a.lockdown = false := by
  rw [taskMain_enabled]
  cases aa with
  | none => simpa [seesLockdown] using h
  | some a =>
      obtain ⟨armed, lockdown⟩ := a
      cases armed <;> cases lockdown <;> simp [seesLockdown]

/-! ### The AR.Drone interface -/

/-- What the interface keeps while it is locked down. -/
structure ArDroneOff (ardrone : ArDrone) : Prop where
  operating : ardrone.motorTestMode = false
  stopped : (ardrone.armed.armed && !ardrone.armed.lockdown) = false
  motors : ardrone.motors = .zero

/-- After the initialisation, the commands are written. -/
theorem writeMotorCommands_eq (ardrone : ArDrone) {now : UInt64} (h : 1000000 < now)
    (motors : Motors) :
    ardrone.writeMotorCommands now motors = { ardrone with motors := motors } := by
  have htime : minMotorInterval < now - lastMotorTime := by
    unfold minMotorInterval lastMotorTime
    rw [UInt64.sub_zero]
    exact UInt64.lt_trans (by decide) h
  exact if_pos htime

/-- An iteration of the interface obeys the law. -/
theorem ardroneOff_loop {ardrone : ArDrone} {locked : Bool}
    (h : locked = true → ArDroneOff ardrone) {now : UInt64} (hnow : 1000000 < now)
    (published : Option ActuatorArmed) (mixed : Motors)
    (hlocked : seesLockdown locked (if ardrone.motorTestMode then none else published) = true) :
    ArDroneOff (ardrone.loop now published mixed) := by
  cases hmode : ardrone.motorTestMode with
  | true =>
      rw [hmode] at hlocked
      have hoff := h hlocked
      rw [hoff.operating] at hmode
      cases hmode
  | false =>
      rw [hmode] at hlocked
      have hstopped : ((published.getD ardrone.armed).armed &&
          !(published.getD ardrone.armed).lockdown) = false := by
        cases published with
        | none => exact (h hlocked).stopped
        | some a =>
            obtain ⟨armed, lockdown⟩ := a
            cases armed <;> cases lockdown <;> simp_all [seesLockdown]
      unfold ArDrone.loop
      simp only [hmode, hstopped, Bool.false_eq_true, if_false]
      rw [writeMotorCommands_eq _ hnow]
      exact ⟨rfl, hstopped, rfl⟩

/-! ### The law -/

/-- The invariant: as the law, and the interface stays off. -/
structure LockdownInv (p : Vehicle × Locked) : Prop where
  fmu : p.2.fmu = true → p.1.servos.enabled = false
  ardrone : p.2.ardrone = true → ArDroneOff p.1.ardrone

theorem LockdownInv.outputsOff {p : Vehicle × Locked} (h : LockdownInv p) : OutputsOff p :=
  ⟨h.fmu, fun hlocked => (h.ardrone hlocked).motors⟩

section

variable {clock : Nat → UInt64}

/-- What a step does to the two drivers: nothing, or an iteration of one of them. -/
theorem next_cases {v v' : Vehicle} {e : Event} (h : v.next clock e = some v') :
    (e.fmuProcesses v = none ∧ e.ardroneProcesses v = none ∧
        v'.servos = v.servos ∧ v'.ardrone = v.ardrone) ∨
      (∃ outputs updated, e = .fmu outputs updated ∧ v'.ardrone = v.ardrone ∧
        v'.servos = v.servos.taskMain outputs (e.fmuProcesses v)) ∨
      (∃ now mixed, e = .ardrone now mixed ∧ 1000000 < now ∧ v'.servos = v.servos ∧
        v'.ardrone = v.ardrone.loop now v.actuatorArmed mixed) := by
  cases e with
  | commander event =>
      left
      simp only [Vehicle.next] at h
      split at h
      · next hpublished =>
          obtain ⟨app, -, rfl⟩ := Option.map_eq_some_iff.mp h
          exact ⟨rfl, rfl, rfl, rfl⟩
      · cases h
  | publish =>
      left
      simp only [Vehicle.next] at h
      split at h
      · cases h
        exact ⟨rfl, rfl, rfl, rfl⟩
      · cases h
  | fmu outputs updated =>
      cases h
      exact .inr (.inl ⟨outputs, updated, rfl, rfl, rfl⟩)
  | ardrone now mixed =>
      simp only [Vehicle.next] at h
      split at h
      · next hnow =>
          cases h
          exact .inr (.inr ⟨now, mixed, rfl, hnow, rfl, rfl⟩)
      · cases h

/-- **The step lemma**: a step obeys the law exactly when it is careful, and then keeps the
invariant. -/
theorem lockdown_step {p p' : Vehicle × Locked} {e : Event} (hp : LockdownInv p)
    (h : (lockdowns clock).step p e p') :
    (OutputsOff p' ↔ LockdownCareful p e) ∧ (LockdownCareful p e → LockdownInv p') := by
  obtain ⟨v, locked⟩ := p
  obtain ⟨v', locked'⟩ := p'
  obtain ⟨hnext, hwatch⟩ := h
  obtain rfl : locked' = locked.watch v e v' := hwatch
  have hinv (hcareful : LockdownCareful (v, locked) e) :
      LockdownInv (v', locked.watch v e v') := by
    obtain ⟨hfmu, hardrone⟩ := hp
    rcases next_cases hnext with ⟨hnone, hnone', hservos, hdrone⟩ |
      ⟨outputs, updated, rfl, hdrone, hservos⟩ | ⟨now, mixed, rfl, hnow, hservos, hdrone⟩
    · refine ⟨?_, ?_⟩
      · show seesLockdown locked.fmu (e.fmuProcesses v) = true → v'.servos.enabled = false
        rw [hservos, hnone]
        exact hfmu
      · show seesLockdown locked.ardrone (e.ardroneProcesses v) = true → ArDroneOff v'.ardrone
        rw [hdrone, hnone']
        exact hardrone
    · refine ⟨?_, ?_⟩
      · show _ → v'.servos.enabled = false
        rw [hservos]
        exact (fmu_off_iff hfmu outputs _).mpr hcareful
      · show _ → ArDroneOff v'.ardrone
        rw [hdrone]
        exact hardrone
    · refine ⟨?_, ?_⟩
      · show _ → v'.servos.enabled = false
        rw [hservos]
        exact hfmu
      · intro hlocked
        show ArDroneOff v'.ardrone
        rw [hdrone]
        exact ardroneOff_loop hardrone hnow _ _ hlocked
  refine ⟨⟨?_, fun hcareful => (hinv hcareful).outputsOff⟩, hinv⟩
  intro hoff
  rcases next_cases hnext with ⟨hnone, -⟩ | ⟨outputs, updated, rfl, -, hservos⟩ | ⟨_, _, rfl, -⟩
  · intro a ha
    rw [hnone] at ha
    cases ha
  · have hfmu := hoff.1
    rw [hservos] at hfmu
    exact (fmu_off_iff hp.fmu outputs _).mp hfmu
  · nofun

theorem LockdownInv.reachable {p : Vehicle × Locked}
    (h : ((lockdowns clock).restrict LockdownCareful).Reachable p) : LockdownInv p := by
  refine h.invariant ?_ ?_
  · rintro ⟨v, locked⟩ ⟨-, rfl⟩
    exact ⟨nofun, nofun⟩
  · intro p e p' hp hstep
    exact (lockdown_step hp hstep.2).2 hstep.1

/-- **The lockdown reaches the actuators.** In every run of the commander and the two drivers, the
outputs of a driver that has processed a lockdown are off until it processes a publication that arms
without lockdown, exactly when the servo task processes no publication that is armed and locked
down. -/
theorem lockdown_honoured {p p' : Vehicle × Locked} {es : List Event}
    (hinit : (lockdowns clock).init p) :
    ((lockdowns clock).obeying fun _ _ p' => OutputsOff p').Run p es p' ↔
      ((lockdowns clock).restrict LockdownCareful).Run p es p' := by
  refine LTS.run_obeying_iff ?_ hinit
  intro p e p' hp hstep
  exact (lockdown_step (LockdownInv.reachable hp) hstep).1

end

/-- A vehicle that has just started. -/
def startVehicle : Vehicle where
  app := initialCommander
  published := 0
  servos := { enabled := false, compare := [999, 999, 999, 999] }
  ardrone :=
    { motorTestMode := false, testMotor := -1, armed := ⟨false, false⟩, motors := .zero }

/-- The next state, watched. -/
def nextWatched (p : Vehicle × Locked) (e : Event) : Option (Vehicle × Locked) :=
  (p.1.next (fun _ => 0) e).map fun v => (v, p.2.watch p.1 e v)

theorem step_of_nextWatched {p p' : Vehicle × Locked} {e : Event} (h : nextWatched p e = some p') :
    (lockdowns fun _ => 0).step p e p' := by
  obtain ⟨v, hv, rfl⟩ := Option.map_eq_some_iff.mp h
  exact ⟨hv, rfl⟩

/-- A call of an entry point, and its publications. -/
def called (entry : Update) (publications : Nat) : List Event :=
  .commander (.call entry) :: List.replicate publications .publish

/-- Both drivers see the disarmed vehicle, and the AR.Drone interface then the armed one: both are
locked down, and off. -/
theorem lockdown_honoured_ardrone :
    ∃ p, ((lockdowns fun _ => 0).obeying fun _ _ p' => OutputsOff p').Run
        (startVehicle, ⟨false, false⟩)
        (called .gotPositionFix 4 ++ [.fmu none true] ++ called .arm 4 ++
          [.ardrone 2000000 ⟨300, 300, 300, 300⟩]) p ∧
      p.2.fmu = true ∧ p.2.ardrone = true := by
  let events : List Event := called .gotPositionFix 4 ++ [.fmu none true] ++ called .arm 4 ++
    [.ardrone 2000000 ⟨300, 300, 300, 300⟩]
  let start : Vehicle × Locked := (startVehicle, ⟨false, false⟩)
  obtain ⟨p, hp⟩ := Option.isSome_iff_exists.mp
    (show (events.foldlM (fun p e => if LockdownCareful p e then nextWatched p e else none)
      start).isSome = true by decide)
  have hlocked : ∀ p ∈ events.foldlM
      (fun p e => if LockdownCareful p e then nextWatched p e else none) start,
      p.2.fmu = true ∧ p.2.ardrone = true := by decide
  have hrun : ((lockdowns fun _ => 0).restrict LockdownCareful).Run start events p :=
    LTS.Run.restrict_of_foldlM (fun _ _ _ => step_of_nextWatched) hp
  exact ⟨p, (lockdown_honoured ⟨⟨rfl, rfl, rfl, rfl, rfl⟩, rfl⟩).mpr hrun, hlocked p hp⟩

/-- Both signals are lost and the vehicle is armed: the servo task processes the publication, and
its timer runs. -/
theorem servos_ignore_lockdown :
    ¬ ∀ p, (lockdowns fun _ => 0).Reachable p → OutputsOff p := by
  intro hlaw
  let events : List Event := called .gotPositionFix 4 ++ called .arm 4 ++ [.fmu none true]
  let start : Vehicle × Locked := (startVehicle, ⟨false, false⟩)
  obtain ⟨p, hp⟩ := Option.isSome_iff_exists.mp
    (show (events.foldlM nextWatched start).isSome = true by decide)
  have hon : ∀ p ∈ events.foldlM nextWatched start,
      p.2.fmu = true ∧ p.1.servos.enabled = true := by decide
  have hreach : (lockdowns fun _ => 0).Reachable p :=
    ⟨start, events, ⟨⟨rfl, rfl, rfl, rfl, rfl⟩, rfl⟩,
      LTS.Run.of_foldlM (fun _ _ _ => step_of_nextWatched) hp⟩
  have hoff := (hlaw p hreach).1 (hon p hp).1
  rw [(hon p hp).2] at hoff
  cases hoff

end Px4Firmware.Drivers
