import Mathlib.Data.List.Induction
import Px4Firmware.Waypoints.Effect

/-!
# Px4Firmware.Waypoints.Bounds

**When the waypoint storage stays inside its arrays.** The manager checks sequence
numbers against the announced count and never checks the count against the capacity,
so a run is safe exactly when no waypoint with a sequence number of 15 or more is
accepted (`storageSafe_iff`); it is safe in particular when no more than 15
waypoints are ever announced (`storageSafe_of_counts`).
-/

namespace Px4Firmware.Waypoints

open Px4Firmware.Lib

section

variable {F : Type} (env : Env F)

/-- The manager right after its storage is set up. -/
def initial (state : WpmStorage F) : Vehicle F :=
  { wpm := mavlinkWpmInit state, sent := [], clockReads := 0 }

/-- Process events one after the other. -/
def run (es : List (Event F)) : Exec F Unit := es.forM (process env)

theorem run_snoc (es : List (Event F)) (e : Event F) :
    run env (es ++ [e]) = run env es >>= fun _ => process env e := by
  simp [run]

/-- Every access to an array is in bounds and the active list fits, after every event. -/
def StorageSafe (es : List (Event F)) (v : Vehicle F) : Prop :=
  ∀ es₁ es₂, es = es₁ ++ es₂ → wp (run env es₁) (fun _ v' => Bounded v') v

/-- No event is an accepted waypoint without a place in the receive buffer. -/
def OverflowFree (es : List (Event F)) (v : Vehicle F) : Prop :=
  ∀ es₁ e es₂, es = es₁ ++ e :: es₂ → wp (run env es₁) (fun _ v' => ¬ overflows env e v') v

/-- A safe run comes to its end. -/
theorem StorageSafe.ends {env : Env F} {es : List (Event F)} {v : Vehicle F}
    (h : StorageSafe env es v) : ends (run env es) v = true :=
  (h es [] (List.append_nil es).symm).ends

theorem initial_bounded (state : WpmStorage F) : Bounded (initial state) := Nat.zero_le 15

/-- On such an event the manager leaves the receive buffer. -/
theorem process_overflows {e : Event F} {v : Vehicle F} (h : overflows env e v)
    (Q : Unit → Vehicle F → Prop) : ¬ wp (process env e) Q v := by
  intro hwp
  cases e with
  | tick => exact h
  | message m g l =>
      unfold process mavlinkWpmMessageHandler handlePayload at hwp
      cases hpay : m.payload with
      | missionItem item =>
          simp only [overflows, hpay] at h
          obtain ⟨⟨haddr, hrcv⟩, hle⟩ := h
          simp only [hpay, handleMissionItem, setLastaction, receiveItem, wp_bind,
            wp_getSystemTimestamp, wp_sendGcsString, wp_ite, wp_modifyWpm, wp_getWpm,
            wp_writeRcvWaypoint] at hwp
          obtain ⟨hindex, -⟩ := (hwp.1 haddr).1 hrcv
          omega
      | _ => simp only [overflows, hpay] at h

/-- **When the storage is safe**: for every run from the state that `mavlink_wpm_init`
sets up, all accesses are in bounds and the active list fits if and only if no
accepted waypoint has a sequence number beyond the capacity. -/
theorem storageSafe_iff (state : WpmStorage F) (es : List (Event F)) :
    StorageSafe env es (initial state) ↔ OverflowFree env es (initial state) := by
  constructor
  · intro hsafe es₁ e es₂ hes
    have hnext := hsafe (es₁ ++ [e]) es₂ (by rw [hes, List.append_assoc]; rfl)
    rw [run_snoc, wp_bind] at hnext
    exact hnext.mono fun _ v' hv' hover => process_overflows env hover _ hv'
  · intro hfree es₁
    induction es₁ using List.reverseRecOn with
    | nil => exact fun _ _ => initial_bounded state
    | append_singleton es₁ e ih =>
        intro es₂ hes
        rw [List.append_assoc] at hes
        have hbefore := ih _ hes
        have hin := hfree es₁ e es₂ hes
        rw [run_snoc, wp_bind]
        obtain ⟨_, v, hrun, hv⟩ := wp_iff.mp hbefore
        rw [wp_of_ok hrun] at hin ⊢
        exact (process_effect env hv hin).mono fun _ v' h => h.bounded hv

/-! ### A sufficient condition on the messages alone -/

/-- The count of a transfer to the vehicle fits into the receive buffer. -/
def CountFits (v : Vehicle F) : Prop :=
  ¬ v.wpm.currentState.notReceiving → v.wpm.currentCount.toNat ≤ maxWpCount

/-- Does the event announce no more waypoints than there is room for? -/
def announcesFitting : Event F → Prop
  | .message m _ _ =>
      match m.payload with
      | .missionCount _ _ count => count.toNat ≤ maxWpCount
      | _ => True
  | .tick .. => True

variable {env}

theorem notReceiving_idle : WpmState.idle.notReceiving := .inl rfl

theorem Effect.countFits {e : Event F} {v v' : Vehicle F} (h : Effect env e v v')
    (he : announcesFitting e) (hv : CountFits v) : CountFits v' := by
  intro hstate'
  cases h with
  | unchanged _ hsame =>
      rw [hsame.currentCount]
      exact hv (by rw [← hsame.currentState]; exact hstate')
  | timedOut _ hidle => exact absurd (hidle ▸ notReceiving_idle) hstate'
  | opened hpay _ _ _ _ hcnt =>
      simp only [announcesFitting, hpay] at he
      rw [hcnt]
      exact he
  | stored _ hstores hreceived =>
      rw [hreceived.currentCount]
      refine hv fun hstate => ?_
      rcases hstores.2 with ⟨hget, -⟩ | ⟨hget, -⟩ <;> rw [hget] at hstate <;>
        rcases hstate with h | h | h <;> cases h
  | completed _ _ _ _ hswitched =>
      exact absurd (hswitched.currentState ▸ notReceiving_idle) hstate'
  | served _ _ hsending => exact absurd hsending hstate'
  | cleared _ hidle => exact absurd (hidle ▸ notReceiving_idle) hstate'

/-- A fitting count leaves no room for an overflow. -/
theorem not_overflows {e : Event F} {v : Vehicle F} (hv : CountFits v) : ¬ overflows env e v := by
  intro h
  cases e with
  | tick => exact h
  | message m g l =>
      cases hpay : m.payload with
      | missionItem item =>
          simp only [overflows, hpay] at h
          obtain ⟨⟨-, ⟨-, hfirst⟩ | ⟨hget, -, hlt⟩⟩, hle⟩ := h
          · rw [hfirst] at hle
            exact absurd hle (by decide)
          · have hcount : v.wpm.currentCount.toNat ≤ maxWpCount := by
              refine hv fun hstate => ?_
              rw [hget] at hstate
              rcases hstate with h | h | h <;> cases h
            have hlt := UInt16.lt_iff_toNat_lt.mp hlt
            omega
      | _ => simp only [overflows, hpay] at h

variable (env)

/-- **A ground station that announces at most 15 waypoints keeps the storage safe**,
whatever else it and others send. -/
theorem storageSafe_of_counts (state : WpmStorage F) {es : List (Event F)}
    (hes : ∀ e ∈ es, announcesFitting e) : StorageSafe env es (initial state) := by
  have hrun : ∀ es₁ es₂, es = es₁ ++ es₂ →
      wp (run env es₁) (fun _ v => Bounded v ∧ CountFits v) (initial state) := by
    intro es₁
    induction es₁ using List.reverseRecOn with
    | nil => exact fun _ _ => ⟨initial_bounded state, fun h => absurd notReceiving_idle h⟩
    | append_singleton es₁ e ih =>
        intro es₂ hsplit
        have he : announcesFitting e := hes e (by rw [hsplit]; simp)
        rw [List.append_assoc] at hsplit
        rw [run_snoc, wp_bind]
        refine (ih _ hsplit).mono fun _ v ⟨hv, hcount⟩ => ?_
        exact (process_effect env hv (not_overflows hcount)).mono fun _ v' h =>
          ⟨h.bounded hv, h.countFits he hcount⟩
  exact fun es₁ es₂ hsplit => (hrun es₁ es₂ hsplit).mono fun _ _ h => h.1

end

/-! ### A run that leaves the receive buffer -/

/-- An arithmetic over one number. -/
def unitOps : FloatOps Unit :=
  { zero := (), minusOne := (), le := fun _ _ => false, ofInt32 := fun _ => (),
    globalDistance := fun _ _ _ _ => (), localDistance := fun _ _ _ _ _ _ => (),
    heldFor := fun _ _ => false }

/-- The vehicle with id 100, whose clock stands still. -/
def unitEnv : Env Unit := { ops := unitOps, sysid := 100, clock := fun _ => 0 }

/-- Waypoint `seq` of a list, addressed to that vehicle. -/
def unitItem (seq : UInt16) : MissionItem Unit :=
  { param1 := (), param2 := (), param3 := (), param4 := (), x := (), y := (), z := (),
    seq := seq, command := 16, targetSystem := 100, targetComponent := mavlinkWpmCompId,
    frame := 0, current := 0, autocontinue := 1 }

/-- Zeroed storage. -/
def unitStorage : WpmStorage Unit :=
  { waypoints := Vector.replicate _ (unitItem 0), rcvWaypoints := Vector.replicate _ (unitItem 0),
    size := 0, maxSize := 0, rcvSize := 0, currentState := .idle, currentWpId := 0,
    currentActiveWpId := 0, currentCount := 0, currentPartnerSysid := 0,
    currentPartnerCompid := 0, timestampLastaction := 0, timestampLastSendSetpoint := 0,
    timestampFirstinsideOrbit := 0, timestampLastoutsideOrbit := 0, timeout := 0,
    delaySetpoint := 0, yawReached := false, posReached := false, idle := false }

/-- A message from a station, at some position of the vehicle. -/
def unitEvent (sender : Station) (payload : Payload Unit) : Event Unit :=
  .message { sysid := sender.sysid, compid := sender.compid, payload := payload }
    { lat := 0, lon := 0, alt := (), relativeAlt := () } { x := (), y := (), z := () }

/-- The station that uploads. -/
def qgc : Station := ⟨255, 0⟩

/-- The upload of `count` waypoints from one station. -/
def upload (sender : Station) (count : Nat) : List (Event Unit) :=
  unitEvent sender (.missionCount 100 mavlinkWpmCompId (UInt16.ofNat count)) ::
    (List.range count).map fun i => unitEvent sender (.missionItem (unitItem (UInt16.ofNat i)))

/-- The upload of 16 waypoints writes past the end of the receive buffer. -/
theorem upload_overflows : ¬ StorageSafe unitEnv (upload qgc 16) (initial unitStorage) := by
  intro hsafe
  have hends := hsafe.ends
  have hfault : ends (run unitEnv (upload qgc 16)) (initial unitStorage) = false := by
    decide +kernel
  rw [hfault] at hends
  exact absurd hends (by decide)

end Px4Firmware.Waypoints
