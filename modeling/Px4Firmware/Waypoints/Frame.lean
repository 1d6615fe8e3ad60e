import Px4Firmware.Waypoints.Handler

/-!
# Px4Firmware.Waypoints.Frame

The rules for the primitives of the waypoint manager, and what its side work leaves
alone: sending, and going on to the next waypoint, change neither the state of a
transfer nor the waypoints, except for their `current` marks (`Unchanged`). That
side work also stays inside the arrays as long as the active list fits into its
array (`Bounded`).
-/

namespace Px4Firmware.Waypoints

open Px4Firmware.Lib

section

variable {F : Type} (env : Env F)

/-! ### The primitives -/

@[simp] theorem wp_getWpm (Q : WpmStorage F → Vehicle F → Prop) (v : Vehicle F) :
    wp getWpm Q v ↔ Q v.wpm v := Iff.rfl

@[simp] theorem wp_modifyWpm (f : WpmStorage F → WpmStorage F) (Q : Unit → Vehicle F → Prop)
    (v : Vehicle F) : wp (modifyWpm f) Q v ↔ Q () { v with wpm := f v.wpm } := Iff.rfl

@[simp] theorem wp_send (o : Output F) (Q : Unit → Vehicle F → Prop) (v : Vehicle F) :
    wp (send o) Q v ↔ Q () { v with sent := v.sent ++ [o] } := Iff.rfl

@[simp] theorem wp_sendGcsString (text : String) (Q : Unit → Vehicle F → Prop) (v : Vehicle F) :
    wp (sendGcsString text) Q v ↔ Q () { v with sent := v.sent ++ [.gcsString text] } := Iff.rfl

@[simp] theorem wp_sendMessage (p : Payload F) (Q : Unit → Vehicle F → Prop) (v : Vehicle F) :
    wp (sendMessage env p) Q v ↔
      Q () { v with sent := v.sent ++ [.message ⟨env.sysid, mavlinkWpmCompId, p⟩] } := Iff.rfl

@[simp] theorem wp_getSystemTimestamp (Q : UInt64 → Vehicle F → Prop) (v : Vehicle F) :
    wp (getSystemTimestamp env) Q v ↔
      Q (env.clock v.clockReads) { v with clockReads := v.clockReads + 1 } := Iff.rfl

@[simp] theorem wp_readWaypoint (i : Nat) (Q : MissionItem F → Vehicle F → Prop)
    (v : Vehicle F) :
    wp (readWaypoint i) Q v ↔ ∃ h : i < maxWpCount, Q (v.wpm.waypoints[i]) v := by
  unfold readWaypoint
  rw [wp_bind, wp_getWpm]
  exact wp_dite_throw ..

@[simp] theorem wp_readRcvWaypoint (i : Nat) (Q : MissionItem F → Vehicle F → Prop)
    (v : Vehicle F) :
    wp (readRcvWaypoint i) Q v ↔ ∃ h : i < maxWpCount, Q (v.wpm.rcvWaypoints[i]) v := by
  unfold readRcvWaypoint
  rw [wp_bind, wp_getWpm]
  exact wp_dite_throw ..

@[simp] theorem wp_writeWaypoint (i : Nat) (item : MissionItem F)
    (Q : Unit → Vehicle F → Prop) (v : Vehicle F) :
    wp (writeWaypoint i item) Q v ↔ ∃ h : i < maxWpCount,
      Q () { v with wpm := { v.wpm with waypoints := v.wpm.waypoints.set i item h } } := by
  unfold writeWaypoint
  exact wp_dite_throw ..

@[simp] theorem wp_writeRcvWaypoint (i : Nat) (item : MissionItem F)
    (Q : Unit → Vehicle F → Prop) (v : Vehicle F) :
    wp (writeRcvWaypoint i item) Q v ↔ ∃ h : i < maxWpCount,
      Q () { v with wpm := { v.wpm with rcvWaypoints := v.wpm.rcvWaypoints.set i item h } } := by
  unfold writeRcvWaypoint
  exact wp_dite_throw ..

@[simp] theorem wp_modifyWaypoint (i : Nat) (f : MissionItem F → MissionItem F)
    (Q : Unit → Vehicle F → Prop) (v : Vehicle F) :
    wp (modifyWaypoint i f) Q v ↔ ∃ h : i < maxWpCount,
      Q () { v with wpm := { v.wpm with
        waypoints := v.wpm.waypoints.set i (f v.wpm.waypoints[i]) h } } := by
  unfold modifyWaypoint
  rw [wp_bind, wp_readWaypoint]
  constructor
  · rintro ⟨h, hq⟩
    rw [wp_writeWaypoint] at hq
    exact hq
  · rintro ⟨h, hq⟩
    exact ⟨h, (wp_writeWaypoint ..).mpr ⟨h, hq⟩⟩

/-! ### What stays as it is -/

/-- A waypoint without its `current` mark. -/
def MissionItem.unmarked (item : MissionItem F) : MissionItem F := { item with current := 0 }

/-- The active list fits into its array. -/
def Bounded (v : Vehicle F) : Prop := v.wpm.size.toNat ≤ maxWpCount

/-- A complete transfer has been announced. -/
def Reported (v : Vehicle F) : Prop := Output.gcsString gotAllWps ∈ v.sent

/-- The active list is the same, except for its `current` marks. -/
structure ActiveKept (v v' : Vehicle F) : Prop where
  size : v'.wpm.size = v.wpm.size
  waypoints : ∀ k (h : k < maxWpCount),
    v'.wpm.waypoints[k].unmarked = v.wpm.waypoints[k].unmarked
  reported : Reported v' ↔ Reported v

/-- Both waypoint lists and the state of the transfer are the same. -/
structure Unchanged (v v' : Vehicle F) : Prop extends ActiveKept v v' where
  rcvWaypoints : v'.wpm.rcvWaypoints = v.wpm.rcvWaypoints
  currentState : v'.wpm.currentState = v.wpm.currentState
  currentWpId : v'.wpm.currentWpId = v.wpm.currentWpId
  currentCount : v'.wpm.currentCount = v.wpm.currentCount
  partner : v'.wpm.partner = v.wpm.partner

theorem ActiveKept.trans {v v' v'' : Vehicle F} (h : ActiveKept v v') (h' : ActiveKept v' v'') :
    ActiveKept v v'' where
  size := h'.size.trans h.size
  waypoints k hk := (h'.waypoints k hk).trans (h.waypoints k hk)
  reported := h'.reported.trans h.reported

theorem Unchanged.trans {v v' v'' : Vehicle F} (h : Unchanged v v') (h' : Unchanged v' v'') :
    Unchanged v v'' where
  toActiveKept := h.toActiveKept.trans h'.toActiveKept
  rcvWaypoints := h'.rcvWaypoints.trans h.rcvWaypoints
  currentState := h'.currentState.trans h.currentState
  currentWpId := h'.currentWpId.trans h.currentWpId
  currentCount := h'.currentCount.trans h.currentCount
  partner := h'.partner.trans h.partner

theorem Unchanged.refl (v : Vehicle F) : Unchanged v v :=
  ⟨⟨rfl, fun _ _ => rfl, Iff.rfl⟩, rfl, rfl, rfl, rfl, rfl⟩

theorem ActiveKept.bounded {v v' : Vehicle F} (h : ActiveKept v v') (hv : Bounded v) :
    Bounded v' := by
  unfold Bounded
  rw [h.size]
  exact hv

/-- Sending something other than the announcement. -/
theorem Reported.append {v v' : Vehicle F} {os : List (Output F)}
    (hsent : v'.sent = v.sent ++ os) (hos : Output.gcsString gotAllWps ∉ os) :
    Reported v' ↔ Reported v := by
  unfold Reported
  rw [hsent, List.mem_append]
  exact ⟨fun h => h.resolve_right hos, Or.inl⟩

/-- Nothing a transfer looks at is changed, and what is sent is not the announcement of a
complete transfer. -/
theorem Unchanged.of_sent {v v' : Vehicle F} (hwpm : Unchanged v { v with wpm := v'.wpm })
    (hsent : ∃ os, v'.sent = v.sent ++ os ∧ Output.gcsString gotAllWps ∉ os) :
    Unchanged v v' := by
  obtain ⟨os, hsent, hos⟩ := hsent
  exact ⟨⟨hwpm.size, hwpm.waypoints, Reported.append hsent hos⟩, hwpm.rcvWaypoints,
    hwpm.currentState, hwpm.currentWpId, hwpm.currentCount, hwpm.partner⟩

/-- Fields no transfer looks at. -/
theorem Unchanged.side (v : Vehicle F) {w : WpmStorage F}
    (h : { v.wpm with
      currentActiveWpId := w.currentActiveWpId
      timestampLastaction := w.timestampLastaction
      timestampLastSendSetpoint := w.timestampLastSendSetpoint
      timestampFirstinsideOrbit := w.timestampFirstinsideOrbit
      timestampLastoutsideOrbit := w.timestampLastoutsideOrbit
      rcvSize := w.rcvSize
      yawReached := w.yawReached
      posReached := w.posReached } = w) :
    Unchanged v { v with wpm := w } := by
  rw [← h]
  exact ⟨⟨rfl, fun _ _ => rfl, Iff.rfl⟩, rfl, rfl, rfl, rfl, rfl⟩

/-- What a write of an item keeps of the one that was there, it keeps of all. -/
theorem part_set {α : Type} (part : MissionItem F → α) (ws : Vector (MissionItem F) maxWpCount)
    {i : Nat} (hi : i < maxWpCount) {item : MissionItem F} (hitem : part item = part ws[i])
    (k : Nat) (hk : k < maxWpCount) : part (ws.set i item hi)[k] = part ws[k] := by
  rw [Vector.getElem_set]
  by_cases hik : i = k
  · subst hik
    rw [if_pos rfl, hitem]
  · rw [if_neg hik]

/-- A waypoint of the active list changes in its `current` mark only. -/
theorem Unchanged.mark (v : Vehicle F) {w : WpmStorage F} {i : Nat} (hi : i < maxWpCount)
    {item : MissionItem F} (hwpm : Unchanged v { v with wpm := { w with
      waypoints := v.wpm.waypoints } })
    (hw : w.waypoints = v.wpm.waypoints.set i item hi)
    (hitem : item.unmarked = v.wpm.waypoints[i].unmarked) :
    Unchanged v { v with wpm := w } := by
  refine ⟨⟨hwpm.size, fun k hk => ?_, hwpm.reported⟩, hwpm.rcvWaypoints, hwpm.currentState,
    hwpm.currentWpId, hwpm.currentCount, hwpm.partner⟩
  show w.waypoints[k].unmarked = _
  rw [show w.waypoints[k] = (v.wpm.waypoints.set i item hi)[k] from by simp only [hw]]
  exact part_set _ _ hi hitem k hk

/-! ### Sending and going on leave the transfer alone -/

theorem index_lt {v : Vehicle F} (hv : Bounded v) {seq : UInt16} (h : seq < v.wpm.size) :
    seq.toNat < maxWpCount :=
  Nat.lt_of_lt_of_le (UInt16.lt_iff_toNat_lt.mp h) hv

/-- Sending leaves the transfer and the active waypoint alone. -/
def SendsOnly (v v' : Vehicle F) : Prop :=
  Unchanged v v' ∧ v'.wpm.currentActiveWpId = v.wpm.currentActiveWpId

theorem sendWaypointCurrent_sendsOnly {v : Vehicle F} (hv : Bounded v) (seq : UInt16) :
    wp (sendWaypointCurrent env seq) (fun _ v' => SendsOnly v v') v := by
  unfold sendWaypointCurrent
  simp only [wp_bind, wp_getWpm, wp_ite, wp_readWaypoint, wp_sendMessage, wp_pure]
  refine ⟨fun h => ⟨index_lt hv h, ?_, rfl⟩, fun _ => ⟨.refl v, rfl⟩⟩
  exact .of_sent (.refl v) ⟨_, rfl, by simp⟩

theorem sendSetpoint_sendsOnly {v : Vehicle F} (hv : Bounded v) (seq : UInt16) :
    wp (sendSetpoint env seq) (fun _ v' => SendsOnly v v') v := by
  unfold sendSetpoint
  simp only [wp_bind, wp_getWpm, wp_ite, wp_readWaypoint, wp_send, wp_getSystemTimestamp,
    wp_modifyWpm, wp_pure]
  refine ⟨fun h => ⟨index_lt hv h, ?_, rfl⟩, fun _ => ⟨.refl v, rfl⟩⟩
  exact .of_sent (.side v rfl) ⟨_, rfl, by simp⟩

/-- Announcing the active waypoint: a current-waypoint message and a setpoint. -/
theorem announce_sendsOnly {v : Vehicle F} {seq : UInt16} {Q : Unit → Vehicle F → Prop}
    (hv : Bounded v) (hQ : ∀ v', SendsOnly v v' → Q () v') :
    wp (sendWaypointCurrent env seq) (fun _ v' =>
      wp (sendSetpoint env v'.wpm.currentActiveWpId) Q v') v := by
  refine (sendWaypointCurrent_sendsOnly env hv _).mono fun _ v' h => ?_
  refine (sendSetpoint_sendsOnly env (h.1.bounded hv) _).mono fun _ v'' h' => ?_
  exact hQ v'' ⟨h.1.trans h'.1, h'.2.trans h.2⟩

theorem distanceInFrame_unchanged {v : Vehicle F} (hv : Bounded v) (frame : UInt8)
    (seq : UInt16) (globalPos : GlobalPosition F) (localPos : LocalPosition F) :
    wp (distanceInFrame env frame seq globalPos localPos) (fun _ v' => v' = v) v := by
  unfold distanceInFrame distanceToPointGlobalWgs84 distanceToPointLocal
  simp only [wp_bind, wp_getWpm, wp_ite, wp_readWaypoint, wp_pure, exists_prop, and_true,
    implies_true]
  exact ⟨fun _ => index_lt hv, fun _ => ⟨fun _ => index_lt hv, fun _ _ => index_lt hv⟩⟩

theorem updatePosReached_unchanged {v : Vehicle F} (hv : Bounded v)
    (globalPos : GlobalPosition F) (localPos : LocalPosition F) :
    wp (updatePosReached env globalPos localPos) (fun _ v' => Unchanged v v') v := by
  unfold updatePosReached
  simp only [wp_bind, wp_getWpm, wp_ite, wp_readWaypoint, wp_pure, wp_modifyWpm]
  refine ⟨fun h => ⟨index_lt hv h, ?_⟩, fun _ => .refl v⟩
  refine (distanceInFrame_unchanged env hv _ _ globalPos localPos).mono ?_
  rintro dist _ rfl
  exact ⟨fun _ => .side _ rfl, fun _ => .refl _⟩

/-- The next active waypoint is in the list. -/
theorem nextActiveWpId_lt {w : WpmStorage F} (h : w.currentActiveWpId < w.size) :
    nextActiveWpId w < w.size := by
  unfold nextActiveWpId
  by_cases hlast : (w.currentActiveWpId.toNat : Int) = (w.size.toNat : Int) - 1 ∧ w.size > 1
  · rw [if_pos hlast]
    exact hlast.2
  · rw [if_neg hlast]
    by_cases hnext : w.currentActiveWpId + 1 < w.size
    · rw [if_pos hnext]
      exact hnext
    · rw [if_neg hnext]
      exact h

theorem advanceWaypoint_unchanged {v : Vehicle F} (hv : Bounded v)
    (h : v.wpm.currentActiveWpId < v.wpm.size) :
    wp (advanceWaypoint env) (fun _ v' => Unchanged v v') v := by
  unfold advanceWaypoint
  simp only [wp_bind, wp_getWpm, wp_modifyWaypoint, wp_modifyWpm]
  have hi := index_lt hv h
  refine ⟨hi, ?_⟩
  refine announce_sendsOnly env hv fun v' hv' => ?_
  have hid : v'.wpm.currentActiveWpId.toNat < maxWpCount := by
    rw [hv'.2]
    exact index_lt hv (nextActiveWpId_lt h)
  refine ⟨hid, ?_⟩
  refine Unchanged.trans (Unchanged.trans ?_ hv'.1) ?_
  · exact .mark v hi (.side v rfl) rfl rfl
  · exact .mark v' hid (.side v' rfl) rfl rfl

theorem announceReached_sendsOnly (now : UInt64) (seq : UInt16) (v : Vehicle F) :
    wp (announceReached env now seq) (fun _ v' => SendsOnly v v') v := by
  unfold announceReached sendWaypointReached
  simp only [wp_bind, wp_getWpm, wp_ite, wp_pure, wp_sendMessage, wp_modifyWpm]
  refine ⟨fun _ => ⟨?_, rfl⟩, fun _ => ⟨.refl v, rfl⟩⟩
  exact .of_sent (.side v rfl) ⟨_, rfl, by simp⟩

theorem continueMission_unchanged {v : Vehicle F} (hv : Bounded v) (now : UInt64) :
    wp (continueMission env now) (fun _ v' => Unchanged v v') v := by
  unfold continueMission
  simp only [wp_bind, wp_getWpm, wp_ite, wp_readWaypoint, wp_pure]
  refine ⟨fun h => ⟨index_lt hv h, ?_⟩, fun _ => .refl v⟩
  refine (announceReached_sendsOnly env now _ v).mono fun _ v' hv' => ?_
  have hactive : v'.wpm.currentActiveWpId < v'.wpm.size := by
    rw [hv'.2, hv'.1.size]
    exact h
  refine ⟨fun _ => ⟨fun _ => ?_, fun _ => hv'.1⟩, fun _ => hv'.1⟩
  exact (advanceWaypoint_unchanged env (hv'.1.bounded hv) hactive).mono fun _ _ h' =>
    hv'.1.trans h'

/-- **Going on to the next waypoint leaves every transfer alone.** -/
theorem checkWaypointsReached_unchanged {v : Vehicle F} (hv : Bounded v) (now : UInt64)
    (globalPos : GlobalPosition F) (localPos : LocalPosition F) :
    wp (checkWaypointsReached env now globalPos localPos) (fun _ v' => Unchanged v v') v := by
  unfold checkWaypointsReached
  rw [wp_bind]
  refine (updatePosReached_unchanged env hv globalPos localPos).mono fun _ v' hv' => ?_
  simp only [wp_bind, wp_getWpm, wp_ite, wp_modifyWpm]
  refine ⟨fun _ => ?_, fun _ => hv'.trans (.side v' rfl)⟩
  exact (continueMission_unchanged env (hv'.bounded hv) now).mono fun _ _ h => hv'.trans h

end

end Px4Firmware.Waypoints
