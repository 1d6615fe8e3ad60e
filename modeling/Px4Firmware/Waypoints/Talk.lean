import Px4Firmware.Waypoints.Isolation

/-!
# Px4Firmware.Waypoints.Talk

**What the manager says, and what saying it leaves alone.** Most of what the manager sends is talk:
texts, requests, acknowledgements, setpoints. Talk touches neither the list nor the active waypoint,
and it contains no answer to a ground station that fetches the list (`Talks`). The answers are the
count and the waypoints (`Answer`).
-/

namespace Px4Firmware.Waypoints

open Px4Firmware.Lib

section

variable {F : Type} (env : Env F)

/-- What a ground station that fetches the list is told. -/
inductive Answer (F : Type)
  | count (receiver : Station) (count : UInt16)
  | item (receiver : Station) (content : MissionItem F)
  deriving DecidableEq

/-- The station a waypoint is addressed to. -/
def MissionItem.receiver (item : MissionItem F) : Station :=
  ⟨item.targetSystem, item.targetComponent⟩

/-- The answer that is sent, if it is one. -/
def answer? : Output F → Option (Answer F)
  | .message m =>
      match m.payload with
      | .missionCount targetSystem targetComponent count =>
          some (.count ⟨targetSystem, targetComponent⟩ count)
      | .missionItem item => some (.item item.receiver item.content)
      | _ => none
  | _ => none

/-- The answers among what was sent. -/
def answers (sent : List (Output F)) : List (Answer F) := sent.filterMap answer?

/-- Nothing but talk happens. -/
structure Talks (v v' : Vehicle F) : Prop where
  waypoints : v'.wpm.waypoints = v.wpm.waypoints
  size : v'.wpm.size = v.wpm.size
  active : v'.wpm.currentActiveWpId = v.wpm.currentActiveWpId
  answers : answers v'.sent = answers v.sent

variable {env} {v v' v'' : Vehicle F}

theorem Talks.refl (v : Vehicle F) : Talks v v := ⟨rfl, rfl, rfl, rfl⟩

theorem Talks.trans (h : Talks v v') (h' : Talks v' v'') : Talks v v'' where
  waypoints := h'.waypoints.trans h.waypoints
  size := h'.size.trans h.size
  active := h'.active.trans h.active
  answers := h'.answers.trans h.answers

theorem Talks.bounded (h : Talks v v') (hv : Bounded v) : Bounded v' := by
  unfold Bounded
  rw [h.size]
  exact hv

theorem answers_append (sent : List (Output F)) (o : Output F) :
    answers (sent ++ [o]) = answers sent ++ (answer? o).toList := by
  unfold answers
  rw [List.filterMap_append]
  cases h : answer? o <;> simp [h]

/-- What is no answer may be said. -/
theorem answers_talk {sent : List (Output F)} {o : Output F} (h : answer? o = none) :
    answers (sent ++ [o]) = answers sent := by
  rw [answers_append, h]
  exact List.append_nil _

variable (env)

theorem sendWaypointCurrent_talks (hv : Bounded v) (seq : UInt16) :
    wp (sendWaypointCurrent env seq) (fun _ v' => Talks v v') v := by
  unfold sendWaypointCurrent
  simp only [wp_bind, wp_getWpm, wp_ite, wp_readWaypoint, wp_sendMessage, wp_pure]
  exact ⟨fun h => ⟨index_lt hv h, rfl, rfl, rfl, answers_talk rfl⟩, fun _ => .refl v⟩

theorem sendSetpoint_talks (hv : Bounded v) (seq : UInt16) :
    wp (sendSetpoint env seq) (fun _ v' => Talks v v') v := by
  unfold sendSetpoint
  simp only [wp_bind, wp_getWpm, wp_ite, wp_readWaypoint, wp_send, wp_getSystemTimestamp,
    wp_modifyWpm, wp_pure]
  exact ⟨fun h => ⟨index_lt hv h, rfl, rfl, rfl, answers_talk rfl⟩, fun _ => .refl v⟩

/-- A new active waypoint is announced. -/
theorem announce_talks {seq : UInt16} {Q : Unit → Vehicle F → Prop} (hv : Bounded v)
    (hQ : ∀ v', Talks v v' → Q () v') :
    wp (sendWaypointCurrent env seq) (fun _ v' =>
      wp (sendSetpoint env v'.wpm.currentActiveWpId) Q v') v := by
  refine (sendWaypointCurrent_talks env hv seq).mono fun _ v' h => ?_
  refine (sendSetpoint_talks env (h.bounded hv) _).mono fun _ v'' h' => ?_
  exact hQ v'' (h.trans h')

theorem announceReached_talks (now : UInt64) (seq : UInt16) (v : Vehicle F) :
    wp (announceReached env now seq) (fun _ v' => Talks v v') v := by
  unfold announceReached sendWaypointReached
  simp only [wp_bind, wp_getWpm, wp_ite, wp_pure, wp_sendMessage, wp_modifyWpm]
  exact ⟨fun _ => ⟨rfl, rfl, rfl, answers_talk rfl⟩, fun _ => .refl v⟩

theorem updatePosReached_talks (hv : Bounded v) (globalPos : GlobalPosition F)
    (localPos : LocalPosition F) :
    wp (updatePosReached env globalPos localPos) (fun _ v' => Talks v v') v := by
  unfold updatePosReached
  simp only [wp_bind, wp_getWpm, wp_ite, wp_readWaypoint, wp_pure, wp_modifyWpm]
  refine ⟨fun h => ⟨index_lt hv h, ?_⟩, fun _ => .refl v⟩
  refine (distanceInFrame_unchanged env hv _ _ globalPos localPos).mono ?_
  rintro dist _ rfl
  exact ⟨fun _ => ⟨rfl, rfl, rfl, rfl⟩, fun _ => .refl _⟩

theorem sendGcsStringIf_talks (c : Prop) [Decidable c] (text : String) (v : Vehicle F) :
    wp (sendGcsStringIf c text) (fun _ v' => Talks v v' ∧ v'.wpm = v.wpm) v := by
  unfold sendGcsStringIf
  rw [wp_ite, wp_sendGcsString]
  exact ⟨fun _ => ⟨⟨rfl, rfl, rfl, answers_talk rfl⟩, rfl⟩, fun _ => ⟨.refl v, rfl⟩⟩

/-- A request is served: some texts are sent, and then the waypoint. -/
theorem serveRequest_talks {seq : UInt16} {Q : Unit → Vehicle F → Prop}
    (h : ∀ v', Talks v v' → v'.wpm = v.wpm → wp (sendWaypoint env seq) Q
      { v' with wpm := { v'.wpm with currentState := .sendlistSendwps, currentWpId := seq } }) :
    wp (serveRequest env seq) Q v := by
  unfold serveRequest
  simp only [wp_bind, wp_getWpm]
  refine (sendGcsStringIf_talks _ _ v).mono fun _ v₁ h₁ => ?_
  refine (sendGcsStringIf_talks _ _ v₁).mono fun _ v₂ h₂ => ?_
  refine (sendGcsStringIf_talks _ _ v₂).mono fun _ v₃ h₃ => ?_
  rw [wp_modifyWpm]
  exact h v₃ ((h₁.1.trans h₂.1).trans h₃.1) ((h₃.2.trans h₂.2).trans h₁.2)

theorem sendWaypointRequest_talks (seq : UInt16) (v : Vehicle F) :
    wp (sendWaypointRequest env seq) (fun _ v' => Talks v v') v := by
  unfold sendWaypointRequest
  simp only [wp_bind, wp_getWpm, wp_ite, wp_sendMessage, wp_pure]
  exact ⟨fun _ => ⟨rfl, rfl, rfl, answers_talk rfl⟩, fun _ => .refl v⟩

theorem sendWaypointAck_talks (type : UInt8) (v : Vehicle F) :
    wp (sendWaypointAck env type) (fun _ v' => Talks v v') v := by
  unfold sendWaypointAck
  simp only [wp_bind, wp_getWpm, wp_sendMessage]
  exact ⟨rfl, rfl, rfl, answers_talk rfl⟩

/-! ### Going on to the next waypoint answers nobody -/

theorem advanceWaypoint_answers (hv : Bounded v) (h : v.wpm.currentActiveWpId < v.wpm.size) :
    wp (advanceWaypoint env) (fun _ v' => answers v'.sent = answers v.sent) v := by
  unfold advanceWaypoint
  simp only [wp_bind, wp_getWpm, wp_modifyWaypoint, wp_modifyWpm]
  refine ⟨index_lt hv h, announce_talks env hv fun v' hv' => ⟨?_, hv'.answers⟩⟩
  rw [hv'.active]
  exact index_lt hv (nextActiveWpId_lt h)

theorem checkWaypointsReached_answers (hv : Bounded v) (now : UInt64)
    (globalPos : GlobalPosition F) (localPos : LocalPosition F) :
    wp (checkWaypointsReached env now globalPos localPos)
      (fun _ v' => answers v'.sent = answers v.sent) v := by
  unfold checkWaypointsReached
  rw [wp_bind]
  refine (updatePosReached_talks env hv globalPos localPos).mono fun _ v₁ h₁ => ?_
  unfold continueMission
  simp only [wp_bind, wp_getWpm, wp_ite, wp_readWaypoint, wp_modifyWpm, wp_pure]
  refine ⟨fun _ => ⟨fun hactive => ⟨index_lt (h₁.bounded hv) hactive, ?_⟩, fun _ => h₁.answers⟩,
    fun _ => h₁.answers⟩
  refine (announceReached_talks env now _ v₁).mono fun _ v₂ h₂ => ?_
  have htalk := h₁.trans h₂
  refine ⟨fun _ => ⟨fun _ => ?_, fun _ => htalk.answers⟩, fun _ => htalk.answers⟩
  refine (advanceWaypoint_answers env (htalk.bounded hv) ?_).mono fun _ _ h =>
    h.trans htalk.answers
  rw [h₂.active, h₂.size]
  exact hactive

end

end Px4Firmware.Waypoints
