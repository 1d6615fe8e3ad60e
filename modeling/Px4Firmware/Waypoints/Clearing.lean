import Px4Firmware.Lib.Relational
import Px4Firmware.Waypoints.Replies

/-!
# Px4Firmware.Waypoints.Clearing

**Clearing the mission.** Two messages do it: MISSION_CLEAR_ALL, and a MISSION_COUNT of 0, which
announces an empty mission. Both leave no active waypoint, and the first one sets the size of the
list to 0. The second one sets the count of the receive buffer instead.

The count of the receive buffer does not matter: no run sees it (`run_blind`). So the two messages
do the same exactly to a list that is empty already (`count_zero_clears_iff`). The runs are compared
side by side, with what each of them says from then on.
-/

namespace Px4Firmware.Waypoints

open Px4Firmware.Lib

section

variable {F : Type}

/-! ### What a run does not see -/

/-- Another count of the receive buffer. -/
abbrev setRcvSize (n : UInt16) (w : WpmStorage F) : WpmStorage F := { w with rcvSize := n }

/-- Another active waypoint as well. -/
abbrev setRcvSizeActive (k : UInt16 × UInt16) (w : WpmStorage F) : WpmStorage F :=
  { w with rcvSize := k.1, currentActiveWpId := k.2 }

/-- Two vehicles that have said the same since the one had said `before` and the other `before'`. -/
def SaidSame (before before' : List (Output F)) (v v' : Vehicle F) : Prop :=
  ∃ os, v.sent = before ++ os ∧ v'.sent = before' ++ os

/-- Two vehicles that differ in one kind of change of the storage, and in what they had said. -/
structure Alike {κ : Type} (change : κ → WpmStorage F → WpmStorage F)
    (before before' : List (Output F)) (v v' : Vehicle F) : Prop where
  wpm : ∃ k, v'.wpm = change k v.wpm
  clockReads : v'.clockReads = v.clockReads
  said : SaidSame before before' v v'

/-- Two calls side by side: from vehicles that differ in a change of the first kind they lead to
vehicles that differ in one of the second kind, and say the same. -/
def Like {α κ κ' : Type} (change : κ → WpmStorage F → WpmStorage F)
    (change' : κ' → WpmStorage F → WpmStorage F) (x y : Exec F α) : Prop :=
  ∀ before before', Relates (SaidSame before before') (Alike change before before')
    (Alike change' before before') x y

/-- A call that does not see the count of the receive buffer. -/
def Blind {α : Type} (x : Exec F α) : Prop := Like setRcvSize setRcvSize x x

namespace Like

variable {α β κ κ' κ'' : Type} {change : κ → WpmStorage F → WpmStorage F}
  {change' : κ' → WpmStorage F → WpmStorage F} {change'' : κ'' → WpmStorage F → WpmStorage F}

theorem pure (a : α) : Like change change (Pure.pure a : Exec F α) (Pure.pure a) :=
  fun _ _ => .pure a

theorem throw (fault : Fault) :
    Like change change' (MonadExcept.throw fault : Exec F α) (MonadExcept.throw fault) :=
  fun _ _ => .throw (fun _ _ h => h.said) fault

theorem bind {x y : Exec F α} {f g : α → Exec F β} (hx : Like change change' x y)
    (hf : ∀ a, Like change' change'' (f a) (g a)) : Like change change'' (x >>= f) (y >>= g) :=
  fun before before' => (hx before before').bind fun a => hf a before before'

theorem ite {c : Prop} [Decidable c] {x x' y y' : Exec F α} (hx : Like change change' x x')
    (hy : Like change change' y y') :
    Like change change' (if c then x else y) (if c then x' else y') :=
  fun before before' => (hx before before').ite (hy before before')

theorem dite {c : Prop} [Decidable c] {x x' : c → Exec F α} {y y' : ¬ c → Exec F α}
    (hx : ∀ h, Like change change' (x h) (x' h)) (hy : ∀ h, Like change change' (y h) (y' h)) :
    Like change change' (if h : c then x h else y h) (if h : c then x' h else y' h) :=
  fun before before' => .dite (fun h => hx h before before') fun h => hy h before before'

theorem forM {f : α → Exec F PUnit} (h : ∀ a, Like change change (f a) (f a)) (as : List α) :
    Like change change (as.forM f) (as.forM f) :=
  fun before before' => .forM (fun a => h a before before') as

/-- What is done with the storage must not depend on the change. -/
theorem getWpm_bind {f g : WpmStorage F → Exec F β}
    (h : ∀ w k, Like change change' (f w) (g (change k w))) :
    Like change change' (getWpm >>= f) (getWpm >>= g) := by
  intro before before' v v' hv
  obtain ⟨k, hk⟩ := hv.wpm
  have hends := h v.wpm k before before' v v' hv
  rw [← hk] at hends
  exact hends

theorem modifyWpm_to {f : WpmStorage F → WpmStorage F}
    (h : ∀ k w, ∃ k', f (change k w) = change' k' (f w)) :
    Like change change' (modifyWpm f) (modifyWpm f) := by
  refine fun before before' => .modify fun v v' hv => ?_
  obtain ⟨k, hk⟩ := hv.wpm
  obtain ⟨k', hk'⟩ := h k v.wpm
  exact ⟨⟨k', by rw [hk, hk']⟩, hv.clockReads, hv.said⟩

theorem modifyWpm {f : WpmStorage F → WpmStorage F}
    (h : ∀ k w, f (change k w) = change k (f w)) :
    Like change change (modifyWpm f) (modifyWpm f) :=
  modifyWpm_to fun k w => ⟨k, h k w⟩

theorem send (o : Output F) : Like change change (send o) (send o) := by
  refine fun before before' => .modify fun v v' hv => ?_
  obtain ⟨os, hv₁, hv₂⟩ := hv.said
  refine ⟨hv.wpm, hv.clockReads, os ++ [o], ?_, ?_⟩
  · rw [hv₁, List.append_assoc]
  · rw [hv₂, List.append_assoc]

theorem getSystemTimestamp (env : Env F) :
    Like change change (getSystemTimestamp env) (getSystemTimestamp env) := by
  intro before before' v v' hv
  refine ⟨?_, hv.wpm, ?_, hv.said⟩
  · exact congrArg env.clock hv.clockReads.symm
  · exact congrArg (· + 1) hv.clockReads

theorem readWaypoint (h : ∀ k w, (change k w).waypoints = w.waypoints) (i : Nat) :
    Like change change (readWaypoint i) (readWaypoint i) := by
  refine .getWpm_bind fun w k => .dite (fun hi => ?_) fun _ => .throw _
  rw [h]
  exact .pure _

theorem readRcvWaypoint (h : ∀ k w, (change k w).rcvWaypoints = w.rcvWaypoints) (i : Nat) :
    Like change change (readRcvWaypoint i) (readRcvWaypoint i) := by
  refine .getWpm_bind fun w k => .dite (fun hi => ?_) fun _ => .throw _
  rw [h]
  exact .pure _

end Like

theorem sendGcsStringIf_like {κ : Type} {change : κ → WpmStorage F → WpmStorage F} (c : Prop)
    [Decidable c] (text : String) :
    Like change change (sendGcsStringIf c text) (sendGcsStringIf c text) :=
  .ite (.send _) (.pure ())

theorem readWaypoint_blind (i : Nat) : Blind (readWaypoint i : Exec F (MissionItem F)) := by
  refine Like.readWaypoint ?_ i
  exact fun _ _ => rfl

theorem writeWaypoint_blind (i : Nat) (item : MissionItem F) : Blind (writeWaypoint i item) :=
  .dite (fun _ => .modifyWpm fun _ _ => rfl) fun _ => .throw _

theorem writeRcvWaypoint_blind (i : Nat) (item : MissionItem F) :
    Blind (writeRcvWaypoint i item) :=
  .dite (fun _ => .modifyWpm fun _ _ => rfl) fun _ => .throw _

theorem modifyWaypoint_blind (i : Nat) (f : MissionItem F → MissionItem F) :
    Blind (modifyWaypoint i f) :=
  .bind (readWaypoint_blind i) fun _ => writeWaypoint_blind i _

/-! ### The calls do not see the count of the receive buffer -/

variable (env : Env F)

theorem sendWaypointAck_blind (type : UInt8) : Blind (sendWaypointAck env type) :=
  .getWpm_bind fun _ _ => .send _

theorem sendWaypointCurrent_blind (seq : UInt16) : Blind (sendWaypointCurrent env seq) :=
  .getWpm_bind fun _ _ => .ite (.bind (readWaypoint_blind _) fun _ => .send _)
    (.pure ())

theorem sendSetpoint_blind (seq : UInt16) : Blind (sendSetpoint env seq) :=
  .getWpm_bind fun _ _ => .ite (.bind (readWaypoint_blind _) fun _ =>
    .bind (.send _) fun _ => .bind (.getSystemTimestamp env) fun _ =>
    .modifyWpm fun _ _ => rfl) (.pure ())

theorem sendWaypointCount_blind (count : UInt16) : Blind (sendWaypointCount env count) :=
  .getWpm_bind fun _ _ => .send _

theorem sendWaypoint_blind (seq : UInt16) : Blind (sendWaypoint env seq) :=
  .getWpm_bind fun _ _ => .ite (.bind (modifyWaypoint_blind _ _) fun _ =>
    .bind (readWaypoint_blind _) fun _ => .send _) (.pure ())

theorem sendWaypointRequest_blind (seq : UInt16) : Blind (sendWaypointRequest env seq) :=
  .getWpm_bind fun _ _ => .ite (.send _) (.pure ())

theorem distanceInFrame_blind (frame : UInt8) (seq : UInt16) (globalPos : GlobalPosition F)
    (localPos : LocalPosition F) : Blind (distanceInFrame env frame seq globalPos localPos) := by
  have hglobal (lat lon alt : F) : Blind (distanceToPointGlobalWgs84 env seq lat lon alt) :=
    .getWpm_bind fun _ _ => .ite (.bind (readWaypoint_blind _) fun _ => .pure _)
      (.pure _)
  have hlocal (x y z : F) : Blind (distanceToPointLocal env seq x y z) :=
    .getWpm_bind fun _ _ => .ite (.bind (readWaypoint_blind _) fun _ => .pure _)
      (.pure _)
  exact .ite (hglobal _ _ _) (.ite (hglobal _ _ _) (.ite (hlocal _ _ _) (.pure _)))

theorem advanceWaypoint_blind : Blind (advanceWaypoint env) :=
  .getWpm_bind fun _ _ => .bind (modifyWaypoint_blind _ _) fun _ =>
    .bind (.modifyWpm fun _ _ => rfl) fun _ => .bind (.modifyWpm fun _ _ => rfl) fun _ =>
    .getWpm_bind fun _ _ => .bind (sendWaypointCurrent_blind env _) fun _ =>
    .getWpm_bind fun _ _ => .bind (sendSetpoint_blind env _) fun _ =>
    .getWpm_bind fun _ _ => .bind (modifyWaypoint_blind _ _) fun _ => .modifyWpm fun _ _ => rfl

theorem checkWaypointsReached_blind (now : UInt64) (globalPos : GlobalPosition F)
    (localPos : LocalPosition F) : Blind (checkWaypointsReached env now globalPos localPos) := by
  have hupdate : Blind (updatePosReached env globalPos localPos) :=
    .getWpm_bind fun _ _ => .ite (.bind (readWaypoint_blind _) fun _ =>
      .bind (distanceInFrame_blind env _ _ _ _) fun _ => .ite (.modifyWpm fun _ _ => rfl)
        (.pure ())) (.pure ())
  have hannounce (seq : UInt16) : Blind (announceReached env now seq) :=
    .getWpm_bind fun _ _ => .ite (.bind (.send _) fun _ => .modifyWpm fun _ _ => rfl) (.pure ())
  have hcontinue : Blind (continueMission env now) :=
    .getWpm_bind fun _ _ => .ite (.bind (readWaypoint_blind _) fun _ =>
      .bind (hannounce _) fun _ => .getWpm_bind fun _ _ =>
        .ite (.ite (advanceWaypoint_blind env) (.pure ())) (.pure ())) (.pure ())
  exact .bind hupdate fun _ => .getWpm_bind fun _ _ => .ite hcontinue (.modifyWpm fun _ _ => rfl)

theorem mavlinkWaypointEventloop_blind (now : UInt64) (globalPos : GlobalPosition F)
    (localPos : LocalPosition F) :
    Blind (mavlinkWaypointEventloop env now globalPos localPos) := by
  have hcheck := checkWaypointsReached_blind env now globalPos localPos
  refine .getWpm_bind fun _ _ => .ite (.bind (.send _) fun _ =>
    .bind (.modifyWpm fun _ _ => rfl) fun _ => .getWpm_bind fun _ _ =>
    .ite (.bind (.modifyWpm fun _ _ => rfl) fun _ => hcheck) hcheck) hcheck

/-! ### The message kinds -/

theorem handleMissionAck_blind (now : UInt64) (sender : Station) (targetSystem : UInt8) :
    Blind (handleMissionAck env now sender targetSystem) :=
  .getWpm_bind fun _ _ => .ite (.bind (.modifyWpm fun _ _ => rfl) fun _ =>
    .ite (.ite (.bind (.send _) fun _ => .modifyWpm fun _ _ => rfl) (.pure ())) (.pure ()))
    (.send _)

theorem handleMissionSetCurrent_blind (now : UInt64) (targetSystem : UInt8) (seq : UInt16) :
    Blind (handleMissionSetCurrent env now targetSystem seq) := by
  have hset : Blind (setCurrent env seq) :=
    .bind (.modifyWpm fun _ _ => rfl) fun _ => .getWpm_bind fun _ _ =>
      .bind (.forM (fun _ => modifyWaypoint_blind _ _) _) fun _ => .bind (.send _) fun _ =>
      .bind (.modifyWpm fun _ _ => rfl) fun _ => .bind (sendWaypointCurrent_blind env _) fun _ =>
      .bind (sendSetpoint_blind env _) fun _ => .modifyWpm fun _ _ => rfl
  exact .ite (.bind (.modifyWpm fun _ _ => rfl) fun _ => .getWpm_bind fun _ _ =>
    .ite (.ite hset (.send _)) (.send _)) (.send _)

theorem handleMissionRequestList_blind (now : UInt64) (sender : Station)
    (targetSystem : UInt8) : Blind (handleMissionRequestList env now sender targetSystem) := by
  have hcount : Blind (do
      modifyWpm fun w => { w with currentCount := w.size }
      sendWaypointCount env (← getWpm).currentCount) :=
    .bind (.modifyWpm fun _ _ => rfl) fun _ => .getWpm_bind fun _ _ =>
      sendWaypointCount_blind env _
  exact .ite (.bind (.modifyWpm fun _ _ => rfl) fun _ => .getWpm_bind fun _ _ =>
    .ite (.ite (.bind (.modifyWpm fun _ _ => rfl) fun _ => hcount) hcount) (.pure ())) (.pure ())

theorem handleMissionRequest_blind (now : UInt64) (sender : Station) (targetSystem : UInt8)
    (seq : UInt16) : Blind (handleMissionRequest env now sender targetSystem seq) := by
  have hserve : Blind (serveRequest env seq) :=
    .getWpm_bind fun _ _ => .bind (sendGcsStringIf_like _ _) fun _ =>
      .bind (sendGcsStringIf_like _ _) fun _ => .bind (sendGcsStringIf_like _ _) fun _ =>
      .bind (.modifyWpm fun _ _ => rfl) fun _ => sendWaypoint_blind env seq
  refine .getWpm_bind fun w n => .ite (.bind (.modifyWpm fun _ _ => rfl) fun _ =>
    .ite hserve ?_) (.ite (.send _) (.send _))
  have hrefusal : requestRefusal (setRcvSize n w) seq = requestRefusal w seq := rfl
  rw [hrefusal]
  cases requestRefusal w seq with
  | none => exact .pure ()
  | some text => exact .send _

theorem handleMissionCount_blind (now : UInt64) (sender : Station) (targetSystem : UInt8)
    (count : UInt16) : Blind (handleMissionCount env now sender targetSystem count) := by
  have hopen : Blind (openTransfer env sender count) :=
    .getWpm_bind fun _ _ => .bind (sendGcsStringIf_like _ _) fun _ =>
      .bind (sendGcsStringIf_like _ _) fun _ => .bind (.modifyWpm fun _ _ => rfl) fun _ =>
      .bind (.send _) fun _ => .bind (.modifyWpm_to fun _ _ => ⟨0, rfl⟩) fun _ =>
      .getWpm_bind fun _ _ => sendWaypointRequest_blind env _
  exact .ite (.bind (.modifyWpm fun _ _ => rfl) fun _ => .getWpm_bind fun _ _ =>
    .ite (.ite hopen (.bind (.send _) fun _ => .modifyWpm_to fun _ _ => ⟨0, rfl⟩)) (.send _))
    (.send _)

/-- The active waypoint depends on the count of the receive buffer when a transfer is complete, and
is set again before anyone looks at it. -/
theorem switchWaypoints_blind : Blind (switchWaypoints env) := by
  have hread (i : Nat) : Like setRcvSizeActive setRcvSizeActive
      (readWaypoint i : Exec F (MissionItem F)) (readWaypoint i) := by
    refine .readWaypoint ?_ i
    exact fun _ _ => rfl
  have hcopy (i : Nat) : Like setRcvSizeActive setRcvSizeActive
      (do writeWaypoint i (← readRcvWaypoint i) : Exec F Unit)
      (do writeWaypoint i (← readRcvWaypoint i)) := by
    refine .bind (.readRcvWaypoint ?_ i) fun _ => .dite (fun _ => .modifyWpm ?_) fun _ => .throw _
    · exact fun _ _ => rfl
    · exact fun _ _ => rfl
  have hfirst (i n : Nat) : Like setRcvSizeActive setRcvSizeActive
      (firstCurrent i n : Exec F Nat) (firstCurrent i n) := by
    induction n generalizing i with
    | zero => exact .pure i
    | succ n ih => exact .bind (hread i) fun _ => .ite (.pure i) (ih (i + 1))
  have hselect : Like setRcvSizeActive setRcvSize (selectCurrent env) (selectCurrent env) := by
    refine .getWpm_bind fun _ _ => .bind (hfirst _ _) fun i => .ite
      (.bind (.modifyWpm_to fun k _ => ⟨k.1, rfl⟩) fun _ => .getWpm_bind fun _ _ =>
        .bind (sendWaypointCurrent_blind env _) fun _ => .getWpm_bind fun _ _ =>
        .bind (sendSetpoint_blind env _) fun _ => .modifyWpm fun _ _ => rfl)
      (.modifyWpm_to fun k _ => ⟨k.1, rfl⟩)
  exact .bind (.send _) fun _ => .bind (sendWaypointAck_blind env 0) fun _ =>
    .bind (.modifyWpm_to fun n w => ⟨(n, limitActiveWpId (setRcvSize n w)), rfl⟩) fun _ =>
    .getWpm_bind fun _ _ => .bind (.forM hcopy _) fun _ =>
    .bind (.modifyWpm fun _ _ => rfl) fun _ => .bind hselect fun _ => .modifyWpm fun _ _ => rfl

theorem handleMissionItem_blind (now : UInt64) (item : MissionItem F) :
    Blind (handleMissionItem env now item) := by
  have hreceive : Blind (receiveItem env item) :=
    .bind (.modifyWpm fun _ _ => rfl) fun _ => .bind (writeRcvWaypoint_blind _ _) fun _ =>
      .bind (.modifyWpm fun _ _ => rfl) fun _ => .getWpm_bind fun _ _ =>
      .ite (switchWaypoints_blind env) (sendWaypointRequest_blind env _)
  exact .bind (.send _) fun _ => .ite (.bind (.modifyWpm fun _ _ => rfl) fun _ =>
    .getWpm_bind fun _ _ => .ite hreceive (.ite (sendWaypointAck_blind env 0)
      (.ite (sendWaypointRequest_blind env _) (.pure ())))) (.pure ())

theorem handleMissionClearAll_blind (now : UInt64) (targetSystem : UInt8) :
    Blind (handleMissionClearAll env now targetSystem) :=
  .getWpm_bind fun _ _ => .ite (.bind (.modifyWpm fun _ _ => rfl) fun _ =>
    .modifyWpm fun _ _ => rfl) (.pure ())

/-- Whatever kind the message is of. -/
theorem handlePayload_blind (now : UInt64) (msg : Message F) :
    Blind (handlePayload env now msg) := by
  unfold handlePayload
  cases msg.payload with
  | missionAck ts _ _ => exact handleMissionAck_blind env now _ ts
  | missionSetCurrent ts _ seq => exact handleMissionSetCurrent_blind env now ts seq
  | missionRequestList ts _ => exact handleMissionRequestList_blind env now _ ts
  | missionRequest ts _ seq => exact handleMissionRequest_blind env now _ ts seq
  | missionCount ts _ count => exact handleMissionCount_blind env now _ ts count
  | missionItem item => exact handleMissionItem_blind env now item
  | missionClearAll ts _ => exact handleMissionClearAll_blind env now ts
  | _ => exact .pure ()

theorem process_blind (e : Event F) : Blind (process env e) := by
  cases e with
  | tick now g l => exact mavlinkWaypointEventloop_blind env now g l
  | message m g l =>
      exact .bind (.getSystemTimestamp env) fun now => .bind (handlePayload_blind env now m)
        fun _ => checkWaypointsReached_blind env now g l

/-- **No run sees the count of the receive buffer.** -/
theorem run_blind (es : List (Event F)) : Blind (run env es) := .forM (process_blind env) es

/-! ### The two messages -/

/-- The same state of the mission. -/
structure SameMission (v v' : Vehicle F) : Prop where
  size : v'.wpm.size = v.wpm.size
  active : v'.wpm.currentActiveWpId = v.wpm.currentActiveWpId
  yawReached : v'.wpm.yawReached = v.wpm.yawReached
  posReached : v'.wpm.posReached = v.wpm.posReached

/-- Whatever happens from now on, the same is sent. -/
def SameAnswers (v v' : Vehicle F) : Prop :=
  ∀ es, sentBy (run env es) v' = sentBy (run env es) v

theorem sentBy_of_wp {α : Type} {x : Exec F α} {v : Vehicle F} {os : List (Output F)}
    (h : wp x (fun _ v' => v'.sent = v.sent ++ os) v) : sentBy x v = os := by
  obtain ⟨a, v', hrun, hsent⟩ := wp_iff.mp h
  unfold sentBy after
  rw [hrun]
  show v'.sent.drop v.sent.length = os
  rw [hsent, List.drop_left]

/-- Vehicles that differ in the count of the receive buffer answer the same. -/
theorem sameAnswers_of_rcvSize {v v' : Vehicle F} {n : UInt16}
    (hwpm : v'.wpm = setRcvSize n v.wpm) (hclock : v'.clockReads = v.clockReads) :
    SameAnswers env v v' := by
  intro es
  have hstart : Alike setRcvSize v.sent v'.sent v v' :=
    ⟨⟨n, hwpm⟩, hclock, [], (List.append_nil _).symm, (List.append_nil _).symm⟩
  have hsaid : SaidSame v.sent v'.sent (after (run env es) v) (after (run env es) v') :=
    (run_blind env es _ _ v v' hstart).after.elim Alike.said id
  obtain ⟨os, hos, hos'⟩ := hsaid
  unfold sentBy
  rw [hos, hos', List.drop_left, List.drop_left]

/-- With no active waypoint there is nothing to reach. -/
theorem checkWaypointsReached_none {v : Vehicle F} (now : UInt64) (globalPos : GlobalPosition F)
    (localPos : LocalPosition F) (hactive : v.wpm.currentActiveWpId = 65535)
    (hpos : v.wpm.posReached = false) :
    wp (checkWaypointsReached env now globalPos localPos)
      (fun _ v' => v' = { v with wpm := { v.wpm with timestampLastoutsideOrbit := now } }) v := by
  have hnone : ¬ v.wpm.currentActiveWpId < v.wpm.size := by
    rw [hactive, UInt16.not_lt, UInt16.le_iff_toNat_le]
    exact Nat.le_of_lt_succ v.wpm.size.toNat_lt
  unfold checkWaypointsReached updatePosReached
  simp [hnone, hpos]

/-- A message that leaves no active waypoint is processed by its handler, and the time is noted. -/
theorem process_none {v : Vehicle F} {m : Message F} {globalPos : GlobalPosition F}
    {localPos : LocalPosition F} {Q : Vehicle F → Prop}
    (h : wp (handlePayload env (env.clock v.clockReads) m)
      (fun _ v₁ => v₁.wpm.currentActiveWpId = 65535 ∧ v₁.wpm.posReached = false ∧
        Q { v₁ with wpm :=
          { v₁.wpm with timestampLastoutsideOrbit := env.clock v.clockReads } })
      { v with clockReads := v.clockReads + 1 }) :
    wp (process env (.message m globalPos localPos)) (fun _ => Q) v := by
  unfold process mavlinkWpmMessageHandler
  rw [wp_bind, wp_getSystemTimestamp, wp_bind]
  refine h.mono fun _ v₁ h₁ => ?_
  obtain ⟨hactive, hpos, hQ⟩ := h₁
  refine (checkWaypointsReached_none env _ _ _ hactive hpos).mono fun _ v₂ h₂ => ?_
  rw [h₂]
  exact hQ

/-- After a count of 0. -/
def afterCountZero (v : Vehicle F) (sender : Station) (targetComponent : UInt8)
    (globalPos : GlobalPosition F) (localPos : LocalPosition F) : Vehicle F :=
  after (process env (.message
    ⟨sender.sysid, sender.compid, .missionCount env.sysid targetComponent 0⟩ globalPos localPos)) v

/-- After the message that clears the list. -/
def afterClearAll (v : Vehicle F) (sender : Station) (targetComponent : UInt8)
    (globalPos : GlobalPosition F) (localPos : LocalPosition F) : Vehicle F :=
  after (process env (.message
    ⟨sender.sysid, sender.compid, .missionClearAll env.sysid targetComponent⟩ globalPos localPos)) v

section

variable {v : Vehicle F} (sender : Station) (targetComponent : UInt8)
  (globalPos : GlobalPosition F) (localPos : LocalPosition F)

theorem afterCountZero_eq (hidle : v.wpm.currentState = .idle) :
    afterCountZero env v sender targetComponent globalPos localPos =
      { wpm := { v.wpm with
          rcvSize := 0
          currentActiveWpId := 65535
          timestampLastaction := env.clock v.clockReads
          timestampLastoutsideOrbit := env.clock v.clockReads
          yawReached := false
          posReached := false }
        sent := v.sent ++ [.gcsString "COUNT 0"]
        clockReads := v.clockReads + 1 } := by
  have hcount : countable { v.wpm with timestampLastaction := env.clock v.clockReads } :=
    .inl hidle
  refine wp.after_eq (process_none env ?_)
  show wp (handleMissionCount env (env.clock v.clockReads) sender env.sysid 0) _ _
  unfold handleMissionCount setLastaction
  rw [if_pos rfl, wp_bind, wp_modifyWpm, wp_bind, wp_getWpm, if_pos hcount, if_neg (by decide),
    wp_bind, wp_sendGcsString, wp_modifyWpm]
  exact ⟨rfl, rfl, rfl⟩

theorem afterClearAll_eq (hidle : v.wpm.currentState = .idle) :
    afterClearAll env v sender targetComponent globalPos localPos =
      { wpm := { v.wpm with
          size := 0
          currentActiveWpId := 65535
          timestampLastaction := env.clock v.clockReads
          timestampLastoutsideOrbit := env.clock v.clockReads
          yawReached := false
          posReached := false }
        sent := v.sent
        clockReads := v.clockReads + 1 } := by
  refine wp.after_eq (process_none env ?_)
  show wp (handleMissionClearAll env (env.clock v.clockReads) env.sysid) _ _
  unfold handleMissionClearAll setLastaction
  rw [wp_bind, wp_getWpm, if_pos ⟨rfl, hidle⟩, wp_bind, wp_modifyWpm, wp_modifyWpm]
  exact ⟨rfl, rfl, rfl⟩

/-- A request for the list, answered by an idle vehicle. -/
theorem handleMissionRequestList_sends (now : UInt64) (hidle : v.wpm.currentState = .idle) :
    ∃ target : Station, wp (handleMissionRequestList env now sender env.sysid)
      (fun _ v' => v'.wpm.currentActiveWpId = v.wpm.currentActiveWpId ∧
        v'.wpm.posReached = v.wpm.posReached ∧
        v'.sent = v.sent ++ [.message ⟨env.sysid, mavlinkWpmCompId,
          .missionCount target.sysid target.compid v.wpm.size⟩]) v := by
  refine ⟨if v.wpm.size > 0 then sender else v.wpm.partner, ?_⟩
  unfold handleMissionRequestList setLastaction sendWaypointCount
  simp only [wp_bind, wp_getWpm, wp_ite, wp_modifyWpm, wp_sendMessage, wp_pure]
  refine ⟨fun _ => ⟨fun _ => ⟨fun hsize => ?_, fun hsize => ?_⟩, fun hno => ?_⟩, fun hno => ?_⟩
  · rw [if_pos hsize]
    exact ⟨trivial, trivial, rfl⟩
  · rw [if_neg hsize]
    exact ⟨trivial, trivial, rfl⟩
  · exact absurd (.inl hidle) hno
  · exact absurd trivial hno

/-- Without an active waypoint nothing else is sent. -/
theorem sentBy_requestList (hidle : v.wpm.currentState = .idle)
    (hactive : v.wpm.currentActiveWpId = 65535) (hpos : v.wpm.posReached = false) :
    ∃ target : Station, sentBy (process env (.message
      ⟨sender.sysid, sender.compid, .missionRequestList env.sysid targetComponent⟩
      globalPos localPos)) v =
        [.message ⟨env.sysid, mavlinkWpmCompId,
          .missionCount target.sysid target.compid v.wpm.size⟩] := by
  obtain ⟨target, hsends⟩ := handleMissionRequestList_sends env sender (env.clock v.clockReads)
    (v := { v with clockReads := v.clockReads + 1 }) hidle
  refine ⟨target, sentBy_of_wp (process_none env ?_)⟩
  refine hsends.mono fun _ v₁ h => ?_
  obtain ⟨hactive₁, hpos₁, hsent₁⟩ := h
  exact ⟨hactive₁.trans hactive, hpos₁.trans hpos, hsent₁⟩

/-- The two messages leave the same state of the mission exactly if the list was empty. -/
theorem sameMission_iff (hidle : v.wpm.currentState = .idle) (sender' : Station)
    (targetComponent' : UInt8) (globalPos' : GlobalPosition F) (localPos' : LocalPosition F) :
    SameMission (afterClearAll env v sender' targetComponent' globalPos' localPos')
      (afterCountZero env v sender targetComponent globalPos localPos) ↔ v.wpm.size = 0 := by
  rw [afterClearAll_eq env _ _ _ _ hidle, afterCountZero_eq env _ _ _ _ hidle]
  exact ⟨fun h => h.size, fun h => ⟨h, rfl, rfl, rfl⟩⟩

/-- And they lead to the same answers exactly then: a request for the list tells the difference. -/
theorem sameAnswers_iff (hidle : v.wpm.currentState = .idle) (sender' : Station)
    (targetComponent' : UInt8) (globalPos' : GlobalPosition F) (localPos' : LocalPosition F) :
    SameAnswers env (afterClearAll env v sender' targetComponent' globalPos' localPos')
      (afterCountZero env v sender targetComponent globalPos localPos) ↔ v.wpm.size = 0 := by
  have hzero := afterCountZero_eq env sender targetComponent globalPos localPos hidle
  have hclear := afterClearAll_eq env sender' targetComponent' globalPos' localPos' hidle
  constructor
  · intro h
    obtain ⟨target, hsent⟩ := sentBy_requestList env sender targetComponent globalPos localPos
      (v := afterCountZero env v sender targetComponent globalPos localPos)
      (by rw [hzero]; exact hidle) (by rw [hzero]) (by rw [hzero])
    obtain ⟨target', hsent'⟩ := sentBy_requestList env sender targetComponent globalPos localPos
      (v := afterClearAll env v sender' targetComponent' globalPos' localPos')
      (by rw [hclear]; exact hidle) (by rw [hclear]) (by rw [hclear])
    have hsame := h [.message
      ⟨sender.sysid, sender.compid, .missionRequestList env.sysid targetComponent⟩
      globalPos localPos]
    have hone (e : Event F) : run env [e] = process env e := by simp [run]
    rw [hone, hsent, hsent'] at hsame
    simp only [List.cons.injEq, Output.message.injEq, Message.mk.injEq, Payload.missionCount.injEq,
      true_and, and_true] at hsame
    have hsize := hsame.2.2
    rw [hzero, hclear] at hsize
    exact hsize
  · intro h
    refine sameAnswers_of_rcvSize env (n := 0) ?_ ?_
    · rw [hzero, hclear, ← h]
    · rw [hzero, hclear]

end

/-- The law: an empty mission, announced by any station, clears the mission as the message that
clears it does, whichever station that comes from. -/
def CountZeroClears (v : Vehicle F) : Prop :=
  ∀ sender targetComponent globalPos localPos sender' targetComponent' globalPos' localPos',
    SameMission (afterClearAll env v sender' targetComponent' globalPos' localPos')
        (afterCountZero env v sender targetComponent globalPos localPos) ∧
      SameAnswers env (afterClearAll env v sender' targetComponent' globalPos' localPos')
        (afterCountZero env v sender targetComponent globalPos localPos)

/-- **When a count of 0 clears the mission**: of an idle vehicle it leaves the same state of the
mission as MISSION_CLEAR_ALL, and the same answers to everything that comes later, if and only if
the list was empty. -/
theorem count_zero_clears_iff {v : Vehicle F} (hidle : v.wpm.currentState = .idle) :
    CountZeroClears env v ↔ v.wpm.size = 0 := by
  constructor
  · intro h
    let zero : F := env.ops.zero
    obtain ⟨hmission, -⟩ := h ⟨0, 0⟩ 0 ⟨0, 0, zero, zero⟩ ⟨zero, zero, zero⟩ ⟨0, 0⟩ 0
      ⟨0, 0, zero, zero⟩ ⟨zero, zero, zero⟩
    exact (sameMission_iff env _ _ _ _ hidle _ _ _ _).mp hmission
  · intro hempty sender tc g l sender' tc' g' l'
    exact ⟨(sameMission_iff env _ _ _ _ hidle _ _ _ _).mpr hempty,
      (sameAnswers_iff env _ _ _ _ hidle _ _ _ _).mpr hempty⟩

end

/-- With nothing uploaded yet, the two messages do the same. -/
theorem count_zero_clears_initial : CountZeroClears unitEnv (initial unitStorage) :=
  (count_zero_clears_iff unitEnv rfl).mpr rfl

/-- After the upload of a waypoint they do not. -/
theorem count_zero_keeps_list :
    ¬ ∀ v, (manager unitEnv).Reachable v → v.wpm.currentState = .idle →
      CountZeroClears unitEnv v := by
  intro hall
  obtain ⟨v, hv⟩ := Option.isSome_iff_exists.mp
    (show ((upload qgc 1).foldlM nextVehicle (initial unitStorage)).isSome = true by decide +kernel)
  have hstate : ∀ v ∈ (upload qgc 1).foldlM nextVehicle (initial unitStorage),
      v.wpm.currentState = .idle ∧ v.wpm.size = 1 := by
    decide +kernel
  obtain ⟨hidle, hsize⟩ := hstate v hv
  have hreach : (manager unitEnv).Reachable v :=
    ⟨_, upload qgc 1, ⟨_, rfl⟩, .of_foldlM (fun _ _ _ => step_of_nextVehicle) hv⟩
  obtain ⟨hmission, -⟩ := hall v hreach hidle qgc 0 ⟨0, 0, (), ()⟩ ⟨(), (), ()⟩ qgc 0
    ⟨0, 0, (), ()⟩ ⟨(), (), ()⟩
  have hempty := (sameMission_iff unitEnv _ _ _ _ hidle _ _ _ _).mp hmission
  rw [hsize] at hempty
  exact absurd hempty (by decide)

end Px4Firmware.Waypoints
