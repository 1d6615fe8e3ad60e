import Px4Firmware.Waypoints.Abort
import Px4Firmware.Waypoints.Talk

/-!
# Px4Firmware.Waypoints.Replies

**Who the replies to a message go to.** The functions that send a count, a waypoint, a request or an
acknowledgement take the addressee as an argument and do not use it: they address the partner that
the storage remembers. For most messages that partner is the sender, because the handler has just
made it the partner or has compared the two. It does neither for a waypoint, nor for a request of
the list while the list is empty.

`replies_to_sender_iff` says for which states and messages every reply goes to the sender: those
that are not one of these two (`Misdirects`). Nothing is assumed of the state, and the replies of a
call that leaves an array count as well.
-/

namespace Px4Firmware.Waypoints

open Px4Firmware.Lib

section

variable {F : Type}

/-! ### What is said -/

/-- The station that a reply is addressed to. -/
def reply? : Output F → Option Station
  | .message m =>
      match m.payload with
      | .missionCount targetSystem targetComponent _ => some ⟨targetSystem, targetComponent⟩
      | .missionItem item => some item.receiver
      | .missionRequest targetSystem targetComponent _ => some ⟨targetSystem, targetComponent⟩
      | .missionAck targetSystem targetComponent _ => some ⟨targetSystem, targetComponent⟩
      | _ => none
  | _ => none

/-- The addressees of the replies among what was sent. -/
def replies (sent : List (Output F)) : List Station := sent.filterMap reply?

/-- What a call sends. -/
def sentBy {α : Type} (x : Exec F α) (v : Vehicle F) : List (Output F) :=
  (after x v).sent.drop v.sent.length

/-- The addressees of the replies that a call sends. -/
def repliesOf {α : Type} (x : Exec F α) (v : Vehicle F) : List Station := replies (sentBy x v)

/-- Something was sent, with replies to these stations. -/
def Said (rs : List Station) (v v' : Vehicle F) : Prop :=
  ∃ os, v'.sent = v.sent ++ os ∧ replies os = rs

/-- A call sends replies to these stations, whether it ends or leaves an array. -/
def Says {α : Type} (rs : List Station) (x : Exec F α) (v : Vehicle F) : Prop :=
  outcome x (fun _ v' => Said rs v v') (fun _ v' => Said rs v v') v

/-- A call that sends no replies. -/
def NoReply {α : Type} (x : Exec F α) : Prop := ∀ v, Says [] x v

theorem Said.refl (v : Vehicle F) : Said [] v v := ⟨[], (List.append_nil _).symm, rfl⟩

theorem Said.trans {rs rs' : List Station} {v v' v'' : Vehicle F} (h : Said rs v v')
    (h' : Said rs' v' v'') : Said (rs ++ rs') v v'' := by
  obtain ⟨os, hsent, rfl⟩ := h
  obtain ⟨os', hsent', rfl⟩ := h'
  refine ⟨os ++ os', by rw [hsent', hsent, List.append_assoc], ?_⟩
  exact List.filterMap_append

/-- The replies are those of the law. -/
theorem Says.repliesOf_eq {α : Type} {rs : List Station} {x : Exec F α} {v : Vehicle F}
    (h : Says rs x v) : repliesOf x v = rs := by
  have hend : Said rs v (after x v) := by
    unfold Says outcome at h
    unfold after
    cases hx : x v with
    | ok a t => rw [hx] at h; exact h
    | error e t => rw [hx] at h; exact h
  obtain ⟨os, hsent, rfl⟩ := hend
  unfold repliesOf sentBy
  rw [hsent, List.drop_left]

/-- A part of a run: nothing was said before it. -/
theorem Says.mono {α : Type} {rs : List Station} {x : Exec F α} {v : Vehicle F} (h : Says rs x v)
    {Q : Vehicle F → Prop} (hQ : ∀ v', Said rs v v' → Q v') :
    outcome x (fun _ v' => Q v') (fun _ v' => Q v') v :=
  outcome.mono h (fun _ v' => hQ v') fun _ v' => hQ v'

section

variable {α β : Type} {rs : List Station} {v : Vehicle F}

@[simp] theorem says_getWpm_bind (f : WpmStorage F → Exec F β) :
    Says rs (getWpm >>= f) v ↔ Says rs (f v.wpm) v := Iff.rfl

@[simp] theorem says_modifyWpm_bind (g : WpmStorage F → WpmStorage F) (f : Unit → Exec F β) :
    Says rs (modifyWpm g >>= f) v ↔ Says rs (f ()) { v with wpm := g v.wpm } := Iff.rfl

@[simp] theorem says_getSystemTimestamp_bind (env : Env F) (f : UInt64 → Exec F β) :
    Says rs (getSystemTimestamp env >>= f) v ↔
      Says rs (f (env.clock v.clockReads)) { v with clockReads := v.clockReads + 1 } := Iff.rfl

@[simp] theorem says_ite (c : Prop) [Decidable c] (x y : Exec F α) :
    Says rs (if c then x else y) v ↔ (c → Says rs x v) ∧ (¬ c → Says rs y v) :=
  outcome_ite c x y

theorem says_throw_bind (fault : Fault) (f : α → Exec F β) : Says [] (throw fault >>= f) v :=
  .refl v

/-- Sending one thing. -/
theorem says_send (o : Output F) : Says (reply? o).toList (send o) v := by
  refine ⟨[o], rfl, ?_⟩
  unfold replies
  cases h : reply? o <;> simp [h]

/-- A text is no reply. -/
theorem Says.text {text : String} {f : Unit → Exec F β}
    (h : Says rs (f ()) { v with sent := v.sent ++ [.gcsString text] }) :
    Says rs (sendGcsString text >>= f) v := by
  refine h.mono fun v' h' => ?_
  have htext : Said [] v { v with sent := v.sent ++ [.gcsString text] } := ⟨[_], rfl, rfl⟩
  exact htext.trans h'

theorem Says.textIf {c : Prop} [Decidable c] {text : String} {f : Unit → Exec F β}
    (h : ∀ sent, Says rs (f ()) { v with sent := sent }) :
    Says rs (sendGcsStringIf c text >>= f) v := by
  unfold sendGcsStringIf
  by_cases hc : c
  · rw [if_pos hc]
    exact .text (h _)
  · rw [if_neg hc]
    exact h v.sent

end

/-! ### Calls without replies -/

namespace NoReply

variable {α β : Type}

theorem pure (a : α) : NoReply (Pure.pure a : Exec F α) := fun v => Said.refl v

theorem throw (fault : Fault) : NoReply (MonadExcept.throw fault : Exec F α) := fun v => Said.refl v

theorem getWpm : NoReply (getWpm : Exec F (WpmStorage F)) := fun v => Said.refl v

theorem modifyWpm (f : WpmStorage F → WpmStorage F) : NoReply (modifyWpm f) := fun v => Said.refl v

theorem getSystemTimestamp (env : Env F) : NoReply (getSystemTimestamp env) := fun v => Said.refl v

/-- What is no reply may be sent. -/
theorem send {o : Output F} (h : reply? o = none) : NoReply (send o) := fun v => by
  have hreplies := says_send (v := v) o
  rwa [h] at hreplies

theorem bind {x : Exec F α} {f : α → Exec F β} (hx : NoReply x) (hf : ∀ a, NoReply (f a)) :
    NoReply (x >>= f) := by
  intro v
  unfold Says
  rw [outcome_bind]
  exact outcome.mono (hx v) (fun a v' h => (hf a v').mono fun _ h' => h.trans h') fun _ _ h => h

theorem ite {c : Prop} [Decidable c] {x y : Exec F α} (hx : NoReply x) (hy : NoReply y) :
    NoReply (if c then x else y) := by
  by_cases h : c
  · rw [if_pos h]
    exact hx
  · rw [if_neg h]
    exact hy

theorem dite {c : Prop} [Decidable c] {x : c → Exec F α} {y : ¬ c → Exec F α}
    (hx : ∀ h, NoReply (x h)) (hy : ∀ h, NoReply (y h)) : NoReply (if h : c then x h else y h) := by
  by_cases h : c
  · rw [dif_pos h]
    exact hx h
  · rw [dif_neg h]
    exact hy h

theorem forM {f : α → Exec F PUnit} (hf : ∀ a, NoReply (f a)) (as : List α) :
    NoReply (as.forM f) := by
  induction as with
  | nil => exact .pure _
  | cons a as ih => exact .bind (hf a) fun _ => ih

theorem readWaypoint (i : Nat) : NoReply (readWaypoint i : Exec F (MissionItem F)) :=
  .bind .getWpm fun _ => .dite (fun _ => .pure _) fun _ => .throw _

theorem readRcvWaypoint (i : Nat) : NoReply (readRcvWaypoint i : Exec F (MissionItem F)) :=
  .bind .getWpm fun _ => .dite (fun _ => .pure _) fun _ => .throw _

theorem writeWaypoint (i : Nat) (item : MissionItem F) : NoReply (writeWaypoint i item) :=
  .dite (fun _ => .modifyWpm _) fun _ => .throw _

theorem modifyWaypoint (i : Nat) (f : MissionItem F → MissionItem F) :
    NoReply (modifyWaypoint i f) :=
  .bind (.readWaypoint i) fun _ => .writeWaypoint i _

end NoReply

/-- After the replies nothing else is a reply. -/
theorem Says.then_noReply {α β : Type} {rs : List Station} {x : Exec F α} {f : α → Exec F β}
    {v : Vehicle F} (hx : Says rs x v) (hf : ∀ a, NoReply (f a)) : Says rs (x >>= f) v := by
  unfold Says
  rw [outcome_bind]
  refine outcome.mono hx (fun a v' h => (hf a v').mono fun v'' h' => ?_) fun _ _ h => h
  rw [← List.append_nil rs]
  exact h.trans h'

/-! ### What the manager says -/

variable (env : Env F)

theorem sendWaypointCurrent_noReply (seq : UInt16) : NoReply (sendWaypointCurrent env seq) :=
  .bind .getWpm fun _ => .ite (.bind (.readWaypoint _) fun _ => .send rfl) (.pure ())

theorem sendSetpoint_noReply (seq : UInt16) : NoReply (sendSetpoint env seq) :=
  .bind .getWpm fun _ => .ite (.bind (.readWaypoint _) fun _ => .bind (.send rfl) fun _ =>
    .bind (.getSystemTimestamp env) fun _ => .modifyWpm _) (.pure ())

theorem distanceInFrame_noReply (frame : UInt8) (seq : UInt16) (globalPos : GlobalPosition F)
    (localPos : LocalPosition F) : NoReply (distanceInFrame env frame seq globalPos localPos) := by
  have hglobal (lat lon alt : F) : NoReply (distanceToPointGlobalWgs84 env seq lat lon alt) :=
    .bind .getWpm fun _ => .ite (.bind (.readWaypoint _) fun _ => .pure _) (.pure _)
  have hlocal (x y z : F) : NoReply (distanceToPointLocal env seq x y z) :=
    .bind .getWpm fun _ => .ite (.bind (.readWaypoint _) fun _ => .pure _) (.pure _)
  exact .ite (hglobal _ _ _) (.ite (hglobal _ _ _) (.ite (hlocal _ _ _) (.pure _)))

theorem advanceWaypoint_noReply : NoReply (advanceWaypoint env) :=
  .bind .getWpm fun _ => .bind (.modifyWaypoint _ _) fun _ => .bind (.modifyWpm _) fun _ =>
    .bind (.modifyWpm _) fun _ => .bind .getWpm fun _ =>
    .bind (sendWaypointCurrent_noReply env _) fun _ => .bind .getWpm fun _ =>
    .bind (sendSetpoint_noReply env _) fun _ => .bind .getWpm fun _ =>
    .bind (.modifyWaypoint _ _) fun _ => .modifyWpm _

/-- **Going on to the next waypoint replies to nobody.** -/
theorem checkWaypointsReached_noReply (now : UInt64) (globalPos : GlobalPosition F)
    (localPos : LocalPosition F) : NoReply (checkWaypointsReached env now globalPos localPos) := by
  have hupdate : NoReply (updatePosReached env globalPos localPos) :=
    .bind .getWpm fun _ => .ite (.bind (.readWaypoint _) fun _ =>
      .bind (distanceInFrame_noReply env _ _ _ _) fun _ => .ite (.modifyWpm _) (.pure ()))
      (.pure ())
  have hannounce (seq : UInt16) : NoReply (announceReached env now seq) :=
    .bind .getWpm fun _ => .ite (.bind (.send rfl) fun _ => .modifyWpm _) (.pure ())
  have hcontinue : NoReply (continueMission env now) :=
    .bind .getWpm fun _ => .ite (.bind (.readWaypoint _) fun _ => .bind (hannounce _) fun _ =>
      .bind .getWpm fun _ => .ite (.ite (advanceWaypoint_noReply env) (.pure ())) (.pure ()))
      (.pure ())
  exact .bind hupdate fun _ => .bind .getWpm fun _ => .ite hcontinue (.modifyWpm _)

section

variable {v : Vehicle F}

theorem sendWaypointAck_replies (type : UInt8) :
    Says [v.wpm.partner] (sendWaypointAck env type) v :=
  says_send _

theorem sendWaypointCount_replies (count : UInt16) :
    Says [v.wpm.partner] (sendWaypointCount env count) v :=
  says_send _

theorem sendWaypointRequest_replies {seq : UInt16} (h : seq < v.wpm.maxSize) :
    Says [v.wpm.partner] (sendWaypointRequest env seq) v := by
  unfold sendWaypointRequest
  rw [says_getWpm_bind, if_pos h]
  exact says_send _

theorem sendWaypointRequest_replies_nothing {seq : UInt16} (h : ¬ seq < v.wpm.maxSize) :
    Says [] (sendWaypointRequest env seq) v := by
  unfold sendWaypointRequest
  rw [says_getWpm_bind, if_neg h]
  exact .refl v

/-- The waypoint is sent to the partner, if there is one with this number. -/
theorem sendWaypoint_replies {seq : UInt16} (h : seq < v.wpm.size ∧ seq.toNat < maxWpCount) :
    Says [v.wpm.partner] (sendWaypoint env seq) v := by
  unfold sendWaypoint modifyWaypoint readWaypoint writeWaypoint
  simp only [says_getWpm_bind, bind_assoc, if_pos h.1, h.2, dite_true, pure_bind,
    says_modifyWpm_bind, Vector.getElem_set_self]
  exact says_send _

theorem sendWaypoint_replies_nothing {seq : UInt16}
    (h : ¬ (seq < v.wpm.size ∧ seq.toNat < maxWpCount)) : Says [] (sendWaypoint env seq) v := by
  unfold sendWaypoint modifyWaypoint readWaypoint writeWaypoint
  by_cases hsize : seq < v.wpm.size
  · have hindex : ¬ seq.toNat < maxWpCount := fun hindex => h ⟨hsize, hindex⟩
    simp only [says_getWpm_bind, bind_assoc, if_pos hsize, hindex, dite_false]
    exact says_throw_bind _ _
  · rw [says_getWpm_bind, if_neg hsize]
    exact .refl v

/-- A request is served: the waypoint is sent after some texts. -/
theorem serveRequest_replies {rs : List Station} {seq : UInt16}
    (h : ∀ v' : Vehicle F, v'.wpm = { v.wpm with
      currentState := .sendlistSendwps, currentWpId := seq } → Says rs (sendWaypoint env seq) v') :
    Says rs (serveRequest env seq) v := by
  unfold serveRequest
  rw [says_getWpm_bind]
  refine .textIf fun _ => .textIf fun _ => .textIf fun _ => ?_
  rw [says_modifyWpm_bind]
  exact h _ rfl

end

/-! ### The message kinds -/

theorem handleMissionAck_noReply (now : UInt64) (sender : Station) (targetSystem : UInt8) :
    NoReply (handleMissionAck env now sender targetSystem) :=
  .bind .getWpm fun _ => .ite (.bind (.modifyWpm _) fun _ =>
    .ite (.ite (.bind (.send rfl) fun _ => .modifyWpm _) (.pure ())) (.pure ())) (.send rfl)

theorem handleMissionSetCurrent_noReply (now : UInt64) (targetSystem : UInt8) (seq : UInt16) :
    NoReply (handleMissionSetCurrent env now targetSystem seq) := by
  have hset : NoReply (setCurrent env seq) :=
    .bind (.modifyWpm _) fun _ => .bind .getWpm fun _ =>
      .bind (.forM (fun _ => .modifyWaypoint _ _) _) fun _ => .bind (.send rfl) fun _ =>
      .bind (.modifyWpm _) fun _ =>
      .bind (sendWaypointCurrent_noReply env _) fun _ => .bind (sendSetpoint_noReply env _) fun _ =>
      .modifyWpm _
  exact .ite (.bind (.modifyWpm _) fun _ => .bind .getWpm fun _ =>
    .ite (.ite hset (.send rfl)) (.send rfl)) (.send rfl)

theorem handleMissionClearAll_noReply (now : UInt64) (targetSystem : UInt8) :
    NoReply (handleMissionClearAll env now targetSystem) :=
  .bind .getWpm fun _ => .ite (.bind (.modifyWpm _) fun _ => .modifyWpm _) (.pure ())

/-- A request for the list is answered: the count goes to the sender, which has become the partner,
or to the partner there was. -/
def answersList (v : Vehicle F) (targetSystem : UInt8) : Prop :=
  targetSystem = env.sysid ∧ (v.wpm.currentState = .idle ∨ v.wpm.currentState = .sendlist)

/-- A waypoint is answered: with the acknowledgement when it is the last one, with a request for the
next, with the acknowledgement again after the transfer, or with the request again. -/
def answersItem (v : Vehicle F) (item : MissionItem F) : Prop :=
  addressed env item ∧
    if receivable v.wpm item then
      item.seq.toNat < maxWpCount ∧
        (item.seq + 1 = v.wpm.currentCount ∨ item.seq + 1 < v.wpm.maxSize)
    else
      v.wpm.currentState = .idle ∨
        (v.wpm.currentState = .getlistGetwps ∧ item.seq ≠ v.wpm.currentWpId ∧
          v.wpm.currentWpId < v.wpm.maxSize)

section

variable {v : Vehicle F}

theorem handleMissionRequestList_replies (now : UInt64) (sender : Station) {targetSystem : UInt8}
    (h : answersList env v targetSystem) :
    Says [if v.wpm.size > 0 then sender else v.wpm.partner]
      (handleMissionRequestList env now sender targetSystem) v := by
  unfold handleMissionRequestList setLastaction
  rw [if_pos h.1, says_modifyWpm_bind, says_getWpm_bind, if_pos h.2]
  by_cases hsize : v.wpm.size > 0
  · rw [if_pos hsize, if_pos hsize]
    exact sendWaypointCount_replies env _
  · rw [if_neg hsize, if_neg hsize]
    exact sendWaypointCount_replies env _

theorem handleMissionRequestList_replies_nothing (now : UInt64) (sender : Station)
    {targetSystem : UInt8} (h : ¬ answersList env v targetSystem) :
    Says [] (handleMissionRequestList env now sender targetSystem) v := by
  unfold handleMissionRequestList setLastaction
  by_cases htarget : targetSystem = env.sysid
  · rw [if_pos htarget, says_modifyWpm_bind, says_getWpm_bind,
      if_neg fun hstate => h ⟨htarget, hstate⟩]
    exact .refl v
  · rw [if_neg htarget]
    exact .refl v

/-- A request is answered only when its sender is the partner. -/
theorem handleMissionRequest_replies (now : UInt64) (sender : Station) (targetSystem : UInt8)
    (seq : UInt16) :
    ∃ rs, Says rs (handleMissionRequest env now sender targetSystem seq) v ∧
      ∀ r ∈ rs, r = sender := by
  unfold handleMissionRequest setLastaction
  by_cases hpartner : sender = v.wpm.partner ∧ targetSystem = env.sysid
  · simp only [says_getWpm_bind, if_pos hpartner, says_modifyWpm_bind]
    by_cases hserve : requestable v.wpm seq
    · simp only [if_pos hserve]
      by_cases hin : seq < v.wpm.size ∧ seq.toNat < maxWpCount
      · refine ⟨[sender], serveRequest_replies env fun v' hv' => ?_, fun r => List.mem_singleton.mp⟩
        have hto : v'.wpm.partner = sender := by rw [hv', hpartner.1]; rfl
        rw [← hto]
        exact sendWaypoint_replies env (by rw [hv']; exact hin)
      · refine ⟨[], serveRequest_replies env fun v' hv' => ?_,
          fun r hr => absurd hr List.not_mem_nil⟩
        exact sendWaypoint_replies_nothing env (by rw [hv']; exact hin)
    · simp only [if_neg hserve]
      refine ⟨[], ?_, fun r hr => absurd hr List.not_mem_nil⟩
      cases requestRefusal v.wpm seq with
      | none => exact .refl v
      | some text => exact NoReply.send (o := .gcsString text) rfl _
  · refine ⟨[], ?_, fun r hr => absurd hr List.not_mem_nil⟩
    rw [says_getWpm_bind, if_neg hpartner]
    exact NoReply.ite (.send rfl) (.send rfl) v

/-- A count makes its sender the partner before the first waypoint is requested. -/
theorem openTransfer_replies (sender : Station) (count : UInt16) :
    ∃ rs, Says rs (openTransfer env sender count) v ∧ ∀ r ∈ rs, r = sender := by
  have hopen {rs : List Station} (h : ∀ v' : Vehicle F, v'.wpm.maxSize = v.wpm.maxSize →
      v'.wpm.partner = sender → Says rs (sendWaypointRequest env 0) v') :
      Says rs (openTransfer env sender count) v := by
    unfold openTransfer
    rw [says_getWpm_bind]
    refine .textIf fun _ => .textIf fun _ => ?_
    rw [says_modifyWpm_bind]
    refine .text ?_
    rw [says_modifyWpm_bind, says_getWpm_bind]
    exact h _ rfl rfl
  by_cases hroom : 0 < v.wpm.maxSize
  · refine ⟨[sender], hopen fun v' hsize hto => ?_, fun r => List.mem_singleton.mp⟩
    rw [← hto]
    exact sendWaypointRequest_replies env (by rw [hsize]; exact hroom)
  · refine ⟨[], hopen fun v' hsize _ => ?_, fun r hr => absurd hr List.not_mem_nil⟩
    exact sendWaypointRequest_replies_nothing env (by rw [hsize]; exact hroom)

theorem handleMissionCount_replies (now : UInt64) (sender : Station) (targetSystem : UInt8)
    (count : UInt16) :
    ∃ rs, Says rs (handleMissionCount env now sender targetSystem count) v ∧
      ∀ r ∈ rs, r = sender := by
  unfold handleMissionCount setLastaction
  by_cases hopen : targetSystem = env.sysid ∧ countable v.wpm ∧ count > 0
  · obtain ⟨htarget, hcount, hpos⟩ := hopen
    have hcount : countable { v.wpm with timestampLastaction := now } := hcount
    simp only [if_pos htarget, says_modifyWpm_bind, says_getWpm_bind, if_pos hcount, if_pos hpos]
    exact openTransfer_replies env sender count
  · refine ⟨[], ?_, fun r hr => absurd hr List.not_mem_nil⟩
    simp only [says_ite, says_modifyWpm_bind, says_getWpm_bind]
    refine ⟨fun htarget => ⟨fun hcount => ⟨fun hpos => ?_, fun _ => .text (.refl _)⟩, fun _ => ?_⟩,
      fun _ => ?_⟩
    · exact absurd ⟨htarget, hcount, hpos⟩ hopen
    · exact NoReply.send (o := .gcsString _) rfl _
    · exact NoReply.send (o := .gcsString _) rfl _

/-- The last waypoint is acknowledged before the lists are switched. -/
theorem switchWaypoints_replies : Says [v.wpm.partner] (switchWaypoints env) v := by
  have hfirst (i n : Nat) : NoReply (firstCurrent i n : Exec F Nat) := by
    induction n generalizing i with
    | zero => exact .pure i
    | succ n ih => exact .bind (.readWaypoint i) fun _ => .ite (.pure i) (ih (i + 1))
  have hselect : NoReply (selectCurrent env) :=
    .bind .getWpm fun _ => .bind (hfirst _ _) fun _ => .ite
      (.bind (.modifyWpm _) fun _ => .bind .getWpm fun _ =>
        .bind (sendWaypointCurrent_noReply env _) fun _ => .bind .getWpm fun _ =>
        .bind (sendSetpoint_noReply env _) fun _ => .modifyWpm _) (.modifyWpm _)
  unfold switchWaypoints
  refine .text (Says.then_noReply (sendWaypointAck_replies env 0) fun _ => ?_)
  exact .bind (.modifyWpm _) fun _ => .bind .getWpm fun _ =>
    .bind (.forM (fun i => .bind (.readRcvWaypoint i) fun _ => .writeWaypoint i _) _) fun _ =>
    .bind (.modifyWpm _) fun _ => .bind hselect fun _ => .modifyWpm _

/-- A waypoint that is received is answered, if there is room for it and for the next. -/
theorem receiveItem_replies {item : MissionItem F} (hindex : item.seq.toNat < maxWpCount)
    (h : item.seq + 1 = v.wpm.currentCount ∨ item.seq + 1 < v.wpm.maxSize) :
    Says [v.wpm.partner] (receiveItem env item) v := by
  unfold receiveItem writeRcvWaypoint
  simp only [says_modifyWpm_bind, hindex, dite_true, says_getWpm_bind, and_true, says_ite]
  exact ⟨fun _ => switchWaypoints_replies env, fun hmore =>
    sendWaypointRequest_replies env (h.resolve_left hmore)⟩

theorem receiveItem_replies_nothing {item : MissionItem F}
    (h : ¬ (item.seq.toNat < maxWpCount ∧
      (item.seq + 1 = v.wpm.currentCount ∨ item.seq + 1 < v.wpm.maxSize))) :
    Says [] (receiveItem env item) v := by
  unfold receiveItem writeRcvWaypoint
  rw [says_modifyWpm_bind]
  by_cases hindex : item.seq.toNat < maxWpCount
  · simp only [hindex, dite_true, says_modifyWpm_bind, says_getWpm_bind, and_true, says_ite]
    exact ⟨fun hlast => absurd ⟨hindex, .inl hlast⟩ h, fun _ =>
      sendWaypointRequest_replies_nothing env fun hroom => h ⟨hindex, .inr hroom⟩⟩
  · simp only [hindex, dite_false]
    exact says_throw_bind _ _

theorem handleMissionItem_replies (now : UInt64) {item : MissionItem F}
    (h : answersItem env v item) : Says [v.wpm.partner] (handleMissionItem env now item) v := by
  obtain ⟨haddressed, hanswers⟩ := h
  unfold handleMissionItem setLastaction
  refine .text ?_
  simp only [says_ite, says_modifyWpm_bind, says_getWpm_bind]
  refine ⟨fun _ => ⟨fun hreceive => ?_, fun hother => ?_⟩, fun hno => absurd haddressed hno⟩
  · rw [if_pos (show receivable v.wpm item from hreceive)] at hanswers
    exact receiveItem_replies env hanswers.1 hanswers.2
  · rw [if_neg (show ¬ receivable v.wpm item from hother)] at hanswers
    refine ⟨fun _ => sendWaypointAck_replies env 0, fun hbusy => ?_⟩
    obtain ⟨hstate, hseq, hroom⟩ := hanswers.resolve_left hbusy
    exact ⟨fun _ => sendWaypointRequest_replies env hroom, fun hno => absurd ⟨hstate, hseq⟩ hno⟩

theorem handleMissionItem_replies_nothing (now : UInt64) {item : MissionItem F}
    (h : ¬ answersItem env v item) : Says [] (handleMissionItem env now item) v := by
  unfold handleMissionItem setLastaction
  refine .text ?_
  simp only [says_ite, says_modifyWpm_bind, says_getWpm_bind]
  refine ⟨fun haddressed => ?_, fun _ => .refl _⟩
  have hanswers := fun hanswers => h ⟨haddressed, hanswers⟩
  refine ⟨fun hreceive => ?_, fun hother => ?_⟩
  · rw [if_pos (show receivable v.wpm item from hreceive)] at hanswers
    exact receiveItem_replies_nothing env hanswers
  · rw [if_neg (show ¬ receivable v.wpm item from hother)] at hanswers
    refine ⟨fun hidle => absurd (.inl hidle) hanswers, fun _ => ⟨fun hagain => ?_, fun _ => ?_⟩⟩
    · exact sendWaypointRequest_replies_nothing env fun hroom =>
        hanswers (.inr ⟨hagain.1, hagain.2, hroom⟩)
    · exact .refl _

end

/-! ### The addressee -/

/-- The condition that fails: the message comes from another station than the partner, and the
handler replies without a look at its sender. It is a request for an empty list, or a waypoint. -/
def Misdirects (v : Vehicle F) (msg : Message F) : Prop :=
  msg.sender ≠ v.wpm.partner ∧
    match msg.payload with
    | .missionRequestList targetSystem _ => answersList env v targetSystem ∧ v.wpm.size = 0
    | .missionItem item => answersItem env v item
    | _ => False

/-- The law: every count, waypoint, request and acknowledgement that a message is answered with goes
to the station the message comes from. -/
def RepliesToSender (v : Vehicle F) (msg : Message F) (globalPos : GlobalPosition F)
    (localPos : LocalPosition F) : Prop :=
  ∀ r ∈ repliesOf (process env (.message msg globalPos localPos)) v, r = msg.sender

/-- The replies to a message, and when they all go to its sender. -/
theorem handlePayload_replies (now : UInt64) (v : Vehicle F) (msg : Message F) :
    ∃ rs, Says rs (handlePayload env now msg) v ∧
      ((∀ r ∈ rs, r = msg.sender) ↔ ¬ Misdirects env v msg) := by
  unfold handlePayload Misdirects
  have hnone : (∀ r ∈ ([] : List Station), r = msg.sender) ↔
      ¬ (msg.sender ≠ v.wpm.partner ∧ False) := by
    simp
  cases hpay : msg.payload with
  | missionAck ts _ _ => exact ⟨[], handleMissionAck_noReply env now _ ts v, hnone⟩
  | missionSetCurrent ts _ seq =>
      exact ⟨[], handleMissionSetCurrent_noReply env now ts seq v, hnone⟩
  | missionClearAll ts _ => exact ⟨[], handleMissionClearAll_noReply env now ts v, hnone⟩
  | missionRequest ts _ seq =>
      obtain ⟨rs, hreplies, hto⟩ := handleMissionRequest_replies env (v := v) now msg.sender ts seq
      exact ⟨rs, hreplies, by simpa using hto⟩
  | missionCount ts _ count =>
      obtain ⟨rs, hreplies, hto⟩ := handleMissionCount_replies env (v := v) now msg.sender ts count
      exact ⟨rs, hreplies, by simpa using hto⟩
  | missionRequestList ts _ =>
      by_cases h : answersList env v ts
      · refine ⟨_, handleMissionRequestList_replies env now msg.sender h, ?_⟩
        by_cases hsize : v.wpm.size = 0
        · have hempty : ¬ v.wpm.size > 0 := by simp [hsize]
          simp [h, hsize, eq_comm]
        · have hpos : v.wpm.size > 0 := UInt16.pos_iff_ne_zero.mpr hsize
          simp [hsize, hpos]
      · refine ⟨[], handleMissionRequestList_replies_nothing env now msg.sender h, ?_⟩
        simp [h]
  | missionItem item =>
      by_cases h : answersItem env v item
      · refine ⟨_, handleMissionItem_replies env now h, ?_⟩
        simp [h, eq_comm]
      · refine ⟨[], handleMissionItem_replies_nothing env now h, ?_⟩
        simp [h]
  | _ => exact ⟨[], .refl v, hnone⟩

/-- **When the replies go to the requester**: in every state and for every message, all replies to
the message go to its sender if and only if the message is from the partner of the transfer or is
not one that is answered without a look at the sender. -/
theorem replies_to_sender_iff (v : Vehicle F) (msg : Message F) (globalPos : GlobalPosition F)
    (localPos : LocalPosition F) :
    RepliesToSender env v msg globalPos localPos ↔ ¬ Misdirects env v msg := by
  obtain ⟨rs, hreplies, hiff⟩ := handlePayload_replies env (env.clock v.clockReads)
    { v with clockReads := v.clockReads + 1 } msg
  have hall : Says rs (process env (.message msg globalPos localPos)) v := by
    unfold process mavlinkWpmMessageHandler
    rw [says_getSystemTimestamp_bind]
    exact hreplies.then_noReply fun _ => checkWaypointsReached_noReply env _ _ _
  unfold RepliesToSender
  rw [hall.repliesOf_eq]
  exact hiff

end

/-- One station uploads a mission and clears it. -/
def clearedUpload : List (Event Unit) :=
  upload qgc 1 ++ [unitEvent qgc (.missionClearAll 100 mavlinkWpmCompId)]

/-- A second station then asks for the list, and the first one is told that it is empty. -/
theorem count_sent_to_other_station :
    ¬ ∀ v, (manager unitEnv).Reachable v → ∀ msg globalPos localPos,
      RepliesToSender unitEnv v msg globalPos localPos := by
  intro hall
  obtain ⟨v, hv⟩ := Option.isSome_iff_exists.mp
    (show (clearedUpload.foldlM nextVehicle (initial unitStorage)).isSome = true by decide +kernel)
  have hfirst : ∀ v ∈ clearedUpload.foldlM nextVehicle (initial unitStorage),
      repliesOf (process unitEnv (unitEvent apm (.missionRequestList 100 mavlinkWpmCompId))) v =
        [qgc] := by
    decide +kernel
  have hreach : (manager unitEnv).Reachable v :=
    ⟨_, clearedUpload, ⟨_, rfl⟩, .of_foldlM (fun _ _ _ => step_of_nextVehicle) hv⟩
  have hto : qgc = apm :=
    hall v hreach ⟨apm.sysid, apm.compid, .missionRequestList 100 mavlinkWpmCompId⟩
      ⟨0, 0, (), ()⟩ ⟨(), (), ()⟩ qgc (hfirst v hv ▸ List.mem_singleton.mpr rfl)
  exact absurd hto (by decide)

end Px4Firmware.Waypoints
