import Px4Firmware.Waypoints.Frame

/-!
# Px4Firmware.Waypoints.Effect

**What one event can do to a transfer**, said once (`Effect`), and that nothing else
happens (`process_effect`): a message or a tick either leaves the transfer alone, or
times it out, opens one, stores a waypoint, completes one, serves the list to a ground
station, or clears the list. The results about the transfer protocol are case
analyses on `Effect` and never unfold a handler.

One thing is excluded (`overflows`): an accepted waypoint whose sequence number is
not an index of the receive buffer. On such an event the manager writes past the end
of the buffer (`process_overflows`).
-/

namespace Px4Firmware.Waypoints

open Px4Firmware.Lib

section

variable {F : Type} (env : Env F)

/-- Is the waypoint addressed to the manager of this vehicle? -/
def addressed (item : MissionItem F) : Prop :=
  item.targetSystem = env.sysid ∧ item.targetComponent = mavlinkWpmCompId

/-- A count that is accepted opens a transfer. -/
def opensTransfer (v : Vehicle F) (targetSystem : UInt8) (count : UInt16) : Prop :=
  targetSystem = env.sysid ∧ countable v.wpm ∧ 0 < count

/-- A waypoint that is accepted is stored. -/
def storesItem (v : Vehicle F) (item : MissionItem F) : Prop :=
  addressed env item ∧ receivable v.wpm item

/-- Does the event open a transfer or store a waypoint? -/
def accepted (e : Event F) (v : Vehicle F) : Prop :=
  match e with
  | .message m _ _ =>
      match m.payload with
      | .missionCount targetSystem _ count => opensTransfer env v targetSystem count
      | .missionItem item => storesItem env v item
      | _ => False
  | .tick .. => False

/-- The states in which no transfer to the vehicle is open. -/
def WpmState.notReceiving (s : WpmState) : Prop :=
  s = .idle ∨ s = .sendlist ∨ s = .sendlistSendwps

/-- Is this one of the messages with which a ground station fetches the list? -/
def Payload.fetches : Payload F → Prop
  | .missionAck .. | .missionRequestList .. | .missionRequest .. => True
  | _ => False

/-- A waypoint without its `current` mark and its address. -/
def MissionItem.content (item : MissionItem F) : MissionItem F :=
  { item with current := 0, targetSystem := 0, targetComponent := 0 }

theorem content_of_unmarked {item item' : MissionItem F} (h : item.unmarked = item'.unmarked) :
    item.content = item'.content := by
  show ({ item.unmarked with targetSystem := 0, targetComponent := 0 } : MissionItem F) =
    { item'.unmarked with targetSystem := 0, targetComponent := 0 }
  rw [h]

/-- A waypoint is put into the receive buffer. -/
structure Received (item : MissionItem F) (v v' : Vehicle F) : Prop where
  index : item.seq.toNat < maxWpCount
  rcvWaypoints : v'.wpm.rcvWaypoints = v.wpm.rcvWaypoints.set item.seq.toNat item index
  currentWpId : v'.wpm.currentWpId = item.seq + 1
  currentCount : v'.wpm.currentCount = v.wpm.currentCount
  partner : v'.wpm.partner = v.wpm.partner

/-- The number of the next waypoint does not wrap around. -/
theorem Received.toNat_currentWpId {item : MissionItem F} {v v' : Vehicle F}
    (h : Received item v v') : v'.wpm.currentWpId.toNat = item.seq.toNat + 1 := by
  have hindex : item.seq.toNat < 15 := h.index
  rw [h.currentWpId, UInt16.toNat_add]
  simp only [UInt16.reduceToNat]
  omega

/-- The receive buffer has become the active list. -/
structure Switched (v v' : Vehicle F) : Prop where
  size : v'.wpm.size = v.wpm.currentCount
  waypoints : ∀ k (h : k < maxWpCount), k < v.wpm.currentCount.toNat →
    v'.wpm.waypoints[k].unmarked = v'.wpm.rcvWaypoints[k].unmarked
  currentState : v'.wpm.currentState = .idle
  reported : Reported v'

/-- What one event can do to a transfer. -/
inductive Effect : Event F → Vehicle F → Vehicle F → Prop
  /-- An event that is not accepted leaves the transfer alone. -/
  | unchanged {e : Event F} {v v' : Vehicle F} :
      ¬ accepted env e v → Unchanged v v' → Effect e v v'
  /-- A tick abandons the transfer. -/
  | timedOut {now : UInt64} {g : GlobalPosition F} {l : LocalPosition F} {v v' : Vehicle F} :
      ActiveKept v v' → v'.wpm.currentState = .idle → Effect (.tick now g l) v v'
  /-- A count opens a transfer, or opens it again. -/
  | opened {m : Message F} {g : GlobalPosition F} {l : LocalPosition F} {v v' : Vehicle F}
      {targetComponent : UInt8} {count : UInt16} :
      m.payload = .missionCount env.sysid targetComponent count →
      opensTransfer env v env.sysid count → ActiveKept v v' → v'.wpm.currentState = .getlist →
      v'.wpm.currentWpId = 0 → v'.wpm.currentCount = count → v'.wpm.partner = m.sender →
      Effect (.message m g l) v v'
  /-- The expected waypoint is stored. -/
  | stored {m : Message F} {g : GlobalPosition F} {l : LocalPosition F} {v v' : Vehicle F}
      {item : MissionItem F} :
      m.payload = .missionItem item → storesItem env v item →
      Received item v v' → item.seq + 1 ≠ v.wpm.currentCount → ActiveKept v v' →
      v'.wpm.currentState = .getlistGetwps → Effect (.message m g l) v v'
  /-- The last waypoint is stored, and the transfer is complete. -/
  | completed {m : Message F} {g : GlobalPosition F} {l : LocalPosition F} {v v' : Vehicle F}
      {item : MissionItem F} :
      m.payload = .missionItem item → storesItem env v item →
      Received item v v' → item.seq + 1 = v.wpm.currentCount → Switched v v' →
      Effect (.message m g l) v v'
  /-- A ground station fetches the list. -/
  | served {m : Message F} {g : GlobalPosition F} {l : LocalPosition F} {v v' : Vehicle F} :
      m.payload.fetches → v.wpm.currentState.notReceiving →
      v'.wpm.currentState.notReceiving → v'.wpm.size = v.wpm.size →
      (∀ k (h : k < maxWpCount), v'.wpm.waypoints[k].content = v.wpm.waypoints[k].content) →
      Effect (.message m g l) v v'
  /-- The list is cleared. -/
  | cleared {m : Message F} {g : GlobalPosition F} {l : LocalPosition F} {v v' : Vehicle F}
      {targetComponent : UInt8} :
      m.payload = .missionClearAll env.sysid targetComponent →
      v'.wpm.currentState = .idle → v'.wpm.size = 0 → Effect (.message m g l) v v'

variable {env}

theorem Effect.then_unchanged {e : Event F} {v v' v'' : Vehicle F} (h : Effect env e v v')
    (h' : Unchanged v' v'') : Effect env e v v'' := by
  cases h with
  | unchanged hno hsame => exact .unchanged hno (hsame.trans h')
  | timedOut hkept hidle =>
      exact .timedOut (hkept.trans h'.toActiveKept) (h'.currentState.trans hidle)
  | opened hpay hopens hkept hstate hid hcnt hpartner =>
      exact .opened hpay hopens (hkept.trans h'.toActiveKept) (h'.currentState.trans hstate)
        (h'.currentWpId.trans hid) (h'.currentCount.trans hcnt) (h'.partner.trans hpartner)
  | stored hpay hstores hreceived hmore hkept hstate =>
      refine .stored hpay hstores ?_ hmore (hkept.trans h'.toActiveKept)
        (h'.currentState.trans hstate)
      exact ⟨hreceived.index, h'.rcvWaypoints.trans hreceived.rcvWaypoints,
        h'.currentWpId.trans hreceived.currentWpId,
        h'.currentCount.trans hreceived.currentCount, h'.partner.trans hreceived.partner⟩
  | completed hpay hstores hreceived hlast hswitched =>
      refine .completed hpay hstores ?_ hlast ?_
      · exact ⟨hreceived.index, h'.rcvWaypoints.trans hreceived.rcvWaypoints,
          h'.currentWpId.trans hreceived.currentWpId,
          h'.currentCount.trans hreceived.currentCount, h'.partner.trans hreceived.partner⟩
      · refine ⟨h'.size.trans hswitched.size, fun k hk hcount => ?_,
          h'.currentState.trans hswitched.currentState, h'.reported.mpr hswitched.reported⟩
        simp only [h'.waypoints k hk, h'.rcvWaypoints]
        exact hswitched.waypoints k hk hcount
  | served hpay hstate hstate' hsize hcontent =>
      exact .served hpay hstate (by rw [h'.currentState]; exact hstate') (h'.size.trans hsize)
        fun k hk => (content_of_unmarked (h'.waypoints k hk)).trans (hcontent k hk)
  | cleared hpay hstate hsize =>
      exact .cleared hpay (h'.currentState.trans hstate) (h'.size.trans hsize)

theorem receivable_congr {v v' : Vehicle F} (h : Unchanged v v') (item : MissionItem F) :
    receivable v'.wpm item ↔ receivable v.wpm item := by
  unfold receivable
  rw [h.currentState, h.currentWpId, h.currentCount]

theorem countable_congr {v v' : Vehicle F} (h : Unchanged v v') :
    countable v'.wpm ↔ countable v.wpm := by
  unfold countable
  rw [h.currentState, h.currentWpId]

theorem opensTransfer_congr {v v' : Vehicle F} (h : Unchanged v v') (ts : UInt8)
    (count : UInt16) : opensTransfer env v' ts count ↔ opensTransfer env v ts count :=
  and_congr_right fun _ => and_congr_left fun _ => countable_congr h

theorem storesItem_congr {v v' : Vehicle F} (h : Unchanged v v') (item : MissionItem F) :
    storesItem env v' item ↔ storesItem env v item :=
  and_congr_right fun _ => receivable_congr h item

theorem accepted_congr {v v' : Vehicle F} (h : Unchanged v v') (e : Event F) :
    accepted env e v' ↔ accepted env e v := by
  unfold accepted
  split
  · split
    · exact opensTransfer_congr h _ _
    · exact storesItem_congr h _
    · exact Iff.rfl
  · exact Iff.rfl

theorem Received.after_unchanged {v v' v'' : Vehicle F} {item : MissionItem F}
    (h : Unchanged v v') (h' : Received item v' v'') : Received item v v'' where
  index := h'.index
  rcvWaypoints := by
    have hset := h'.rcvWaypoints
    simp only [h.rcvWaypoints] at hset
    exact hset
  currentWpId := h'.currentWpId
  currentCount := h'.currentCount.trans h.currentCount
  partner := h'.partner.trans h.partner

theorem Effect.after_unchanged {e : Event F} {v v' v'' : Vehicle F} (h : Unchanged v v')
    (h' : Effect env e v' v'') : Effect env e v v'' := by
  cases h' with
  | unchanged hno hsame => exact .unchanged (mt (accepted_congr h e).mpr hno) (h.trans hsame)
  | timedOut hkept hidle => exact .timedOut (h.toActiveKept.trans hkept) hidle
  | opened hpay hopens hkept hstate hid hcnt hpartner =>
      exact .opened hpay ((opensTransfer_congr h _ _).mp hopens) (h.toActiveKept.trans hkept)
        hstate hid hcnt hpartner
  | stored hpay hstores hreceived hmore hkept hstate =>
      refine .stored hpay ((storesItem_congr h _).mp hstores) (.after_unchanged h hreceived) ?_
        (h.toActiveKept.trans hkept) hstate
      rw [← h.currentCount]
      exact hmore
  | completed hpay hstores hreceived hlast hswitched =>
      refine .completed hpay ((storesItem_congr h _).mp hstores) (.after_unchanged h hreceived)
        (hlast.trans h.currentCount) ⟨hswitched.size.trans h.currentCount, fun k hk hkn => ?_,
          hswitched.currentState, hswitched.reported⟩
      exact hswitched.waypoints k hk (by rw [h.currentCount]; exact hkn)
  | served hpay hstate hstate' hsize hcontent =>
      exact .served hpay (by rw [← h.currentState]; exact hstate) hstate' (hsize.trans h.size)
        fun k hk => (hcontent k hk).trans (content_of_unmarked (h.waypoints k hk))
  | cleared hpay hstate hsize => exact .cleared hpay hstate hsize

/-- No event makes the active list outgrow its array. -/
theorem Effect.bounded {e : Event F} {v v' : Vehicle F} (h : Effect env e v v')
    (hv : Bounded v) : Bounded v' := by
  cases h with
  | unchanged _ hsame => exact hsame.bounded hv
  | timedOut hkept => exact hkept.bounded hv
  | opened _ _ hkept => exact hkept.bounded hv
  | stored _ _ _ _ hkept => exact hkept.bounded hv
  | completed _ _ hreceived hlast hswitched =>
      unfold Bounded
      rw [hswitched.size, ← hlast, ← hreceived.currentWpId, hreceived.toNat_currentWpId]
      exact hreceived.index
  | served _ _ _ hsize =>
      unfold Bounded
      rw [hsize]
      exact hv
  | cleared _ _ hsize =>
      unfold Bounded
      rw [hsize]
      decide

end

section

variable {F : Type} (env : Env F)

/-! ### The message kinds -/

variable {msg : Message F} {g : GlobalPosition F} {l : LocalPosition F}

/-- Nothing a transfer looks at is changed, and one text other than the announcement of
a complete transfer is sent. -/
theorem Unchanged.text {v : Vehicle F} {w : WpmStorage F} {text : String}
    (hw : Unchanged v { v with wpm := w }) (htext : text ≠ gotAllWps) :
    Unchanged v { v with wpm := w, sent := v.sent ++ [.gcsString text] } :=
  .of_sent hw ⟨_, rfl, by simpa using htext.symm⟩

/-- A text that is sent under a condition. -/
theorem sendGcsStringIf_unchanged (c : Prop) [Decidable c] {text : String}
    (htext : text ≠ gotAllWps) (v : Vehicle F) :
    wp (sendGcsStringIf c text) (fun _ v' => Unchanged v v' ∧ v'.wpm = v.wpm) v := by
  unfold sendGcsStringIf
  rw [wp_ite, wp_sendGcsString]
  exact ⟨fun _ => ⟨.text (.refl v) htext, rfl⟩, fun _ => ⟨.refl v, rfl⟩⟩

/-- The request for the next waypoint, if there is room for it. -/
theorem sendWaypointRequest_unchanged (seq : UInt16) (v : Vehicle F) :
    wp (sendWaypointRequest env seq) (fun _ v' => Unchanged v v') v := by
  unfold sendWaypointRequest
  simp only [wp_bind, wp_getWpm, wp_ite, wp_sendMessage, wp_pure]
  exact ⟨fun _ => .of_sent (.refl v) ⟨_, rfl, by simp⟩, fun _ => .refl v⟩

theorem sendWaypointAck_unchanged (type : UInt8) (v : Vehicle F) :
    wp (sendWaypointAck env type) (fun _ v' => Unchanged v v') v := by
  unfold sendWaypointAck
  simp only [wp_bind, wp_getWpm, wp_sendMessage]
  exact .of_sent (.refl v) ⟨_, rfl, by simp⟩

theorem handleMissionAck_effect {ts tc type : UInt8}
    (hpay : msg.payload = .missionAck ts tc type) (now : UInt64) (v : Vehicle F) :
    wp (handleMissionAck env now msg.sender ts)
      (fun _ v' => Effect env (.message msg g l) v v') v := by
  have hno : ¬ accepted env (.message msg g l) v := by simp [accepted, hpay]
  unfold handleMissionAck setLastaction
  simp only [wp_bind, wp_getWpm, wp_ite, wp_modifyWpm, wp_sendGcsString, wp_pure]
  refine ⟨fun _ => ⟨fun hsending => ⟨fun _ => ?_, fun _ => ?_⟩, fun _ => ?_⟩, fun _ => ?_⟩
  · exact .served (by rw [hpay]; trivial) (.inr hsending) (.inl rfl) rfl fun _ _ => rfl
  · exact .unchanged hno (.side v rfl)
  · exact .unchanged hno (.side v rfl)
  · exact .unchanged hno (.text (.refl v) (by decide))

/-- Marking waypoints of the active list, one by one. -/
theorem markCurrent_unchanged {n : Nat} (hn : n ≤ maxWpCount) (seq : UInt16) (v : Vehicle F) :
    wp ((List.range n).forM fun i =>
        modifyWaypoint i fun wp => { wp with current := if i = seq.toNat then 1 else 0 })
      (fun _ v' => Unchanged v v') v := by
  refine wp_forM_range (fun _ v' => Unchanged v v') (fun i hi t ht => ?_) (.refl v)
  rw [wp_modifyWaypoint]
  have hindex : i < maxWpCount := Nat.lt_of_lt_of_le hi hn
  exact ⟨hindex, ht.trans (.mark t hindex (.side t rfl) rfl rfl)⟩

theorem setCurrent_unchanged {v : Vehicle F} (hv : Bounded v) (seq : UInt16) :
    wp (setCurrent env seq) (fun _ v' => Unchanged v v') v := by
  unfold setCurrent
  simp only [wp_bind, wp_getWpm, wp_modifyWpm, wp_sendGcsString]
  refine (markCurrent_unchanged hv seq _).mono fun _ v₁ h₁ => ?_
  have h₁ : Unchanged v v₁ := .trans (.side v rfl) h₁
  have hbounded : Bounded v₁ := h₁.bounded hv
  refine (sendWaypointCurrent_sendsOnly env ?_ seq).mono fun _ v₂ h₂ => ?_
  · exact hbounded
  have h₂ : Unchanged v₁ v₂ := .trans (.text (.side v₁ rfl) (by decide)) h₂.1
  refine (sendSetpoint_sendsOnly env ((h₁.trans h₂).bounded hv) seq).mono fun _ v₃ h₃ => ?_
  exact ((h₁.trans h₂).trans h₃.1).trans (.side v₃ rfl)

theorem handleMissionSetCurrent_effect {v : Vehicle F} (hv : Bounded v) {ts tc : UInt8}
    {seq : UInt16} (hpay : msg.payload = .missionSetCurrent ts tc seq) (now : UInt64) :
    wp (handleMissionSetCurrent env now ts seq)
      (fun _ v' => Effect env (.message msg g l) v v') v := by
  have hno : ¬ accepted env (.message msg g l) v := by simp [accepted, hpay]
  unfold handleMissionSetCurrent setLastaction
  simp only [wp_bind, wp_getWpm, wp_ite, wp_modifyWpm, wp_sendGcsString]
  refine ⟨fun _ => ⟨fun _ => ⟨fun _ => ?_, fun _ => ?_⟩, fun _ => ?_⟩, fun _ => ?_⟩
  · refine (setCurrent_unchanged env ?_ seq).mono fun _ t ht => ?_
    · exact hv
    · exact .unchanged hno (.trans (.side v rfl) ht)
  · exact .unchanged hno (.text (.side v rfl) (by decide))
  · exact .unchanged hno (.text (.side v rfl) (by decide))
  · exact .unchanged hno (.text (.refl v) (by decide))

theorem handleMissionRequestList_effect {ts tc : UInt8}
    (hpay : msg.payload = .missionRequestList ts tc) (now : UInt64) (v : Vehicle F) :
    wp (handleMissionRequestList env now msg.sender ts)
      (fun _ v' => Effect env (.message msg g l) v v') v := by
  have hno : ¬ accepted env (.message msg g l) v := by simp [accepted, hpay]
  have hfetches : msg.payload.fetches := by rw [hpay]; trivial
  unfold handleMissionRequestList setLastaction sendWaypointCount
  simp only [wp_bind, wp_getWpm, wp_ite, wp_modifyWpm, wp_sendMessage, wp_pure]
  refine ⟨fun _ => ⟨fun hstate => ?_, fun _ => .unchanged hno (.side v rfl)⟩,
    fun _ => .unchanged hno (.refl v)⟩
  have hstate' : v.wpm.currentState.notReceiving := hstate.imp_right .inl
  exact ⟨fun _ => .served hfetches hstate' (.inr (.inl rfl)) rfl fun _ _ => rfl,
    fun _ => .served hfetches hstate' hstate' rfl fun _ _ => rfl⟩

/-- No refusal is the announcement of a complete transfer. -/
theorem requestRefusal_ne {w : WpmStorage F} {seq : UInt16} {text : String}
    (h : requestRefusal w seq = some text) : text ≠ gotAllWps := by
  unfold requestRefusal at h
  split at h
  · split at h <;> cases h
    decide
  · split at h
    · cases h
      decide
    · split at h <;> cases h
      decide
  · cases h
    decide

/-- Addressing and sending a waypoint changes its address. -/
theorem sendWaypoint_content {v : Vehicle F} (hv : Bounded v) (seq : UInt16) :
    wp (sendWaypoint env seq) (fun _ v' =>
      v'.wpm.currentState = v.wpm.currentState ∧ v'.wpm.size = v.wpm.size ∧
      ∀ k (h : k < maxWpCount), v'.wpm.waypoints[k].content = v.wpm.waypoints[k].content) v := by
  unfold sendWaypoint
  simp only [wp_bind, wp_getWpm, wp_ite, wp_pure, wp_modifyWaypoint, wp_readWaypoint,
    wp_sendMessage, true_and]
  refine ⟨fun h => ?_, fun _ _ _ => trivial⟩
  have hindex := index_lt hv h
  exact ⟨hindex, hindex, part_set MissionItem.content _ hindex rfl⟩

/-- Serving a request changes addresses of the active list, and the sending state. -/
theorem serveRequest_served {v : Vehicle F} (hv : Bounded v) (seq : UInt16) :
    wp (serveRequest env seq) (fun _ v' =>
      v'.wpm.currentState = .sendlistSendwps ∧ v'.wpm.size = v.wpm.size ∧
      ∀ k (h : k < maxWpCount), v'.wpm.waypoints[k].content = v.wpm.waypoints[k].content) v := by
  unfold serveRequest
  simp only [wp_bind, wp_getWpm]
  refine (sendGcsStringIf_unchanged _ ?_ v).mono fun _ v₁ h₁ => ?_
  · decide
  refine (sendGcsStringIf_unchanged _ ?_ v₁).mono fun _ v₂ h₂ => ?_
  · decide
  refine (sendGcsStringIf_unchanged _ ?_ v₂).mono fun _ v₃ h₃ => ?_
  · decide
  have hwpm : v₃.wpm = v.wpm := (h₃.2.trans h₂.2).trans h₁.2
  rw [wp_modifyWpm, hwpm]
  refine sendWaypoint_content env ?_ seq
  exact hv

theorem handleMissionRequest_effect {v : Vehicle F} (hv : Bounded v) {ts tc : UInt8}
    {seq : UInt16} (hpay : msg.payload = .missionRequest ts tc seq) (now : UInt64) :
    wp (handleMissionRequest env now msg.sender ts seq)
      (fun _ v' => Effect env (.message msg g l) v v') v := by
  have hno : ¬ accepted env (.message msg g l) v := by simp [accepted, hpay]
  unfold handleMissionRequest setLastaction
  simp only [wp_bind, wp_getWpm, wp_ite, wp_modifyWpm, wp_sendGcsString]
  refine ⟨fun _ => ⟨fun hreq => ?_, fun _ => ?_⟩,
    fun _ => ⟨fun _ => .unchanged hno (.text (.refl v) (by decide)),
      fun _ => .unchanged hno (.text (.refl v) (by decide))⟩⟩
  · have hstate : v.wpm.currentState.notReceiving := hreq.elim (fun h => .inr (.inl h.1))
      fun h => .inr (.inr h.1)
    refine (serveRequest_served env ?_ seq).mono ?_
    · exact hv
    · rintro _ v' ⟨hstate', hsize, hcontent⟩
      exact .served (by rw [hpay]; trivial) hstate (.inr (.inr hstate')) hsize hcontent
  · cases htext : requestRefusal v.wpm seq with
    | none => exact .unchanged hno (.side v rfl)
    | some text => exact .unchanged hno (.text (.side v rfl) (requestRefusal_ne htext))

theorem handleMissionClearAll_effect {ts tc : UInt8}
    (hpay : msg.payload = .missionClearAll ts tc) (now : UInt64) (v : Vehicle F) :
    wp (handleMissionClearAll env now ts)
      (fun _ v' => Effect env (.message msg g l) v v') v := by
  have hno : ¬ accepted env (.message msg g l) v := by simp [accepted, hpay]
  unfold handleMissionClearAll setLastaction
  simp only [wp_bind, wp_getWpm, wp_ite, wp_modifyWpm, wp_pure]
  refine ⟨fun h => ?_, fun _ => .unchanged hno (.refl v)⟩
  exact .cleared (by rw [hpay, h.1]) h.2 rfl

/-- Opening a transfer. -/
theorem openTransfer_effect {v : Vehicle F} {ts tc : UInt8} {count : UInt16}
    (hpay : msg.payload = .missionCount ts tc count)
    (hopens : opensTransfer env v ts count) :
    wp (openTransfer env msg.sender count)
      (fun _ v' => Effect env (.message msg g l) v v') v := by
  unfold openTransfer
  simp only [wp_bind, wp_getWpm]
  refine (sendGcsStringIf_unchanged _ ?_ v).mono fun _ v₁ h₁ => ?_
  · decide
  refine (sendGcsStringIf_unchanged _ ?_ v₁).mono fun _ v₂ h₂ => ?_
  · decide
  have hkept := (h₁.1.trans h₂.1).toActiveKept
  simp only [wp_modifyWpm, wp_sendGcsString]
  refine (sendWaypointRequest_unchanged env _ _).mono fun _ v₃ h₃ => ?_
  refine Effect.then_unchanged ?_ h₃
  refine .opened (by rw [hpay, hopens.1]) (hopens.1 ▸ hopens)
    ⟨hkept.size, hkept.waypoints, ?_⟩ rfl rfl rfl rfl
  exact (Reported.append rfl (by simp [gotAllWps])).trans hkept.reported

theorem handleMissionCount_effect {ts tc : UInt8} {count : UInt16}
    (hpay : msg.payload = .missionCount ts tc count) (now : UInt64) (v : Vehicle F) :
    wp (handleMissionCount env now msg.sender ts count)
      (fun _ v' => Effect env (.message msg g l) v v') v := by
  have hno (h : ¬ opensTransfer env v ts count) : ¬ accepted env (.message msg g l) v := by
    simp only [accepted, hpay]
    exact h
  unfold handleMissionCount setLastaction
  simp only [wp_bind, wp_getWpm, wp_ite, wp_modifyWpm, wp_sendGcsString]
  refine ⟨fun hts => ⟨fun hcount => ⟨fun hpos => ?_, fun hzero => ?_⟩, fun hbusy => ?_⟩,
    fun htarget => ?_⟩
  · refine (openTransfer_effect env (g := g) (l := l) hpay ⟨hts, ?_, hpos⟩).mono fun _ v' h => ?_
    · exact hcount
    · exact .after_unchanged (.side v rfl) h
  · exact .unchanged (hno fun h => hzero h.2.2) (.text (.side v rfl) (by decide))
  · exact .unchanged (hno fun h => hbusy h.2.1) (.text (.side v rfl) (by decide))
  · exact .unchanged (hno fun h => htarget h.1) (.text (.refl v) (by decide))

/-- The search for the current waypoint stays inside the list. -/
theorem firstCurrent_le (v : Vehicle F) (n : Nat) :
    ∀ i, i + n ≤ maxWpCount → wp (firstCurrent i n) (fun j v' => v' = v ∧ j ≤ i + n) v := by
  induction n with
  | zero => exact fun i _ => ⟨rfl, Nat.le_refl i⟩
  | succ n ih =>
      intro i hi
      unfold firstCurrent
      simp only [wp_bind, wp_readWaypoint, wp_ite, wp_pure]
      refine ⟨by omega, fun _ => ⟨trivial, by omega⟩, fun _ => ?_⟩
      refine (ih (i + 1) (by omega)).mono ?_
      rintro j v' ⟨rfl, hj⟩
      exact ⟨rfl, by omega⟩

/-- A loop that sets the waypoints of the active list one after the other. -/
theorem wp_forM_waypoints {n : Nat} (hn : n ≤ maxWpCount) {body : Nat → Exec F Unit}
    {P : ∀ k : Nat, k < maxWpCount → MissionItem F → Prop} (v : Vehicle F)
    (hbody : ∀ i (hi : i < maxWpCount) (ws : Vector (MissionItem F) maxWpCount),
      wp (body i) (fun _ v' => ∃ item, P i hi item ∧
          v' = { v with wpm := { v.wpm with waypoints := ws.set i item } })
        { v with wpm := { v.wpm with waypoints := ws } }) :
    wp ((List.range n).forM body)
      (fun _ v' => ∃ ws : Vector (MissionItem F) maxWpCount,
        v' = { v with wpm := { v.wpm with waypoints := ws } } ∧
        ∀ k (h : k < maxWpCount), k < n → P k h ws[k]) v := by
  refine wp_forM_range (fun i v' => ∃ ws : Vector (MissionItem F) maxWpCount,
    v' = { v with wpm := { v.wpm with waypoints := ws } } ∧
    ∀ k (h : k < maxWpCount), k < i → P k h ws[k]) ?_ ?_
  · rintro i hi _ ⟨ws, rfl, hws⟩
    have hindex : i < maxWpCount := Nat.lt_of_lt_of_le hi hn
    refine (hbody i hindex ws).mono ?_
    rintro _ _ ⟨item, hitem, rfl⟩
    refine ⟨_, rfl, fun k hk hki => ?_⟩
    rw [Vector.getElem_set]
    by_cases hik : i = k
    · subst hik
      rw [if_pos rfl]
      exact hitem
    · rw [if_neg hik]
      exact hws k hk (by omega)
  · exact ⟨v.wpm.waypoints, rfl, fun k _ hk => absurd hk (Nat.not_lt_zero k)⟩

/-- Copying the first `n` waypoints of the receive buffer into the active list. -/
theorem copyWaypoints {n : Nat} (hn : n ≤ maxWpCount) (v : Vehicle F) :
    wp ((List.range n).forM fun i => do writeWaypoint i (← readRcvWaypoint i))
      (fun _ v' => ∃ ws : Vector (MissionItem F) maxWpCount,
        v' = { v with wpm := { v.wpm with waypoints := ws } } ∧
        ∀ k (h : k < maxWpCount), k < n → ws[k] = v.wpm.rcvWaypoints[k]) v := by
  refine wp_forM_waypoints (P := fun k _ item => item = v.wpm.rcvWaypoints[k]) hn v
    fun i hi ws => ?_
  simp only [wp_bind, wp_readRcvWaypoint, wp_writeWaypoint]
  exact ⟨hi, hi, _, rfl, rfl⟩

theorem selectCurrent_unchanged {v : Vehicle F} (hv : Bounded v) :
    wp (selectCurrent env) (fun _ v' => Unchanged v v') v := by
  unfold selectCurrent
  simp only [wp_bind, wp_getWpm]
  refine (firstCurrent_le v _ 0 (by rw [Nat.zero_add]; exact hv)).mono ?_
  rintro i v' ⟨rfl, -⟩
  simp only [wp_ite, wp_bind, wp_getWpm, wp_modifyWpm]
  refine ⟨fun _ => ?_, fun _ => .side v' rfl⟩
  refine announce_sendsOnly env hv fun v'' hv'' => ?_
  exact .trans (.trans (.side v' rfl) hv''.1) (.side v'' rfl)

/-- The receive buffer becomes the active list. -/
theorem switchWaypoints_switched {v : Vehicle F}
    (hcount : v.wpm.currentCount.toNat ≤ maxWpCount) :
    wp (switchWaypoints env) (fun _ v' => Switched v v' ∧
      v'.wpm.rcvWaypoints = v.wpm.rcvWaypoints ∧ v'.wpm.currentWpId = v.wpm.currentWpId ∧
      v'.wpm.currentCount = v.wpm.currentCount ∧ v'.wpm.partner = v.wpm.partner) v := by
  unfold switchWaypoints sendWaypointAck
  simp only [wp_bind, wp_getWpm, wp_modifyWpm, wp_sendGcsString, wp_sendMessage]
  refine (copyWaypoints hcount _).mono ?_
  rintro _ _ ⟨ws, rfl, hws⟩
  refine (selectCurrent_unchanged env ?_).mono fun _ v' hv' => ?_
  · exact hcount
  refine ⟨⟨hv'.size, fun k hk hkn => ?_, rfl, ?_⟩, hv'.rcvWaypoints, hv'.currentWpId,
    hv'.currentCount, hv'.partner⟩
  · have hcopied : v'.wpm.waypoints[k].unmarked = ws[k].unmarked := hv'.waypoints k hk
    have hrcv : v'.wpm.rcvWaypoints[k] = v.wpm.rcvWaypoints[k] := by
      simp only [hv'.rcvWaypoints]
    show v'.wpm.waypoints[k].unmarked = v'.wpm.rcvWaypoints[k].unmarked
    rw [hcopied, hrcv, hws k hk hkn]
  · exact hv'.reported.mpr (by simp [Reported])

/-- Is the event an accepted waypoint whose sequence number is no index of the receive
buffer? -/
def overflows (e : Event F) (v : Vehicle F) : Prop :=
  match e with
  | .message m _ _ =>
      match m.payload with
      | .missionItem item => storesItem env v item ∧ maxWpCount ≤ item.seq.toNat
      | _ => False
  | .tick .. => False

/-- With the last waypoint inside of the buffer, so is the whole list. -/
theorem count_le_of_last {seq count : UInt16} (hindex : seq.toNat < maxWpCount)
    (hlast : seq + 1 = count) : count.toNat ≤ maxWpCount := by
  rw [← hlast, UInt16.toNat_add]
  simp only [UInt16.reduceToNat]
  omega

/-- Receiving an accepted waypoint: it is stored, and it is the last one or the next one
is requested. -/
theorem receiveItem_effect {v : Vehicle F} {item : MissionItem F}
    (hpay : msg.payload = .missionItem item) (hstores : storesItem env v item)
    (hindex : item.seq.toNat < maxWpCount) :
    wp (receiveItem env item) (fun _ v' => Effect env (.message msg g l) v v') v := by
  unfold receiveItem
  simp only [wp_bind, wp_getWpm, wp_modifyWpm, wp_writeRcvWaypoint, wp_ite, and_true]
  refine ⟨hindex, fun hlast => ?_, fun hmore => ?_⟩
  · refine (switchWaypoints_switched env ?_).mono ?_
    · exact count_le_of_last hindex hlast
    rintro _ v' ⟨hswitched, hrcv', hid, hcnt, hpartner⟩
    exact .completed hpay hstores ⟨hindex, hrcv', hid, hcnt, hpartner⟩ hlast
      ⟨hswitched.size, hswitched.waypoints, hswitched.currentState, hswitched.reported⟩
  · refine (sendWaypointRequest_unchanged env _ _).mono fun _ v' hv' => ?_
    refine Effect.then_unchanged ?_ hv'
    exact .stored hpay hstores ⟨hindex, rfl, rfl, rfl, rfl⟩ hmore ⟨rfl, fun _ _ => rfl, Iff.rfl⟩ rfl

theorem handleMissionItem_effect {v : Vehicle F} {item : MissionItem F}
    (hpay : msg.payload = .missionItem item)
    (hin : ¬ overflows env (.message msg g l) v) (now : UInt64) :
    wp (handleMissionItem env now item)
      (fun _ v' => Effect env (.message msg g l) v v') v := by
  have hindex (hstores : storesItem env v item) : item.seq.toNat < maxWpCount := by
    refine Nat.lt_of_not_le fun hle => hin ?_
    simp only [overflows, hpay]
    exact ⟨hstores, hle⟩
  have hno (h : ¬ storesItem env v item) : ¬ accepted env (.message msg g l) v := by
    simp only [accepted, hpay]
    exact h
  unfold handleMissionItem setLastaction
  simp only [wp_bind, wp_getWpm, wp_ite, wp_modifyWpm, wp_sendGcsString, wp_pure]
  have hstart {w : WpmStorage F} (hw : Unchanged v { v with wpm := w }) :
      Unchanged v { v with wpm := w, sent := v.sent ++ [.gcsString "GOT WP"] } :=
    .text hw (by decide)
  refine ⟨fun haddr => ⟨fun hrcv => ?_, fun hnext => ?_⟩, fun hother => ?_⟩
  · refine (receiveItem_effect env (g := g) (l := l) hpay ⟨haddr, ?_⟩ (hindex ⟨haddr, hrcv⟩)).mono
      fun _ v' h => ?_
    · exact hrcv
    · exact .after_unchanged (hstart (.side v rfl)) h
  · have hno := hno fun h => hnext h.2
    refine ⟨fun _ => ?_, fun _ => ⟨fun _ => ?_, fun _ => ?_⟩⟩
    · exact (sendWaypointAck_unchanged env 0 _).mono fun _ v' hv' =>
        .unchanged hno (.trans (hstart (.side v rfl)) hv')
    · exact (sendWaypointRequest_unchanged env _ _).mono fun _ v' hv' =>
        .unchanged hno (.trans (hstart (.side v rfl)) hv')
    · exact .unchanged hno (hstart (.side v rfl))
  · exact .unchanged (hno fun h => hother h.1) (hstart (.refl v))

/-! ### One event -/

/-- Whatever kind the message is of. -/
theorem handlePayload_effect {v : Vehicle F} (hv : Bounded v)
    (hin : ¬ overflows env (.message msg g l) v) (now : UInt64) :
    wp (handlePayload env now msg) (fun _ v' => Effect env (.message msg g l) v v') v := by
  unfold handlePayload
  cases hpay : msg.payload with
  | missionAck => exact handleMissionAck_effect env hpay now v
  | missionSetCurrent => exact handleMissionSetCurrent_effect env hv hpay now
  | missionRequestList => exact handleMissionRequestList_effect env hpay now v
  | missionRequest => exact handleMissionRequest_effect env hv hpay now
  | missionCount => exact handleMissionCount_effect env hpay now v
  | missionItem => exact handleMissionItem_effect env hpay hin now
  | missionClearAll => exact handleMissionClearAll_effect env hpay now v
  | _ => exact .unchanged (by simp [accepted, hpay]) (.refl v)

/-- The protocol timeout. -/
theorem mavlinkWaypointEventloop_effect {v : Vehicle F} (hv : Bounded v) (now : UInt64) :
    wp (mavlinkWaypointEventloop env now g l)
      (fun _ v' => Effect env (.tick now g l) v v') v := by
  have hcheck {v₁ : Vehicle F} (h : Effect env (.tick now g l) v v₁) :
      wp (checkWaypointsReached env now g l) (fun _ v' => Effect env (.tick now g l) v v') v₁ :=
    (checkWaypointsReached_unchanged env (h.bounded hv) now g l).mono fun _ _ h' =>
      h.then_unchanged h'
  unfold mavlinkWaypointEventloop
  simp only [wp_bind, wp_getWpm, wp_ite, wp_modifyWpm, wp_sendGcsString]
  refine ⟨fun _ => ⟨fun _ => hcheck ?_, fun _ => hcheck ?_⟩,
    fun _ => hcheck (.unchanged id (.refl v))⟩
  · exact .timedOut ⟨rfl, fun _ _ => rfl, Reported.append rfl (by simp [gotAllWps])⟩ rfl
  · exact .timedOut ⟨rfl, fun _ _ => rfl, Reported.append rfl (by simp [gotAllWps])⟩ rfl

/-- **What one event does.** Every event that does not overflow the receive buffer is
processed to its end, inside both arrays, and does to the transfer one of the things
`Effect` lists. -/
theorem process_effect {e : Event F} {v : Vehicle F} (hv : Bounded v) (hin : ¬ overflows env e v) :
    wp (process env e) (fun _ v' => Effect env e v v') v := by
  cases e with
  | tick now g l => exact mavlinkWaypointEventloop_effect env hv now
  | message m g l =>
      unfold process mavlinkWpmMessageHandler
      simp only [wp_bind, wp_getSystemTimestamp]
      have hpayload := handlePayload_effect env (v := { v with clockReads := v.clockReads + 1 })
        (g := g) (l := l) hv hin (env.clock v.clockReads)
      refine hpayload.mono fun _ v₁ h => ?_
      have hclock : Unchanged v { v with clockReads := v.clockReads + 1 } :=
        ⟨⟨rfl, fun _ _ => rfl, Iff.rfl⟩, rfl, rfl, rfl, rfl, rfl⟩
      have h := Effect.after_unchanged hclock h
      exact (checkWaypointsReached_unchanged env (h.bounded hv) _ g l).mono fun _ _ h' =>
        h.then_unchanged h'

end

end Px4Firmware.Waypoints
