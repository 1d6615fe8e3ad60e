import Px4Firmware.Waypoints.Current

/-!
# Px4Firmware.Waypoints.RoundTrip

**What is uploaded is what is downloaded.** A ground station uploads a list to an idle vehicle, and
a station, the same or another, fetches it: it asks for the list, for the waypoints one after the
other, each as often as it likes before it goes on, and acknowledges. The vehicle answers with the
number of waypoints and with the contents of the waypoints it was given (`mission_round_trip`). The
event loop may tick in between as long as nothing times out.

Each transfer is a predicate on the vehicle and the messages still to come (`Uploading`,
`Downloading`); the step lemma consumes one message.
-/

namespace Px4Firmware.Waypoints

open Px4Firmware.Lib

section

variable {F : Type} (env : Env F)

/-- The message of an event, if it is one. -/
def message? : Event F → Option (Message F)
  | .message m _ _ => some m
  | .tick .. => none

/-- The messages among the events. -/
def messages (es : List (Event F)) : List (Message F) := es.filterMap message?

/-- Does the tick end an open transfer? -/
def timesOut (v : Vehicle F) : Event F → Prop
  | .message .. => False
  | .tick now _ _ =>
      now - v.wpm.timestampLastaction > v.wpm.timeout.toUInt64 ∧ v.wpm.currentState ≠ .idle

/-- None of the events is a tick that ends an open transfer. -/
def TimeoutFree : List (Event F) → Vehicle F → Prop
  | [], _ => True
  | e :: es, v => ¬ timesOut v e ∧ ∀ v', process env e v = .ok () v' → TimeoutFree es v'

variable {env}

/-- The payloads that upload the list. -/
def Mission.uploadPayloads (mission : Mission env) (targetComponent : UInt8) : List (Payload F) :=
  .missionCount env.sysid targetComponent mission.count :: mission.items.map .missionItem

/-- The waypoints in the order in which they are asked for, each `reps` times again. -/
def asked (reps : MissionItem F → Nat) (items : List (MissionItem F)) : List (MissionItem F) :=
  items.flatMap fun item => List.replicate (reps item + 1) item

/-- A message from a station. -/
def Station.message (gcs : Station) (payload : Payload F) : Message F :=
  { sysid := gcs.sysid, compid := gcs.compid, payload := payload }

/-- The request for a waypoint. -/
def requestItem (env : Env F) (gcs : Station) (targetComponent : UInt8) (item : MissionItem F) :
    Message F :=
  gcs.message (.missionRequest env.sysid targetComponent item.seq)

/-- The message that ends a download. -/
def ackMessage (env : Env F) (gcs : Station) (targetComponent type : UInt8) : Message F :=
  gcs.message (.missionAck env.sysid targetComponent type)

/-- The messages that fetch the list. -/
def Mission.downloadMessages (mission : Mission env) (gcs : Station)
    (reps : MissionItem F → Nat) (targetComponent type : UInt8) : List (Message F) :=
  gcs.message (.missionRequestList env.sysid targetComponent) ::
    ((asked reps mission.items).map (requestItem env gcs targetComponent) ++
      [ackMessage env gcs targetComponent type])

/-- The answer with a waypoint. -/
def itemAnswer (gcs : Station) (item : MissionItem F) : Answer F := .item gcs item.content

/-- The answers the station should get. -/
def Mission.answers (mission : Mission env) (gcs : Station) (reps : MissionItem F → Nat) :
    List (Answer F) :=
  .count gcs mission.count :: (asked reps mission.items).map (itemAnswer gcs)

/-! ### Events between the messages -/

/-- A step that neither concerns a transfer nor answers anybody. -/
structure Quiet (v v' : Vehicle F) : Prop extends Unchanged v v' where
  answers : answers v'.sent = answers v.sent

variable {v v' v'' : Vehicle F} {mission : Mission env}

theorem checkWaypointsReached_quiet (hv : Bounded v) (now : UInt64)
    (globalPos : GlobalPosition F) (localPos : LocalPosition F) :
    wp (checkWaypointsReached env now globalPos localPos) (fun _ v' => Quiet v v') v :=
  ((checkWaypointsReached_unchanged env hv now globalPos localPos).and
    (checkWaypointsReached_answers env hv now globalPos localPos)).mono fun _ _ h => ⟨h.1, h.2⟩

/-- A tick that ends no transfer. -/
theorem tick_quiet {now : UInt64} {g : GlobalPosition F} {l : LocalPosition F} (hv : Bounded v)
    (h : ¬ timesOut v (.tick now g l)) :
    wp (process env (.tick now g l)) (fun _ v' => Quiet v v') v := by
  unfold process mavlinkWaypointEventloop
  simp only [wp_bind, wp_getWpm, wp_ite]
  exact ⟨fun htimeout => absurd htimeout h, fun _ => checkWaypointsReached_quiet hv now g l⟩

theorem run_cons (e : Event F) (es : List (Event F)) :
    run env (e :: es) = process env e >>= fun _ => run env es := by
  simp [run]

/-- The events after the first. -/
theorem TimeoutFree.tail {e : Event F} {es : List (Event F)} (h : TimeoutFree env (e :: es) v)
    (hrun : process env e v = .ok () v') : TimeoutFree env es v' := h.2 v' hrun

/-- The rule for a first event: what it does is known, and the rest starts in a state without
timeouts. -/
theorem wp_run_cons {e : Event F} {es : List (Event F)} {P : Vehicle F → Prop}
    {Q : Unit → Vehicle F → Prop} (h : TimeoutFree env (e :: es) v)
    (hfirst : wp (process env e) (fun _ v' => P v') v)
    (hrest : ∀ v', P v' → TimeoutFree env es v' → wp (run env es) Q v') :
    wp (run env (e :: es)) Q v := by
  rw [run_cons, wp_bind]
  obtain ⟨_, v', hrun, hP⟩ := wp_iff.mp hfirst
  exact (wp_of_ok hrun).mpr (hrest v' hP (h.tail hrun))

/-! ### The upload -/

/-- The vehicle during an upload, and the payloads still to come. -/
inductive Uploading (mission : Mission env) (v : Vehicle F) : List (Payload F) → Prop
  /-- Nothing has come yet. -/
  | opening {targetComponent : UInt8} : v.wpm.currentState = .idle →
      Uploading mission v (mission.uploadPayloads targetComponent)
  /-- Waypoint `k` is the next one. -/
  | receiving {k : Nat} : k < mission.items.length → v.wpm.currentCount = mission.count →
      (v.wpm.currentState = .getlist ∧ k = 0 ∨
        v.wpm.currentState = .getlistGetwps ∧ v.wpm.currentWpId.toNat = k ∧
          ReceivedPrefix mission v k) →
      Uploading mission v ((mission.items.drop k).map .missionItem)
  /-- Everything has come. -/
  | finished : v.wpm.currentState = .idle → HasMission mission v → Uploading mission v []

theorem Uploading.quiet {ps : List (Payload F)} (h : Uploading mission v ps)
    (h' : Unchanged v v') : Uploading mission v' ps := by
  cases h with
  | opening hidle => exact .opening (h'.currentState.trans hidle)
  | receiving hk hcount hstate =>
      refine .receiving hk (h'.currentCount.trans hcount) ?_
      unfold ReceivedPrefix
      simp only [h'.currentState, h'.currentWpId, h'.rcvWaypoints]
      exact hstate
  | finished hidle hmission =>
      refine .finished (h'.currentState.trans hidle) ⟨h'.size.trans hmission.1, fun k hk hkm => ?_⟩
      exact (h'.waypoints k hk).trans (hmission.2 k hk hkm)

/-- While waypoint `k` is expected, it is the one that is taken. -/
theorem stores_next {k : Nat} (hk : k < mission.items.length)
    (hcount : v.wpm.currentCount = mission.count)
    (hstate : v.wpm.currentState = .getlist ∧ k = 0 ∨
      v.wpm.currentState = .getlistGetwps ∧ v.wpm.currentWpId.toNat = k ∧
        ReceivedPrefix mission v k) :
    storesItem env v mission.items[k] := by
  have hseq := mission.seq_toNat hk
  refine ⟨mission.addressed _ (List.getElem_mem hk), ?_⟩
  rcases hstate with ⟨hget, hzero⟩ | ⟨hget, hid, -⟩
  · refine .inl ⟨hget, UInt16.toNat_inj.mp ?_⟩
    rw [hseq, hzero]
    rfl
  · refine .inr ⟨hget, UInt16.toNat_inj.mp (hseq.trans hid.symm), ?_⟩
    rw [UInt16.lt_iff_toNat_lt, hseq, hcount, mission.count_toNat]
    exact hk

/-- The waypoint extends what was received. -/
theorem received_next {k : Nat} (hk : k < mission.items.length)
    (hstate : v.wpm.currentState = .getlist ∧ k = 0 ∨
      v.wpm.currentState = .getlistGetwps ∧ v.wpm.currentWpId.toNat = k ∧
        ReceivedPrefix mission v k)
    (hreceived : Received mission.items[k] v v') : ReceivedPrefix mission v' (k + 1) := by
  have hseq := mission.seq_toNat hk
  have hbefore : ReceivedPrefix mission v k := by
    rcases hstate with ⟨-, rfl⟩ | ⟨-, -, hprefix⟩
    · exact fun j _ _ hj => absurd hj (Nat.not_lt_zero j)
    · exact hprefix
  intro j hj hjm hjk
  simp only [hreceived.rcvWaypoints, hseq]
  rw [Vector.getElem_set]
  by_cases hkj : k = j
  · subst hkj
    rw [if_pos rfl]
  · rw [if_neg hkj]
    exact hbefore j hj hjm (by omega)

/-- The count of the list opens the transfer. -/
theorem opens_transfer {m : Message F} {g : GlobalPosition F} {l : LocalPosition F}
    {targetComponent : UInt8} (hidle : v.wpm.currentState = .idle)
    (hpay : m.payload = .missionCount env.sysid targetComponent mission.count)
    (heffect : Effect env (.message m g l) v v') :
    Uploading mission v' (mission.items.map .missionItem) := by
  have hpos : 0 < mission.count := by
    rw [UInt16.lt_iff_toNat_lt, mission.count_toNat]
    exact mission.nonempty
  cases heffect with
  | unchanged hno =>
      refine absurd ?_ hno
      simp only [accepted, hpay]
      exact ⟨rfl, .inl hidle, hpos⟩
  | opened hpay' _ _ hstate _ hcount =>
      rw [hpay] at hpay'
      cases hpay'
      exact .receiving mission.nonempty hcount (.inl ⟨hstate, rfl⟩)
  | stored hpay' => rw [hpay] at hpay'; cases hpay'
  | completed hpay' => rw [hpay] at hpay'; cases hpay'
  | served hfetches => rw [hpay] at hfetches; exact hfetches.elim
  | cleared hpay' => rw [hpay] at hpay'; cases hpay'

/-- Waypoint `k` is stored, and the last one completes the transfer. -/
theorem takes_next {m : Message F} {g : GlobalPosition F} {l : LocalPosition F} {k : Nat}
    (hk : k < mission.items.length) (hcount : v.wpm.currentCount = mission.count)
    (hstate : v.wpm.currentState = .getlist ∧ k = 0 ∨
      v.wpm.currentState = .getlistGetwps ∧ v.wpm.currentWpId.toNat = k ∧
        ReceivedPrefix mission v k)
    (hpay : m.payload = .missionItem mission.items[k])
    (heffect : Effect env (.message m g l) v v') :
    Uploading mission v' ((mission.items.drop (k + 1)).map .missionItem) := by
  have hseq := mission.seq_toNat hk
  have hlast : mission.items[k].seq + 1 = v.wpm.currentCount ↔ k + 1 = mission.items.length := by
    rw [hcount, ← UInt16.toNat_inj, mission.count_toNat, UInt16.toNat_add, hseq]
    have hfits : mission.items.length ≤ 15 := mission.fits
    simp only [UInt16.reduceToNat]
    omega
  cases heffect with
  | unchanged hno =>
      refine absurd ?_ hno
      simp only [accepted, hpay]
      exact stores_next hk hcount hstate
  | opened hpay' => rw [hpay] at hpay'; cases hpay'
  | stored hpay' _ hreceived hmore _ hstate' =>
      rw [hpay] at hpay'
      cases hpay'
      have hnext := hreceived.toNat_currentWpId
      rw [hseq] at hnext
      refine .receiving ?_ (hreceived.currentCount.trans hcount)
        (.inr ⟨hstate', hnext, received_next hk hstate hreceived⟩)
      exact Nat.lt_of_le_of_ne hk (mt hlast.mpr hmore)
  | completed hpay' _ hreceived hlast' hswitched =>
      rw [hpay] at hpay'
      cases hpay'
      have hall := hlast.mp hlast'
      rw [hall, List.drop_length]
      refine .finished hswitched.currentState ⟨hswitched.size.trans hcount, fun j hj hjm => ?_⟩
      have hjcount : j < v.wpm.currentCount.toNat := by
        rw [hcount, mission.count_toNat]
        exact hjm
      rw [hswitched.waypoints j hj hjcount,
        received_next hk hstate hreceived j hj hjm (by omega)]
  | served hfetches => rw [hpay] at hfetches; exact hfetches.elim
  | cleared hpay' => rw [hpay] at hpay'; cases hpay'

/-- **The step lemma of the upload.** -/
theorem Uploading.message {m : Message F} {g : GlobalPosition F} {l : LocalPosition F}
    {ps : List (Payload F)} (h : Uploading mission v (m.payload :: ps)) (hv : Bounded v) :
    wp (process env (.message m g l)) (fun _ v' => Bounded v' ∧ Uploading mission v' ps) v := by
  generalize hps : m.payload :: ps = rest at h
  cases h with
  | opening hidle =>
      obtain ⟨hpay, rfl⟩ := List.cons.inj hps
      have hin : ¬ overflows env (.message m g l) v := by simp [overflows, hpay]
      exact (process_effect env hv hin).mono fun _ v' heffect =>
        ⟨heffect.bounded hv, opens_transfer hidle hpay heffect⟩
  | @receiving k hk hcount hstate =>
      rw [List.drop_eq_getElem_cons hk, List.map_cons] at hps
      obtain ⟨hpay, rfl⟩ := List.cons.inj hps
      have hin : ¬ overflows env (.message m g l) v := by
        simp only [overflows, hpay]
        exact fun hover => Nat.not_lt_of_le hover.2 (mission.seq_lt (List.getElem_mem hk))
      exact (process_effect env hv hin).mono fun _ v' heffect =>
        ⟨heffect.bounded hv, takes_next hk hcount hstate hpay heffect⟩
  | finished => cases hps

/-- **The run lemma of the upload.** -/
theorem Uploading.run {ps : List (Payload F)} (h : Uploading mission v ps) (hv : Bounded v)
    {es : List (Event F)} (hes : (messages es).map Message.payload = ps)
    (htimely : TimeoutFree env es v) :
    wp (run env es) (fun _ v' => Bounded v' ∧ Uploading mission v' []) v := by
  induction es generalizing v ps with
  | nil =>
      obtain rfl : ps = [] := hes.symm
      exact ⟨hv, h⟩
  | cons e es ih =>
      cases e with
      | tick now g l =>
          refine wp_run_cons htimely (tick_quiet hv htimely.1) fun v' hquiet hrest => ?_
          exact ih (h.quiet hquiet.toUnchanged) (hquiet.bounded hv) hes hrest
      | message m g l =>
          obtain rfl : ps = m.payload :: (messages es).map Message.payload := hes.symm
          refine wp_run_cons htimely (h.message hv) fun v' h' hrest => ?_
          exact ih h'.2 h'.1 rfl hrest

/-! ### The download -/

/-- The active list has the contents of the mission. -/
structure Holds (mission : Mission env) (v : Vehicle F) : Prop where
  size : v.wpm.size = mission.count
  content : ∀ k (_ : k < maxWpCount) (_ : k < mission.items.length),
    v.wpm.waypoints[k].content = mission.items[k].content

/-- Waypoints asked for after waypoint `k`: each one is asked for again, or it is the next one, up
to the end of the list. -/
inductive Asks (mission : Mission env) : Nat → List (MissionItem F) → Prop
  | done {k : Nat} : k + 1 = mission.items.length → Asks mission k []
  | next {k : Nat} {item : MissionItem F} {items : List (MissionItem F)} :
      item ∈ mission.items → item.seq.toNat = k ∨ item.seq.toNat = k + 1 →
      Asks mission item.seq.toNat items → Asks mission k (item :: items)

/-- The vehicle during a download, the messages still to come and the answers to them. -/
inductive Downloading (mission : Mission env) (gcs : Station) (v : Vehicle F) :
    List (Message F) → List (Answer F) → Prop
  /-- Nothing has come yet. -/
  | opening {reps : MissionItem F → Nat} {targetComponent type : UInt8} :
      v.wpm.currentState = .idle → Holds mission v →
      Downloading mission gcs v (mission.downloadMessages gcs reps targetComponent type)
        (mission.answers gcs reps)
  /-- A waypoint is asked for. -/
  | serving {item : MissionItem F} {items : List (MissionItem F)} {targetComponent type : UInt8} :
      item ∈ mission.items → requestable v.wpm item.seq → Asks mission item.seq.toNat items →
      v.wpm.partner = gcs → Holds mission v →
      Downloading mission gcs v
        ((item :: items).map (requestItem env gcs targetComponent) ++
          [ackMessage env gcs targetComponent type])
        ((item :: items).map (itemAnswer gcs))
  /-- All waypoints were sent. -/
  | ending {targetComponent type : UInt8} : v.wpm.currentState = .sendlistSendwps →
      v.wpm.currentWpId.toNat + 1 = mission.items.length → v.wpm.partner = gcs →
      Holds mission v →
      Downloading mission gcs v [ackMessage env gcs targetComponent type] []
  /-- The station has acknowledged. -/
  | finished : v.wpm.currentState = .idle → Downloading mission gcs v [] []

theorem Holds.quiet (h : Holds mission v) (h' : Unchanged v v') : Holds mission v' where
  size := h'.size.trans h.size
  content k hk hkm := (content_of_unmarked (h'.waypoints k hk)).trans (h.content k hk hkm)

theorem Holds.bounded (h : Holds mission v) : Bounded v := by
  unfold Bounded
  rw [h.size, mission.count_toNat]
  exact mission.fits

/-- Every waypoint of the mission is in the list. -/
theorem Holds.seq_lt (h : Holds mission v) {item : MissionItem F} (hitem : item ∈ mission.items) :
    item.seq < v.wpm.size := by
  obtain ⟨k, hk, rfl⟩ := List.getElem_of_mem hitem
  rw [UInt16.lt_iff_toNat_lt, mission.seq_toNat hk, h.size, mission.count_toNat]
  exact hk

theorem Downloading.quiet {gcs : Station} {ms : List (Message F)} {as : List (Answer F)}
    (h : Downloading mission gcs v ms as) (h' : Unchanged v v') :
    Downloading mission gcs v' ms as := by
  cases h with
  | opening hidle hholds => exact .opening (h'.currentState.trans hidle) (hholds.quiet h')
  | serving hitem hreq hasks hpartner hholds =>
      refine .serving hitem ?_ hasks (h'.partner.trans hpartner) (hholds.quiet h')
      unfold requestable
      rw [h'.currentState, h'.currentWpId, h'.size]
      exact hreq
  | ending hstate hid hpartner hholds =>
      exact .ending (h'.currentState.trans hstate) (by rw [h'.currentWpId]; exact hid)
        (h'.partner.trans hpartner) (hholds.quiet h')
  | finished hidle => exact .finished (h'.currentState.trans hidle)

/-- An idle vehicle with a list tells how long it is. -/
theorem handleMissionRequestList_answers {gcs : Station} (hidle : v.wpm.currentState = .idle)
    (hsize : v.wpm.size > 0) (now : UInt64) :
    wp (handleMissionRequestList env now gcs env.sysid) (fun _ v' =>
      v'.wpm.currentState = .sendlist ∧ v'.wpm.partner = gcs ∧ v'.wpm.size = v.wpm.size ∧
        v'.wpm.waypoints = v.wpm.waypoints ∧
        answers v'.sent = answers v.sent ++ [.count gcs v.wpm.size]) v := by
  unfold handleMissionRequestList setLastaction sendWaypointCount
  simp only [wp_bind, wp_getWpm, wp_ite, wp_modifyWpm, wp_sendMessage, wp_pure]
  refine ⟨fun _ => ⟨fun _ => ⟨fun _ => ?_, fun hempty => absurd hsize hempty⟩,
    fun hbusy => absurd (.inl hidle) hbusy⟩, fun htarget => absurd trivial htarget⟩
  exact ⟨trivial, rfl, trivial, trivial, answers_append _ _⟩

/-- A waypoint of the list is addressed to the partner and sent. -/
theorem sendWaypoint_answers (hv : Bounded v) {seq : UInt16} (hseq : seq < v.wpm.size) :
    wp (sendWaypoint env seq) (fun _ v' =>
      v'.wpm.currentWpId = v.wpm.currentWpId ∧ v'.wpm.partner = v.wpm.partner ∧
        ∀ _ : seq.toNat < maxWpCount, answers v'.sent =
          answers v.sent ++ [itemAnswer v.wpm.partner v.wpm.waypoints[seq.toNat]]) v := by
  have hindex := index_lt hv hseq
  unfold sendWaypoint
  simp only [wp_bind, wp_getWpm, wp_ite, wp_pure, wp_modifyWaypoint, wp_readWaypoint,
    wp_sendMessage]
  refine ⟨fun _ => ⟨hindex, hindex, trivial, rfl, fun _ => ?_⟩, fun hno => absurd hseq hno⟩
  rw [answers_append, Vector.getElem_set_self]
  rfl

/-- Waypoint `seq` is sent to the partner. -/
structure Served (seq : UInt16) (v v' : Vehicle F) : Prop where
  currentState : v'.wpm.currentState = .sendlistSendwps
  currentWpId : v'.wpm.currentWpId = seq
  partner : v'.wpm.partner = v.wpm.partner
  size : v'.wpm.size = v.wpm.size
  content : ∀ k (_ : k < maxWpCount), v'.wpm.waypoints[k].content = v.wpm.waypoints[k].content
  answers : ∀ _ : seq.toNat < maxWpCount, answers v'.sent =
    answers v.sent ++ [itemAnswer v.wpm.partner v.wpm.waypoints[seq.toNat]]

theorem serveRequest_answers (hv : Bounded v) {seq : UInt16} (hseq : seq < v.wpm.size) :
    wp (serveRequest env seq) (fun _ v' => Served seq v v') v := by
  refine wp.mono (wp.and (P := fun _ v' => v'.wpm.currentWpId = seq ∧
    v'.wpm.partner = v.wpm.partner ∧ ∀ _ : seq.toNat < maxWpCount, answers v'.sent =
      answers v.sent ++ [itemAnswer v.wpm.partner v.wpm.waypoints[seq.toNat]]) ?_
    (serveRequest_served env hv seq)) ?_
  · refine serveRequest_talks env fun v₁ htalk hwpm => ?_
    have hsaid : answers v₁.sent = answers v.sent := htalk.answers
    rw [hwpm]
    refine (sendWaypoint_answers ?_ ?_).mono ?_
    · exact hv
    · exact hseq
    · rintro _ v' ⟨hid, hpartner, hanswers⟩
      refine ⟨hid, hpartner, fun hindex => ?_⟩
      rw [← hsaid]
      exact hanswers hindex
  · rintro _ v' ⟨⟨hid, hpartner, hanswers⟩, hstate, hsize, hcontent⟩
    exact ⟨hstate, hid, hpartner, hsize, hcontent, hanswers⟩

/-- A waypoint that may be requested is sent. -/
theorem handleMissionRequest_served (hv : Bounded v) {seq : UInt16} (hseq : seq < v.wpm.size)
    (hreq : requestable v.wpm seq) (now : UInt64) :
    wp (handleMissionRequest env now v.wpm.partner env.sysid seq)
      (fun _ v' => Served seq v v') v := by
  unfold handleMissionRequest setLastaction
  simp only [wp_bind, wp_getWpm, wp_ite, wp_modifyWpm]
  refine ⟨fun _ => ⟨fun _ => ?_, fun hno => absurd hreq hno⟩,
    fun hother => absurd ⟨trivial, trivial⟩ hother⟩
  refine (serveRequest_answers ?_ ?_).mono fun _ v' h => ?_
  · exact hv
  · exact hseq
  · exact ⟨h.currentState, h.currentWpId, h.partner, h.size, h.content, h.answers⟩

/-- The acknowledgement of the last waypoint ends the download. -/
theorem handleMissionAck_idle (hstate : v.wpm.currentState = .sendlistSendwps)
    (hlast : v.wpm.currentWpId.toNat + 1 = v.wpm.size.toNat) (now : UInt64) :
    wp (handleMissionAck env now v.wpm.partner env.sysid) (fun _ v' =>
      v'.wpm.currentState = .idle ∧ answers v'.sent = answers v.sent) v := by
  unfold handleMissionAck setLastaction
  simp only [wp_bind, wp_getWpm, wp_ite, wp_modifyWpm, wp_sendGcsString, wp_pure]
  refine ⟨fun _ => ⟨fun _ => ⟨fun _ => ⟨trivial, answers_talk rfl⟩, fun hno => ?_⟩,
    fun hno => absurd (.inr hstate) hno⟩, fun hother => absurd ⟨trivial, trivial⟩ hother⟩
  exact absurd (by omega) hno

/-- What handling a message of the download does. -/
structure Answered (mission : Mission env) (gcs : Station) (ms : List (Message F))
    (as : List (Answer F)) (v v' : Vehicle F) : Prop where
  bounded : Bounded v'
  rest : ∃ told as', as = told ++ as' ∧ answers v'.sent = answers v.sent ++ told ∧
    Downloading mission gcs v' ms as'

theorem Answered.quiet {gcs : Station} {ms : List (Message F)} {as : List (Answer F)}
    (h : Answered mission gcs ms as v v') (h' : Quiet v' v'') :
    Answered mission gcs ms as v v'' where
  bounded := h'.bounded h.bounded
  rest := by
    obtain ⟨told, as', has, htold, hrest⟩ := h.rest
    exact ⟨told, as', has, h'.answers.trans htold, hrest.quiet h'.toUnchanged⟩

/-! ### The order of the requests -/

theorem asked_cons (reps : MissionItem F → Nat) (item : MissionItem F)
    (items : List (MissionItem F)) :
    asked reps (item :: items) =
      item :: (List.replicate (reps item) item ++ asked reps items) := by
  unfold asked
  rw [List.flatMap_cons, List.replicate_succ, List.cons_append]

/-- A waypoint may be asked for again. -/
theorem Asks.again {item : MissionItem F} {items : List (MissionItem F)}
    (hitem : item ∈ mission.items) (h : Asks mission item.seq.toNat items) (n : Nat) :
    Asks mission item.seq.toNat (List.replicate n item ++ items) := by
  induction n with
  | zero => exact h
  | succ n ih => exact .next hitem (.inl rfl) ih

theorem asks_asked {k : Nat} (hk : k < mission.items.length) (reps : MissionItem F → Nat) :
    Asks mission k (asked reps (mission.items.drop (k + 1))) := by
  generalize hrest : mission.items.drop (k + 1) = rest
  induction rest generalizing k with
  | nil =>
      have hend := List.drop_eq_nil_iff.mp hrest
      exact .done (by omega)
  | cons item rest ih =>
      have hnext : k + 1 < mission.items.length := by
        refine Nat.lt_of_not_le fun hend => ?_
        rw [List.drop_eq_nil_iff.mpr hend] at hrest
        cases hrest
      rw [List.drop_eq_getElem_cons hnext] at hrest
      obtain ⟨rfl, hrest'⟩ := List.cons.inj hrest
      have hitem := List.getElem_mem hnext
      have hseq := mission.seq_toNat hnext
      have htail := ih hnext hrest'
      rw [← hseq] at htail
      rw [asked_cons]
      exact .next hitem (.inr hseq) (htail.again hitem _)

/-- After waypoint `k` was sent, the next request is for it or for the one after it. -/
theorem Downloading.of_asks {gcs : Station} {targetComponent type : UInt8} {k : Nat}
    {items : List (MissionItem F)} (h : Asks mission k items)
    (hstate : v.wpm.currentState = .sendlistSendwps) (hid : v.wpm.currentWpId.toNat = k)
    (hpartner : v.wpm.partner = gcs) (hholds : Holds mission v) :
    Downloading mission gcs v
      (items.map (requestItem env gcs targetComponent) ++
        [ackMessage env gcs targetComponent type])
      (items.map (itemAnswer gcs)) := by
  cases h with
  | done hend => exact .ending hstate (by rw [hid]; exact hend) hpartner hholds
  | next hitem hnext hasks =>
      refine .serving hitem (.inr ⟨hstate, ?_, hholds.seq_lt hitem⟩) hasks hpartner hholds
      rw [hid]
      exact hnext.imp_left fun h => UInt16.toNat_inj.mp (h.trans hid.symm)

/-! ### The messages of the download -/

theorem requestList_answered {gcs : Station} {reps : MissionItem F → Nat}
    {targetComponent type : UInt8} (hidle : v.wpm.currentState = .idle) (hholds : Holds mission v)
    (now : UInt64) :
    wp (handlePayload env now (gcs.message (.missionRequestList env.sysid targetComponent)))
      (fun _ v' => Answered mission gcs ((asked reps mission.items).map
          (requestItem env gcs targetComponent) ++ [ackMessage env gcs targetComponent type])
        (mission.answers gcs reps) v v') v := by
  have hpos : v.wpm.size > 0 := by
    rw [hholds.size, gt_iff_lt, UInt16.lt_iff_toNat_lt, mission.count_toNat]
    exact mission.nonempty
  show wp (handleMissionRequestList env now gcs env.sysid) _ v
  refine (handleMissionRequestList_answers hidle hpos now).mono ?_
  rintro _ v' ⟨hstate, hpartner, hsize, hwaypoints, htold⟩
  have hholds' : Holds mission v' := by
    refine ⟨hsize.trans hholds.size, fun k hk hkm => ?_⟩
    simp only [hwaypoints]
    exact hholds.content k hk hkm
  refine ⟨hholds'.bounded, [.count gcs mission.count], _, rfl, ?_, ?_⟩
  · rw [htold, hholds.size]
  -- The first request is for the first waypoint.
  have hzero : 0 < mission.items.length := mission.nonempty
  have hfirst : mission.items = mission.items[0] :: mission.items.drop 1 :=
    List.drop_eq_getElem_cons hzero
  have hseq := mission.seq_toNat hzero
  have hitem := List.getElem_mem hzero
  have hrest : Asks mission mission.items[0].seq.toNat (asked reps (mission.items.drop 1)) := by
    rw [hseq]
    exact asks_asked hzero reps
  rw [hfirst, asked_cons]
  exact .serving hitem (.inl ⟨hstate, UInt16.toNat_inj.mp hseq⟩) (hrest.again hitem _) hpartner
    hholds'

theorem request_answered {gcs : Station} {item : MissionItem F} {items : List (MissionItem F)}
    {targetComponent type : UInt8} (hitem : item ∈ mission.items)
    (hreq : requestable v.wpm item.seq) (hasks : Asks mission item.seq.toNat items)
    (hpartner : v.wpm.partner = gcs) (hholds : Holds mission v) (now : UInt64) :
    wp (handlePayload env now (requestItem env gcs targetComponent item))
      (fun _ v' => Answered mission gcs
        (items.map (requestItem env gcs targetComponent) ++
          [ackMessage env gcs targetComponent type])
        ((item :: items).map (itemAnswer gcs)) v v') v := by
  have hlt := hholds.seq_lt hitem
  subst hpartner
  show wp (handleMissionRequest env now v.wpm.partner env.sysid item.seq) _ v
  refine (handleMissionRequest_served hholds.bounded hlt hreq now).mono fun _ v' h => ?_
  have hholds' : Holds mission v' :=
    ⟨h.size.trans hholds.size, fun k hk hkm => (h.content k hk).trans (hholds.content k hk hkm)⟩
  refine ⟨hholds'.bounded, [itemAnswer v.wpm.partner item], _, rfl, ?_, ?_⟩
  · obtain ⟨k, hk, rfl⟩ := List.getElem_of_mem hitem
    have hseq := mission.seq_toNat hk
    have hindex : k < maxWpCount := Nat.lt_of_lt_of_le hk mission.fits
    rw [h.answers (mission.seq_lt hitem)]
    simp only [itemAnswer, hseq, hholds.content k hindex hk]
  · rw [← h.partner]
    exact .of_asks hasks h.currentState (by rw [h.currentWpId]) rfl hholds'

theorem ack_answered {gcs : Station} {targetComponent type : UInt8}
    (hstate : v.wpm.currentState = .sendlistSendwps)
    (hlast : v.wpm.currentWpId.toNat + 1 = mission.items.length) (hpartner : v.wpm.partner = gcs)
    (hholds : Holds mission v) (now : UInt64) :
    wp (handlePayload env now (ackMessage env gcs targetComponent type))
      (fun _ v' => Answered mission gcs [] [] v v') v := by
  have hend : v.wpm.currentWpId.toNat + 1 = v.wpm.size.toNat := by
    rw [hlast, hholds.size, mission.count_toNat]
  subst hpartner
  show wp (handleMissionAck env now v.wpm.partner env.sysid) _ v
  have hkept := handleMissionAck_marksKept env now v.wpm.partner env.sysid v
  refine ((handleMissionAck_idle hstate hend now).and hkept).mono ?_
  rintro _ v' ⟨⟨hidle, htold⟩, hkept⟩
  refine ⟨?_, [], [], rfl, by rw [htold, List.append_nil], .finished hidle⟩
  unfold Bounded
  rw [hkept.size]
  exact hholds.bounded

/-- Whatever message of the download comes next. -/
theorem Downloading.handle {gcs : Station} {m : Message F} {ms : List (Message F)}
    {as : List (Answer F)} (h : Downloading mission gcs v (m :: ms) as) (now : UInt64) :
    wp (handlePayload env now m) (fun _ v' => Answered mission gcs ms as v v') v := by
  generalize hms : m :: ms = rest at h
  cases h with
  | opening hidle hholds =>
      obtain ⟨rfl, rfl⟩ := List.cons.inj hms
      exact requestList_answered hidle hholds now
  | serving hitem hreq hasks hpartner hholds =>
      obtain ⟨rfl, rfl⟩ := List.cons.inj hms
      exact request_answered hitem hreq hasks hpartner hholds now
  | ending hstate hlast hpartner hholds =>
      obtain ⟨rfl, rfl⟩ := List.cons.inj hms
      exact ack_answered hstate hlast hpartner hholds now
  | finished => cases hms

/-- **The step lemma of the download.** -/
theorem Downloading.message {gcs : Station} {m : Message F} {g : GlobalPosition F}
    {l : LocalPosition F} {ms : List (Message F)} {as : List (Answer F)}
    (h : Downloading mission gcs v (m :: ms) as) :
    wp (process env (.message m g l)) (fun _ v' => Answered mission gcs ms as v v') v := by
  have hread : Unchanged v { v with clockReads := v.clockReads + 1 } :=
    ⟨⟨rfl, fun _ _ => rfl, Iff.rfl⟩, rfl, rfl, rfl, rfl, rfl⟩
  unfold process mavlinkWpmMessageHandler
  simp only [wp_bind, wp_getSystemTimestamp]
  refine ((h.quiet hread).handle _).mono fun _ v₁ h₁ => ?_
  have h₁ : Answered mission gcs ms as v v₁ := ⟨h₁.bounded, h₁.rest⟩
  exact (checkWaypointsReached_quiet h₁.bounded _ g l).mono fun _ _ h' => h₁.quiet h'

/-- **The run lemma of the download.** -/
theorem Downloading.run {gcs : Station} {ms : List (Message F)} {as : List (Answer F)}
    (h : Downloading mission gcs v ms as) (hv : Bounded v) {es : List (Event F)}
    (hes : messages es = ms) (htimely : TimeoutFree env es v) :
    wp (run env es) (fun _ v' =>
      v'.wpm.currentState = .idle ∧ answers v'.sent = answers v.sent ++ as) v := by
  induction es generalizing v ms as with
  | nil =>
      obtain rfl : ms = [] := hes.symm
      generalize hms : ([] : List (Message F)) = rest at h
      cases h with
      | finished hidle => exact ⟨hidle, (List.append_nil _).symm⟩
      | opening => cases hms
      | serving => cases hms
      | ending => cases hms
  | cons e es ih =>
      cases e with
      | tick now g l =>
          refine wp_run_cons htimely (tick_quiet hv htimely.1) fun v' hquiet hrest => ?_
          rw [← hquiet.answers]
          exact ih (h.quiet hquiet.toUnchanged) (hquiet.bounded hv) hes hrest
      | message m g l =>
          obtain rfl : ms = m :: messages es := hes.symm
          refine wp_run_cons htimely h.message fun v' h' hrest => ?_
          obtain ⟨told, as', rfl, htold, hnext⟩ := h'.rest
          rw [← List.append_assoc, ← htold]
          exact ih hnext h'.bounded rfl hrest

/-! ### Upload and download -/

/-- The events after a first part that comes to its end. -/
theorem TimeoutFree.append {es es' : List (Event F)} (h : TimeoutFree env (es ++ es') v)
    (hrun : Waypoints.run env es v = .ok () v') : TimeoutFree env es' v' := by
  induction es generalizing v with
  | nil =>
      cases hrun
      exact h
  | cons e es ih =>
      rw [run_cons] at hrun
      obtain ⟨v₁, hfirst, hrest⟩ := seq_eq_ok.mp hrun
      exact ih (h.tail hfirst) hrest

theorem timeoutFree_append_left {es es' : List (Event F)} (h : TimeoutFree env (es ++ es') v) :
    TimeoutFree env es v := by
  induction es generalizing v with
  | nil => trivial
  | cons e es ih => exact ⟨h.1, fun v' hrun => ih (h.2 v' hrun)⟩

/-- Without ticks nothing times out. -/
theorem timeoutFree_of_messages {es : List (Event F)} (h : ∀ now g l, .tick now g l ∉ es) :
    TimeoutFree env es v := by
  induction es generalizing v with
  | nil => trivial
  | cons e es ih =>
      refine ⟨?_, fun v' _ => ih fun now g l hmem => h now g l (.tail _ hmem)⟩
      cases e with
      | message => exact id
      | tick now g l => exact absurd (.head _) (h now g l)

variable (mission)

/-- **Round trip.** A list of 1 to 15 waypoints is uploaded to an idle vehicle that got there in any
way, and then a station fetches it, asking for each waypoint once or more often. The vehicle tells
the station the number of waypoints and their contents, in order and as often as it was asked, and
is idle again. -/
theorem mission_round_trip {gcs : Station} {reps : MissionItem F → Nat}
    {uploadComponent downloadComponent type : UInt8} {up down : List (Event F)}
    (h : (manager env).Reachable v) (hidle : v.wpm.currentState = .idle)
    (hup : (messages up).map Message.payload = mission.uploadPayloads uploadComponent)
    (hdown : messages down = mission.downloadMessages gcs reps downloadComponent type)
    (htimely : TimeoutFree env (up ++ down) v) :
    ∃ v₁ v₂, run env up v = .ok () v₁ ∧ run env down v₁ = .ok () v₂ ∧
      v₂.wpm.currentState = .idle ∧
      answers v₂.sent = answers v₁.sent ++ mission.answers gcs reps := by
  have hb := bounded_of_reachable env h
  have hopening : Uploading mission v (mission.uploadPayloads uploadComponent) := .opening hidle
  have hupload := hopening.run hb hup (timeoutFree_append_left htimely)
  obtain ⟨_, v₁, hrun, hb₁, huploaded⟩ := wp_iff.mp hupload
  have hend : v₁.wpm.currentState = .idle ∧ HasMission mission v₁ := by
    generalize hps : ([] : List (Payload F)) = rest at huploaded
    cases huploaded with
    | finished hidle hmission => exact ⟨hidle, hmission⟩
    | opening => cases hps
    | receiving hk =>
        have hempty := congrArg List.length hps
        rw [List.length_map, List.length_drop, List.length_nil] at hempty
        omega
  have hholds : Holds mission v₁ :=
    ⟨hend.2.1, fun k hk hkm => content_of_unmarked (hend.2.2 k hk hkm)⟩
  have hdownload :=
    (Downloading.opening hend.1 hholds).run hb₁ hdown (htimely.append hrun)
  obtain ⟨_, v₂, hrun₂, hidle₂, htold⟩ := wp_iff.mp hdownload
  exact ⟨v₁, v₂, hrun, hrun₂, hidle₂, htold⟩

end

/-- One station uploads three waypoints. -/
def uploadEvents : List (Event Unit) :=
  (landingMission.uploadPayloads mavlinkWpmCompId).map (unitEvent qgc)

/-- Another station fetches them and asks twice for the second. -/
def askedAgain (item : MissionItem Unit) : Nat := if item.seq = 1 then 1 else 0

def downloadEvents : List (Event Unit) :=
  (landingMission.downloadMessages apm askedAgain mavlinkWpmCompId 0).map fun m =>
    unitEvent m.sender m.payload

/-- It is told once how many waypoints there are, and twice what the second one says. -/
theorem mission_round_trip_landing :
    ∃ v₁ v₂, run unitEnv uploadEvents (initial unitStorage) = .ok () v₁ ∧
      run unitEnv downloadEvents v₁ = .ok () v₂ ∧ v₂.wpm.currentState = .idle ∧
      answers v₂.sent = answers v₁.sent ++
        [.count apm 3, .item apm landingMission.items[0].content,
          .item apm landingMission.items[1].content, .item apm landingMission.items[1].content,
          .item apm landingMission.items[2].content] := by
  have hup : (messages uploadEvents).map Message.payload =
      landingMission.uploadPayloads mavlinkWpmCompId := by
    simp [messages, uploadEvents, List.filterMap_map, Function.comp_def, message?, unitEvent]
  have hdown : messages downloadEvents =
      landingMission.downloadMessages apm askedAgain mavlinkWpmCompId 0 := by
    simp [messages, downloadEvents, List.filterMap_map, Function.comp_def, message?, unitEvent,
      Message.sender]
  have htimely : TimeoutFree unitEnv (uploadEvents ++ downloadEvents) (initial unitStorage) := by
    refine timeoutFree_of_messages fun now g l hmem => ?_
    rcases List.mem_append.mp hmem with hmem | hmem
    · obtain ⟨p, -, hp⟩ := List.mem_map.mp hmem
      cases hp
    · obtain ⟨m, -, hm⟩ := List.mem_map.mp hmem
      cases hm
  have hanswers : landingMission.answers apm askedAgain =
      [.count apm 3, .item apm landingMission.items[0].content,
        .item apm landingMission.items[1].content, .item apm landingMission.items[1].content,
        .item apm landingMission.items[2].content] := rfl
  rw [← hanswers]
  exact mission_round_trip landingMission (.of_init ⟨_, rfl⟩) rfl hup hdown htimely

end Px4Firmware.Waypoints
