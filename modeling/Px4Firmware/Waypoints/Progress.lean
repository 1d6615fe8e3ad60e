import Px4Firmware.Waypoints.Isolation

/-!
# Px4Firmware.Waypoints.Progress

**The progress of a mission.** From tick to tick the manager compares the position of the vehicle
with the orbit of the active waypoint. The first tick inside announces the waypoint and starts a
timer, and the mission goes on when the waypoint was held long enough.

The flag `pos_reached` is set inside of the orbit and stays set outside of it: the manager sees that
the vehicle comes in, and not that it leaves. So the active waypoint is left only after the vehicle
has stayed in its orbit for the hold time (`progress_requires_orbit`) in the runs in which a vehicle
that has come in does stay (`Stays`). The clock must not run back either, because the time since the
announcement is a difference of unsigned numbers.
-/

namespace Px4Firmware.Waypoints

open Px4Firmware.Lib

section

variable {F : Type} (env : Env F)

/-- A call of the event loop: the time and the position. -/
structure Tick (F : Type) where
  now : UInt64
  globalPos : GlobalPosition F
  localPos : LocalPosition F

/-! ### The active waypoint and its orbit -/

/-- The distance of a waypoint, in its coordinate frame. -/
def MissionItem.distance (item : MissionItem F) (globalPos : GlobalPosition F)
    (localPos : LocalPosition F) : F :=
  if item.frame = mavFrameGlobal ∨ item.frame = mavFrameGlobalRelativeAlt then
    env.ops.globalDistance item.x item.y (env.ops.ofInt32 globalPos.lat)
      (env.ops.ofInt32 globalPos.lon)
  else if item.frame = mavFrameLocalEnu ∨ item.frame = mavFrameLocalNed then
    env.ops.localDistance item.x item.y item.z localPos.x localPos.y localPos.z
  else
    env.ops.minusOne

/-- Is the position inside of the orbit of a waypoint? The radius is `param2`. -/
def MissionItem.within (item : MissionItem F) (globalPos : GlobalPosition F)
    (localPos : LocalPosition F) : Bool :=
  let dist := item.distance env globalPos localPos
  env.ops.le env.ops.zero dist && env.ops.le dist item.param2

/-- A mission with an active waypoint: its index is in the list, and the list in its array. -/
structure OnMission (w : WpmStorage F) : Prop where
  bounded : w.size.toNat ≤ maxWpCount
  active : w.currentActiveWpId < w.size

theorem OnMission.index_lt {w : WpmStorage F} (h : OnMission w) :
    w.currentActiveWpId.toNat < maxWpCount :=
  Nat.lt_of_lt_of_le (UInt16.lt_iff_toNat_lt.mp h.active) h.bounded

theorem OnMission.of_eq {w w' : WpmStorage F} (h : OnMission w) (hsize : w'.size = w.size)
    (hactive : w'.currentActiveWpId = w.currentActiveWpId) : OnMission w' := by
  refine ⟨?_, ?_⟩
  · rw [hsize]
    exact h.bounded
  · rw [hsize, hactive]
    exact h.active

/-- The active waypoint, if there is one. -/
def WpmStorage.activeItem (w : WpmStorage F) : Option (MissionItem F) :=
  w.waypoints[w.currentActiveWpId.toNat]?

/-- Is the vehicle inside of the orbit of the active waypoint? -/
def inside (w : WpmStorage F) (t : Tick F) : Bool :=
  w.activeItem.any fun item => item.within env t.globalPos t.localPos

/-- Was the active waypoint held long enough, so much time after it was announced? -/
def held (w : WpmStorage F) (time : UInt64) : Bool :=
  w.activeItem.any fun item => env.ops.heldFor time item.param2

/-! ### What a watcher notes -/

/-- Does a message announce that a waypoint is reached? -/
def Output.isReached : Output F → Bool
  | .message ⟨_, _, .missionItemReached _⟩ => true
  | _ => false

/-- What is known of the visit to the active waypoint: when it was announced, and whether the
vehicle was inside of the orbit in every tick since, that one included. -/
structure Visit where
  announced : Option UInt64
  stayed : Bool
  deriving DecidableEq

/-- Nothing was announced. -/
def Visit.start : Visit := { announced := none, stayed := false }

/-- Note a tick. -/
def Visit.note (p : Visit) (v : Vehicle F) (t : Tick F) (v' : Vehicle F) : Visit :=
  if (v'.sent.drop v.sent.length).any Output.isReached then
    { announced := some t.now, stayed := inside env v.wpm t }
  else
    { p with stayed := p.stayed && inside env v.wpm t }

/-- Watch a tick: another active waypoint starts another visit. -/
def Visit.watch (p : Visit) (v : Vehicle F) (t : Tick F) (v' : Vehicle F) : Visit :=
  if v'.wpm.currentActiveWpId = v.wpm.currentActiveWpId then p.note env v t v' else .start

/-- The index after `i`: the next one, or 1 after the last one of several. -/
def follows (i size j : UInt16) : Prop :=
  (j.toNat = i.toNat + 1 ∧ j < size) ∨ (i.toNat + 1 = size.toNat ∧ 1 < size ∧ j = 1)

/-- The law of a tick: the active waypoint is left only when it was announced, the vehicle has been
inside of its orbit in every tick since, and the hold time has passed since; then the mission goes
on to the waypoint that follows. -/
def ProgressLaw (p : Vehicle F × Visit) (t : Tick F) (v' : Vehicle F) : Prop :=
  v'.wpm.currentActiveWpId ≠ p.1.wpm.currentActiveWpId →
    (p.2.note env p.1 t v').stayed = true ∧
    (∃ time, (p.2.note env p.1 t v').announced = some time ∧ time ≤ t.now ∧
      held env p.1.wpm (t.now - time) = true) ∧
    follows p.1.wpm.currentActiveWpId p.1.wpm.size v'.wpm.currentActiveWpId

/-- The ticks of a mission, from one whose active waypoint has not been reached. -/
def flight : LTS (Vehicle F) (Tick F) where
  init v := OnMission v.wpm ∧ v.wpm.posReached = false ∧ v.wpm.timestampFirstinsideOrbit = 0
  step v t v' := mavlinkWaypointEventloop env t.now t.globalPos t.localPos v = .ok () v'

/-- The condition: as long as the active waypoint counts as reached, the vehicle is inside of its
orbit, and it is not earlier than when the waypoint was announced. -/
def Stays (v : Vehicle F) (t : Tick F) : Prop :=
  v.wpm.posReached = true → inside env v.wpm t = true ∧ v.wpm.timestampFirstinsideOrbit ≤ t.now

instance (v : Vehicle F) (t : Tick F) : Decidable (Stays env v t) :=
  inferInstanceAs (Decidable (v.wpm.posReached = true →
    inside env v.wpm t = true ∧ v.wpm.timestampFirstinsideOrbit ≤ t.now))

/-! ### What a tick does -/

/-- Something was sent, with an announcement or without one. -/
def Announced (b : Bool) (v v' : Vehicle F) : Prop :=
  ∃ os, v'.sent = v.sent ++ os ∧ os.any Output.isReached = b

variable {v v' v'' : Vehicle F}

theorem Announced.refl (v : Vehicle F) : Announced false v v :=
  ⟨[], (List.append_nil _).symm, rfl⟩

theorem Announced.trans {b b' : Bool} (h : Announced b v v') (h' : Announced b' v' v'') :
    Announced (b || b') v v'' := by
  obtain ⟨os, hsent, rfl⟩ := h
  obtain ⟨os', hsent', rfl⟩ := h'
  exact ⟨os ++ os', by rw [hsent', hsent, List.append_assoc], List.any_append⟩

theorem Announced.eq {b : Bool} (h : Announced b v v') :
    (v'.sent.drop v.sent.length).any Output.isReached = b := by
  obtain ⟨os, hsent, rfl⟩ := h
  rw [hsent, List.drop_left]

theorem sendWaypointCurrent_progress (hv : Bounded v) (seq : UInt16) :
    wp (sendWaypointCurrent env seq) (fun _ v' => v'.wpm = v.wpm ∧ Announced false v v') v := by
  unfold sendWaypointCurrent
  simp only [wp_bind, wp_getWpm, wp_ite, wp_readWaypoint, wp_sendMessage, wp_pure]
  exact ⟨fun h => ⟨index_lt hv h, trivial, [_], rfl, rfl⟩, fun _ => ⟨trivial, .refl v⟩⟩

theorem sendSetpoint_progress (hv : Bounded v) (seq : UInt16) :
    wp (sendSetpoint env seq) (fun _ v' =>
      (∃ time, v'.wpm = { v.wpm with timestampLastSendSetpoint := time }) ∧
        Announced false v v') v := by
  unfold sendSetpoint
  simp only [wp_bind, wp_getWpm, wp_ite, wp_readWaypoint, wp_send, wp_getSystemTimestamp,
    wp_modifyWpm, wp_pure]
  exact ⟨fun h => ⟨index_lt hv h, ⟨_, rfl⟩, [_], rfl, rfl⟩, fun _ => ⟨⟨_, rfl⟩, .refl v⟩⟩

/-- The active waypoint is the one that the manager reads. -/
theorem OnMission.exists_activeItem {w : WpmStorage F} (h : OnMission w) :
    ∃ item, w.activeItem = some item ∧
      ∀ _ : w.currentActiveWpId.toNat < maxWpCount,
        w.waypoints[w.currentActiveWpId.toNat] = item :=
  ⟨_, Vector.getElem?_eq_getElem h.index_lt, fun _ => rfl⟩

/-- The distance is that in the frame of the waypoint. -/
theorem distanceInFrame_eq (hv : OnMission v.wpm) {item : MissionItem F}
    (hread : ∀ _ : v.wpm.currentActiveWpId.toNat < maxWpCount,
      v.wpm.waypoints[v.wpm.currentActiveWpId.toNat] = item) (globalPos : GlobalPosition F)
    (localPos : LocalPosition F) :
    wp (distanceInFrame env item.frame v.wpm.currentActiveWpId globalPos localPos)
      (fun dist v' => dist = item.distance env globalPos localPos ∧ v' = v) v := by
  have hglobal (lat lon alt : F) :
      wp (distanceToPointGlobalWgs84 env v.wpm.currentActiveWpId lat lon alt)
        (fun dist v' => dist = env.ops.globalDistance item.x item.y lat lon ∧ v' = v) v := by
    unfold distanceToPointGlobalWgs84
    simp only [wp_bind, wp_getWpm, wp_ite, wp_readWaypoint, wp_pure]
    refine ⟨fun _ => ⟨hv.index_lt, ?_⟩, fun hno => absurd hv.active hno⟩
    rw [hread hv.index_lt]
    exact ⟨rfl, trivial⟩
  have hlocal (x y z : F) : wp (distanceToPointLocal env v.wpm.currentActiveWpId x y z)
      (fun dist v' => dist = env.ops.localDistance item.x item.y item.z x y z ∧ v' = v) v := by
    unfold distanceToPointLocal
    simp only [wp_bind, wp_getWpm, wp_ite, wp_readWaypoint, wp_pure]
    refine ⟨fun _ => ⟨hv.index_lt, ?_⟩, fun hno => absurd hv.active hno⟩
    rw [hread hv.index_lt]
    exact ⟨rfl, trivial⟩
  unfold distanceInFrame MissionItem.distance
  by_cases hframe : item.frame = mavFrameGlobal
  · rw [if_pos hframe, if_pos (.inl hframe)]
    exact hglobal _ _ _
  · rw [if_neg hframe]
    by_cases hrelative : item.frame = mavFrameGlobalRelativeAlt
    · rw [if_pos hrelative, if_pos (.inr hrelative)]
      exact hglobal _ _ _
    · rw [if_neg hrelative, if_neg (not_or.mpr ⟨hframe, hrelative⟩)]
      by_cases hned : item.frame = mavFrameLocalEnu ∨ item.frame = mavFrameLocalNed
      · rw [if_pos hned, if_pos hned]
        exact hlocal _ _ _
      · rw [if_neg hned, if_neg hned]
        exact ⟨rfl, rfl⟩

/-- Inside of the orbit the active waypoint counts as reached, and it stays reached. -/
theorem updatePosReached_eq (hv : OnMission v.wpm) (t : Tick F) :
    wp (updatePosReached env t.globalPos t.localPos) (fun _ v' =>
      v' = { v with wpm := { v.wpm with
        posReached := v.wpm.posReached || inside env v.wpm t } }) v := by
  obtain ⟨item, hitem, hread⟩ := hv.exists_activeItem
  unfold updatePosReached
  simp only [wp_bind, wp_getWpm, wp_ite, wp_readWaypoint, wp_pure, wp_modifyWpm]
  refine ⟨fun _ => ⟨hv.index_lt, ?_⟩, fun hno => absurd hv.active hno⟩
  rw [hread hv.index_lt]
  have hinside : inside env v.wpm t = item.within env t.globalPos t.localPos := by
    unfold inside
    rw [hitem]
    rfl
  rw [hinside]
  refine (distanceInFrame_eq env hv hread t.globalPos t.localPos).mono ?_
  rintro dist v' ⟨rfl, hv'⟩
  rw [hv']
  unfold MissionItem.within
  refine ⟨fun h => ?_, fun h => ?_⟩
  · simp only [h, Bool.or_true]
  · simp only [Bool.not_eq_true] at h
    simp only [h, Bool.or_false]

/-- When the active waypoint was announced: now, if the timer does not run. -/
def WpmStorage.announcedAt (w : WpmStorage F) (now : UInt64) : UInt64 :=
  if w.timestampFirstinsideOrbit = 0 then now else w.timestampFirstinsideOrbit

/-- What a tick does to the visit. -/
inductive TickEffect (v : Vehicle F) (t : Tick F) (v' : Vehicle F) : Prop
  /-- The waypoint does not count as reached, or the manager is idle. -/
  | away (size : v'.wpm.size = v.wpm.size)
      (active : v'.wpm.currentActiveWpId = v.wpm.currentActiveWpId)
      (firstinside : v'.wpm.timestampFirstinsideOrbit = v.wpm.timestampFirstinsideOrbit)
      (posReached : v'.wpm.posReached = (v.wpm.posReached || inside env v.wpm t))
      (announced : Announced false v v')
  /-- The waypoint is announced if it was not before, and is not held long enough yet. -/
  | stays (reached : (v.wpm.posReached || inside env v.wpm t) = true)
      (size : v'.wpm.size = v.wpm.size)
      (active : v'.wpm.currentActiveWpId = v.wpm.currentActiveWpId)
      (firstinside : v'.wpm.timestampFirstinsideOrbit = v.wpm.announcedAt t.now)
      (posReached : v'.wpm.posReached = true)
      (announced : Announced (v.wpm.timestampFirstinsideOrbit == 0) v v')
  /-- The mission goes on. -/
  | advances (reached : (v.wpm.posReached || inside env v.wpm t) = true)
      (held : held env v.wpm (t.now - v.wpm.announcedAt t.now) = true)
      (size : v'.wpm.size = v.wpm.size)
      (active : v'.wpm.currentActiveWpId = nextActiveWpId v.wpm)
      (firstinside : v'.wpm.timestampFirstinsideOrbit = 0)
      (posReached : v'.wpm.posReached = false)
      (announced : Announced (v.wpm.timestampFirstinsideOrbit == 0) v v')

/-- The waypoint is announced when the timer does not run, and the timer is started. -/
theorem announceReached_progress (now : UInt64) (seq : UInt16) (v : Vehicle F) :
    wp (announceReached env now seq) (fun _ v' =>
      v'.wpm = { v.wpm with timestampFirstinsideOrbit := v.wpm.announcedAt now } ∧
      Announced (v.wpm.timestampFirstinsideOrbit == 0) v v') v := by
  unfold announceReached sendWaypointReached WpmStorage.announcedAt
  simp only [wp_bind, wp_getWpm, wp_ite, wp_pure, wp_sendMessage, wp_modifyWpm]
  refine ⟨fun hzero => ?_, fun hrunning => ?_⟩
  · rw [if_pos hzero, hzero]
    exact ⟨rfl, [_], rfl, rfl⟩
  · rw [if_neg hrunning, beq_eq_false_iff_ne.mpr hrunning]
    exact ⟨rfl, .refl v⟩

/-- The mission goes on to the next waypoint. -/
theorem advanceWaypoint_progress (hv : OnMission v.wpm) :
    wp (advanceWaypoint env) (fun _ v' =>
      v'.wpm.size = v.wpm.size ∧ v'.wpm.currentActiveWpId = nextActiveWpId v.wpm ∧
      v'.wpm.timestampFirstinsideOrbit = 0 ∧ v'.wpm.posReached = false ∧
      Announced false v v') v := by
  unfold advanceWaypoint
  simp only [wp_bind, wp_getWpm, wp_modifyWaypoint, wp_modifyWpm]
  refine ⟨hv.index_lt, ?_⟩
  have hnext : OnMission { v.wpm with currentActiveWpId := nextActiveWpId v.wpm } :=
    ⟨hv.bounded, nextActiveWpId_lt hv.active⟩
  refine (sendWaypointCurrent_progress env ?_ _).mono fun _ v₁ h₁ => ?_
  · exact hv.bounded
  obtain ⟨hwpm₁, hann₁⟩ := h₁
  have hv₁ : Bounded v₁ := by
    unfold Bounded
    rw [hwpm₁]
    exact hv.bounded
  refine (sendSetpoint_progress env hv₁ _).mono fun _ v₂ h₂ => ?_
  obtain ⟨⟨now, hwpm₂⟩, hann₂⟩ := h₂
  have hann : Announced false v v₂ := hann₁.trans hann₂
  simp only [hwpm₂, hwpm₁]
  exact ⟨hnext.index_lt, trivial, rfl, trivial, trivial, hann⟩

/-- The active waypoint counts as reached. -/
theorem continueMission_effect (hv : OnMission v.wpm) (now : UInt64)
    (hpos : v.wpm.posReached = true) :
    wp (continueMission env now) (fun _ v' => v'.wpm.size = v.wpm.size ∧
      Announced (v.wpm.timestampFirstinsideOrbit == 0) v v' ∧
      ((v'.wpm.currentActiveWpId = v.wpm.currentActiveWpId ∧ v'.wpm.posReached = true ∧
          v'.wpm.timestampFirstinsideOrbit = v.wpm.announcedAt now) ∨
        (v'.wpm.currentActiveWpId = nextActiveWpId v.wpm ∧ v'.wpm.posReached = false ∧
          v'.wpm.timestampFirstinsideOrbit = 0 ∧
          held env v.wpm (now - v.wpm.announcedAt now) = true))) v := by
  obtain ⟨item, hitem, hread⟩ := hv.exists_activeItem
  have hheld (time : UInt64) : held env v.wpm time = env.ops.heldFor time item.param2 := by
    unfold held
    rw [hitem]
    rfl
  unfold continueMission
  simp only [wp_bind, wp_getWpm, wp_ite, wp_readWaypoint, wp_pure]
  refine ⟨fun _ => ⟨hv.index_lt, ?_⟩, fun hno => absurd hv.active hno⟩
  rw [hread hv.index_lt]
  refine (announceReached_progress env now item.seq v).mono fun _ v₁ h₁ => ?_
  obtain ⟨hwpm, hann⟩ := h₁
  have hv₁ : OnMission v₁.wpm := hv.of_eq (by rw [hwpm]) (by rw [hwpm])
  have hstay : v₁.wpm.currentActiveWpId = v.wpm.currentActiveWpId ∧ v₁.wpm.posReached = true ∧
      v₁.wpm.timestampFirstinsideOrbit = v.wpm.announcedAt now := by
    rw [hwpm]
    exact ⟨rfl, hpos, rfl⟩
  have hsize : v₁.wpm.size = v.wpm.size := by rw [hwpm]
  refine ⟨fun hlong => ⟨fun _ => ?_, fun _ => ?_⟩, fun _ => ?_⟩
  · refine (advanceWaypoint_progress env hv₁).mono fun _ v₂ h₂ => ?_
    obtain ⟨hsize₂, hactive₂, hfirst₂, hpos₂, hann₂⟩ := h₂
    refine ⟨hsize₂.trans hsize, by simpa using hann.trans hann₂, .inr ⟨?_, hpos₂, hfirst₂, ?_⟩⟩
    · rw [hactive₂, hwpm]
      rfl
    · rw [hheld, ← hstay.2.2]
      exact hlong
  · exact ⟨hsize, hann, .inl hstay⟩
  · exact ⟨hsize, hann, .inl hstay⟩

theorem checkWaypointsReached_effect (hv : OnMission v.wpm) (t : Tick F) :
    wp (checkWaypointsReached env t.now t.globalPos t.localPos)
      (fun _ v' => TickEffect env v t v') v := by
  unfold checkWaypointsReached
  rw [wp_bind]
  refine (updatePosReached_eq env hv t).mono fun _ v₁ h₁ => ?_
  subst h₁
  simp only [wp_bind, wp_getWpm, wp_ite, wp_modifyWpm, Bool.and_eq_true]
  refine ⟨fun hreached => ?_, fun _ => .away rfl rfl rfl rfl (.refl v)⟩
  refine (continueMission_effect env ?_ t.now ?_).mono fun _ v₂ h₂ => ?_
  · exact hv.of_eq rfl rfl
  · exact hreached.1
  obtain ⟨hsize, hann, ⟨hactive, hpos, hfirst⟩ | ⟨hactive, hpos, hfirst, hheld⟩⟩ := h₂
  · exact .stays hreached.1 hsize hactive hfirst hpos hann
  · exact .advances hreached.1 hheld hsize hactive hfirst hpos hann

/-- The protocol timeout does not touch the visit. -/
theorem TickEffect.of_timeout {t : Tick F} {w : WpmStorage F} {text : String}
    (hwpm : w = { v.wpm with
      currentState := w.currentState
      currentCount := w.currentCount
      currentPartnerSysid := w.currentPartnerSysid
      currentPartnerCompid := w.currentPartnerCompid
      currentWpId := w.currentWpId })
    (h : TickEffect env { v with wpm := w, sent := v.sent ++ [.gcsString text] } t v') :
    TickEffect env v t v' := by
  have htext : Announced false v { v with wpm := w, sent := v.sent ++ [.gcsString text] } :=
    ⟨[_], rfl, rfl⟩
  rw [hwpm] at h
  cases h with
  | away hsize hactive hfirst hpos hann => exact .away hsize hactive hfirst hpos (htext.trans hann)
  | stays hreached hsize hactive hfirst hpos hann =>
      exact .stays hreached hsize hactive hfirst hpos (by simpa using htext.trans hann)
  | advances hreached hheld hsize hactive hfirst hpos hann =>
      exact .advances hreached hheld hsize hactive hfirst hpos (by simpa using htext.trans hann)

/-- **What one tick does.** -/
theorem tick_effect (hv : OnMission v.wpm) (t : Tick F) :
    wp (mavlinkWaypointEventloop env t.now t.globalPos t.localPos)
      (fun _ v' => TickEffect env v t v') v := by
  unfold mavlinkWaypointEventloop
  simp only [wp_bind, wp_getWpm, wp_ite, wp_modifyWpm, wp_sendGcsString]
  refine ⟨fun _ => ⟨fun hempty => ?_, fun _ => ?_⟩, fun _ => checkWaypointsReached_effect env hv t⟩
  · have hactive := hv.active
    rw [hempty] at hactive
    exact absurd hactive UInt16.not_lt_zero
  · refine (checkWaypointsReached_effect env ?_ t).mono fun _ v' h => ?_
    · exact hv.of_eq rfl rfl
    · exact .of_timeout env rfl h

/-! ### The visit to a waypoint -/

/-- What holds from tick to tick: the timer runs from the announcement that was noted, and the
vehicle has been inside since. -/
structure VisitInv (v : Vehicle F) (p : Visit) : Prop where
  onMission : OnMission v.wpm
  fresh : v.wpm.posReached = false → v.wpm.timestampFirstinsideOrbit = 0
  running : v.wpm.timestampFirstinsideOrbit ≠ 0 →
    p.announced = some v.wpm.timestampFirstinsideOrbit ∧ p.stayed = true

variable {env} {p : Visit} {t : Tick F}

/-- There is still an active waypoint after a tick. -/
theorem TickEffect.onMission (h : TickEffect env v t v') (hv : OnMission v.wpm) :
    OnMission v'.wpm := by
  cases h with
  | away hsize hactive _ _ _ => exact hv.of_eq hsize hactive
  | stays _ hsize hactive _ _ _ => exact hv.of_eq hsize hactive
  | advances _ _ hsize hactive _ _ _ =>
      refine ⟨?_, ?_⟩
      · rw [hsize]
        exact hv.bounded
      · rw [hsize, hactive]
        exact nextActiveWpId_lt hv.active

/-- The timer runs only while the active waypoint counts as reached. -/
theorem VisitInv.reached (h : VisitInv v p) (hrunning : v.wpm.timestampFirstinsideOrbit ≠ 0) :
    v.wpm.posReached = true := by
  cases hreached : v.wpm.posReached with
  | true => rfl
  | false => exact absurd (h.fresh hreached) hrunning

theorem Visit.note_eq {b : Bool} (h : Announced b v v') :
    p.note env v t v' =
      if b then { announced := some t.now, stayed := inside env v.wpm t }
      else { p with stayed := p.stayed && inside env v.wpm t } := by
  unfold Visit.note
  rw [h.eq]

/-- When the active waypoint counts as reached, its announcement is noted and the vehicle is
inside. -/
theorem VisitInv.noted (h : VisitInv v p) (hstays : Stays env v t)
    (hreached : (v.wpm.posReached || inside env v.wpm t) = true)
    (hann : Announced (v.wpm.timestampFirstinsideOrbit == 0) v v') :
    p.note env v t v' = { announced := some (v.wpm.announcedAt t.now), stayed := true } ∧
      v.wpm.announcedAt t.now ≤ t.now := by
  have hinside : inside env v.wpm t = true := by
    cases hpos : v.wpm.posReached with
    | true => exact (hstays hpos).1
    | false => rwa [hpos, Bool.false_or] at hreached
  rw [Visit.note_eq hann]
  unfold WpmStorage.announcedAt
  by_cases hzero : v.wpm.timestampFirstinsideOrbit = 0
  · rw [hzero, hinside]
    exact ⟨rfl, UInt64.le_refl _⟩
  · obtain ⟨hannounced, hstayed⟩ := h.running hzero
    have hpos := h.reached hzero
    rw [beq_eq_false_iff_ne.mpr hzero, if_neg hzero, hinside, hstayed, hannounced]
    exact ⟨rfl, (hstays hpos).2⟩

/-- Where the mission goes on to. -/
theorem nextActiveWpId_follows {w : WpmStorage F} (hw : OnMission w)
    (hne : nextActiveWpId w ≠ w.currentActiveWpId) :
    follows w.currentActiveWpId w.size (nextActiveWpId w) := by
  have hactive := UInt16.lt_iff_toNat_lt.mp hw.active
  unfold nextActiveWpId at hne ⊢
  by_cases hlast : (w.currentActiveWpId.toNat : Int) = (w.size.toNat : Int) - 1 ∧ w.size > 1
  · rw [if_pos hlast]
    exact .inr ⟨by omega, hlast.2, rfl⟩
  · rw [if_neg hlast] at hne ⊢
    by_cases hnext : w.currentActiveWpId + 1 < w.size
    · rw [if_pos hnext]
      refine .inl ⟨?_, hnext⟩
      have hsize : w.size.toNat ≤ 15 := hw.bounded
      rw [UInt16.toNat_add]
      simp only [UInt16.reduceToNat]
      omega
    · rw [if_neg hnext] at hne
      exact absurd rfl hne

/-- **One tick**: if the vehicle stays, the invariant is kept, and the law is obeyed. -/
theorem VisitInv.tick (h : VisitInv v p) (hstays : Stays env v t)
    (heffect : TickEffect env v t v') :
    VisitInv v' (p.watch env v t v') ∧ ProgressLaw env (v, p) t v' := by
  have hmission := heffect.onMission h.onMission
  unfold Visit.watch ProgressLaw
  cases heffect with
  | away hsize hactive hfirst hpos hann =>
      rw [if_pos hactive]
      refine ⟨⟨hmission, fun hnot => ?_, fun hrunning => ?_⟩, fun hne => absurd hactive hne⟩
      · rw [hpos, Bool.or_eq_false_iff] at hnot
        rw [hfirst]
        exact h.fresh hnot.1
      · rw [hfirst] at hrunning ⊢
        obtain ⟨hannounced, hstayed⟩ := h.running hrunning
        rw [Visit.note_eq hann, hstayed, (hstays (h.reached hrunning)).1]
        exact ⟨hannounced, rfl⟩
  | stays hreached hsize hactive hfirst hpos hann =>
      obtain ⟨hnote, -⟩ := h.noted hstays hreached hann
      rw [if_pos hactive, hnote]
      refine ⟨⟨hmission, fun hnot => ?_, fun _ => ?_⟩, fun hne => absurd hactive hne⟩
      · rw [hpos] at hnot
        exact absurd hnot (by decide)
      · rw [hfirst]
        exact ⟨rfl, rfl⟩
  | advances hreached hheld hsize hactive hfirst hpos hann =>
      obtain ⟨hnote, hle⟩ := h.noted hstays hreached hann
      refine ⟨⟨hmission, fun _ => hfirst, fun hrunning => absurd hfirst hrunning⟩, fun hne => ?_⟩
      rw [hnote]
      refine ⟨rfl, ⟨_, rfl, hle, hheld⟩, ?_⟩
      rw [hactive] at hne ⊢
      exact nextActiveWpId_follows h.onMission hne

variable (env)

/-- The ticks that meet a condition, with the visit that is noted. -/
def visits (C : Vehicle F → Tick F → Prop) : LTS (Vehicle F × Visit) (Tick F) :=
  ((flight env).restrict C).observe .start fun p v t v' => p.watch env v t v'

theorem visits_init {C : Vehicle F → Tick F → Prop} {v : Vehicle F} (h : (flight env).init v) :
    (visits env C).init (v, .start) :=
  ⟨h, rfl⟩

/-- A tick of a mission comes to its end. -/
theorem tick_of_step {s : Vehicle F × Visit} {C : Vehicle F → Tick F → Prop} {v' : Vehicle F}
    {p' : Visit} (hs : OnMission s.1.wpm) (hstep : (visits env C).step s t (v', p')) :
    C s.1 t ∧ TickEffect env s.1 t v' ∧ p' = s.2.watch env s.1 t v' := by
  obtain ⟨⟨hC, hrun⟩, hwatch⟩ := hstep
  exact ⟨hC, (wp_of_ok hrun).mp (tick_effect env hs t), hwatch⟩

theorem visitInv_of_reachable {s : Vehicle F × Visit}
    (h : (visits env (Stays env)).Reachable s) : VisitInv s.1 s.2 := by
  refine h.invariant (I := fun s => VisitInv s.1 s.2) ?_ ?_
  · rintro ⟨v, p⟩ ⟨⟨hmission, hpos, hfirst⟩, rfl⟩
    exact ⟨hmission, fun _ => hfirst, fun hrunning => absurd hfirst hrunning⟩
  · rintro ⟨v, p⟩ t ⟨v', p'⟩ hinv hstep
    obtain ⟨hstays, heffect, rfl⟩ := tick_of_step env hinv.onMission hstep
    exact (hinv.tick hstays heffect).1

/-- **When progress requires staying in the orbit**: in every run of ticks in which the vehicle,
once the active waypoint counts as reached, is inside of its orbit and the clock does not run back,
the index of the active waypoint stays below the size of the list, every tick comes to its end, and
every tick obeys the law of progress. -/
theorem progress_requires_orbit {v : Vehicle F} {p : Visit}
    (h : (visits env (Stays env)).Reachable (v, p)) :
    v.wpm.currentActiveWpId < v.wpm.size ∧
      ∀ t, Stays env v t → ∃ v', (flight env).step v t v' ∧ ProgressLaw env (v, p) t v' := by
  have hinv : VisitInv v p := visitInv_of_reachable env h
  refine ⟨hinv.onMission.active, fun t hstays => ?_⟩
  obtain ⟨_, v', hrun, heffect⟩ := wp_iff.mp (tick_effect env hinv.onMission t)
  exact ⟨v', hrun, (hinv.tick hstays heffect).2⟩

end

/-! ### Two waypoints on a line -/

/-- Whole numbers, and distances on a line. -/
def lineOps : FloatOps Int :=
  { zero := 0, minusOne := -1, le := fun a b => a ≤ b, ofInt32 := Int32.toInt,
    globalDistance := fun x _ lat _ => (x - lat).natAbs,
    localDistance := fun x _ _ px _ _ => (x - px).natAbs,
    heldFor := fun time param2 => param2 * 1000 ≤ time.toNat }

/-- A vehicle that moves on the line. -/
def lineEnv : Env Int := { ops := lineOps, sysid := 100, clock := fun _ => 0 }

/-- A waypoint on the line, with an orbit of 1. The first one is the active one. -/
def lineItem (seq : UInt16) (x : Int) : MissionItem Int :=
  { param1 := 0, param2 := 1, param3 := 0, param4 := 0, x := x, y := 0, z := 0,
    seq := seq, command := 16, targetSystem := 100, targetComponent := mavlinkWpmCompId,
    frame := mavFrameLocalNed, current := if seq = 0 then 1 else 0, autocontinue := 1 }

/-- A message, received far from both waypoints. -/
def lineEvent (payload : Payload Int) : Event Int :=
  .message ⟨qgc.sysid, qgc.compid, payload⟩ ⟨0, 0, 0, 0⟩ ⟨1000, 0, 0⟩

/-- The upload of two waypoints. -/
def lineUpload : List (Event Int) :=
  [lineEvent (.missionCount 100 mavlinkWpmCompId 2), lineEvent (.missionItem (lineItem 0 0)),
    lineEvent (.missionItem (lineItem 1 50))]

/-- Zeroed storage. -/
def lineStorage : WpmStorage Int :=
  { waypoints := Vector.replicate _ (lineItem 0 0),
    rcvWaypoints := Vector.replicate _ (lineItem 0 0), size := 0, maxSize := 0, rcvSize := 0,
    currentState := .idle, currentWpId := 0,
    currentActiveWpId := 0, currentCount := 0, currentPartnerSysid := 0,
    currentPartnerCompid := 0, timestampLastaction := 0, timestampLastSendSetpoint := 0,
    timestampFirstinsideOrbit := 0, timestampLastoutsideOrbit := 0, timeout := 0,
    delaySetpoint := 0, yawReached := false, posReached := false, idle := false }

/-- The vehicle after the upload. -/
def lineVehicle : Vehicle Int := after (run lineEnv lineUpload) (initial lineStorage)

/-- A tick at a place on the line. -/
def lineTick (now : UInt64) (x : Int) : Tick Int :=
  { now := now, globalPos := ⟨0, 0, 0, 0⟩, localPos := ⟨x, 0, 0⟩ }

/-- The state after a tick that meets a condition, with the visit. -/
def nextVisit (C : Vehicle Int → Tick Int → Prop) [∀ v t, Decidable (C v t)]
    (s : Vehicle Int × Visit) (t : Tick Int) : Option (Vehicle Int × Visit) :=
  if C s.1 t then
    (completes (mavlinkWaypointEventloop lineEnv t.now t.globalPos t.localPos) s.1).map fun v' =>
      (v', s.2.watch lineEnv s.1 t v')
  else
    none

theorem step_of_nextVisit {C : Vehicle Int → Tick Int → Prop} [∀ v t, Decidable (C v t)]
    {s s' : Vehicle Int × Visit} {t : Tick Int} (h : nextVisit C s t = some s') :
    (visits lineEnv C).step s t s' := by
  unfold nextVisit at h
  by_cases hC : C s.1 t
  · rw [if_pos hC] at h
    obtain ⟨v', hv', rfl⟩ := Option.map_eq_some_iff.mp h
    exact ⟨⟨hC, completes_eq_some.mp hv'⟩, rfl⟩
  · rw [if_neg hC] at h
    cases h

theorem lineVehicle_init : (flight lineEnv).init lineVehicle :=
  ⟨⟨by decide +kernel, by decide +kernel⟩, by decide +kernel, by decide +kernel⟩

/-- A vehicle that stays for a second goes on to the second waypoint, and the law is obeyed. -/
theorem progress_of_staying :
    ∃ v p, (visits lineEnv (Stays lineEnv)).Reachable (v, p) ∧ v.wpm.currentActiveWpId = 1 ∧
      v.wpm.currentActiveWpId < v.wpm.size ∧ ∀ t, Stays lineEnv v t →
        ∃ v', (flight lineEnv).step v t v' ∧ ProgressLaw lineEnv (v, p) t v' := by
  let ts := [lineTick 1 0, lineTick 500 1, lineTick 1001 0]
  obtain ⟨⟨v, p⟩, hs⟩ := Option.isSome_iff_exists.mp
    (show (ts.foldlM (nextVisit (Stays lineEnv)) (lineVehicle, .start)).isSome = true by
      decide +kernel)
  have hactive : ∀ s ∈ ts.foldlM (nextVisit (Stays lineEnv)) (lineVehicle, .start),
      s.1.wpm.currentActiveWpId = 1 := by
    decide +kernel
  have hreach : (visits lineEnv (Stays lineEnv)).Reachable (v, p) :=
    ⟨(lineVehicle, .start), ts, visits_init lineEnv lineVehicle_init,
      .of_foldlM (fun _ _ _ => step_of_nextVisit) hs⟩
  exact ⟨v, p, hreach, hactive _ hs, progress_requires_orbit lineEnv hreach⟩

/-- A vehicle that comes in once and leaves goes on all the same. -/
theorem progress_outside :
    ¬ ∀ s t s', (visits lineEnv fun _ _ => True).Reachable s →
      (visits lineEnv fun _ _ => True).step s t s' → ProgressLaw lineEnv s t s'.1 := by
  intro hall
  let ts := [lineTick 1 0, lineTick 500 30]
  let next := nextVisit fun _ _ => True
  obtain ⟨s, hs⟩ := Option.isSome_iff_exists.mp
    (show (ts.foldlM next (lineVehicle, .start)).isSome = true by decide +kernel)
  have hstep : ∀ s ∈ ts.foldlM next (lineVehicle, .start),
      (next s (lineTick 1001 30)).isSome = true := by
    decide +kernel
  have hlaw : ∀ s ∈ ts.foldlM next (lineVehicle, .start), ∀ s' ∈ next s (lineTick 1001 30),
      s'.1.wpm.currentActiveWpId ≠ s.1.wpm.currentActiveWpId ∧
        (s.2.note lineEnv s.1 (lineTick 1001 30) s'.1).stayed = false := by
    decide +kernel
  obtain ⟨s', hs'⟩ := Option.isSome_iff_exists.mp (hstep s hs)
  have hreach : (visits lineEnv fun _ _ => True).Reachable s :=
    ⟨(lineVehicle, .start), ts, visits_init lineEnv lineVehicle_init,
      .of_foldlM (fun _ _ _ => step_of_nextVisit) hs⟩
  obtain ⟨hleft, hstayed⟩ := hlaw s hs s' hs'
  have hlawful := hall s _ s' hreach (step_of_nextVisit hs') hleft
  rw [hstayed] at hlawful
  exact absurd hlawful.1 (by decide)

end Px4Firmware.Waypoints
