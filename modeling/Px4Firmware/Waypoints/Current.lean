import Px4Firmware.Waypoints.Abort
import Px4Firmware.Waypoints.Talk

/-!
# Px4Firmware.Waypoints.Current

**The active waypoint and the marks in the list.** The manager keeps the active waypoint twice: as
an index, and as the waypoint of the list whose `current` field is set. Uploads, the request for
another active waypoint, the progress of the mission and the message that clears the list all keep
the two in step (`Consistent`).

Two things do not. A count of 0 resets the index and leaves the mark where it is, and a new list is
taken over with all its marks, though only the first waypoint whose mark is 1 becomes the active
one. Without these two (`Careful`) every reachable state is consistent (`consistent_of_careful`),
and handling a message keeps a state consistent exactly then (`handlePayload_consistent_iff`).
-/

namespace Px4Firmware.Waypoints

open Px4Firmware.Lib

section

variable {F : Type} (env : Env F)

/-- The active waypoint is none or one of the list, and the marked waypoint is the active one. -/
structure Consistent (v : Vehicle F) : Prop where
  active : v.wpm.currentActiveWpId = 65535 ∨ v.wpm.currentActiveWpId < v.wpm.size
  marked : ∀ k (_ : k < maxWpCount), k < v.wpm.size.toNat →
    (v.wpm.waypoints[k].current ≠ 0 ↔ k = v.wpm.currentActiveWpId.toNat)

/-- At most one of the first `n` waypoints is marked, with a 1. -/
def OneMark (ws : Vector (MissionItem F) maxWpCount) (n : Nat) : Prop :=
  ∀ i (_ : i < maxWpCount), i < n → ws[i].current ≠ 0 → ws[i].current = 1 ∧
    ∀ j (_ : j < maxWpCount), j < n → ws[j].current ≠ 0 → j = i

/-- The receive buffer with one more waypoint. -/
def receivedList (v : Vehicle F) (item : MissionItem F) : Vector (MissionItem F) maxWpCount :=
  if h : item.seq.toNat < maxWpCount then v.wpm.rcvWaypoints.set item.seq.toNat item h
  else v.wpm.rcvWaypoints

/-- A count of 0 finds no active waypoint, and a complete list has at most one mark. -/
def Careful (v : Vehicle F) : Event F → Prop
  | .message m _ _ =>
      match m.payload with
      | .missionCount targetSystem _ count =>
          targetSystem = env.sysid → countable v.wpm → count = 0 →
            v.wpm.currentActiveWpId = 65535
      | .missionItem item =>
          storesItem env v item → item.seq + 1 = v.wpm.currentCount →
            OneMark (receivedList v item) v.wpm.currentCount.toNat
      | _ => True
  | .tick .. => True

/-- Neither the marks nor the active waypoint change. -/
structure MarksKept (v v' : Vehicle F) : Prop where
  size : v'.wpm.size = v.wpm.size
  active : v'.wpm.currentActiveWpId = v.wpm.currentActiveWpId
  marks : ∀ k (_ : k < maxWpCount), v'.wpm.waypoints[k].current = v.wpm.waypoints[k].current

variable {env} {v v' v'' : Vehicle F}

theorem MarksKept.refl (v : Vehicle F) : MarksKept v v := ⟨rfl, rfl, fun _ _ => rfl⟩

theorem MarksKept.trans (h : MarksKept v v') (h' : MarksKept v' v'') : MarksKept v v'' where
  size := h'.size.trans h.size
  active := h'.active.trans h.active
  marks k hk := (h'.marks k hk).trans (h.marks k hk)

theorem Talks.marksKept (h : Talks v v') : MarksKept v v' where
  size := h.size
  active := h.active
  marks k hk := by simp only [h.waypoints]

theorem Consistent.kept (hv : Consistent v) (h : MarksKept v v') : Consistent v' where
  active := by
    rw [h.active, h.size]
    exact hv.active
  marked k hk := by
    rw [h.marks k hk, h.active, h.size]
    exact hv.marked k hk

/-- Without an active waypoint nothing is marked. -/
theorem Consistent.unmarked (hv : Consistent v) (h : v.wpm.currentActiveWpId = 65535) {k : Nat}
    (hk : k < maxWpCount) (hsize : k < v.wpm.size.toNat) : v.wpm.waypoints[k].current = 0 := by
  by_contra hmark
  have hactive := (hv.marked k hk hsize).mp hmark
  rw [h] at hactive
  have hindex : k < 15 := hk
  simp only [UInt16.reduceToNat] at hactive
  omega

/-! ### The progress of the mission -/

variable (env)

theorem advanceWaypoint_consistent (hb : Bounded v) (hv : Consistent v)
    (h : v.wpm.currentActiveWpId < v.wpm.size) :
    wp (advanceWaypoint env) (fun _ v' => Consistent v') v := by
  unfold advanceWaypoint
  simp only [wp_bind, wp_getWpm, wp_modifyWaypoint, wp_modifyWpm]
  refine ⟨index_lt hb h, announce_talks env hb fun v' hv' => ?_⟩
  have hnext : v'.wpm.currentActiveWpId < v'.wpm.size := by
    rw [hv'.active, hv'.size]
    exact nextActiveWpId_lt h
  have hindex : v'.wpm.currentActiveWpId.toNat < maxWpCount := index_lt (hv'.bounded hb) hnext
  refine ⟨hindex, .inr hnext, fun k hk hsize => ?_⟩
  -- The mark of the old waypoint was removed, and it was the only one.
  have hclear : v'.wpm.waypoints[k].current = 0 := by
    simp only [hv'.waypoints]
    rw [Vector.getElem_set]
    by_cases hold : v.wpm.currentActiveWpId.toNat = k
    · rw [if_pos hold]
    · rw [if_neg hold]
      rw [hv'.size] at hsize
      by_contra hmark
      exact hold ((hv.marked k hk hsize).mp hmark).symm
  show ((v'.wpm.waypoints.set v'.wpm.currentActiveWpId.toNat _ hindex)[k]).current ≠ 0 ↔
    k = v'.wpm.currentActiveWpId.toNat
  rw [Vector.getElem_set]
  by_cases hnew : v'.wpm.currentActiveWpId.toNat = k
  · rw [if_pos hnew]
    exact ⟨fun _ => hnew.symm, fun _ => (by decide : (1 : UInt8) ≠ 0)⟩
  · rw [if_neg hnew, hclear]
    exact ⟨fun h => absurd rfl h, fun h => absurd h.symm hnew⟩

theorem continueMission_consistent (hb : Bounded v) (hv : Consistent v) (now : UInt64) :
    wp (continueMission env now) (fun _ v' => Consistent v') v := by
  unfold continueMission
  simp only [wp_bind, wp_getWpm, wp_ite, wp_readWaypoint, wp_pure]
  refine ⟨fun h => ⟨index_lt hb h, ?_⟩, fun _ => hv⟩
  refine (announceReached_talks env now _ v).mono fun _ v' hv' => ?_
  have hconsistent := hv.kept hv'.marksKept
  refine ⟨fun _ => ⟨fun _ => ?_, fun _ => hconsistent⟩, fun _ => hconsistent⟩
  refine advanceWaypoint_consistent env (hv'.bounded hb) hconsistent ?_
  rw [hv'.active, hv'.size]
  exact h

theorem checkWaypointsReached_consistent (hb : Bounded v) (hv : Consistent v) (now : UInt64)
    (globalPos : GlobalPosition F) (localPos : LocalPosition F) :
    wp (checkWaypointsReached env now globalPos localPos) (fun _ v' => Consistent v') v := by
  unfold checkWaypointsReached
  rw [wp_bind]
  refine (updatePosReached_talks env hb globalPos localPos).mono fun _ v' hv' => ?_
  have hconsistent := hv.kept hv'.marksKept
  simp only [wp_bind, wp_getWpm, wp_ite, wp_modifyWpm]
  refine ⟨fun _ => continueMission_consistent env (hv'.bounded hb) hconsistent now, fun _ => ?_⟩
  exact hconsistent.kept ⟨rfl, rfl, fun _ _ => rfl⟩

/-! ### The message kinds -/

variable {msg : Message F} {g : GlobalPosition F} {l : LocalPosition F}

theorem handleMissionAck_marksKept (now : UInt64) (sender : Station) (targetSystem : UInt8)
    (v : Vehicle F) :
    wp (handleMissionAck env now sender targetSystem) (fun _ v' => MarksKept v v') v := by
  unfold handleMissionAck setLastaction
  simp only [wp_bind, wp_getWpm, wp_ite, wp_modifyWpm, wp_sendGcsString, wp_pure]
  refine ⟨fun _ => ⟨fun _ => ⟨fun _ => ?_, fun _ => ?_⟩, fun _ => ?_⟩, fun _ => ?_⟩
  all_goals exact ⟨rfl, rfl, fun _ _ => rfl⟩

theorem handleMissionRequestList_marksKept (now : UInt64) (sender : Station)
    (targetSystem : UInt8) (v : Vehicle F) :
    wp (handleMissionRequestList env now sender targetSystem) (fun _ v' => MarksKept v v') v := by
  unfold handleMissionRequestList setLastaction sendWaypointCount
  simp only [wp_bind, wp_getWpm, wp_ite, wp_modifyWpm, wp_sendMessage, wp_pure]
  refine ⟨fun _ => ⟨fun _ => ⟨fun _ => ?_, fun _ => ?_⟩, fun _ => ?_⟩, fun _ => ?_⟩
  all_goals exact ⟨rfl, rfl, fun _ _ => rfl⟩

/-- Addressing a waypoint leaves its mark alone. -/
theorem sendWaypoint_marksKept (hb : Bounded v) (seq : UInt16) :
    wp (sendWaypoint env seq) (fun _ v' => MarksKept v v') v := by
  unfold sendWaypoint
  simp only [wp_bind, wp_getWpm, wp_ite, wp_pure, wp_modifyWaypoint, wp_readWaypoint,
    wp_sendMessage]
  refine ⟨fun h => ⟨index_lt hb h, index_lt hb h, rfl, rfl, fun k hk => ?_⟩, fun _ => .refl v⟩
  show ((v.wpm.waypoints.set seq.toNat _ (index_lt hb h))[k]).current = _
  rw [Vector.getElem_set]
  by_cases hik : seq.toNat = k
  · subst hik
    rw [if_pos rfl]
  · rw [if_neg hik]

theorem serveRequest_marksKept (hb : Bounded v) (seq : UInt16) :
    wp (serveRequest env seq) (fun _ v' => MarksKept v v') v := by
  refine serveRequest_talks env fun v₁ htalk _ => ?_
  refine (sendWaypoint_marksKept env ?_ seq).mono fun _ v₂ h₂ => ?_
  · exact htalk.bounded hb
  · exact htalk.marksKept.trans ⟨h₂.size, h₂.active, h₂.marks⟩

theorem handleMissionRequest_marksKept (hb : Bounded v) (now : UInt64) (sender : Station)
    (targetSystem : UInt8) (seq : UInt16) :
    wp (handleMissionRequest env now sender targetSystem seq) (fun _ v' => MarksKept v v') v := by
  unfold handleMissionRequest setLastaction
  simp only [wp_bind, wp_getWpm, wp_ite, wp_modifyWpm, wp_sendGcsString]
  have hside {w : WpmStorage F} {sent : List (Output F)}
      (h : { v.wpm with timestampLastaction := w.timestampLastaction } = w) :
      MarksKept v { v with wpm := w, sent := sent } := by
    rw [← h]
    exact ⟨rfl, rfl, fun _ _ => rfl⟩
  refine ⟨fun _ => ⟨fun _ => ?_, fun _ => ?_⟩, fun _ => ⟨fun _ => hside rfl, fun _ => hside rfl⟩⟩
  · refine (serveRequest_marksKept env ?_ seq).mono fun _ _ h => (hside rfl).trans h
    exact hb
  · cases requestRefusal v.wpm seq with
    | none => exact hside rfl
    | some text => exact hside rfl

/-- The marks are set one after the other. -/
theorem markCurrent_marks {n : Nat} (hn : n ≤ maxWpCount) (seq : UInt16) (v : Vehicle F) :
    wp ((List.range n).forM fun i =>
        modifyWaypoint i fun wp => { wp with current := if i = seq.toNat then 1 else 0 })
      (fun _ v' => ∃ ws : Vector (MissionItem F) maxWpCount,
        v' = { v with wpm := { v.wpm with waypoints := ws } } ∧
        ∀ k (_ : k < maxWpCount), k < n →
          ws[k].current = if k = seq.toNat then 1 else 0) v := by
  refine wp_forM_waypoints
    (P := fun k _ item => item.current = if k = seq.toNat then 1 else 0) hn v fun i hi ws => ?_
  rw [wp_modifyWaypoint]
  exact ⟨hi, _, rfl, rfl⟩

theorem setCurrent_consistent (hb : Bounded v) {seq : UInt16} (h : seq < v.wpm.size) :
    wp (setCurrent env seq) (fun _ v' => Consistent v') v := by
  unfold setCurrent
  simp only [wp_bind, wp_getWpm, wp_modifyWpm, wp_sendGcsString]
  refine (markCurrent_marks hb seq _).mono ?_
  rintro _ _ ⟨ws, rfl, hws⟩
  have hmarked : Consistent { v with wpm := { v.wpm with
      waypoints := ws, currentActiveWpId := seq } } := by
    refine ⟨.inr h, fun k hk hsize => ?_⟩
    show ws[k].current ≠ 0 ↔ k = seq.toNat
    rw [hws k hk hsize]
    by_cases hkseq : k = seq.toNat
    · rw [if_pos hkseq]
      exact ⟨fun _ => hkseq, fun _ => by decide⟩
    · rw [if_neg hkseq]
      exact ⟨fun h => absurd rfl h, fun h => absurd h hkseq⟩
  refine (sendWaypointCurrent_talks env ?_ seq).mono fun _ v₁ h₁ => ?_
  · exact hb
  refine (sendSetpoint_talks env (h₁.bounded ?_) seq).mono fun _ v₂ h₂ => ?_
  · exact hb
  have hkept := (h₁.trans h₂).marksKept
  exact hmarked.kept ⟨hkept.size, hkept.active, hkept.marks⟩

theorem handleMissionSetCurrent_consistent (hb : Bounded v) (hv : Consistent v) (now : UInt64)
    (targetSystem : UInt8) (seq : UInt16) :
    wp (handleMissionSetCurrent env now targetSystem seq) (fun _ v' => Consistent v') v := by
  unfold handleMissionSetCurrent setLastaction
  simp only [wp_bind, wp_getWpm, wp_ite, wp_modifyWpm, wp_sendGcsString]
  refine ⟨fun _ => ⟨fun _ => ⟨fun hseq => ?_, fun _ => ?_⟩, fun _ => ?_⟩, fun _ => ?_⟩
  · refine setCurrent_consistent env ?_ hseq
    exact hb
  all_goals exact hv.kept ⟨rfl, rfl, fun _ _ => rfl⟩

theorem handleMissionClearAll_consistent (hv : Consistent v) (now : UInt64)
    (targetSystem : UInt8) :
    wp (handleMissionClearAll env now targetSystem) (fun _ v' => Consistent v') v := by
  unfold handleMissionClearAll setLastaction
  simp only [wp_bind, wp_getWpm, wp_ite, wp_modifyWpm, wp_pure]
  exact ⟨fun _ => ⟨.inl rfl, fun k _ hk => absurd hk (Nat.not_lt_zero k)⟩, fun _ => hv⟩

theorem openTransfer_marksKept (sender : Station) (count : UInt16) (v : Vehicle F) :
    wp (openTransfer env sender count) (fun _ v' => MarksKept v v') v := by
  unfold openTransfer
  simp only [wp_bind, wp_getWpm]
  refine (sendGcsStringIf_talks _ _ v).mono fun _ v₁ h₁ => ?_
  refine (sendGcsStringIf_talks _ _ v₁).mono fun _ v₂ h₂ => ?_
  simp only [wp_modifyWpm, wp_sendGcsString]
  refine (sendWaypointRequest_talks env _ _).mono fun _ v₃ h₃ => ?_
  have hkept := h₃.marksKept
  exact (h₁.1.trans h₂.1).marksKept.trans ⟨hkept.size, hkept.active, hkept.marks⟩

/-- After a count: a count of 0 must find no active waypoint. -/
theorem handleMissionCount_consistent_iff {ts tc : UInt8} {count : UInt16}
    (hpay : msg.payload = .missionCount ts tc count) (hb : Bounded v) (hv : Consistent v)
    (now : UInt64) :
    wp (handleMissionCount env now msg.sender ts count)
      (fun _ v' => Consistent v' ↔ Careful env v (.message msg g l)) v := by
  simp only [Careful, hpay]
  unfold handleMissionCount setLastaction
  simp only [wp_bind, wp_getWpm, wp_ite, wp_modifyWpm, wp_sendGcsString]
  refine ⟨fun hts => ⟨fun hcount => ⟨fun hpos => ?_, fun hzero => ?_⟩, fun hbusy => ?_⟩,
    fun htarget => ?_⟩
  · refine (openTransfer_marksKept env msg.sender count _).mono fun _ v' h => ?_
    have hcareful : count ≠ 0 := by
      rintro rfl
      exact absurd hpos (by decide)
    exact iff_of_true (hv.kept ⟨h.size, h.active, h.marks⟩)
      fun _ _ h => absurd h hcareful
  · have hcount' : countable v.wpm := hcount
    have hzero' : count = 0 := by
      have := UInt16.lt_iff_toNat_lt.not.mp hzero
      exact UInt16.toNat_inj.mp (by simp only [UInt16.reduceToNat] at this ⊢; omega)
    constructor
    · intro hconsistent _ _ _
      -- The mark of an active waypoint would have stayed.
      refine hv.active.resolve_right fun hactive => ?_
      have hindex := index_lt hb hactive
      have hmark := (hv.marked _ hindex (UInt16.lt_iff_toNat_lt.mp hactive)).mpr rfl
      exact hmark (hconsistent.unmarked rfl hindex (UInt16.lt_iff_toNat_lt.mp hactive))
    · intro hcareful
      have hnone := hcareful hts hcount' hzero'
      exact hv.kept ⟨rfl, hnone.symm, fun _ _ => rfl⟩
  · exact iff_of_true (hv.kept ⟨rfl, rfl, fun _ _ => rfl⟩)
      fun _ h => absurd h hbusy
  · exact iff_of_true (hv.kept ⟨rfl, rfl, fun _ _ => rfl⟩)
      fun h => absurd h htarget

/-- The search stops at the first mark that is a 1. -/
theorem firstCurrent_first (v : Vehicle F) (n : Nat) :
    ∀ i, i + n ≤ maxWpCount → wp (firstCurrent i n) (fun j v' => v' = v ∧ j ≤ i + n ∧
      (∀ k (_ : k < maxWpCount), i ≤ k → k < j → v.wpm.waypoints[k].current ≠ 1) ∧
      ∀ _ : j < maxWpCount, j < i + n → v.wpm.waypoints[j].current = 1) v := by
  induction n with
  | zero =>
      intro i _
      exact ⟨rfl, Nat.le_refl i, fun k _ hik hki => absurd hki (Nat.not_lt_of_le hik),
        fun _ hlt => absurd hlt (Nat.lt_irrefl i)⟩
  | succ n ih =>
      intro i hi
      unfold firstCurrent
      simp only [wp_bind, wp_readWaypoint, wp_ite, wp_pure]
      refine ⟨by omega, fun hmark => ?_, fun hmark => ?_⟩
      · exact ⟨trivial, by omega, fun k _ hik hki => absurd hki (Nat.not_lt_of_le hik),
          fun _ _ => hmark⟩
      · refine (ih (i + 1) (by omega)).mono ?_
        rintro j v' ⟨rfl, hj, hbefore, hfound⟩
        refine ⟨rfl, by omega, fun k hk hik hkj => ?_, fun hj' hlt => hfound hj' (by omega)⟩
        by_cases hfirst : k = i
        · subst hfirst
          exact hmark
        · exact hbefore k hk (by omega) hkj

/-- The active waypoint is marked with a 1: it must be the only one with a mark. -/
theorem consistent_found_iff (hb : Bounded v) (hactive : v.wpm.currentActiveWpId < v.wpm.size)
    (hfound : ∀ _ : v.wpm.currentActiveWpId.toNat < maxWpCount,
      v.wpm.waypoints[v.wpm.currentActiveWpId.toNat].current = 1) :
    Consistent v ↔ OneMark v.wpm.waypoints v.wpm.size.toNat := by
  have hindex := index_lt hb hactive
  have hlt := UInt16.lt_iff_toNat_lt.mp hactive
  have hmark : v.wpm.waypoints[v.wpm.currentActiveWpId.toNat].current ≠ 0 := by
    rw [hfound hindex]
    decide
  constructor
  · rintro ⟨-, hmarked⟩ k hk hks hkmark
    obtain rfl := (hmarked k hk hks).mp hkmark
    exact ⟨hfound hk, fun j hj hjs hjmark => (hmarked j hj hjs).mp hjmark⟩
  · intro hone
    refine ⟨.inr hactive, fun k hk hks => ⟨fun hkmark => ?_, ?_⟩⟩
    · exact (hone _ hindex hlt hmark).2 k hk hks hkmark
    · rintro rfl
      exact hmark

/-- No waypoint is active, and no mark is a 1: there must be no mark at all. -/
theorem consistent_none_iff (hnone : v.wpm.currentActiveWpId = 65535)
    (hmarks : ∀ k (_ : k < maxWpCount), k < v.wpm.size.toNat →
      v.wpm.waypoints[k].current ≠ 1) :
    Consistent v ↔ OneMark v.wpm.waypoints v.wpm.size.toNat := by
  constructor
  · intro hconsistent k hk hks hmark
    exact absurd (hconsistent.unmarked hnone hk hks) hmark
  · intro hone
    refine ⟨.inl hnone, fun k hk hks => iff_of_false (fun hmark => ?_) (fun hactive => ?_)⟩
    · exact hmarks k hk hks (hone k hk hks hmark).1
    · have hindex : k < 15 := hk
      rw [hnone] at hactive
      simp only [UInt16.reduceToNat] at hactive
      omega

/-- The new list is consistent if at most one of its waypoints is marked. -/
theorem selectCurrent_consistent_iff (hb : Bounded v) :
    wp (selectCurrent env)
      (fun _ v' => Consistent v' ↔ OneMark v.wpm.waypoints v.wpm.size.toNat) v := by
  have hsize : v.wpm.size.toNat ≤ 15 := hb
  unfold selectCurrent
  simp only [wp_bind, wp_getWpm]
  refine (firstCurrent_first v _ 0 (by rw [Nat.zero_add]; exact hb)).mono ?_
  rintro i v' ⟨rfl, hi, hbefore, hfound⟩
  rw [Nat.zero_add] at hi hfound
  simp only [wp_ite, wp_bind, wp_getWpm, wp_modifyWpm]
  refine ⟨fun hne => ?_, fun hall => ?_⟩
  · have hid : (UInt16.ofNat i).toNat = i := by
      rw [UInt16.toNat_ofNat']
      exact Nat.mod_eq_of_lt (by omega)
    have hlt : i < v'.wpm.size.toNat := by omega
    refine announce_talks env hb fun v'' hv'' => ?_
    have hkept := hv''.marksKept
    have hmarks : Consistent { v' with wpm := { v'.wpm with
        currentActiveWpId := UInt16.ofNat i } } ↔
        OneMark v'.wpm.waypoints v'.wpm.size.toNat := by
      refine consistent_found_iff hb ?_ ?_
      · exact UInt16.lt_iff_toNat_lt.mpr (by rw [hid]; exact hlt)
      · simp only [hid]
        exact fun hindex => hfound hindex hlt
    refine Iff.trans ⟨fun h => ?_, fun h => ?_⟩ hmarks
    · exact h.kept ⟨hkept.size.symm, hkept.active.symm, fun k hk => (hkept.marks k hk).symm⟩
    · exact h.kept ⟨hkept.size, hkept.active, hkept.marks⟩
  · obtain rfl : i = v'.wpm.size.toNat := Decidable.not_not.mp hall
    exact consistent_none_iff rfl fun k hk hks => hbefore k hk (Nat.zero_le k) hks

theorem OneMark.congr {ws ws' : Vector (MissionItem F) maxWpCount} {n : Nat}
    (h : ∀ k (_ : k < maxWpCount), k < n → ws'[k] = ws[k]) : OneMark ws' n ↔ OneMark ws n := by
  have hone {ws ws' : Vector (MissionItem F) maxWpCount}
      (h : ∀ k (_ : k < maxWpCount), k < n → ws'[k] = ws[k]) (hone : OneMark ws n) :
      OneMark ws' n := by
    intro i hi hin hmark
    rw [h i hi hin] at hmark ⊢
    refine ⟨(hone i hi hin hmark).1, fun j hj hjn hjmark => ?_⟩
    rw [h j hj hjn] at hjmark
    exact (hone i hi hin hmark).2 j hj hjn hjmark
  exact ⟨hone fun k hk hkn => (h k hk hkn).symm, hone h⟩

/-- The receive buffer becomes the active list. -/
theorem switchWaypoints_consistent_iff (hcount : v.wpm.currentCount.toNat ≤ maxWpCount) :
    wp (switchWaypoints env)
      (fun _ v' => Consistent v' ↔ OneMark v.wpm.rcvWaypoints v.wpm.currentCount.toNat) v := by
  unfold switchWaypoints sendWaypointAck
  simp only [wp_bind, wp_getWpm, wp_modifyWpm, wp_sendGcsString, wp_sendMessage]
  refine (copyWaypoints hcount _).mono ?_
  rintro _ _ ⟨ws, rfl, hws⟩
  refine (selectCurrent_consistent_iff env ?_).mono fun _ v' hv' => ?_
  · exact hcount
  refine Iff.trans ⟨fun h => ?_, fun h => ?_⟩ (hv'.trans (OneMark.congr hws))
  · exact h.kept ⟨rfl, rfl, fun _ _ => rfl⟩
  · exact h.kept ⟨rfl, rfl, fun _ _ => rfl⟩

/-- After a waypoint: a list that becomes complete must have at most one mark. -/
theorem receiveItem_consistent_iff {item : MissionItem F} (hv : Consistent v)
    (hindex : item.seq.toNat < maxWpCount) :
    wp (receiveItem env item) (fun _ v' => Consistent v' ↔
      (item.seq + 1 = v.wpm.currentCount →
        OneMark (receivedList v item) v.wpm.currentCount.toNat)) v := by
  unfold receiveItem receivedList
  rw [dif_pos hindex]
  simp only [wp_bind, wp_getWpm, wp_modifyWpm, wp_writeRcvWaypoint, wp_ite, and_true]
  refine ⟨hindex, fun hlast => ?_, fun hmore => ?_⟩
  · refine (switchWaypoints_consistent_iff env ?_).mono fun _ v' h => ?_
    · exact count_le_of_last hindex hlast
    · exact h.trans ⟨fun hone _ => hone, fun hone => hone hlast⟩
  · refine (sendWaypointRequest_talks env _ _).mono fun _ v' h => ?_
    have hkept := h.marksKept
    exact iff_of_true (hv.kept ⟨hkept.size, hkept.active, hkept.marks⟩)
      fun hlast => absurd hlast hmore

theorem handleMissionItem_consistent_iff {item : MissionItem F}
    (hpay : msg.payload = .missionItem item) (hin : ¬ overflows env (.message msg g l) v)
    (hv : Consistent v) (now : UInt64) :
    wp (handleMissionItem env now item)
      (fun _ v' => Consistent v' ↔ Careful env v (.message msg g l)) v := by
  simp only [Careful, hpay]
  simp only [overflows, hpay] at hin
  unfold handleMissionItem setLastaction
  simp only [wp_bind, wp_getWpm, wp_ite, wp_modifyWpm, wp_sendGcsString, wp_pure]
  refine ⟨fun haddr => ⟨fun hrcv => ?_, fun hnext => ?_⟩, fun hother => ?_⟩
  · have hstores : storesItem env v item := ⟨haddr, hrcv⟩
    have hindex : item.seq.toNat < maxWpCount :=
      Nat.lt_of_not_le fun hle => hin ⟨hstores, hle⟩
    refine (receiveItem_consistent_iff env ?_ hindex).mono fun _ v' h => ?_
    · exact hv.kept ⟨rfl, rfl, fun _ _ => rfl⟩
    · exact h.trans ⟨fun hlast _ => hlast, fun hlast => hlast hstores⟩
  · have hno : ¬ storesItem env v item := fun h => hnext h.2
    refine ⟨fun _ => ?_, fun _ => ⟨fun _ => ?_, fun _ => ?_⟩⟩
    · refine (sendWaypointAck_talks env 0 _).mono fun _ v' h => ?_
      have hkept := h.marksKept
      exact iff_of_true (hv.kept ⟨hkept.size, hkept.active, hkept.marks⟩) fun h => absurd h hno
    · refine (sendWaypointRequest_talks env _ _).mono fun _ v' h => ?_
      have hkept := h.marksKept
      exact iff_of_true (hv.kept ⟨hkept.size, hkept.active, hkept.marks⟩) fun h => absurd h hno
    · exact iff_of_true (hv.kept ⟨rfl, rfl, fun _ _ => rfl⟩) fun h => absurd h hno
  · exact iff_of_true (hv.kept ⟨rfl, rfl, fun _ _ => rfl⟩) fun h => absurd h.1 hother

/-! ### One event -/

/-- **Where handling a message keeps a consistent state consistent.** -/
theorem handlePayload_consistent_iff (hb : Bounded v) (hv : Consistent v)
    (hin : ¬ overflows env (.message msg g l) v) (now : UInt64) :
    wp (handlePayload env now msg)
      (fun _ v' => Consistent v' ↔ Careful env v (.message msg g l)) v := by
  have hcareful {v' : Vehicle F} (hc : Careful env v (.message msg g l)) (h : Consistent v') :
      Consistent v' ↔ Careful env v (.message msg g l) := iff_of_true h hc
  unfold handlePayload
  cases hpay : msg.payload with
  | missionAck =>
      refine (handleMissionAck_marksKept env now _ _ v).mono fun _ _ h => ?_
      exact hcareful (by simp [Careful, hpay]) (hv.kept h)
  | missionSetCurrent =>
      refine (handleMissionSetCurrent_consistent env hb hv now _ _).mono fun _ _ h => ?_
      exact hcareful (by simp [Careful, hpay]) h
  | missionRequestList =>
      refine (handleMissionRequestList_marksKept env now _ _ v).mono fun _ _ h => ?_
      exact hcareful (by simp [Careful, hpay]) (hv.kept h)
  | missionRequest =>
      refine (handleMissionRequest_marksKept env hb now _ _ _).mono fun _ _ h => ?_
      exact hcareful (by simp [Careful, hpay]) (hv.kept h)
  | missionCount => exact handleMissionCount_consistent_iff env hpay hb hv now
  | missionItem => exact handleMissionItem_consistent_iff env hpay hin hv now
  | missionClearAll =>
      refine (handleMissionClearAll_consistent env hv now _).mono fun _ _ h => ?_
      exact hcareful (by simp [Careful, hpay]) h
  | _ => exact hcareful (by simp [Careful, hpay]) hv

/-- The timeout finds no active waypoint when the list is empty. -/
theorem mavlinkWaypointEventloop_consistent (hb : Bounded v) (hv : Consistent v) (now : UInt64) :
    wp (mavlinkWaypointEventloop env now g l) (fun _ v' => Consistent v') v := by
  have hcheck {v₁ : Vehicle F} (h : Bounded v₁) (h₁ : Consistent v₁) :=
    checkWaypointsReached_consistent env h h₁ now g l
  unfold mavlinkWaypointEventloop
  simp only [wp_bind, wp_getWpm, wp_ite, wp_modifyWpm, wp_sendGcsString]
  refine ⟨fun _ => ⟨fun hempty => hcheck hb ?_, fun _ => hcheck hb ?_⟩, fun _ => hcheck hb hv⟩
  · refine ⟨.inl rfl, fun k _ hk => ?_⟩
    have hempty : v.wpm.size = 0 := hempty
    have hk : k < v.wpm.size.toNat := hk
    rw [hempty] at hk
    exact absurd hk (Nat.not_lt_zero k)
  · exact hv.kept ⟨rfl, rfl, fun _ _ => rfl⟩

/-- **The step lemma.** -/
theorem consistent_of_step {e : Event F} (hb : Bounded v) (hv : Consistent v)
    (h : (manager env).step v e v') (hcareful : Careful env v e) : Consistent v' := by
  have hin : ¬ overflows env e v := fun hover =>
    process_overflows env hover (fun _ _ => True) ((wp_of_ok h).mpr trivial)
  refine (wp_of_ok (Q := fun _ v' => Consistent v') h).mp ?_
  cases e with
  | tick now g l => exact mavlinkWaypointEventloop_consistent env hb hv now
  | message m g l =>
      unfold process mavlinkWpmMessageHandler
      simp only [wp_bind, wp_getSystemTimestamp]
      have hread : Consistent { v with clockReads := v.clockReads + 1 } :=
        hv.kept ⟨rfl, rfl, fun _ _ => rfl⟩
      have hconsistent := handlePayload_consistent_iff env (g := g) (l := l)
        (v := { v with clockReads := v.clockReads + 1 }) hb hread hin (env.clock v.clockReads)
      have heffect := handlePayload_effect env (g := g) (l := l)
        (v := { v with clockReads := v.clockReads + 1 }) hb hin (env.clock v.clockReads)
      refine (hconsistent.and heffect).mono fun _ v₁ h₁ => ?_
      exact checkWaypointsReached_consistent env (h₁.2.bounded hb) (h₁.1.mpr hcareful) _ g l

theorem consistent_initial (state : WpmStorage F) : Consistent (initial state) where
  active := .inl rfl
  marked k _ hk := absurd hk (Nat.not_lt_zero k)

/-- **Current waypoint consistency.** In every run in which no count of 0 arrives while a waypoint
is active, and in which every complete list has at most one mark, the active waypoint is none or one
of the list and the marked waypoint is the active one. -/
theorem consistent_of_careful (h : ((manager env).restrict (Careful env)).Reachable v) :
    Consistent v := by
  refine (h.invariant (I := fun v => Bounded v ∧ Consistent v) ?_ ?_).2
  · rintro v ⟨state, rfl⟩
    exact ⟨initial_bounded state, consistent_initial state⟩
  · rintro v e v' ⟨hb, hv⟩ ⟨hcareful, hstep⟩
    exact ⟨(effect_of_step env hb hstep).bounded hb, consistent_of_step env hb hv hstep hcareful⟩

instance (ws : Vector (MissionItem F) maxWpCount) (n : Nat) : Decidable (OneMark ws n) := by
  unfold OneMark
  infer_instance

instance (v : Vehicle F) : (e : Event F) → Decidable (Careful env v e)
  | .tick .. => .isTrue trivial
  | .message ⟨_, _, .missionCount targetSystem _ count⟩ _ _ =>
      inferInstanceAs (Decidable (targetSystem = env.sysid → countable v.wpm → count = 0 →
        v.wpm.currentActiveWpId = 65535))
  | .message ⟨_, _, .missionItem item⟩ _ _ =>
      inferInstanceAs (Decidable (storesItem env v item → item.seq + 1 = v.wpm.currentCount →
        OneMark (receivedList v item) v.wpm.currentCount.toNat))
  | .message ⟨_, _, .missionAck ..⟩ _ _ | .message ⟨_, _, .missionSetCurrent ..⟩ _ _
  | .message ⟨_, _, .missionRequestList ..⟩ _ _ | .message ⟨_, _, .missionRequest ..⟩ _ _
  | .message ⟨_, _, .missionClearAll ..⟩ _ _ | .message ⟨_, _, .missionCurrent _⟩ _ _
  | .message ⟨_, _, .missionItemReached _⟩ _ _ | .message ⟨_, _, .other _⟩ _ _ => .isTrue trivial

instance : (e : Event F) → Decidable (announcesFitting e)
  | .tick .. => .isTrue trivial
  | .message ⟨_, _, .missionCount _ _ count⟩ _ _ =>
      inferInstanceAs (Decidable (count.toNat ≤ maxWpCount))
  | .message ⟨_, _, .missionItem _⟩ _ _
  | .message ⟨_, _, .missionAck ..⟩ _ _ | .message ⟨_, _, .missionSetCurrent ..⟩ _ _
  | .message ⟨_, _, .missionRequestList ..⟩ _ _ | .message ⟨_, _, .missionRequest ..⟩ _ _
  | .message ⟨_, _, .missionClearAll ..⟩ _ _ | .message ⟨_, _, .missionCurrent _⟩ _ _
  | .message ⟨_, _, .missionItemReached _⟩ _ _ | .message ⟨_, _, .other _⟩ _ _ => .isTrue trivial

end

/-- The upload of one waypoint that is to be the active one. -/
def markedUpload : List (Event Unit) :=
  [unitEvent qgc (.missionCount 100 mavlinkWpmCompId 1),
    unitEvent qgc (.missionItem { unitItem 0 with current := 1 })]

/-- After it, that waypoint is active and marked. -/
theorem consistent_of_careful_upload :
    ∃ v, ((manager unitEnv).restrict (Careful unitEnv)).Run (initial unitStorage) markedUpload v ∧
      v.wpm.currentActiveWpId = 0 ∧ Consistent v := by
  obtain ⟨v, hv⟩ := Option.isSome_iff_exists.mp (show (markedUpload.foldlM (fun v e =>
    if Careful unitEnv v e then nextVehicle v e else none) (initial unitStorage)).isSome = true by
    decide +kernel)
  have hactive : ∀ v ∈ markedUpload.foldlM (fun v e =>
      if Careful unitEnv v e then nextVehicle v e else none) (initial unitStorage),
      v.wpm.currentActiveWpId = 0 := by
    decide +kernel
  have hrun : ((manager unitEnv).restrict (Careful unitEnv)).Run (initial unitStorage)
      markedUpload v := .restrict_of_foldlM (fun _ _ _ => step_of_nextVehicle) hv
  exact ⟨v, hrun, hactive v hv, consistent_of_careful unitEnv ⟨_, _, ⟨_, rfl⟩, hrun⟩⟩

/-- A count of 0 then leaves the waypoint marked, and none is active. -/
theorem count_zero_inconsistent :
    ¬ ∀ v, ((manager unitEnv).restrict fun _ e => announcesFitting e).Reachable v →
      Consistent v := by
  intro hall
  let next (v : Vehicle Unit) (e : Event Unit) : Option (Vehicle Unit) :=
    if announcesFitting e then nextVehicle v e else none
  let es := markedUpload ++ [unitEvent qgc (.missionCount 100 mavlinkWpmCompId 0)]
  obtain ⟨v, hv⟩ := Option.isSome_iff_exists.mp
    (show (es.foldlM next (initial unitStorage)).isSome = true by decide +kernel)
  have hnone : ∀ v ∈ es.foldlM next (initial unitStorage),
      v.wpm.currentActiveWpId = 65535 ∧ 0 < v.wpm.size.toNat ∧ v.wpm.waypoints[0].current = 1 := by
    decide +kernel
  obtain ⟨hnone, hsize, hmark⟩ := hnone v hv
  have hconsistent := hall v ⟨_, es, ⟨_, rfl⟩,
    .restrict_of_foldlM (C := fun _ e => announcesFitting e)
      (fun _ _ _ => step_of_nextVehicle) hv⟩
  rw [hconsistent.unmarked hnone (by decide) hsize] at hmark
  exact absurd hmark (by decide)

end Px4Firmware.Waypoints
