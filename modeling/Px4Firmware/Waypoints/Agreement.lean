import Px4Firmware.Lib.Transition
import Px4Firmware.Waypoints.Bounds

/-!
# Px4Firmware.Waypoints.Agreement

**Uploading a mission over a lossy link.** One ground station uploads one list to one
vehicle. The link is the list of everything the station has sent: a message may be
delivered any number of times, at any later moment, in any order, or never. The
station announces the list whenever it likes and answers the requests it has seen.

Whatever happens on the link, and whenever the vehicle gives a transfer up, a list
that the vehicle reports as complete is the list of the station
(`upload_agreement`).
-/

namespace Px4Firmware.Waypoints

open Px4Firmware.Lib

section

variable {F : Type} (env : Env F)

/-- The list a ground station uploads: it fits into the vehicle, its waypoints are numbered
from 0 and addressed to the vehicle. -/
structure Mission where
  items : List (MissionItem F)
  nonempty : 0 < items.length
  fits : items.length ≤ maxWpCount
  seq : ∀ k (h : k < items.length), items[k].seq = UInt16.ofNat k
  addressed : ∀ item ∈ items, addressed env item

variable {env}

/-- The number of waypoints of the list, as it is announced. -/
def Mission.count (mission : Mission env) : UInt16 := UInt16.ofNat mission.items.length

/-- The vehicle and the link to it. -/
structure Net (F : Type) where
  vehicle : Vehicle F
  toVehicle : List (Message F)

/-- What can happen next. -/
inductive NetEvent (F : Type)
  | announce
  | answer (k : Nat)
  | event (e : Event F)

variable (gcs : Station) (mission : Mission env)

/-- The message that announces the list. -/
def countMessage : Message F :=
  { sysid := gcs.sysid, compid := gcs.compid,
    payload := .missionCount env.sysid mavlinkWpmCompId mission.count }

/-- The message that carries a waypoint of the list. -/
def itemMessage (item : MissionItem F) : Message F :=
  { sysid := gcs.sysid, compid := gcs.compid, payload := .missionItem item }

/-- The request of the vehicle for waypoint `k`. -/
def requestMessage (env : Env F) (k : Nat) : Message F :=
  { sysid := env.sysid, compid := mavlinkWpmCompId,
    payload := .missionRequest gcs.sysid gcs.compid (UInt16.ofNat k) }

/-- May this event happen at the vehicle? A message must have been sent before. -/
def Deliverable (s : Net F) : Event F → Prop
  | .message m _ _ => m ∈ s.toVehicle
  | .tick .. => True

/-- One step of the station, the link or the vehicle. -/
inductive NetStep : Net F → NetEvent F → Net F → Prop
  /-- The station announces the list. -/
  | announce {s : Net F} :
      NetStep s .announce { s with toVehicle := s.toVehicle ++ [countMessage gcs mission] }
  /-- The station answers a request for a waypoint of the list. -/
  | answer {s : Net F} {k : Nat} (hk : k < mission.items.length) :
      .message (requestMessage gcs env k) ∈ s.vehicle.sent →
      NetStep s (.answer k)
        { s with toVehicle := s.toVehicle ++ [itemMessage gcs mission.items[k]] }
  /-- The vehicle receives a message, or its event loop ticks. -/
  | event {s : Net F} {e : Event F} {v' : Vehicle F} :
      Deliverable s e → process env e s.vehicle = .ok () v' →
      NetStep s (.event e) { s with vehicle := v' }

/-- The upload as a transition system: it starts when the vehicle is idle and nothing has
been sent. -/
def uploadNet : LTS (Net F) (NetEvent F) where
  init s := s.vehicle.wpm.currentState = .idle ∧ Bounded s.vehicle ∧ s.vehicle.sent = [] ∧
    s.toVehicle = []
  step := NetStep gcs mission

/-! ### The invariant -/

/-- The first `n` waypoints of the receive buffer are those of the list. -/
def ReceivedPrefix (v : Vehicle F) (n : Nat) : Prop :=
  ∀ k (_ : k < maxWpCount) (_ : k < mission.items.length), k < n →
    v.wpm.rcvWaypoints[k] = mission.items[k]

/-- The active list is the list of the station, apart from the `current` marks. -/
def HasMission (v : Vehicle F) : Prop :=
  v.wpm.size = mission.count ∧
    ∀ k (_ : k < maxWpCount) (_ : k < mission.items.length),
      v.wpm.waypoints[k].unmarked = mission.items[k].unmarked

/-- What holds in every state of an upload. -/
structure UploadInv (s : Net F) : Prop where
  bounded : Bounded s.vehicle
  messages : ∀ m ∈ s.toVehicle, m = countMessage gcs mission ∨
    ∃ item ∈ mission.items, m = itemMessage gcs item
  count : s.vehicle.wpm.currentState ≠ .idle → s.vehicle.wpm.currentCount = mission.count
  received : s.vehicle.wpm.currentState = .getlistGetwps →
    ReceivedPrefix mission s.vehicle s.vehicle.wpm.currentWpId.toNat
  agreed : Reported s.vehicle → HasMission mission s.vehicle

variable {gcs mission}

/-- The number of a waypoint is its place in the list. -/
theorem Mission.seq_toNat {k : Nat} (hk : k < mission.items.length) :
    mission.items[k].seq.toNat = k := by
  have hfits : mission.items.length ≤ 15 := mission.fits
  rw [mission.seq k hk, UInt16.toNat_ofNat']
  omega

theorem Mission.count_toNat : mission.count.toNat = mission.items.length := by
  have hfits : mission.items.length ≤ 15 := mission.fits
  unfold Mission.count
  rw [UInt16.toNat_ofNat']
  omega

/-- Every waypoint of the list has a place in the receive buffer. -/
theorem Mission.seq_lt {item : MissionItem F} (h : item ∈ mission.items) :
    item.seq.toNat < maxWpCount := by
  obtain ⟨k, hk, rfl⟩ := List.getElem_of_mem h
  rw [mission.seq_toNat hk]
  exact Nat.lt_of_lt_of_le hk mission.fits

/-- What a message of the station can be. -/
theorem UploadInv.payload {s : Net F} (hinv : UploadInv gcs mission s) {m : Message F}
    {g : GlobalPosition F} {l : LocalPosition F} (hm : Deliverable s (.message m g l)) :
    m.payload = .missionCount env.sysid mavlinkWpmCompId mission.count ∨
      ∃ item ∈ mission.items, m.payload = .missionItem item := by
  rcases hinv.messages m hm with rfl | ⟨item, hitem, rfl⟩
  · exact .inl rfl
  · exact .inr ⟨item, hitem, rfl⟩

/-- No message of the station overflows the receive buffer. -/
theorem UploadInv.not_overflows {s : Net F} (hinv : UploadInv gcs mission s) {e : Event F}
    (he : Deliverable s e) : ¬ overflows env e s.vehicle := by
  intro hover
  cases e with
  | tick => exact hover
  | message m g l =>
      rcases hinv.payload he with hpay | ⟨item, hitem, hpay⟩
      · simp only [overflows, hpay] at hover
      · simp only [overflows, hpay] at hover
        exact Nat.not_lt_of_le hover.2 (mission.seq_lt hitem)

/-- The accepted waypoint extends the received prefix of the list. -/
theorem UploadInv.received_step {s : Net F} (hinv : UploadInv gcs mission s) {v' : Vehicle F}
    {item : MissionItem F} (hitem : item ∈ mission.items) (hrcv : receivable s.vehicle.wpm item)
    (hreceived : Received item s.vehicle v') :
    ReceivedPrefix mission v' (item.seq.toNat + 1) := by
  obtain ⟨i, hi, rfl⟩ := List.getElem_of_mem hitem
  have hseq := mission.seq_toNat hi
  have hbefore : ReceivedPrefix mission s.vehicle i := by
    rcases hrcv with ⟨-, hfirst⟩ | ⟨hget, hnext, -⟩
    · have hzero : i = 0 := by rw [← hseq, hfirst]; rfl
      exact fun k _ _ hk => absurd hk (by omega)
    · have hprefix := hinv.received hget
      rw [← hnext, hseq] at hprefix
      exact hprefix
  intro k hk hkm hki
  simp only [hreceived.rcvWaypoints, hseq] at hki ⊢
  rw [Vector.getElem_set]
  by_cases hik : i = k
  · subst hik
    rw [if_pos rfl]
  · rw [if_neg hik]
    exact hbefore k hk hkm (by omega)

/-- A transfer is open while a waypoint can be received. -/
theorem receivable_ne_idle {w : WpmStorage F} {item : MissionItem F} (h : receivable w item) :
    w.currentState ≠ .idle := by
  rcases h with ⟨hstate, -⟩ | ⟨hstate, -⟩ <;> rw [hstate] <;> decide

/-- The step lemma of the vehicle. -/
theorem UploadInv.effect {s : Net F} (hinv : UploadInv gcs mission s) {e : Event F}
    {v' : Vehicle F} (he : Deliverable s e) (heffect : Effect env e s.vehicle v') :
    UploadInv gcs mission { s with vehicle := v' } := by
  have hbounded : Bounded v' := heffect.bounded hinv.bounded
  have hkept (h : ActiveKept s.vehicle v') : Reported v' → HasMission mission v' := by
    intro hreported
    obtain ⟨hsize, hitems⟩ := hinv.agreed (h.reported.mp hreported)
    exact ⟨h.size.trans hsize, fun k hk hkm => (h.waypoints k hk).trans (hitems k hk hkm)⟩
  cases heffect with
  | unchanged _ hsame =>
      refine ⟨hbounded, hinv.messages, fun hstate => ?_, fun hstate => ?_, hkept hsame.toActiveKept⟩
      · exact hsame.currentCount.trans (hinv.count (by rw [← hsame.currentState]; exact hstate))
      · have hprefix := hinv.received (hsame.currentState ▸ hstate)
        intro k hk hkm hki
        simp only [hsame.rcvWaypoints, hsame.currentWpId] at hki ⊢
        exact hprefix k hk hkm hki
  | timedOut hactive hidle =>
      refine ⟨hbounded, hinv.messages, fun hstate => absurd hidle hstate, fun hstate => ?_,
        hkept hactive⟩
      exact absurd (hidle.symm.trans hstate) (by decide)
  | opened hpay _ hactive hstate _ hcount =>
      refine ⟨hbounded, hinv.messages, fun _ => ?_, fun hstate' => ?_, hkept hactive⟩
      · rcases hinv.payload he with hpay' | ⟨item, -, hpay'⟩ <;> rw [hpay] at hpay' <;> cases hpay'
        exact hcount
      · exact absurd (hstate.symm.trans hstate') (by decide)
  | stored hpay hstores hreceived _ hactive _ =>
      rcases hinv.payload he with hpay' | ⟨item, hitem, hpay'⟩ <;> rw [hpay] at hpay' <;>
        cases hpay'
      refine ⟨hbounded, hinv.messages, fun _ => ?_, fun _ => ?_, hkept hactive⟩
      · exact hreceived.currentCount.trans (hinv.count (receivable_ne_idle hstores.2))
      · have hprefix := hinv.received_step hitem hstores.2 hreceived
        rw [← hreceived.toNat_currentWpId] at hprefix
        exact hprefix
  | completed hpay hstores hreceived hlast hswitched =>
      rcases hinv.payload he with hpay' | ⟨item, hitem, hpay'⟩ <;> rw [hpay] at hpay' <;>
        cases hpay'
      have hcount := hinv.count (receivable_ne_idle hstores.2)
      have hidle := hswitched.currentState
      refine ⟨hbounded, hinv.messages, fun hstate => absurd hidle hstate,
        fun hstate => absurd (hidle.symm.trans hstate) (by decide), fun _ => ?_⟩
      refine ⟨hswitched.size.trans hcount, fun k hk hkm => ?_⟩
      -- It was the last item, so the received prefix is the mission.
      have hkcount : k < s.vehicle.wpm.currentCount.toNat := by
        rw [hcount, mission.count_toNat]
        exact hkm
      have hprefix := hinv.received_step hitem hstores.2 hreceived
      rw [← hreceived.toNat_currentWpId, hreceived.currentWpId, hlast] at hprefix
      rw [hswitched.waypoints k hk hkcount, hprefix k hk hkm hkcount]
  -- The ground station sends no message of the last two kinds.
  | served hpay =>
      rcases hinv.payload he with hpay' | ⟨item, -, hpay'⟩ <;> rw [hpay'] at hpay <;>
        exact hpay.elim
  | cleared hpay =>
      rcases hinv.payload he with hpay' | ⟨item, -, hpay'⟩ <;> rw [hpay] at hpay' <;> cases hpay'

/-- The step lemma. -/
theorem UploadInv.step {s s' : Net F} {e : NetEvent F} (hinv : UploadInv gcs mission s)
    (h : NetStep gcs mission s e s') : UploadInv gcs mission s' := by
  cases h with
  | announce =>
      refine ⟨hinv.bounded, fun m hm => ?_, hinv.count, hinv.received, hinv.agreed⟩
      rcases List.mem_append.mp hm with hm | hm
      · exact hinv.messages m hm
      · exact .inl (List.mem_singleton.mp hm)
  | answer hk =>
      refine ⟨hinv.bounded, fun m hm => ?_, hinv.count, hinv.received, hinv.agreed⟩
      rcases List.mem_append.mp hm with hm | hm
      · exact hinv.messages m hm
      · exact .inr ⟨_, List.getElem_mem hk, List.mem_singleton.mp hm⟩
  | event he hrun =>
      have heffect := process_effect env hinv.bounded (hinv.not_overflows he)
      rw [wp_of_ok hrun] at heffect
      exact hinv.effect he heffect

/-- The run lemma. -/
theorem uploadInv_of_reachable {s : Net F} (h : (uploadNet gcs mission).Reachable s) :
    UploadInv gcs mission s := by
  refine h.invariant ?_ fun _ _ _ hinv hstep => hinv.step hstep
  rintro s ⟨hidle, hbounded, hsent, hempty⟩
  refine ⟨hbounded, fun m hm => ?_, fun hstate => absurd hidle hstate,
    fun hstate => absurd (hidle.symm.trans hstate) (by decide), fun hreported => ?_⟩
  · rw [hempty] at hm
    cases hm
  · unfold Reported at hreported
    rw [hsent] at hreported
    cases hreported

/-- No delivery and no tick is stuck: the vehicle processes it to its end. -/
theorem upload_progress {s : Net F} (h : (uploadNet gcs mission).Reachable s) {e : Event F}
    (he : Deliverable s e) : ∃ s', (uploadNet gcs mission).step s (.event e) s' := by
  have hinv := uploadInv_of_reachable h
  obtain ⟨_, v', hrun, -⟩ :=
    wp_iff.mp (process_effect env hinv.bounded (hinv.not_overflows he))
  exact ⟨_, .event he hrun⟩

/-- **Agreement.** However the messages of the station are delivered, and whenever the
vehicle gives a transfer up: once it has reported a complete transfer, its active list
is the list of the station, apart from the `current` marks. -/
theorem upload_agreement {s : Net F} (h : (uploadNet gcs mission).Reachable s)
    (hreported : Reported s.vehicle) :
    s.vehicle.wpm.size.toNat = mission.items.length ∧
      ∀ k (_ : k < maxWpCount) (_ : k < mission.items.length),
        s.vehicle.wpm.waypoints[k].unmarked = mission.items[k].unmarked := by
  obtain ⟨hsize, hitems⟩ := (uploadInv_of_reachable h).agreed hreported
  exact ⟨by rw [hsize, mission.count_toNat], hitems⟩

/-! ### Replaying a run -/

variable [DecidableEq F]

instance (s : Net F) (e : Event F) : Decidable (Deliverable s e) :=
  match e with
  | .message m _ _ => inferInstanceAs (Decidable (m ∈ s.toVehicle))
  | .tick .. => inferInstanceAs (Decidable True)

variable (gcs mission)

/-- Where a step leads, if it can be taken. -/
def Net.next (s : Net F) : NetEvent F → Option (Net F)
  | .announce => some { s with toVehicle := s.toVehicle ++ [countMessage gcs mission] }
  | .answer k =>
      if hk : k < mission.items.length then
        if .message (requestMessage gcs env k) ∈ s.vehicle.sent then
          some { s with toVehicle := s.toVehicle ++ [itemMessage gcs mission.items[k]] }
        else none
      else none
  | .event e =>
      if Deliverable s e then
        (completes (process env e) s.vehicle).map fun v' => { s with vehicle := v' }
      else none

variable {gcs mission}

theorem netStep_of_next {s s' : Net F} {e : NetEvent F} (h : s.next gcs mission e = some s') :
    NetStep gcs mission s e s' := by
  cases e with
  | announce =>
      cases h
      exact .announce
  | answer k =>
      simp only [Net.next] at h
      split at h
      · split at h
        · cases h
          exact .answer ‹_› ‹_›
        · cases h
      · cases h
  | event e =>
      simp only [Net.next] at h
      split at h
      · obtain ⟨v', hrun, rfl⟩ := Option.map_eq_some_iff.mp h
        exact .event ‹_› (completes_eq_some.mp hrun)
      · cases h

end

/-! ### An upload over a bad link -/

/-- A list of three waypoints: fly to the first, loiter at the second, land at the third. -/
def landingMission : Mission unitEnv where
  items := [unitItem 0, { unitItem 1 with command := 19 }, { unitItem 2 with command := 21 }]
  nonempty := by decide
  fits := by decide
  seq k h := by
    have hk : k = 0 ∨ k = 1 ∨ k = 2 := by
      simp only [List.length_cons, List.length_nil] at h
      omega
    rcases hk with rfl | rfl | rfl <;> rfl
  addressed item h := by
    simp only [List.mem_cons, List.not_mem_nil, or_false] at h
    rcases h with rfl | rfl | rfl <;> exact ⟨rfl, rfl⟩

/-- The vehicle gets the announcement, and a waypoint. -/
def getsCount : NetEvent Unit := .event (unitEvent qgc (countMessage qgc landingMission).payload)

def getsItem (item : MissionItem Unit) : NetEvent Unit :=
  .event (unitEvent qgc (itemMessage qgc item).payload)

/-- The first waypoint is delivered twice and the second is lost, so that the vehicle gives the
transfer up. In the second attempt the old copy of the first waypoint arrives, and the second
waypoint arrives twice. -/
def badLink : List (NetEvent Unit) :=
  [.announce, getsCount,
    .answer 0, getsItem landingMission.items[0], getsItem landingMission.items[0],
    .answer 1, .event (.tick 6000000 ⟨0, 0, (), ()⟩ ⟨(), (), ()⟩),
    .announce, getsCount, getsItem landingMission.items[0],
    .answer 1, getsItem landingMission.items[1], getsItem landingMission.items[1],
    .answer 2, getsItem landingMission.items[2]]

theorem badLink_agreement :
    ∃ s, (uploadNet qgc landingMission).Run
        { vehicle := initial unitStorage, toVehicle := [] } badLink s ∧
      s.vehicle.wpm.size.toNat = landingMission.items.length ∧
      ∀ k (_ : k < maxWpCount) (_ : k < landingMission.items.length),
        s.vehicle.wpm.waypoints[k].unmarked = landingMission.items[k].unmarked := by
  obtain ⟨s, hs⟩ := Option.isSome_iff_exists.mp
    (show (badLink.foldlM (Net.next qgc landingMission)
      { vehicle := initial unitStorage, toVehicle := [] }).isSome = true by decide +kernel)
  have hreported : ∀ t ∈ badLink.foldlM (Net.next qgc landingMission)
      { vehicle := initial unitStorage, toVehicle := [] }, Reported t.vehicle := by
    unfold Reported
    decide +kernel
  have hrun := LTS.Run.of_foldlM (m := uploadNet qgc landingMission)
    (fun _ _ _ => netStep_of_next) hs
  exact ⟨s, hrun, upload_agreement ⟨_, _, ⟨rfl, initial_bounded _, rfl, rfl⟩, hrun⟩
    (hreported s hs)⟩

end Px4Firmware.Waypoints
