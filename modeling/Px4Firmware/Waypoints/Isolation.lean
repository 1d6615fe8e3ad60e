import Px4Firmware.Waypoints.Agreement

/-!
# Px4Firmware.Waypoints.Isolation

**Which station the waypoints of a mission come from.** Any number of ground stations
talk to the vehicle, and a watcher (`Provenance`) notes whose count opened the current
transfer, and who sent each waypoint that was stored since.

The handler does not compare the sender of a waypoint with the partner of the
transfer. In every run in which the accepted waypoints do come from that partner
(`FromPartner`), all waypoints of a transfer come from the station that opened it,
and a completed mission comes from one station (`transfer_isolated`).
-/

namespace Px4Firmware.Waypoints

open Px4Firmware.Lib

section

variable {F : Type} (env : Env F)

/-- The manager as a transition system. -/
def manager : LTS (Vehicle F) (Event F) where
  init v := ∃ state, v = initial state
  step v e v' := process env e v = .ok () v'

/-- What the watcher knows: who opened the transfer, the waypoints stored since with their
senders, and those of the last completed transfer. -/
structure Provenance (F : Type) where
  opener : Option Station
  received : List (Station × MissionItem F)
  mission : List (Station × MissionItem F)

/-- Nothing has been received. -/
def Provenance.start : Provenance F := { opener := none, received := [], mission := [] }

instance (item : MissionItem F) : Decidable (addressed env item) := by
  unfold addressed; infer_instance

instance (v : Vehicle F) (targetSystem : UInt8) (count : UInt16) :
    Decidable (opensTransfer env v targetSystem count) := by
  unfold opensTransfer; infer_instance

instance (v : Vehicle F) (item : MissionItem F) : Decidable (storesItem env v item) := by
  unfold storesItem; infer_instance

/-- Note a stored waypoint; the last one completes the mission. -/
def Provenance.store (p : Provenance F) (v : Vehicle F) (sender : Station)
    (item : MissionItem F) : Provenance F :=
  let received := p.received ++ [(sender, item)]
  { opener := p.opener
    received := received
    mission := if item.seq + 1 = v.wpm.currentCount then received else p.mission }

/-- Watch one event. -/
def watch (p : Provenance F) (v : Vehicle F) (e : Event F) (_ : Vehicle F) : Provenance F :=
  match e with
  | .tick .. => p
  | .message m _ _ =>
      match m.payload with
      | .missionCount targetSystem _ count =>
          if opensTransfer env v targetSystem count then
            { p with opener := some m.sender, received := [] }
          else p
      | .missionItem item => if storesItem env v item then p.store v m.sender item else p
      | _ => p

/-- A waypoint that is accepted comes from the partner of the transfer. -/
def FromPartner (v : Vehicle F) (e : Event F) : Prop :=
  match e with
  | .message m _ _ =>
      match m.payload with
      | .missionItem item => storesItem env v item → m.sender = v.wpm.partner
      | _ => True
  | .tick .. => True

/-- The waypoints of a transfer come from one station. -/
structure Isolated (v : Vehicle F) (p : Provenance F) : Prop where
  /-- Every waypoint stored since the transfer was opened comes from its opener. -/
  received_sender : ∀ r ∈ p.received, some r.1 = p.opener
  /-- These are the waypoints in the receive buffer. -/
  received_stored : v.wpm.currentState = .getlistGetwps →
    p.received.length = v.wpm.currentWpId.toNat ∧
      ∀ k (_ : k < maxWpCount) (_ : k < p.received.length),
        v.wpm.rcvWaypoints[k] = p.received[k].2
  /-- The last completed mission comes from one station. -/
  mission_sender : ∃ sender, ∀ r ∈ p.mission, r.1 = sender
  /-- Its waypoints are those of the active list. -/
  mission_active : v.wpm.size.toNat ≤ p.mission.length ∧
    ∀ k (_ : k < maxWpCount) (_ : k < p.mission.length), k < v.wpm.size.toNat →
      v.wpm.waypoints[k].content = p.mission[k].2.content

/-- What holds in every state of a run in which the accepted waypoints come from the
partner. -/
structure IsolationInv (v : Vehicle F) (p : Provenance F) : Prop extends Isolated v p where
  bounded : Bounded v
  partner : ¬ v.wpm.currentState.notReceiving → p.opener = some v.wpm.partner
  nothing : v.wpm.currentState = .getlist → p.received = []

variable {env}
variable {m : Message F} {g : GlobalPosition F} {l : LocalPosition F} {v v' : Vehicle F}

/-! ### What the watcher notes -/

theorem watch_of_not_accepted {p : Provenance F} {e : Event F} (h : ¬ accepted env e v) :
    watch env p v e v' = p := by
  unfold accepted at h
  unfold watch
  split
  · rfl
  · split
    · rename_i hpay
      rw [if_neg (by simpa only [hpay] using h)]
    · rename_i hpay
      rw [if_neg (by simpa only [hpay] using h)]
    · rfl

theorem watch_opened {p : Provenance F} {ts tc : UInt8} {count : UInt16}
    (hpay : m.payload = .missionCount ts tc count) (h : opensTransfer env v ts count) :
    watch env p v (.message m g l) v' = { p with opener := some m.sender, received := [] } := by
  simp only [watch, hpay]
  rw [if_pos h]

theorem watch_stored {p : Provenance F} {item : MissionItem F}
    (hpay : m.payload = .missionItem item) (h : storesItem env v item) :
    watch env p v (.message m g l) v' = p.store v m.sender item := by
  simp only [watch, hpay]
  rw [if_pos h]

/-! ### The invariant -/

/-- While a waypoint can be received, a transfer is open. -/
theorem receivable_receiving {w : WpmStorage F} {item : MissionItem F} (h : receivable w item) :
    ¬ w.currentState.notReceiving := by
  rcases h with ⟨hstate, -⟩ | ⟨hstate, -⟩ <;> rw [hstate] <;> rintro (h | h | h) <;> cases h

/-- The stored waypoint is the next one. -/
theorem IsolationInv.length_eq {p : Provenance F} (hinv : IsolationInv v p)
    {item : MissionItem F} (h : receivable v.wpm item) : p.received.length = item.seq.toNat := by
  rcases h with ⟨hget, hfirst⟩ | ⟨hget, hnext, -⟩
  · rw [hinv.nothing hget, hfirst]
    rfl
  · rw [(hinv.received_stored hget).1, hnext]

/-- Every waypoint received so far comes from the opener. -/
theorem IsolationInv.store_sender {p : Provenance F} (hinv : IsolationInv v p)
    {item : MissionItem F} (h : receivable v.wpm item) {sender : Station}
    (hsender : sender = v.wpm.partner) :
    ∀ r ∈ p.received ++ [(sender, item)], some r.1 = p.opener := by
  intro r hr
  rcases List.mem_append.mp hr with hr | hr
  · exact hinv.received_sender r hr
  · obtain rfl := List.mem_singleton.mp hr
    rw [hinv.partner (receivable_receiving h), hsender]

/-- Every waypoint received so far is in the receive buffer. -/
theorem IsolationInv.store_stored {p : Provenance F} (hinv : IsolationInv v p)
    {item : MissionItem F} (h : receivable v.wpm item) (hreceived : Received item v v')
    (sender : Station) :
    ∀ k (_ : k < maxWpCount) (_ : k < (p.received ++ [(sender, item)]).length),
      v'.wpm.rcvWaypoints[k] = (p.received ++ [(sender, item)])[k].2 := by
  have hlength := hinv.length_eq h
  have hbefore : ∀ k (_ : k < maxWpCount) (_ : k < p.received.length),
      v.wpm.rcvWaypoints[k] = p.received[k].2 := by
    rcases h with ⟨hget, -⟩ | ⟨hget, -⟩
    · intro k _ hk
      simp [hinv.nothing hget] at hk
    · exact (hinv.received_stored hget).2
  intro k hk hkr
  simp only [hreceived.rcvWaypoints]
  rw [Vector.getElem_set, List.getElem_append]
  by_cases hlast : item.seq.toNat = k
  · rw [if_pos hlast, dif_neg (by omega)]
    simp
  · have hklt : k < p.received.length := by
      rw [List.length_append, List.length_singleton] at hkr
      omega
    rw [if_neg hlast, dif_pos hklt]
    exact hbefore k hk hklt

/-- The active list still is the mission when its size and contents are kept. -/
theorem Isolated.active_kept {p : Provenance F} (hinv : Isolated v p)
    (hsize : v'.wpm.size = v.wpm.size)
    (hcontent : ∀ k (_ : k < maxWpCount),
      v'.wpm.waypoints[k].content = v.wpm.waypoints[k].content) :
    v'.wpm.size.toNat ≤ p.mission.length ∧
      ∀ k (_ : k < maxWpCount) (_ : k < p.mission.length), k < v'.wpm.size.toNat →
        v'.wpm.waypoints[k].content = p.mission[k].2.content := by
  rw [hsize]
  exact ⟨hinv.mission_active.1, fun k hk hkm hks =>
    (hcontent k hk).trans (hinv.mission_active.2 k hk hkm hks)⟩

/-- An event that is not accepted: the watcher notes nothing. -/
theorem IsolationInv.quiet {p : Provenance F} (hinv : IsolationInv v p)
    (hbounded : Bounded v') (hidle : v'.wpm.currentState.notReceiving)
    (hactive : v'.wpm.size.toNat ≤ p.mission.length ∧
      ∀ k (_ : k < maxWpCount) (_ : k < p.mission.length), k < v'.wpm.size.toNat →
        v'.wpm.waypoints[k].content = p.mission[k].2.content) :
    IsolationInv v' p where
  received_sender := hinv.received_sender
  received_stored hget := by
    rw [hget] at hidle
    rcases hidle with h | h | h <;> cases h
  mission_sender := hinv.mission_sender
  mission_active := hactive
  bounded := hbounded
  partner h := absurd hidle h
  nothing hget := by
    rw [hget] at hidle
    rcases hidle with h | h | h <;> cases h

theorem FromPartner.sender (h : FromPartner env v (.message m g l)) {item : MissionItem F}
    (hpay : m.payload = .missionItem item) (hstores : storesItem env v item) :
    m.sender = v.wpm.partner := by
  simp only [FromPartner, hpay] at h
  exact h hstores

/-- Fetching the list is no part of a transfer to the vehicle. -/
theorem not_accepted_of_fetches (h : m.payload.fetches) :
    ¬ accepted env (.message m g l) v := by
  cases hpay : m.payload with
  | missionCount => rw [hpay] at h; exact h.elim
  | missionItem => rw [hpay] at h; exact h.elim
  | _ => simp [accepted, hpay]

/-- The step lemma, one case for each thing an event can do. -/
theorem IsolationInv.effect {p : Provenance F} (hinv : IsolationInv v p) {e : Event F}
    (hpartner : FromPartner env v e) (heffect : Effect env e v v') :
    IsolationInv v' (watch env p v e v') := by
  have hbounded : Bounded v' := heffect.bounded hinv.bounded
  have hkept (h : ActiveKept v v') := hinv.active_kept h.size fun k hk =>
    content_of_unmarked (h.waypoints k hk)
  cases heffect with
  | unchanged hno hsame =>
      rw [watch_of_not_accepted hno]
      refine ⟨⟨hinv.received_sender, fun hget => ?_, hinv.mission_sender,
        hkept hsame.toActiveKept⟩, hbounded, fun hstate => ?_, fun hget => ?_⟩
      · simp only [hsame.rcvWaypoints, hsame.currentWpId]
        exact hinv.received_stored (hsame.currentState.symm.trans hget)
      · rw [hsame.partner]
        exact hinv.partner (by rw [← hsame.currentState]; exact hstate)
      · exact hinv.nothing (hsame.currentState.symm.trans hget)
  | timedOut hactive hidle => exact hinv.quiet hbounded (.inl hidle) (hkept hactive)
  | opened hpay hopens hactive hstate hid _ hsender =>
      rw [watch_opened hpay hopens]
      refine ⟨⟨fun r hr => absurd hr List.not_mem_nil, fun hget => ?_, hinv.mission_sender,
        hkept hactive⟩, hbounded, fun _ => by rw [hsender], fun _ => rfl⟩
      exact absurd (hstate.symm.trans hget) (by decide)
  | stored hpay hstores hreceived hmore hactive hstate =>
      rw [watch_stored hpay hstores]
      have hlength := hinv.length_eq hstores.2
      have hnext := hreceived.toNat_currentWpId
      unfold Provenance.store
      simp only [if_neg hmore]
      refine ⟨⟨hinv.store_sender hstores.2 (hpartner.sender hpay hstores), fun _ => ⟨?_,
        hinv.store_stored hstores.2 hreceived _⟩, hinv.mission_sender, hkept hactive⟩,
        hbounded, fun _ => ?_, fun hget => absurd (hstate.symm.trans hget) (by decide)⟩
      · rw [List.length_append, List.length_singleton, hnext, hlength]
      · rw [hreceived.partner]
        exact hinv.partner (receivable_receiving hstores.2)
  | completed hpay hstores hreceived hlast hswitched =>
      rw [watch_stored hpay hstores]
      have hlength := hinv.length_eq hstores.2
      have hnext := hreceived.toNat_currentWpId
      have hsenders := hinv.store_sender hstores.2 (hpartner.sender hpay hstores)
      have hidle := hswitched.currentState
      unfold Provenance.store
      simp only [if_pos hlast]
      refine ⟨⟨hsenders, fun hget => absurd (hidle.symm.trans hget) (by decide),
          ⟨v.wpm.partner, ?_⟩, ?_⟩, hbounded,
        fun hstate => absurd (hidle ▸ notReceiving_idle) hstate,
        fun hget => absurd (hidle.symm.trans hget) (by decide)⟩
      · intro r hr
        -- Every item is from the partner that opened the transaction, which has not changed.
        have hopener := hsenders r hr
        rw [hinv.partner (receivable_receiving hstores.2)] at hopener
        exact Option.some.inj hopener
      · have hsize : v'.wpm.size.toNat = p.received.length + 1 := by
          rw [hswitched.size, ← hlast, ← hreceived.currentWpId, hnext, hlength]
        refine ⟨by simp [hsize], fun k hk hkr hks => ?_⟩
        rw [hswitched.size] at hks
        rw [content_of_unmarked (hswitched.waypoints k hk hks),
          hinv.store_stored hstores.2 hreceived _ k hk hkr]
  | served hpay hstate hstate' hsize hcontent =>
      rw [watch_of_not_accepted (not_accepted_of_fetches hpay)]
      exact hinv.quiet hbounded hstate' (hinv.active_kept hsize hcontent)
  | cleared hpay hidle hsize =>
      rw [watch_of_not_accepted (by simp [accepted, hpay])]
      refine hinv.quiet hbounded (.inl hidle) ?_
      rw [hsize]
      exact ⟨Nat.zero_le _, fun k _ _ hk => absurd hk (Nat.not_lt_zero k)⟩

variable (env)

/-- What a step does: an event that overflows the receive buffer has none. -/
theorem effect_of_step {e : Event F} (hv : Bounded v) (h : (manager env).step v e v') :
    Effect env e v v' := by
  have hin : ¬ overflows env e v := fun hover =>
    process_overflows env hover (fun _ _ => True) ((wp_of_ok h).mpr trivial)
  exact (wp_of_ok h).mp (process_effect env hv hin)

theorem bounded_of_reachable (h : (manager env).Reachable v) : Bounded v := by
  refine h.invariant ?_ ?_
  · rintro v ⟨state, rfl⟩
    exact initial_bounded state
  · intro v e v' hv hstep
    exact (effect_of_step env hv hstep).bounded hv

/-- The manager with its watcher. -/
def watched (C : Vehicle F → Event F → Prop) : LTS (Vehicle F × Provenance F) (Event F) :=
  ((manager env).restrict C).observe .start (watch env)

theorem isolationInv_initial (state : WpmStorage F) :
    IsolationInv (initial state) .start where
  received_sender _ h := absurd h List.not_mem_nil
  received_stored h := nomatch (show WpmState.idle = .getlistGetwps from h)
  mission_sender := ⟨⟨0, 0⟩, fun _ h => absurd h List.not_mem_nil⟩
  mission_active := ⟨Nat.le_refl 0, fun _ _ h => absurd h (Nat.not_lt_zero _)⟩
  bounded := initial_bounded state
  partner h := absurd notReceiving_idle h
  nothing h := nomatch (show WpmState.idle = .getlist from h)

/-- **Isolation.** In every run in which the accepted waypoints come from the partner of
the transfer, every waypoint stored comes from the station whose count opened the
transfer, and a completed mission comes from one station. -/
theorem transfer_isolated {s : Vehicle F × Provenance F}
    (h : (watched env (FromPartner env)).Reachable s) : Isolated s.1 s.2 := by
  have hinv : IsolationInv s.1 s.2 := by
    refine h.invariant (I := fun s => IsolationInv s.1 s.2) ?_ ?_
    · rintro ⟨v, p⟩ ⟨⟨state, rfl⟩, rfl⟩
      exact isolationInv_initial state
    · rintro ⟨v, p⟩ e ⟨v', p'⟩ hinv ⟨⟨hpartner, hrun⟩, hwatch⟩
      obtain rfl : p' = watch env p v e v' := hwatch
      exact hinv.effect hpartner (effect_of_step env hinv.bounded hrun)
  exact hinv.toIsolated

end

/-! ### Two stations -/

/-- The state after an event, with what the watcher notes. -/
def nextWatched (s : Vehicle Unit × Provenance Unit) (e : Event Unit) :
    Vehicle Unit × Provenance Unit :=
  let v' := after (process unitEnv e) s.1
  (v', watch unitEnv s.2 s.1 e v')

theorem nextWatched_step {C : Vehicle Unit → Event Unit → Prop}
    {s : Vehicle Unit × Provenance Unit} {e : Event Unit} (hC : C s.1 e)
    (hends : ends (process unitEnv e) s.1 = true) :
    (watched unitEnv C).step s e (nextWatched s e) :=
  ⟨⟨hC, ends_iff.mp hends⟩, rfl⟩

/-- A second station. -/
def apm : Station := ⟨254, 0⟩

/-- One station announces two waypoints and sends the first, then a second waypoint arrives. -/
def twoWaypointEvents (second : Station) : List (Event Unit) :=
  [unitEvent qgc (.missionCount 100 mavlinkWpmCompId 2),
    unitEvent qgc (.missionItem (unitItem 0)), unitEvent second (.missionItem (unitItem 1))]

/-- The state after these events. -/
def twoWaypoints (second : Station) : Vehicle Unit × Provenance Unit :=
  (twoWaypointEvents second).foldl nextWatched (initial unitStorage, .start)

/-- Two stations talk at a time, and one of them uploads two waypoints: the other announces a list
of its own in between, asks for the list, and sends a waypoint that is not the next one. -/
def twoStationEvents : List (Event Unit) :=
  [unitEvent qgc (.missionCount 100 mavlinkWpmCompId 2),
    unitEvent qgc (.missionItem (unitItem 0)),
    unitEvent apm (.missionCount 100 mavlinkWpmCompId 1),
    unitEvent apm (.missionItem (unitItem 0)),
    unitEvent apm (.missionRequestList 100 mavlinkWpmCompId),
    unitEvent qgc (.missionItem (unitItem 1))]

/-- The state after these events. -/
def twoStations : Vehicle Unit × Provenance Unit :=
  twoStationEvents.foldl nextWatched (initial unitStorage, .start)

theorem transfer_isolated_two_stations :
    twoStations.2.mission.map Prod.fst = [qgc, qgc] ∧
      Isolated twoStations.1 twoStations.2 := by
  refine ⟨by decide +kernel, transfer_isolated unitEnv ?_⟩
  refine ⟨(initial unitStorage, .start), twoStationEvents, ⟨⟨_, rfl⟩, rfl⟩,
    .cons (nextWatched_step trivial ?_) (.cons (nextWatched_step (fun _ => ?_) ?_)
      (.cons (nextWatched_step trivial ?_) (.cons (nextWatched_step (absurd · ?_) ?_)
        (.cons (nextWatched_step trivial ?_) (.cons (nextWatched_step (fun _ => ?_) ?_)
          (.nil _))))))⟩
  all_goals decide +kernel

/-- The vehicle takes the second waypoint of one station's transfer from another station. -/
theorem transfer_mixed :
    ¬ ∀ s, (watched unitEnv fun _ _ => True).Reachable s → Isolated s.1 s.2 := by
  intro hall
  have hreach : (watched unitEnv fun _ _ => True).Reachable (twoWaypoints apm) := by
    refine ⟨(initial unitStorage, .start), twoWaypointEvents apm, ⟨⟨_, rfl⟩, rfl⟩,
      .cons (nextWatched_step trivial ?_) (.cons (nextWatched_step trivial ?_)
        (.cons (nextWatched_step trivial ?_) (.nil _)))⟩
    all_goals decide +kernel
  have hsender := (hall _ hreach).received_sender
  have hmixed : ∃ r ∈ (twoWaypoints apm).2.received, some r.1 ≠ (twoWaypoints apm).2.opener := by
    decide +kernel
  obtain ⟨r, hr, hne⟩ := hmixed
  exact hne (hsender r hr)

end Px4Firmware.Waypoints
