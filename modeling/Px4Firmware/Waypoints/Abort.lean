import Px4Firmware.Waypoints.Isolation

/-!
# Px4Firmware.Waypoints.Abort

**Transfers that do not come to their end.** A transfer is collected in the receive buffer. The
active list is replaced when the last waypoint of a transfer is received, and it is cleared by a
message of its own while no transfer is open. Nothing else changes its size or what its waypoints
say (`list_kept`): neither a transfer that times out, nor one that is opened again, nor waypoints
out of turn.

Serving the list to a ground station writes addresses into it, and the progress of the mission moves
the `current` mark; the content of a waypoint is the rest.
-/

namespace Px4Firmware.Waypoints

open Px4Firmware.Lib

section

variable {F : Type} (env : Env F)

/-- Is the event the last waypoint of the open transfer? -/
def completesTransfer (v : Vehicle F) : Event F → Prop
  | .message m _ _ =>
      match m.payload with
      | .missionItem item => storesItem env v item ∧ item.seq + 1 = v.wpm.currentCount
      | _ => False
  | .tick .. => False

/-- Does the event clear the list? -/
def clearsList (v : Vehicle F) : Event F → Prop
  | .message m _ _ =>
      match m.payload with
      | .missionClearAll targetSystem _ =>
          targetSystem = env.sysid ∧ v.wpm.currentState = .idle
      | _ => False
  | .tick .. => False

/-- The condition on an event: it neither completes a transfer nor clears the list. -/
def KeepsList (v : Vehicle F) (e : Event F) : Prop :=
  ¬ completesTransfer env v e ∧ ¬ clearsList env v e

/-- The active list has the same size and its waypoints the same contents. -/
structure SameList (v v' : Vehicle F) : Prop where
  size : v'.wpm.size = v.wpm.size
  content : ∀ k (h : k < maxWpCount), v'.wpm.waypoints[k].content = v.wpm.waypoints[k].content

variable {env} {v v' v'' : Vehicle F}

theorem SameList.refl (v : Vehicle F) : SameList v v := ⟨rfl, fun _ _ => rfl⟩

theorem SameList.trans (h : SameList v v') (h' : SameList v' v'') : SameList v v'' where
  size := h'.size.trans h.size
  content k hk := (h'.content k hk).trans (h.content k hk)

/-- A change of `current` marks. -/
theorem ActiveKept.sameList (h : ActiveKept v v') : SameList v v' where
  size := h.size
  content k hk := content_of_unmarked (h.waypoints k hk)

/-- During a transfer, the message that clears the list is ignored. -/
theorem clearAll_busy {m : Message F} {g : GlobalPosition F} {l : LocalPosition F}
    {targetSystem targetComponent : UInt8} (hv : Bounded v)
    (hpay : m.payload = .missionClearAll targetSystem targetComponent)
    (h : ¬ (targetSystem = env.sysid ∧ v.wpm.currentState = .idle)) :
    wp (process env (.message m g l)) (fun _ v' => Unchanged v v') v := by
  unfold process mavlinkWpmMessageHandler handlePayload
  simp only [hpay, handleMissionClearAll, wp_bind, wp_getSystemTimestamp, wp_getWpm, wp_ite,
    wp_pure]
  refine ⟨fun hclears => absurd hclears h, fun _ => ?_⟩
  have hclock : Unchanged v { v with clockReads := v.clockReads + 1 } :=
    ⟨⟨rfl, fun _ _ => rfl, Iff.rfl⟩, rfl, rfl, rfl, rfl, rfl⟩
  refine (checkWaypointsReached_unchanged env ?_ _ g l).mono fun _ _ h' => hclock.trans h'
  exact hv

/-- **The step lemma**, by cases of what an event can do. -/
theorem sameList_of_step {e : Event F} (hv : Bounded v) (h : (manager env).step v e v')
    (hkeeps : KeepsList env v e) : SameList v v' := by
  cases effect_of_step env hv h with
  | unchanged _ hsame => exact hsame.toActiveKept.sameList
  | timedOut hkept => exact hkept.sameList
  | opened _ _ hkept => exact hkept.sameList
  | stored _ _ _ _ hkept => exact hkept.sameList
  | completed hpay hstores _ hlast =>
      refine absurd ?_ hkeeps.1
      simp only [completesTransfer, hpay]
      exact ⟨hstores, hlast⟩
  | served _ _ _ hsize hcontent => exact ⟨hsize, hcontent⟩
  | cleared hpay =>
      have hbusy : ¬ (env.sysid = env.sysid ∧ v.wpm.currentState = .idle) := by
        intro hidle
        refine hkeeps.2 ?_
        simp only [clearsList, hpay]
        exact ⟨trivial, hidle.2⟩
      exact ((wp_of_ok h).mp (clearAll_busy hv hpay hbusy)).toActiveKept.sameList

/-- No event gets stuck while no more than 15 waypoints are announced. -/
theorem fitting_progress
    (h : ((manager env).restrict fun _ e => announcesFitting e).Reachable v) (e : Event F) :
    ∃ v', (manager env).step v e v' := by
  have hinv : Bounded v ∧ CountFits v := by
    refine h.invariant (I := fun v => Bounded v ∧ CountFits v) ?_ ?_
    · rintro v ⟨state, rfl⟩
      exact ⟨initial_bounded state, fun h => absurd notReceiving_idle h⟩
    · rintro v e v' ⟨hv, hcount⟩ ⟨hfits, hstep⟩
      have heffect := effect_of_step env hv hstep
      exact ⟨heffect.bounded hv, heffect.countFits hfits hcount⟩
  obtain ⟨_, v', hrun, -⟩ := wp_iff.mp (process_effect env hinv.1 (not_overflows hinv.2))
  exact ⟨v', hrun⟩

/-- **Aborted transfers leave the list alone.** From any reachable state, whatever messages and
ticks follow: as long as no transfer is completed and the list is not cleared, its size and the
contents of its waypoints are the same. -/
theorem list_kept {es : List (Event F)} (h : (manager env).Reachable v)
    (hrun : ((manager env).restrict (KeepsList env)).Run v es v') : SameList v v' := by
  induction hrun with
  | nil v => exact .refl v
  | cons hstep _ ih =>
      have hfirst := sameList_of_step (bounded_of_reachable env h) hstep.2 hstep.1
      exact hfirst.trans (ih (h.step hstep.2))

instance (v : Vehicle F) (e : Event F) : Decidable (completesTransfer env v e) := by
  unfold completesTransfer
  split
  · split <;> infer_instance
  · infer_instance

instance (v : Vehicle F) (e : Event F) : Decidable (clearsList env v e) := by
  unfold clearsList
  split
  · split <;> infer_instance
  · infer_instance

instance (v : Vehicle F) (e : Event F) : Decidable (KeepsList env v e) := by
  unfold KeepsList
  infer_instance

end

/-- One event, if it does not get stuck. -/
def nextVehicle (v : Vehicle Unit) (e : Event Unit) : Option (Vehicle Unit) :=
  completes (process unitEnv e) v

theorem step_of_nextVehicle {v v' : Vehicle Unit} {e : Event Unit}
    (h : nextVehicle v e = some v') : (manager unitEnv).step v e v' :=
  completes_eq_some.mp h

/-- A transfer of two waypoints is announced, announced again by another station, gets its first
waypoint and a wrong one, and times out. -/
def abortedEvents : List (Event Unit) :=
  [unitEvent qgc (.missionCount 100 mavlinkWpmCompId 2),
    unitEvent apm (.missionCount 100 mavlinkWpmCompId 2),
    unitEvent apm (.missionItem (unitItem 0)), unitEvent apm (.missionItem (unitItem 5)),
    .tick 5000001 { lat := 0, lon := 0, alt := (), relativeAlt := () }
      { x := (), y := (), z := () }]

/-- After an upload of one waypoint these events run, and that waypoint is still there. -/
theorem list_kept_aborted :
    ∃ v v', (manager unitEnv).Run (initial unitStorage) (upload qgc 1) v ∧
      ((manager unitEnv).restrict (KeepsList unitEnv)).Run v abortedEvents v' ∧ SameList v v' := by
  have hall : (((upload qgc 1).foldlM nextVehicle (initial unitStorage)).bind fun v =>
      abortedEvents.foldlM (fun v e => if KeepsList unitEnv v e then nextVehicle v e else none)
        v).isSome = true := by
    decide +kernel
  obtain ⟨v', hv'⟩ := Option.isSome_iff_exists.mp hall
  obtain ⟨v, hv, hv'⟩ := Option.bind_eq_some_iff.mp hv'
  have hupload : (manager unitEnv).Run (initial unitStorage) (upload qgc 1) v :=
    .of_foldlM (fun _ _ _ => step_of_nextVehicle) hv
  have hrun : ((manager unitEnv).restrict (KeepsList unitEnv)).Run v abortedEvents v' :=
    .restrict_of_foldlM (fun _ _ _ => step_of_nextVehicle) hv'
  exact ⟨v, v', hupload, hrun, list_kept ⟨_, _, ⟨_, rfl⟩, hupload⟩ hrun⟩

end Px4Firmware.Waypoints
