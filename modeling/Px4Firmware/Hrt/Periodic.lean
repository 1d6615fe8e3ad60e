import Mathlib.Algebra.Group.Nat.Defs
import Px4Firmware.Hrt.Frame

/-!
# Px4Firmware.Hrt.Periodic

**Periodic callouts do not drift.** When the callout of a periodic entry returns, the entry is
entered again at its saved deadline and one period, whatever the time is by then. So its deadlines
are those of its schedule, and since the queue is ordered by the deadlines and the interrupt handler
goes on until nothing is due, no invocation is early and none is left out (`periodic_on_schedule`).

Other entries may do what they like, with any deadlines, zero included, as long as no entry is
entered while it is in the queue (`EntersOnce`). That is what `Queued` needs, which is weaker than
`Sound`: an entry with the deadline zero may be in the queue. An entry that is entered twice cuts
off what comes after it, and the entries that are cut off are not invoked any more
(`entered_twice_loses_call`).
-/

namespace Px4Firmware.Hrt

open Px4Firmware.Lib

/-! ### The runs -/

section

variable {ι κ : Type} {s t : Machine ι κ} {l : List ι} {e : ι} {ev : Event ι κ}

/-- No entry is entered while it is in the queue. `hrt_call_internal` takes an entry out first,
unless its deadline is zero; `hrt_call_invoke` does not when it enters an entry again. -/
def EntersOnce (s : Machine ι κ) : Event ι κ → Prop
  | .op o => o.isCancel = false → (s.callouts.entry o.entry).deadline = 0 →
      ¬ s.callouts.queue.Linked o.entry
  | .ret =>
      match s.phase with
      | .callout call _ => (s.callouts.entry call).period ≠ 0 → ¬ s.callouts.queue.Linked call
      | _ => True
  | _ => True

/-- A call that does not enter an entry twice. -/
theorem EntersOnce.op {o : Op ι κ} (hcareful : EntersOnce s (.op o)) (hl : s.callouts.Queued l)
    (hset : o.isCancel = false) (hzero : (s.callouts.entry o.entry).deadline = 0) :
    o.entry ∉ l := by
  intro hmem
  exact hcareful hset hzero (hl.repr.linked_iff.mpr hmem)

/-- A return that does not enter an entry twice. -/
theorem EntersOnce.ret {call : ι} {deadline : UInt64} (hcareful : EntersOnce s .ret)
    (hphase : s.phase = .callout call deadline) (hl : s.callouts.Queued l)
    (hperiod : (s.callouts.entry call).period ≠ 0) : call ∉ l := by
  intro hmem
  simp only [EntersOnce, hphase] at hcareful
  exact hcareful hperiod (hl.repr.linked_iff.mpr hmem)

/-- The entry an event is about. -/
def Event.about (s : Machine ι κ) : Event ι κ → Option ι
  | .op o => some o.entry
  | .invoke call _ | .skip call _ => some call
  | .ret =>
      match s.phase with
      | .callout call _ => some call
      | _ => none
  | _ => none

/-- Nobody schedules or cancels the entry, and its next deadline is in the range of the time. -/
def LeftAlone (e : ι) (s : Machine ι κ) : Event ι κ → Prop
  | .op o => o.entry ≠ e
  | .ret =>
      match s.phase with
      | .callout call deadline => call = e →
          deadline.toNat + (s.callouts.entry e).period.toNat < 2 ^ 64
      | _ => True
  | _ => True

variable [DecidableEq ι]

/-- A watcher that notes the invocations of an entry, with the nominal deadline and the time. -/
def noteInvocation (e : ι) (calls : List (UInt64 × UInt64)) (s : Machine ι κ) (ev : Event ι κ)
    (_ : Machine ι κ) : List (UInt64 × UInt64) :=
  match ev with
  | .invoke call now => if call = e then calls ++ [((s.callouts.entry e).deadline, now)] else calls
  | _ => calls

/-- The timer with the watcher of an entry that is left alone, in runs whose steps meet a
condition. -/
def following (C : Machine ι κ → Event ι κ → Prop) (e : ι) :
    LTS (Machine ι κ × List (UInt64 × UInt64)) (Event ι κ) :=
  (((timer (κ := κ)).restrict C).restrict (LeftAlone e)).observe [] (noteInvocation e)

/-- **On schedule**: the invocations so far are those of the first deadlines of the schedule, and
none was early. An interrupt ends only when the next deadline has not come, and the entry that is
invoked next has the first deadline of all. -/
structure OnSchedule (first period : Nat) (u : Machine ι κ × List (UInt64 × UInt64)) : Prop where
  nominal : (u.2.map fun i => i.1.toNat) =
    (List.range u.2.length).map fun k => first + k * period
  not_early : ∀ i ∈ u.2, i.1 ≤ i.2
  none_missed : ∀ now t, Step u.1 (.stop now) t → now.toNat < first + u.2.length * period
  in_order : ∀ call now t, Step u.1 (.invoke call now) t →
    ∀ x, (u.1.callouts.entry x).deadline ≠ 0 →
      (u.1.callouts.entry call).deadline ≤ (u.1.callouts.entry x).deadline

/-! ### What a step does to the queue -/

variable {c c' : Callouts ι κ}

/-- A call leaves the other entries where they are. -/
theorem Op.run_changed (hl : c.Queued l) (o : Op ι κ)
    (hout : o.isCancel = false → (c.entry o.entry).deadline = 0 → o.entry ∉ l) (fuel : Nat) :
    fueled fuel l.length (fun c' => ∃ d members, c.Changed o.entry d members c' ∧
      ∀ x, x ≠ o.entry → (members x ↔ x ∈ l)) (o.run fuel c) := by
  have hscheduled (entry : ι) (deadline interval : UInt64) (callout : Option κ)
      (hout : (c.entry entry).deadline = 0 → entry ∉ l) :
      fueled fuel l.length (fun c' => ∃ d members, c.Changed entry d members c' ∧
          ∀ x, x ≠ entry → (members x ↔ x ∈ l))
        (Callouts.hrtCallInternal fuel entry deadline interval callout c) := by
    refine (hl.hrtCallInternal hout deadline interval callout fuel).mono (Nat.le_refl _) ?_
    intro c' hchanged
    exact ⟨_, _, hchanged, fun x hx => by simp [hx]⟩
  cases o with
  | callAfter entry now delay callout => exact hscheduled entry _ _ callout (hout rfl)
  | callAt entry calltime callout => exact hscheduled entry _ _ callout (hout rfl)
  | callEvery entry now delay interval callout => exact hscheduled entry _ _ callout (hout rfl)
  | cancel entry =>
      refine (hl.hrtCancel entry fuel).mono (Nat.le_refl _) ?_
      intro c' hchanged
      exact ⟨_, _, hchanged, fun x hx => and_iff_right hx⟩

/-- **The step lemma**: the scheduled entries stay in the queue, and the entries that the event is
not about stay as they are. -/
theorem Step.queued (hstep : Step s ev t) (hcareful : EntersOnce s ev)
    (hl : s.callouts.Queued l) :
    ∃ l', t.callouts.Queued l' ∧ ∀ x, ev.about s ≠ some x →
      t.callouts.entry x = s.callouts.entry x ∧ (x ∈ l' ↔ x ∈ l) := by
  cases hstep with
  | @op o fuel c _ hrun =>
      obtain ⟨d, members, hchanged, hmem⟩ :=
        (o.run_changed hl (hcareful.op hl) fuel).some hrun
      obtain ⟨l', hl', hothers⟩ := hchanged.others hmem
      exact ⟨l', hl', fun x hx => hothers x fun heq => hx (heq ▸ rfl)⟩
  | interrupt => exact ⟨l, hl, fun x _ => ⟨rfl, Iff.rfl⟩⟩
  | @invoke call now fuel c k _ _ _ hpop =>
      have hchanged := (hl.hrtCallPop call fuel).some hpop
      obtain ⟨l', hl', hothers⟩ := hchanged.others fun x hx => and_iff_right hx
      exact ⟨l', hl', fun x hx => hothers x fun heq => hx (heq ▸ rfl)⟩
  | @skip call now fuel fuel' c c' _ _ _ hpop hreenter =>
      obtain ⟨hsame, l₁, hl₁, hmem₁⟩ := (hl.hrtCallPop call fuel).some hpop
      have hout : call ∉ l₁ := fun hmem => ((hmem₁ call).mp hmem).1 rfl
      have hchanged := (hl₁.hrtCallReenter (fun _ => hout) _ fuel').some hreenter
      obtain ⟨l', hl', hothers⟩ := hchanged.others (l := l₁) fun x hx => by simp [hx]
      refine ⟨l', hl', fun x hx => ?_⟩
      have hne : x ≠ call := fun heq => hx (heq ▸ rfl)
      obtain ⟨hentry, hmem⟩ := hothers x hne
      refine ⟨?_, hmem.trans ((hmem₁ x).trans (and_iff_right hne))⟩
      rw [hentry, hsame, Function.update_of_ne hne]
  | @ret call deadline fuel c hphase hreenter =>
      have hchanged := (hl.hrtCallReenter (hcareful.ret hphase hl) deadline fuel).some hreenter
      obtain ⟨l', hl', hothers⟩ := hchanged.others (l := l) fun x hx => by simp [hx]
      refine ⟨l', hl', fun x hx => hothers x fun heq => hx ?_⟩
      simp only [Event.about, hphase, heq]
  | stop => exact ⟨l, hl, fun x _ => ⟨rfl, Iff.rfl⟩⟩

theorem queued_of_reachable (h : ((timer (κ := κ)).restrict EntersOnce).Reachable s) :
    ∃ l, s.callouts.Queued l := by
  refine h.invariant (I := fun s => ∃ l, s.callouts.Queued l) ?_ ?_
  · intro s hinit
    obtain ⟨⟨q, hq⟩, hentries, -⟩ := hinit
    refine ⟨[], ?_, List.Pairwise.nil, fun x hx => ?_⟩
    · rw [hq]
      exact SqQueue.sqInit_repr
    · rw [hentries x] at hx
      exact absurd rfl hx
  · intro s ev t hinv hstep
    obtain ⟨l, hl⟩ := hinv
    obtain ⟨l', hl', -⟩ := hstep.2.queued hstep.1 hl
    exact ⟨l', hl'⟩

/-- The functions that walk the queue come to an end here too. -/
theorem entersOnce_progress (h : ((timer (κ := κ)).restrict EntersOnce).Reachable s)
    (hcareful : EntersOnce s ev) (henabled : Enabled s ev) : ∃ t, Step s ev t := by
  obtain ⟨l, hl⟩ := queued_of_reachable h
  cases ev with
  | op o =>
      obtain ⟨c, hrun, -⟩ := (o.run_changed hl (hcareful.op hl) _).exists_some
      exact ⟨_, .op henabled hrun⟩
  | interrupt => exact ⟨_, .interrupt henabled⟩
  | invoke call now =>
      obtain ⟨hphase, hdue, k, hcallout⟩ := henabled
      obtain ⟨c, hpop, -⟩ := (hl.hrtCallPop call _).exists_some
      exact ⟨_, .invoke hphase hdue hcallout hpop⟩
  | skip call now =>
      obtain ⟨hphase, hdue, hcallout⟩ := henabled
      obtain ⟨c, hpop, -, l₁, hl₁, hmem₁⟩ := (hl.hrtCallPop call _).exists_some
      have hout : call ∉ l₁ := fun hmem => ((hmem₁ call).mp hmem).1 rfl
      obtain ⟨c', hreenter, -⟩ := (hl₁.hrtCallReenter (fun _ => hout) _ _).exists_some
      exact ⟨_, .skip hphase hdue hcallout hpop hreenter⟩
  | ret =>
      obtain ⟨call, deadline, hphase⟩ := henabled
      obtain ⟨c, hreenter, -⟩ :=
        (hl.hrtCallReenter (hcareful.ret hphase hl) deadline _).exists_some
      exact ⟨_, .ret hphase hreenter⟩
  | stop now => exact ⟨_, .stop henabled.1 henabled.2⟩

end

/-! ### One periodic entry -/

section

variable {ι κ : Type} {s t : Machine ι κ} {l : List ι} {e : ι} {ev : Event ι κ}

/-- Where an entry of this schedule stands after `k` invocations: it waits in the queue for the next
deadline, or its callout runs. The callout of an earlier schedule may have put it there as well. -/
inductive Stands (e : ι) (first period : UInt64) (s : Machine ι κ) (l : List ι) : Nat → Prop
  | waiting {k : Nat} : (∀ deadline, s.phase ≠ .callout e deadline) → e ∈ l →
      (s.callouts.entry e).deadline.toNat = first.toNat + k * period.toNat →
      Stands e first period s l k
  | running {k : Nat} {deadline : UInt64} : s.phase = .callout e deadline →
      deadline.toNat = first.toNat + k * period.toNat → Stands e first period s l (k + 1)
  | replaced {deadline : UInt64} : s.phase = .callout e deadline → e ∈ l →
      Stands e first period s l 0

namespace Stands

variable {first period : UInt64} {k : Nat}

/-- Nothing has happened to the entry. -/
theorem congr {l' : List ι} (h : Stands e first period s l k)
    (hphase : ∀ deadline, t.phase = .callout e deadline ↔ s.phase = .callout e deadline)
    (hentry : t.callouts.entry e = s.callouts.entry e) (hmem : e ∈ l' ↔ e ∈ l) :
    Stands e first period t l' k := by
  cases h with
  | waiting hidle hin hdeadline =>
      refine .waiting (fun deadline hrun => hidle deadline ((hphase deadline).mp hrun))
        (hmem.mpr hin) ?_
      rw [hentry]
      exact hdeadline
  | running hrun hdeadline => exact .running ((hphase _).mpr hrun) hdeadline
  | replaced hrun hin => exact .replaced ((hphase _).mpr hrun) (hmem.mpr hin)

/-- In the interrupt handler, between two callouts, the entry waits for its next deadline. -/
theorem of_isr (h : Stands e first period s l k) (hphase : s.phase = .isr) :
    e ∈ l ∧ (s.callouts.entry e).deadline.toNat = first.toNat + k * period.toNat := by
  cases h with
  | waiting _ hin hdeadline => exact ⟨hin, hdeadline⟩
  | running hrun => simp [hphase] at hrun
  | replaced hrun => simp [hphase] at hrun

/-- When its callout runs, and the entry is not in the queue, the saved deadline is that of the last
invocation. -/
theorem of_callout {deadline : UInt64} (h : Stands e first period s l k)
    (hphase : s.phase = .callout e deadline) (hout : e ∉ l) :
    deadline.toNat + period.toNat = first.toNat + k * period.toNat := by
  cases h with
  | waiting hidle => exact absurd hphase (hidle deadline)
  | replaced _ hin => exact absurd hin hout
  | running hrun hdeadline =>
      rw [hphase] at hrun
      cases hrun
      rw [hdeadline, Nat.add_mul, Nat.one_mul, Nat.add_assoc]

end Stands

variable [DecidableEq ι]

/-- What holds of the followed entry in every state. -/
structure Follows (e : ι) (first period : UInt64) (f : κ) (s : Machine ι κ)
    (calls : List (UInt64 × UInt64)) : Prop where
  queued : ∃ l, s.callouts.Queued l ∧ Stands e first period s l calls.length
  period_eq : (s.callouts.entry e).period = period
  callout_eq : (s.callouts.entry e).callout = some f
  nominal : (calls.map fun i => i.1.toNat) =
    (List.range calls.length).map fun k => first.toNat + k * period.toNat
  not_early : ∀ i ∈ calls, i.1 ≤ i.2

namespace Follows

variable {first period : UInt64} {f : κ} {calls : List (UInt64 × UInt64)}

/-- An event that is not about the entry leaves it where it stands. -/
theorem keep (hinv : Follows e first period f s calls) (hstep : Step s ev t)
    (hcareful : EntersOnce s ev) (habout : ev.about s ≠ some e)
    (hphase : ∀ deadline, t.phase = .callout e deadline ↔ s.phase = .callout e deadline) :
    Follows e first period f t calls := by
  obtain ⟨⟨l, hl, hstands⟩, hperiod, hcallout, hnominal, hearly⟩ := hinv
  obtain ⟨l', hl', hothers⟩ := hstep.queued hcareful hl
  obtain ⟨hentry, hmem⟩ := hothers e habout
  refine ⟨⟨l', hl', hstands.congr hphase hentry hmem⟩, ?_, ?_, hnominal, hearly⟩
  · rw [hentry]
    exact hperiod
  · rw [hentry]
    exact hcallout

/-- The callout of the entry starts at the deadline that is next in the schedule. -/
theorem invoke {now : UInt64} (hinv : Follows e first period f s calls)
    (hstep : Step s (.invoke e now) t) :
    Follows e first period f t (calls ++ [((s.callouts.entry e).deadline, now)]) := by
  obtain ⟨⟨l, hl, hstands⟩, hperiod, hcallout, hnominal, hearly⟩ := hinv
  cases hstep with
  | @invoke _ _ fuel c k hphase hdue _ hpop =>
      obtain ⟨hsame, l', hl', -⟩ := (hl.hrtCallPop e fuel).some hpop
      obtain ⟨-, hdeadline⟩ := hstands.of_isr hphase
      refine ⟨⟨l', hl', ?_⟩, ?_, ?_, ?_, ?_⟩
      · rw [List.length_append]
        exact .running rfl hdeadline
      · rw [hsame, Function.update_self]
        exact hperiod
      · rw [hsame, Function.update_self]
        exact hcallout
      · rw [List.map_append, hnominal, List.length_append, List.length_singleton, List.range_succ,
          List.map_append, List.map_singleton, List.map_singleton, hdeadline]
      · intro i hi
        rcases List.mem_append.mp hi with hi | hi
        · exact hearly i hi
        · obtain rfl := List.mem_singleton.mp hi
          exact Callouts.due_le hdue

/-- When the callout returns, the entry is entered again at the next deadline. -/
theorem ret {deadline : UInt64} (hinv : Follows e first period f s calls)
    (hne : period ≠ 0) (hphase : s.phase = .callout e deadline) (hcareful : EntersOnce s .ret)
    (hrange : deadline.toNat + period.toNat < 2 ^ 64) (hstep : Step s .ret t) :
    Follows e first period f t calls := by
  obtain ⟨⟨l, hl, hstands⟩, rfl, hcallout, hnominal, hearly⟩ := hinv
  have hout : e ∉ l := hcareful.ret hphase hl hne
  cases hstep with
  | @ret call deadline' fuel c hphase' hreenter =>
      rw [hphase] at hphase'
      cases hphase'
      obtain ⟨hsame, l', hl', hmem⟩ :=
        (hl.hrtCallReenter (fun _ => hout) deadline fuel).some hreenter
      have hentry : c.entry e = { s.callouts.entry e with
          deadline := deadline + (s.callouts.entry e).period } := by
        rw [hsame, Function.update_self, Callouts.afterCallout, if_pos hne]
      refine ⟨⟨l', hl', .waiting (by simp) ((hmem e).mpr (.inl ⟨hne, rfl⟩)) ?_⟩, ?_, ?_, hnominal,
        hearly⟩
      · show (c.entry e).deadline.toNat = _
        rw [hentry, ← hstands.of_callout hphase hout, UInt64.toNat_add, Nat.mod_eq_of_lt hrange]
      · show (c.entry e).period = _
        rw [hentry]
      · show (c.entry e).callout = some f
        rw [hentry]
        exact hcallout

/-- **The step lemma** of the schedule. -/
theorem step (hinv : Follows e first period f s calls) (hne : period ≠ 0)
    (hcareful : EntersOnce s ev) (halone : LeftAlone e s ev) (hstep : Step s ev t) :
    Follows e first period f t (noteInvocation e calls s ev t) := by
  cases ev with
  | op o =>
      refine hinv.keep hstep hcareful (fun heq => halone (Option.some.inj heq)) fun deadline => ?_
      cases hstep
      exact Iff.rfl
  | interrupt =>
      refine hinv.keep hstep hcareful (by simp [Event.about]) fun deadline => ?_
      cases hstep with
      | interrupt hphase => simp [hphase]
  | invoke call now =>
      by_cases heq : call = e
      · subst heq
        simp only [noteInvocation, if_true]
        exact hinv.invoke hstep
      · simp only [noteInvocation, if_neg heq]
        refine hinv.keep hstep hcareful (by simp [Event.about, heq]) fun deadline => ?_
        cases hstep with
        | invoke hphase => simp [hphase, heq]
  | skip call now =>
      -- The entry has a callout.
      have heq : call ≠ e := by
        intro heq
        subst heq
        cases hstep with
        | skip _ _ hcallout => simp [hinv.callout_eq] at hcallout
      refine hinv.keep hstep hcareful (by simp [Event.about, heq]) fun deadline => ?_
      cases hstep with
      | skip hphase => simp [hphase]
  | ret =>
      have hreturns : ∃ call deadline, s.phase = .callout call deadline := by
        cases hstep with
        | ret hphase => exact ⟨_, _, hphase⟩
      obtain ⟨call, deadline, hphase⟩ := hreturns
      by_cases heq : call = e
      · subst heq
        have hrange : call = call →
            deadline.toNat + (s.callouts.entry call).period.toNat < 2 ^ 64 := by
          simpa only [LeftAlone, hphase] using halone
        exact hinv.ret hne hphase hcareful (hinv.period_eq ▸ hrange rfl) hstep
      · refine hinv.keep hstep hcareful (by simp [Event.about, hphase, heq]) fun deadline => ?_
        cases hstep
        simp [hphase, heq]
  | stop now =>
      refine hinv.keep hstep hcareful (by simp [Event.about]) fun deadline => ?_
      cases hstep with
      | stop hphase => simp [hphase]

/-- An entry that has just been scheduled. -/
theorem start {now delay : UInt64} (hl : s.callouts.Queued l)
    (hcareful : EntersOnce s (.op (.callEvery e now delay period (some f))))
    (hstep : Step s (.op (.callEvery e now delay period (some f))) t) :
    Follows e (now + delay) period f t [] := by
  have hout : (s.callouts.entry e).deadline = 0 → e ∉ l := hcareful.op hl rfl
  cases hstep with
  | @op _ fuel c hphase hrun =>
      obtain ⟨hsame, l', hl', hmem⟩ :=
        (hl.hrtCallInternal hout (now + delay) period (some f) fuel).some hrun
      have hentry : c.entry e = ⟨now + delay, period, some f⟩ := by
        rw [hsame, Function.update_self]
      have hin : e ∈ l' := (hmem e).mpr (.inl rfl)
      refine ⟨⟨l', hl', ?_⟩, ?_, ?_, rfl, by simp⟩
      · by_cases hown : ∃ deadline, s.phase = .callout e deadline
        · obtain ⟨deadline, hown⟩ := hown
          exact .replaced hown hin
        · refine .waiting (fun deadline hrun => hown ⟨deadline, hrun⟩) hin ?_
          show (c.entry e).deadline.toNat = _
          simp [hentry]
      · show (c.entry e).period = period
        rw [hentry]
      · show (c.entry e).callout = some f
        rw [hentry]

/-- **An entry that is followed is on schedule.** -/
theorem onSchedule (hinv : Follows e first period f s calls) :
    OnSchedule first.toNat period.toNat (s, calls) := by
  obtain ⟨⟨l, hl, hstands⟩, -, -, hnominal, hearly⟩ := hinv
  refine ⟨hnominal, hearly, fun now t hstep => ?_, fun call now t hstep x hx => ?_⟩
  · cases hstep with
    | stop hphase hdue =>
        obtain ⟨hin, hdeadline⟩ := hstands.of_isr hphase
        rw [← hdeadline]
        exact hl.lt_of_not_due hdue hin
  · cases hstep with
    | invoke _ hdue => exact hl.due_le hdue (hl.mem x hx)

end Follows

/-- **Periodic callouts.** After `hrt_call_every` has scheduled an entry, in every run that leaves
it alone and in which no entry is entered while it is in the queue, the entry is on schedule. -/
theorem periodic_on_schedule {f : κ} {now delay interval : UInt64} {es : List (Event ι κ)}
    {u : Machine ι κ × List (UInt64 × UInt64)}
    (hreach : ((timer (κ := κ)).restrict EntersOnce).Reachable s)
    (hcall : ((timer (κ := κ)).restrict EntersOnce).step s
      (.op (.callEvery e now delay interval (some f))) t)
    (hinterval : interval ≠ 0) (hrun : (following EntersOnce e).Run (t, []) es u) :
    OnSchedule (now + delay).toNat interval.toNat u := by
  obtain ⟨l, hl⟩ := queued_of_reachable hreach
  have hstart := Follows.start hl hcall.1 hcall.2
  refine (hrun.invariant (I := fun u => Follows e (now + delay) interval f u.1 u.2) ?_
    hstart).onSchedule
  intro u ev u' hinv hstep
  obtain ⟨⟨halone, hcareful, hstep⟩, hnote⟩ := hstep
  rw [hnote]
  exact hinv.step hinterval hcareful halone hstep

end

/-- The interrupt comes when the entry is due for the second time already. -/
def lateTimer : Machine Unit Unit :=
  { callouts := (runningTimer.callouts.hrtCallReenter 3 () 10).getD runningTimer.callouts
    phase := .isr }

/-- The callout of its second deadline runs. -/
def caughtUpTimer : Machine Unit Unit :=
  { callouts := (lateTimer.callouts.hrtCallPop 3 ()).getD lateTimer.callouts
    phase := .callout () 20 }

theorem periodic_on_schedule_late :
    OnSchedule 10 10 (caughtUpTimer, [(10, 25), (20, 25)]) := by
  have hcall : (everyTen 0).run 3 unusedTimer.callouts = some scheduledTimer.callouts := rfl
  have hpop : scheduledTimer.callouts.hrtCallPop 3 () = some runningTimer.callouts := rfl
  have hreturn : runningTimer.callouts.hrtCallReenter 3 () 10 = some lateTimer.callouts := rfl
  have hagain : lateTimer.callouts.hrtCallPop 3 () = some caughtUpTimer.callouts := rfl
  have hinit : (timer (ι := Unit) (κ := Unit)).init unusedTimer :=
    ⟨⟨unusedTimer.callouts.queue, rfl⟩, fun _ => rfl, rfl⟩
  have hempty {c : Callouts Unit Unit} (hhead : c.queue.head = none) : ¬ c.queue.Linked () := by
    refine SqQueue.not_linked_of_closed (S := fun _ => False) ?_ (fun _ _ h _ => h) id
    intro a ha
    simp [hhead] at ha
  have hrun : (following EntersOnce ()).Run (scheduledTimer, [])
      [.interrupt, .invoke () 25, .ret, .invoke () 25]
      (caughtUpTimer, [(10, 25), (20, 25)]) := by
    refine .cons (t := ({ scheduledTimer with phase := .isr }, [])) ⟨⟨trivial, trivial, ?_⟩, rfl⟩
      (.cons (t := (runningTimer, [(10, 25)])) ⟨⟨trivial, trivial, ?_⟩, rfl⟩
      (.cons (t := (lateTimer, [(10, 25)])) ⟨⟨?_, ?_, ?_⟩, rfl⟩
      (.cons ⟨⟨trivial, trivial, ?_⟩, rfl⟩ (.nil _))))
    · exact .interrupt rfl
    · exact .invoke rfl rfl rfl hpop
    · intro _
      decide
    · intro _
      exact hempty rfl
    · exact .ret rfl hreturn
    · exact .invoke rfl rfl rfl hagain
  have hstep : Step unusedTimer (.op (.callEvery () 0 10 10 (some ()))) scheduledTimer :=
    .op (by simp [unusedTimer]) hcall
  exact periodic_on_schedule (.of_init hinit) ⟨fun _ _ => hempty rfl, hstep⟩ (by decide) hrun

/-! ### An entry that is entered twice -/

/-- Two unused entries. -/
def unusedPair : Machine Bool Unit :=
  { callouts := { queue := { head := none, tail := none, flink := fun _ => none }
                  entry := fun _ => zeroCall }
    phase := .thread }

/-- The first entry is scheduled every 10 µs from the time 15 on. -/
def firstCall : Op Bool Unit := .callEvery true 0 15 10 (some ())

/-- The second entry is scheduled for the time 10. -/
def secondCall : Op Bool Unit := .callAt false 10 (some ())

/-- Its callout schedules it again, for the time 12 and every 10 µs. -/
def ownCall : Op Bool Unit := .callEvery false 10 2 10 (some ())

/-- The pair after a call. -/
def pairCalled (o : Op Bool Unit) (s : Machine Bool Unit) : Machine Bool Unit :=
  { s with callouts := (o.run 3 s.callouts).getD s.callouts }

/-- Both are scheduled. -/
def scheduledPair : Machine Bool Unit := pairCalled secondCall (pairCalled firstCall unusedPair)

/-- The callout of the second entry runs. -/
def runningPair : Machine Bool Unit :=
  { callouts := (scheduledPair.callouts.hrtCallPop 3 false).getD scheduledPair.callouts
    phase := .callout false 10 }

/-- It has scheduled its own entry and has returned. -/
def returnedPair : Machine Bool Unit :=
  { callouts := ((pairCalled ownCall runningPair).callouts.hrtCallReenter 3 false 10).getD
      runningPair.callouts
    phase := .isr }

/-- The callout of another entry schedules that entry with a period. When it returns, the entry is
entered behind the followed entry, although it is the head of the queue, and the followed entry is
cut off: the interrupt at the time 17 ends without its invocation. -/
theorem entered_twice_loses_call :
    ¬ ∀ (s t : Machine Bool Unit) (e : Bool) (now delay interval : UInt64)
      (es : List (Event Bool Unit)) (u : Machine Bool Unit × List (UInt64 × UInt64)),
      (timer.restrict NonZero).Reachable s →
      (timer.restrict NonZero).step s (.op (.callEvery e now delay interval (some ()))) t →
      interval ≠ 0 → (following NonZero e).Run (t, []) es u →
      OnSchedule (now + delay).toNat interval.toNat u := by
  intro hall
  have hinit : (timer (ι := Bool) (κ := Unit)).init unusedPair :=
    ⟨⟨unusedPair.callouts.queue, rfl⟩, fun _ => rfl, rfl⟩
  have hfirst : firstCall.run 3 unusedPair.callouts =
      some (pairCalled firstCall unusedPair).callouts := rfl
  have hsecond : secondCall.run 3 (pairCalled firstCall unusedPair).callouts =
      some scheduledPair.callouts := rfl
  have hpop : scheduledPair.callouts.hrtCallPop 3 false = some runningPair.callouts := rfl
  have hown : ownCall.run 3 runningPair.callouts =
      some (pairCalled ownCall runningPair).callouts := rfl
  have hreturn : (pairCalled ownCall runningPair).callouts.hrtCallReenter 3 false 10 =
      some returnedPair.callouts := rfl
  have hrun : (following NonZero true).Run (pairCalled firstCall unusedPair, [])
      [.op secondCall, .interrupt, .invoke false 10, .op ownCall, .ret] (returnedPair, []) := by
    refine .cons (t := (scheduledPair, [])) ⟨⟨?_, ?_, ?_⟩, rfl⟩
      (.cons (t := ({ scheduledPair with phase := .isr }, [])) ⟨⟨trivial, trivial, ?_⟩, rfl⟩
      (.cons (t := (runningPair, [])) ⟨⟨trivial, trivial, ?_⟩, rfl⟩
      (.cons (t := (pairCalled ownCall runningPair, [])) ⟨⟨?_, ?_, ?_⟩, rfl⟩
      (.cons (t := (returnedPair, [])) ⟨⟨?_, trivial, ?_⟩, rfl⟩ (.nil _)))))
    · simp [LeftAlone, secondCall, Op.entry]
    · show (10 : UInt64) ≠ 0
      decide
    · exact .op (by simp [pairCalled, unusedPair]) hsecond
    · exact .interrupt rfl
    · exact .invoke rfl rfl rfl hpop
    · simp [LeftAlone, ownCall, Op.entry]
    · exact ⟨by decide, by decide⟩
    · exact .op (by simp [runningPair]) hown
    · intro heq
      cases heq
    · exact .ret rfl hreturn
  have honSchedule := hall _ _ true 0 15 10 _ _ (.of_init hinit)
    ⟨⟨by decide, by decide⟩, .op (by simp [unusedPair]) hfirst⟩ (by decide) hrun
  have hmissed := honSchedule.none_missed 17 _ (.stop rfl rfl)
  exact absurd hmissed (by decide)

end Px4Firmware.Hrt
