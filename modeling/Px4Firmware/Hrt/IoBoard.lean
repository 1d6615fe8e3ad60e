import Px4Firmware.Hrt.Frame

/-!
# Px4Firmware.Hrt.IoBoard

**The timer of the IO board** (`px4io/src/up_hrt.c`) **and that of the FMU.** The two files are the
same but for the calls that schedule an entry. Those of the IO board write the fields of the entry,
with interrupts enabled, and then enter it, whether or not it is in the queue already; those of the
FMU take an entry that is scheduled out of the queue first, and do all with interrupts disabled.

`io_agrees` says when this makes no difference: when no entry is scheduled that is scheduled
already, and no callout uses an entry that has been written and not yet been entered.
-/

namespace Px4Firmware.Hrt

open Px4Firmware.Lib

/-! ### The calls of the IO board -/

section

variable {ι κ : Type} [DecidableEq ι]

namespace Callouts

/-- The body of the calls of the IO board that schedule an entry. -/
def ioSchedule (fuel : Nat) (entry : ι) (c : HrtCall κ) (h : Callouts ι κ) :
    Option (Callouts ι κ) :=
  hrtCallEnter fuel entry (h.setEntry entry c)

/-- `hrt_call_after` of the IO board. -/
def ioCallAfter (fuel : Nat) (entry : ι) (now delay : UInt64) (callout : Option κ) :
    Callouts ι κ → Option (Callouts ι κ) :=
  ioSchedule fuel entry { deadline := now + delay, period := 0, callout := callout }

/-- `hrt_call_at` of the IO board. -/
def ioCallAt (fuel : Nat) (entry : ι) (calltime : UInt64) (callout : Option κ) :
    Callouts ι κ → Option (Callouts ι κ) :=
  ioSchedule fuel entry { deadline := calltime, period := 0, callout := callout }

/-- `hrt_call_every` of the IO board. -/
def ioCallEvery (fuel : Nat) (entry : ι) (now delay interval : UInt64) (callout : Option κ) :
    Callouts ι κ → Option (Callouts ι κ) :=
  ioSchedule fuel entry { deadline := now + delay, period := interval, callout := callout }

end Callouts

/-- Make a call on the IO board. -/
def Op.runIo (fuel : Nat) : Op ι κ → Callouts ι κ → Option (Callouts ι κ)
  | callAfter entry now delay callout => Callouts.ioCallAfter fuel entry now delay callout
  | callAt entry calltime callout => Callouts.ioCallAt fuel entry calltime callout
  | callEvery entry now delay interval callout =>
      Callouts.ioCallEvery fuel entry now delay interval callout
  | cancel entry => Callouts.hrtCancel fuel entry

/-- What a call writes into its entry with interrupts enabled. A cancellation writes nothing. -/
def Op.fields : Op ι κ → Option (HrtCall κ)
  | callAfter _ now delay callout => some ⟨now + delay, 0, callout⟩
  | callAt _ calltime callout => some ⟨calltime, 0, callout⟩
  | callEvery _ now delay interval callout => some ⟨now + delay, interval, callout⟩
  | cancel _ => none

/-- The timer of the IO board. `pending` is the call of ordinary code that has written its fields
and has not entered its entry yet. -/
structure IoMachine (ι κ : Type) where
  callouts : Callouts ι κ
  phase : Phase ι
  pending : Option (Op ι κ)

/-- What can happen next: a call of ordinary code writes its fields, or enters its entry, or what
can happen on the FMU. -/
inductive IoEvent (ι κ : Type)
  | write (o : Op ι κ)
  | enter (o : Op ι κ)
  | event (e : Event ι κ)

/-- Is this a call of the interface? -/
def Event.isOp : Event ι κ → Bool
  | op _ => true
  | _ => false

/-- One step of the timer of the IO board. -/
inductive IoStep : IoMachine ι κ → IoEvent ι κ → IoMachine ι κ → Prop
  /-- A call of ordinary code writes the fields of its entry. -/
  | write {s : IoMachine ι κ} {o : Op ι κ} {c : HrtCall κ} :
      s.phase = .thread → s.pending = none → o.fields = some c →
      IoStep s (.write o)
        { s with callouts := s.callouts.setEntry o.entry c, pending := some o }
  /-- It enters the entry. -/
  | enter {s : IoMachine ι κ} {o : Op ι κ} {fuel : Nat} {c : Callouts ι κ} :
      s.phase = .thread → s.pending = some o →
      s.callouts.hrtCallEnter fuel o.entry = some c →
      IoStep s (.enter o) { s with callouts := c, pending := none }
  /-- A call without an interrupt in between, of ordinary code or of a callout. -/
  | op {s : IoMachine ι κ} {o : Op ι κ} {fuel : Nat} {c : Callouts ι κ} :
      s.phase ≠ .isr → (s.phase = .thread → s.pending = none) →
      o.runIo fuel s.callouts = some c → IoStep s (.event (.op o)) { s with callouts := c }
  /-- The interrupt handler, which is that of the FMU. -/
  | handler {s : IoMachine ι κ} {e : Event ι κ} {t : Machine ι κ} :
      e.isOp = false → Step ⟨s.callouts, s.phase⟩ e t →
      IoStep s (.event e) { callouts := t.callouts, phase := t.phase, pending := s.pending }

/-- The timer of the IO board as a transition system. -/
def ioTimer : LTS (IoMachine ι κ) (IoEvent ι κ) where
  init s := (∃ q : SqQueue ι, s.callouts.queue = q.sqInit) ∧
    (∀ e, s.callouts.entry e = zeroCall) ∧ s.phase = .thread ∧ s.pending = none
  step := IoStep

/-! ### What is to agree -/

/-- What has happened on the FMU: its calls are made where those of the IO board enter. -/
def IoEvent.label : IoEvent ι κ → Option (Event ι κ)
  | write _ => none
  | enter o => some (.op o)
  | event e => some e

/-- The two timers agree: the same callout runs, which was due at the same time, and the queues hold
the same entries, with the same fields. -/
structure Agrees (s : IoMachine ι κ) (m : Machine ι κ) : Prop where
  phase : s.phase = m.phase
  contents : ∀ l, s.callouts.queue.Repr l ↔ m.callouts.queue.Repr l
  fields : ∀ e, m.callouts.queue.Linked e → s.callouts.entry e = m.callouts.entry e

/-- The condition: an entry that is scheduled is not scheduled already, and a callout leaves alone
the entry of a call that is pending. An entry that is written with interrupts enabled must not be
linked either. -/
def IoCareful (s : IoMachine ι κ) : IoEvent ι κ → Prop
  | .write o =>
      (s.callouts.entry o.entry).deadline = 0 ∧ ¬ s.callouts.queue.Linked o.entry
  | .event (.op o) =>
      (o.isCancel = false → (s.callouts.entry o.entry).deadline = 0) ∧
        ∀ p ∈ s.pending, p.entry ≠ o.entry
  | _ => True

/-- The condition on the FMU. -/
def FmuCareful (m : Machine ι κ) : Event ι κ → Prop
  | .op o => o.isCancel = false → (m.callouts.entry o.entry).deadline = 0
  | _ => True

/-! ### One call -/

variable {o : Op ι κ} {h : Callouts ι κ} {c : HrtCall κ} {fuel : Nat}

omit [DecidableEq ι] in
theorem Op.isCancel_of_fields (hc : o.fields = some c) : o.isCancel = false := by
  cases o with
  | cancel e => cases hc
  | _ => rfl

theorem Op.runIo_of_fields (hc : o.fields = some c) :
    o.runIo fuel h = Callouts.hrtCallEnter fuel o.entry (h.setEntry o.entry c) := by
  cases o with
  | cancel e => cases hc
  | _ =>
      cases hc
      rfl

theorem Op.run_of_fields (hc : o.fields = some c) (hzero : (h.entry o.entry).deadline = 0) :
    o.run fuel h = Callouts.hrtCallEnter fuel o.entry (h.setEntry o.entry c) := by
  cases o with
  | cancel e => cases hc
  | _ =>
      cases hc
      simp only [Op.entry] at hzero
      simp [Op.run, Op.entry, Callouts.hrtCallAfter, Callouts.hrtCallAt, Callouts.hrtCallEvery,
        Callouts.hrtCallInternal, hzero]

/-- The calls of the two boards are the same for an entry that is not scheduled. -/
theorem Op.runIo_eq_run (hzero : o.isCancel = false → (h.entry o.entry).deadline = 0) :
    o.runIo fuel h = o.run fuel h := by
  cases hfields : o.fields with
  | some c =>
      rw [Op.runIo_of_fields hfields,
        Op.run_of_fields hfields (hzero (Op.isCancel_of_fields hfields))]
  | none =>
      cases o with
      | cancel e => rfl
      | _ => cases hfields

/-- A call on the FMU spares the entries that are not linked, but for its own. -/
theorem Op.spares {e : ι} (hunlinked : ¬ h.queue.Linked e) (hne : e ≠ o.entry)
    (hzero : o.isCancel = false → (h.entry o.entry).deadline = 0) :
    Callouts.Spares e (o.runIo fuel) h := by
  cases hfields : o.fields with
  | some c =>
      have hrun : o.runIo fuel = fun h => Callouts.hrtCallEnter fuel o.entry
          (h.setEntry o.entry c) := funext fun _ => Op.runIo_of_fields hfields
      rw [hrun]
      exact Callouts.spares_set_enter hunlinked hne fun _ => c
  | none =>
      cases o with
      | cancel x => exact Callouts.spares_hrtCancel hunlinked hne
      | _ => cases hfields

/-! ### The simulation -/

/-- What a pending call has done, and not done yet: its fields are written, and its entry is not
linked and not that of the callout that runs. -/
structure Pending (s : IoMachine ι κ) (m : Machine ι κ) (o : Op ι κ) : Prop where
  written : ∃ c, o.fields = some c ∧ s.callouts = m.callouts.setEntry o.entry c
  zero : (m.callouts.entry o.entry).deadline = 0
  unlinked : ¬ m.callouts.queue.Linked o.entry
  running : ∀ call deadline, m.phase = .callout call deadline → o.entry ≠ call

/-- The relation between the IO board and the FMU: they are the same but for the fields of a call
that is pending. -/
structure Related (s : IoMachine ι κ) (m : Machine ι κ) : Prop where
  phase : s.phase = m.phase
  same : s.pending = none → s.callouts = m.callouts
  pending : ∀ o, s.pending = some o → Pending s m o

theorem Related.agrees {s : IoMachine ι κ} {m : Machine ι κ} (h : Related s m) : Agrees s m := by
  cases hpending : s.pending with
  | none =>
      have hsame := h.same hpending
      refine ⟨h.phase, ?_, ?_⟩
      · intro l
        rw [hsame]
      · intro e _
        rw [hsame]
  | some o =>
      obtain ⟨⟨c, -, hwritten⟩, -, hunlinked, -⟩ := h.pending o hpending
      refine ⟨h.phase, ?_, ?_⟩
      · intro l
        rw [hwritten]
        exact Iff.rfl
      · intro e he
        rw [hwritten]
        exact Callouts.setEntry_of_ne _ _ fun heq => hunlinked (heq ▸ he)

/-- An operation of the handler, or of a callout on another entry, keeps a call pending. -/
theorem Pending.step {s : IoMachine ι κ} {m : Machine ι κ} {o : Op ι κ} (h : Pending s m o)
    {f : Callouts ι κ → Option (Callouts ι κ)} (hspares : Callouts.Spares o.entry f m.callouts)
    {c : Callouts ι κ} (hc : f s.callouts = some c) (phase : Phase ι)
    (hrunning : ∀ call deadline, phase = .callout call deadline → o.entry ≠ call) :
    ∃ c', f m.callouts = some c' ∧
      Pending { callouts := c, phase := phase, pending := some o } ⟨c', phase⟩ o := by
  obtain ⟨⟨d, hd, hwritten⟩, hzero, -, -⟩ := h
  rw [hwritten, hspares.1 d] at hc
  obtain ⟨c', hc', rfl⟩ := Option.map_eq_some_iff.mp hc
  obtain ⟨hunlinked, hsame⟩ := hspares.2 c' hc'
  refine ⟨c', hc', ⟨d, hd, rfl⟩, ?_, hunlinked, hrunning⟩
  rw [hsame]
  exact hzero

/-- The interrupt handler does the same on the two boards, also while a call is pending. -/
theorem Pending.handler {s : IoMachine ι κ} {m : Machine ι κ} {o : Op ι κ} (h : Pending s m o)
    (hphase : s.phase = m.phase) {e : Event ι κ} (hop : e.isOp = false) {t : Machine ι κ}
    (hstep : Step ⟨s.callouts, s.phase⟩ e t) :
    ∃ m', m'.phase = t.phase ∧ Step m e m' ∧
      Pending { callouts := t.callouts, phase := t.phase, pending := some o } m' o := by
  obtain ⟨d, hd, hwritten⟩ := h.written
  have hdue (now : UInt64) : s.callouts.due now = m.callouts.due now := by
    rw [hwritten]
    exact Callouts.due_setEntry h.unlinked d now
  have hother {call : ι} (hlinked : m.callouts.queue.Linked call) :
      o.entry ≠ call ∧ s.callouts.entry call = m.callouts.entry call := by
    have hne : call ≠ o.entry := fun heq => h.unlinked (heq ▸ hlinked)
    refine ⟨Ne.symm hne, ?_⟩
    rw [hwritten]
    exact Callouts.setEntry_of_ne _ _ hne
  cases hstep with
  | op => cases hop
  | interrupt hthread =>
      refine ⟨{ m with phase := .isr }, rfl, .interrupt (hphase ▸ hthread), ?_⟩
      exact ⟨h.written, h.zero, h.unlinked, nofun⟩
  | @invoke call now fuel c k hisr hcall hk hpop =>
      dsimp only at hcall hk hpop
      rw [hdue] at hcall
      obtain ⟨hne, hentry⟩ := hother (Callouts.linked_of_due hcall)
      rw [hentry] at hk ⊢
      obtain ⟨c', hc', hpending⟩ := h.step (Callouts.spares_hrtCallPop h.unlinked hne) hpop
        (.callout call (m.callouts.entry call).deadline)
        (by
          intro call' deadline heq
          cases heq
          exact hne)
      exact ⟨{ callouts := c', phase := .callout call (m.callouts.entry call).deadline }, rfl,
        .invoke (hphase ▸ hisr) hcall hk hc', hpending⟩
  | @skip call now fuel fuel' c c' hisr hcall hk hpop hreenter =>
      dsimp only at hcall hk hpop hreenter
      rw [hdue] at hcall
      obtain ⟨hne, hentry⟩ := hother (Callouts.linked_of_due hcall)
      rw [hentry] at hk hreenter
      obtain ⟨c₁, hc₁, hpending⟩ := h.step (Callouts.spares_hrtCallPop h.unlinked hne) hpop
        .isr nofun
      obtain ⟨c₂, hc₂, hpending'⟩ := hpending.step
        (Callouts.spares_hrtCallReenter hpending.unlinked hne _) hreenter .isr nofun
      exact ⟨{ callouts := c₂, phase := .isr }, rfl, .skip (hphase ▸ hisr) hcall hk hc₁ hc₂,
        hpending'⟩
  | @ret call deadline fuel c hcallout hreenter =>
      have hm : m.phase = .callout call deadline := hphase ▸ hcallout
      obtain ⟨c', hc', hpending⟩ := h.step
        (Callouts.spares_hrtCallReenter h.unlinked (h.running call deadline hm) deadline) hreenter
        .isr nofun
      exact ⟨{ callouts := c', phase := .isr }, rfl, .ret hm hc', hpending⟩
  | @stop now hisr hnone =>
      dsimp only at hnone
      rw [hdue] at hnone
      refine ⟨{ m with phase := .thread }, rfl, .stop (hphase ▸ hisr) hnone, ?_⟩
      exact ⟨h.written, h.zero, h.unlinked, nofun⟩

/-- A call that writes its fields, which the FMU does not see. -/
theorem Related.write {s s' : IoMachine ι κ} {m : Machine ι κ} {o : Op ι κ} (h : Related s m)
    (hcareful : IoCareful s (.write o)) (hstep : IoStep s (.write o) s') : Related s' m := by
  cases hstep with
  | @write _ c hthread hnone hc =>
      have hsame := h.same hnone
      obtain ⟨hzero, hunlinked⟩ := hcareful
      rw [hsame] at hzero hunlinked
      refine ⟨h.phase, nofun, ?_⟩
      intro o' ho'
      cases ho'
      refine ⟨⟨c, hc, ?_⟩, hzero, hunlinked, ?_⟩
      · show s.callouts.setEntry o.entry c = _
        rw [hsame]
      · intro call deadline hcallout
        rw [← h.phase, hthread] at hcallout
        cases hcallout

/-- **The step lemma**: what the IO board does, the FMU does. -/
theorem Related.step {s s' : IoMachine ι κ} {m : Machine ι κ} {e : IoEvent ι κ} {d : Event ι κ}
    (h : Related s m) (hcareful : IoCareful s e) (hstep : IoStep s e s')
    (hlabel : e.label = some d) : ∃ m', Related s' m' ∧ Step m d m' := by
  cases hstep with
  | write => cases hlabel
  | @enter o fuel c hthread hpending henter =>
      cases hlabel
      obtain ⟨⟨d, hd, hwritten⟩, hzero, -, -⟩ := h.pending o hpending
      have hphase : m.phase = .thread := h.phase ▸ hthread
      have hrun : o.run fuel m.callouts = some c := by
        rw [Op.run_of_fields hd hzero, ← hwritten]
        exact henter
      refine ⟨{ m with callouts := c }, ⟨h.phase, fun _ => rfl, nofun⟩, .op ?_ hrun⟩
      rw [hphase]
      nofun
  | @op o fuel c hphase hthread hrun =>
      cases hlabel
      obtain ⟨hzero, hother⟩ := hcareful
      cases hpending : s.pending with
      | none =>
          have hsame := h.same hpending
          rw [Op.runIo_eq_run hzero, hsame] at hrun
          refine ⟨{ m with callouts := c }, ⟨h.phase, fun _ => rfl, ?_⟩,
            .op (h.phase ▸ hphase) hrun⟩
          intro p hp
          cases hp
      | some p =>
          have hp := h.pending p hpending
          have hne : p.entry ≠ o.entry := hother p hpending
          obtain ⟨d, -, hwritten⟩ := hp.written
          have hentry : s.callouts.entry o.entry = m.callouts.entry o.entry := by
            rw [hwritten]
            exact Callouts.setEntry_of_ne _ _ (Ne.symm hne)
          rw [hentry] at hzero
          obtain ⟨c', hc', hp'⟩ := hp.step (Op.spares hp.unlinked hne hzero) hrun
            m.phase hp.running
          rw [Op.runIo_eq_run hzero] at hc'
          refine ⟨{ m with callouts := c' }, ⟨h.phase, ?_, ?_⟩, .op (h.phase ▸ hphase) hc'⟩
          · intro hnone
            cases hnone
          · intro p' hsome
            cases hsome
            exact ⟨hp'.written, hp'.zero, hp'.unlinked, hp'.running⟩
  | @handler e t hop hstep =>
      cases hlabel
      cases hpending : s.pending with
      | none =>
          have hsame := h.same hpending
          rw [hsame, h.phase] at hstep
          refine ⟨t, ⟨rfl, fun _ => rfl, ?_⟩, hstep⟩
          intro p hp
          cases hp
      | some p =>
          obtain ⟨m', hphase, hstep', hp⟩ := (h.pending p hpending).handler h.phase hop hstep
          refine ⟨m', ⟨hphase.symm, ?_, ?_⟩, hstep'⟩
          · intro hnone
            cases hnone
          · intro p' hsome
            cases hsome
            exact ⟨hp.written, hp.zero, hp.unlinked, hp.running⟩

/-- A careful call of the FMU is a call of the IO board without an interrupt in between. -/
theorem ioStep_of_step {m m' : Machine ι κ} {e : Event ι κ} (hcareful : FmuCareful m e)
    (hstep : Step m e m') :
    IoStep { callouts := m.callouts, phase := m.phase, pending := none } (.event e)
      { callouts := m'.callouts, phase := m'.phase, pending := none } := by
  cases e with
  | op o =>
      cases hstep with
      | op hphase hrun => exact .op hphase (fun _ => rfl) ((Op.runIo_eq_run hcareful).trans hrun)
  | _ => exact .handler rfl hstep

/-! ### The two boards over whole runs -/

/-- The timer of the FMU after `hrt_init`. -/
def boot (q : SqQueue ι) : Machine ι κ where
  callouts := { queue := q.sqInit, entry := fun _ => zeroCall }
  phase := .thread

/-- The timer of the IO board after `hrt_init`. -/
def bootIo (q : SqQueue ι) : IoMachine ι κ where
  callouts := { queue := q.sqInit, entry := fun _ => zeroCall }
  phase := .thread
  pending := none

/-- What the IO board does in a careful run, the FMU can do, and what the FMU does then agrees. -/
theorem fmu_follows (q : SqQueue ι) {s : IoMachine ι κ} {es : List (IoEvent ι κ)}
    (h : (ioTimer.restrict IoCareful).Run (bootIo q) es s) :
    (∃ m, timer.Run (boot q) (es.filterMap IoEvent.label) m) ∧
      ∀ m, timer.Run (boot q) (es.filterMap IoEvent.label) m → Agrees s m := by
  have hboot : Related (bootIo q : IoMachine ι κ) (boot q) := ⟨rfl, fun _ => rfl, nofun⟩
  have hunseen (s : IoMachine ι κ) (e : IoEvent ι κ) (s' : IoMachine ι κ) (m : Machine ι κ)
      (hR : Related s m) (hstep : (ioTimer.restrict IoCareful).step s e s')
      (hlabel : e.label = none) : Related s' m := by
    cases e with
    | write o => exact hR.write hstep.1 hstep.2
    | _ => cases hlabel
  obtain ⟨m, hrelated, hrun⟩ := LTS.Run.simulates (m := ioTimer.restrict IoCareful)
    (n := timer (κ := κ)) (R := Related) IoEvent.label
    (fun _ _ _ _ _ hR hstep hlabel => hR.step hstep.1 hstep.2 hlabel) hunseen h hboot
  refine ⟨⟨m, hrun⟩, fun m' hrun' => ?_⟩
  obtain rfl := hrun.unique (fun _ _ _ _ h h' => Step.unique h h') hrun'
  exact hrelated.agrees

/-- What the FMU does in a careful run, the IO board does. -/
theorem io_follows (q : SqQueue ι) {m : Machine ι κ} {es : List (Event ι κ)}
    (h : (timer.restrict FmuCareful).Run (boot q) es m) :
    ∃ s, ioTimer.Run (bootIo q) (es.map .event) s ∧ Agrees s m := by
  obtain ⟨s, rfl, hrun⟩ := LTS.Run.simulates (n := ioTimer (κ := κ))
    (R := fun m s => s = { callouts := m.callouts, phase := m.phase, pending := none })
    (fun e => some (.event e))
    (fun m e m' s d hR hstep hlabel => by
      cases hlabel
      subst hR
      exact ⟨_, rfl, ioStep_of_step hstep.1 hstep.2⟩)
    (fun _ _ _ _ _ _ hlabel => by cases hlabel)
    h (t := bootIo q) rfl
  rw [List.filterMap_eq_map'] at hrun
  exact ⟨_, hrun, rfl, fun _ => Iff.rfl, fun _ _ => rfl⟩

/-- **The two timers agree.** In every run in which no entry is scheduled that is scheduled already
and no callout uses the entry of a call that is pending, the IO board invokes the callouts that the
FMU invokes, for the same deadlines, and its queue holds the same entries; and what the FMU does in
such a run, the IO board does. -/
theorem io_agrees (q : SqQueue ι) :
    (∀ (es : List (IoEvent ι κ)) (s : IoMachine ι κ),
        (ioTimer.restrict IoCareful).Run (bootIo q) es s →
          (∃ m, timer.Run (boot q) (es.filterMap IoEvent.label) m) ∧
            ∀ m, timer.Run (boot q) (es.filterMap IoEvent.label) m → Agrees s m) ∧
      ∀ (es : List (Event ι κ)) (m : Machine ι κ), (timer.restrict FmuCareful).Run (boot q) es m →
        ∃ s, ioTimer.Run (bootIo q) (es.map .event) s ∧ Agrees s m :=
  ⟨fun _ _ h => fmu_follows q h, fun _ _ h => io_follows q h⟩

end

/-! ### One entry -/

/-- The links before the first use. -/
def noLinks : SqQueue Unit where
  head := none
  tail := none
  flink := fun _ => none

/-- An interrupt comes while a call is pending, and the next one invokes the callout: on the FMU it
is invoked as well. -/
theorem io_agrees_pending :
    ∃ (es : List (IoEvent Unit Unit)) (s : IoMachine Unit Unit),
      ioTimer.Run (bootIo noLinks) es s ∧ s.phase = .callout () 10 ∧
        ∃ m, timer.Run (boot noLinks) (es.filterMap IoEvent.label) m ∧
          m.phase = .callout () 10 := by
  let o : Op Unit Unit := .callAt () 10 (some ())
  obtain ⟨c₁, hc₁⟩ : ∃ c, Callouts.hrtCallEnter 3 ()
      ((bootIo noLinks).callouts.setEntry () ⟨10, 0, some ()⟩) = some c := ⟨_, rfl⟩
  obtain ⟨c₂, hc₂⟩ : ∃ c, c₁.hrtCallPop 3 () = some c := by
    cases hc₁
    exact ⟨_, rfl⟩
  have hunlinked : ¬ (bootIo noLinks : IoMachine Unit Unit).callouts.queue.Linked () :=
    fun hlinked => nomatch (SqQueue.sqInit_repr (q := noLinks)).linked_iff.mp hlinked
  have hwrite : IoStep (bootIo noLinks) (.write o)
      { callouts := (bootIo noLinks).callouts.setEntry () ⟨10, 0, some ()⟩, phase := .thread,
        pending := some o } := .write rfl rfl rfl
  have hinterrupt (c : Callouts Unit Unit) (pending : Option (Op Unit Unit)) :
      IoStep ⟨c, .thread, pending⟩ (.event .interrupt) ⟨c, .isr, pending⟩ :=
    .handler rfl (.interrupt rfl)
  have hstop : IoStep ⟨(bootIo noLinks).callouts.setEntry () ⟨10, 0, some ()⟩, .isr, some o⟩
      (.event (.stop 5))
      ⟨(bootIo noLinks).callouts.setEntry () ⟨10, 0, some ()⟩, .thread, some o⟩ :=
    .handler rfl (.stop rfl rfl)
  have hinvoke : IoStep ⟨c₁, .isr, none⟩ (.event (.invoke () 10)) ⟨c₂, .callout () 10, none⟩ := by
    have hentry : c₁.entry () = ⟨10, 0, some ()⟩ := by
      cases hc₁
      rfl
    have hdue : c₁.due 10 = some () := by
      cases hc₁
      rfl
    have hstep : Step ⟨c₁, .isr⟩ (.invoke () 10) ⟨c₂, .callout () (c₁.entry ()).deadline⟩ :=
      .invoke rfl hdue (congrArg HrtCall.callout hentry) hc₂
    rw [hentry] at hstep
    exact .handler (s := ⟨c₁, .isr, none⟩) rfl hstep
  have hrun : (ioTimer.restrict IoCareful).Run (bootIo noLinks)
      [.write o, .event .interrupt, .event (.stop 5), .enter o, .event .interrupt,
        .event (.invoke () 10)] ⟨c₂, .callout () 10, none⟩ :=
    .cons ⟨⟨rfl, hunlinked⟩, hwrite⟩ (.cons ⟨trivial, hinterrupt _ _⟩ (.cons ⟨trivial, hstop⟩
      (.cons ⟨trivial, .enter rfl rfl hc₁⟩ (.cons ⟨trivial, hinterrupt _ _⟩
        (.cons ⟨trivial, hinvoke⟩ (.nil _))))))
  obtain ⟨⟨m, hm⟩, hagrees⟩ := (io_agrees noLinks).1 _ _ hrun
  exact ⟨_, _, hrun.of_restrict, rfl, m, hm, (hagrees m hm).phase.symm⟩

/-- The only entry is scheduled, and again before it is due: on the FMU it is in the queue once, and
on the IO board it comes after itself. -/
theorem schedule_twice_differs :
    ¬ ∀ (es : List (IoEvent Unit Unit)) (s : IoMachine Unit Unit),
      (∀ o, .event (.op o) ∈ es → o.NonZero) → ioTimer.Run (bootIo noLinks) es s →
        ∀ m, timer.Run (boot noLinks) (es.filterMap IoEvent.label) m → Agrees s m := by
  intro hall
  let first : Op Unit Unit := .callAt () 10 (some ())
  let second : Op Unit Unit := .callAt () 20 (some ())
  obtain ⟨c₁, hc₁⟩ : ∃ c, first.runIo 3 (bootIo noLinks).callouts = some c := ⟨_, rfl⟩
  obtain ⟨c₂, hc₂⟩ : ∃ c, second.runIo 3 c₁ = some c := by
    cases hc₁
    exact ⟨_, rfl⟩
  obtain ⟨d₁, hd₁⟩ : ∃ d, first.run 3 (boot noLinks).callouts = some d := ⟨_, rfl⟩
  obtain ⟨d₂, hd₂⟩ : ∃ d, second.run 3 d₁ = some d := by
    cases hd₁
    exact ⟨_, rfl⟩
  have hio : ioTimer.Run (bootIo noLinks) [.event (.op first), .event (.op second)]
      { callouts := c₂, phase := .thread, pending := none } :=
    .cons (.op nofun (fun _ => rfl) hc₁) (.cons (.op nofun (fun _ => rfl) hc₂) (.nil _))
  have hfmu : timer.Run (boot noLinks) [.op first, .op second]
      { callouts := d₂, phase := .thread } :=
    .cons (.op nofun hd₁) (.cons (.op nofun hd₂) (.nil _))
  have hnonzero : ∀ o, .event (.op o) ∈ [IoEvent.event (.op first), .event (.op second)] →
      o.NonZero := by
    intro o ho
    rcases List.mem_pair.mp ho with h | h
    · cases h
      show (10 : UInt64) ≠ 0
      decide
    · cases h
      show (20 : UInt64) ≠ 0
      decide
  have hagrees := hall _ _ hnonzero hio _ hfmu
  cases hd₁
  cases hd₂
  cases hc₁
  cases hc₂
  have hrepr := (hagrees.contents [()]).mpr ⟨⟨rfl, rfl⟩, rfl⟩
  exact hrepr.chain.ne_self rfl

end Px4Firmware.Hrt
