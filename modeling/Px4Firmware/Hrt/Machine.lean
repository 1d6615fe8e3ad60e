import Px4Firmware.Hrt.Callout
import Px4Firmware.Lib.Transition

/-!
# Px4Firmware.Hrt.Machine

**The callout queue over whole runs.** Ordinary code schedules and cancels entries, a
timer interrupt may come between any two of its operations, and the callouts that the
interrupt handler runs schedule and cancel entries themselves, their own included.

`hrt_call_invoke` is cut where a callout runs, so that the operations of the callout are
steps of their own: an entry is taken out and its callout starts (`invoke`), the callout
returns and its entry is entered again if it has a period (`ret`).

The queue stays sound in every run in which no callout returns with its own entry
scheduled and periodic (`callout_queue_sound`). Such an entry is entered a second time
(`callEvery_from_callout_breaks`).
-/

namespace Px4Firmware.Hrt

open Px4Firmware.Lib

section

variable {ι κ : Type} [DecidableEq ι]

/-- A call of the interface. The time at which it is made is part of it. -/
inductive Op (ι κ : Type)
  | callAfter (entry : ι) (now delay : UInt64) (callout : Option κ)
  | callAt (entry : ι) (calltime : UInt64) (callout : Option κ)
  | callEvery (entry : ι) (now delay interval : UInt64) (callout : Option κ)
  | cancel (entry : ι)

/-- Make the call. -/
def Op.run (fuel : Nat) : Op ι κ → Callouts ι κ → Option (Callouts ι κ)
  | callAfter entry now delay callout => Callouts.hrtCallAfter fuel entry now delay callout
  | callAt entry calltime callout => Callouts.hrtCallAt fuel entry calltime callout
  | callEvery entry now delay interval callout =>
      Callouts.hrtCallEvery fuel entry now delay interval callout
  | cancel entry => Callouts.hrtCancel fuel entry

/-- Who runs: ordinary code, the interrupt handler, or the callout of an entry, whose
deadline the handler has saved. -/
inductive Phase (ι : Type)
  | thread
  | isr
  | callout (call : ι) (deadline : UInt64)

/-- The timer. -/
structure Machine (ι κ : Type) where
  callouts : Callouts ι κ
  phase : Phase ι

/-- What can happen next. -/
inductive Event (ι κ : Type)
  | op (o : Op ι κ)
  | interrupt
  | invoke (call : ι) (now : UInt64)
  | skip (call : ι) (now : UInt64)
  | ret
  | stop (now : UInt64)

/-- One step of the timer. The functions that walk the queue come to an end. -/
inductive Step : Machine ι κ → Event ι κ → Machine ι κ → Prop
  /-- Ordinary code or a callout calls the interface. -/
  | op {s : Machine ι κ} {o : Op ι κ} {fuel : Nat} {c : Callouts ι κ} :
      s.phase ≠ .isr → o.run fuel s.callouts = some c →
      Step s (.op o) { s with callouts := c }
  /-- The timer interrupt. -/
  | interrupt {s : Machine ι κ} :
      s.phase = .thread → Step s .interrupt { s with phase := .isr }
  /-- The entry that is due is taken out, and its callout starts. -/
  | invoke {s : Machine ι κ} {call : ι} {now : UInt64} {fuel : Nat} {c : Callouts ι κ} {k : κ} :
      s.phase = .isr → s.callouts.due now = some call →
      (s.callouts.entry call).callout = some k → s.callouts.hrtCallPop fuel call = some c →
      Step s (.invoke call now)
        { callouts := c, phase := .callout call (s.callouts.entry call).deadline }
  /-- The entry that is due has no callout. -/
  | skip {s : Machine ι κ} {call : ι} {now : UInt64} {fuel fuel' : Nat} {c c' : Callouts ι κ} :
      s.phase = .isr → s.callouts.due now = some call →
      (s.callouts.entry call).callout = none → s.callouts.hrtCallPop fuel call = some c →
      c.hrtCallReenter fuel' call (s.callouts.entry call).deadline = some c' →
      Step s (.skip call now) { callouts := c', phase := .isr }
  /-- A callout returns. -/
  | ret {s : Machine ι κ} {call : ι} {deadline : UInt64} {fuel : Nat} {c : Callouts ι κ} :
      s.phase = .callout call deadline →
      s.callouts.hrtCallReenter fuel call deadline = some c →
      Step s .ret { callouts := c, phase := .isr }
  /-- Nothing is due, and the interrupt is over. -/
  | stop {s : Machine ι κ} {now : UInt64} :
      s.phase = .isr → s.callouts.due now = none → Step s (.stop now) { s with phase := .thread }

/-- An entry that has never been used. -/
def zeroCall : HrtCall κ := { deadline := 0, period := 0, callout := none }

/-- The timer as a transition system. It starts with an empty queue and unused entries. -/
def timer : LTS (Machine ι κ) (Event ι κ) where
  init s := (∃ q : SqQueue ι, s.callouts.queue = q.sqInit) ∧
    (∀ e, s.callouts.entry e = zeroCall) ∧ s.phase = .thread
  step := Step

/-! ### The conditions of a run -/

/-- The deadline and the period that a call sets are not zero. -/
def Op.NonZero : Op ι κ → Prop
  | callAfter _ now delay _ => now + delay ≠ 0
  | callAt _ calltime _ => calltime ≠ 0
  | callEvery _ now delay interval _ => now + delay ≠ 0 ∧ interval ≠ 0
  | cancel _ => True

/-- Calls set deadlines and periods other than zero. -/
def NonZero (_ : Machine ι κ) : Event ι κ → Prop
  | .op o => o.NonZero
  | _ => True

/-- In addition, when an entry is entered again after its callout, the callout has not left
it scheduled, and the new deadline is not zero. -/
def Regular (s : Machine ι κ) : Event ι κ → Prop
  | .op o => o.NonZero
  | .skip call _ => (s.callouts.entry call).period ≠ 0 →
      (s.callouts.entry call).deadline + (s.callouts.entry call).period ≠ 0
  | .ret =>
      match s.phase with
      | .callout call deadline => s.callouts.Reenterable call deadline
      | _ => True
  | _ => True

/-! ### What a step does to the entries -/

/-- The entries after a call. -/
def Op.entries (entry : ι → HrtCall κ) : Op ι κ → ι → HrtCall κ
  | callAfter e now delay callout => Function.update entry e ⟨now + delay, 0, callout⟩
  | callAt e calltime callout => Function.update entry e ⟨calltime, 0, callout⟩
  | callEvery e now delay interval callout =>
      Function.update entry e ⟨now + delay, interval, callout⟩
  | cancel e => Function.update entry e { entry e with deadline := 0, period := 0 }

variable {c c' : Callouts ι κ} {l : List ι}

theorem Op.run_spec (hl : c.Sound l) {o : Op ι κ} (ho : o.NonZero) (fuel : Nat) :
    Callouts.Ends fuel l (o.entries c.entry) (o.run fuel c) := by
  cases o with
  | callAfter e now delay callout => exact Callouts.hrtCallInternal_spec hl ho e 0 callout fuel
  | callAt e calltime callout => exact Callouts.hrtCallInternal_spec hl ho e 0 callout fuel
  | callEvery e now delay interval callout =>
      exact Callouts.hrtCallInternal_spec hl ho.1 e interval callout fuel
  | cancel e => exact Callouts.hrtCancel_spec hl e fuel

/-! ### What a step does -/

/-- The entry will not run: it is not scheduled, and it will not be entered again. -/
def Idle (c : Callouts ι κ) (e : ι) : Prop :=
  (c.entry e).deadline = 0 ∧ (c.entry e).period = 0

/-- The entry a call is about. -/
def Op.entry : Op ι κ → ι
  | callAfter e .. | callAt e .. | callEvery e .. | cancel e => e

/-- Does the call cancel its entry? -/
def Op.isCancel : Op ι κ → Bool
  | cancel _ => true
  | _ => false

/-- A call leaves the other entries alone. -/
theorem Op.entries_of_ne (o : Op ι κ) (entry : ι → HrtCall κ) {e : ι} (hne : o.entry ≠ e) :
    o.entries entry e = entry e := by
  cases o <;> exact Function.update_of_ne (Ne.symm hne) ..

/-- A cancelled entry is idle. -/
theorem Op.entries_cancel {o : Op ι κ} (entry : ι → HrtCall κ) (ho : o.isCancel = true) :
    (o.entries entry o.entry).deadline = 0 ∧ (o.entries entry o.entry).period = 0 := by
  cases o with
  | cancel e => simp [Op.entries, Op.entry]
  | _ => cases ho

theorem Op.idle (o : Op ι κ) (hsame : c'.entry = o.entries c.entry) {e : ι}
    (h : if o.entry = e then o.isCancel = true else Idle c e) : Idle c' e := by
  unfold Idle
  rw [hsame]
  by_cases heq : o.entry = e
  · rw [if_pos heq] at h
    subst heq
    exact Op.entries_cancel c.entry h
  · rw [if_neg heq] at h
    rw [o.entries_of_ne c.entry heq]
    exact h

/-- Taking an entry out leaves idle entries idle. -/
theorem idle_of_pop {call e : ι}
    (hsame : c'.entry = Function.update c.entry call { c.entry call with deadline := 0 })
    (h : Idle c e) : Idle c' e := by
  unfold Idle
  rw [hsame]
  by_cases heq : e = call
  · subst heq
    rw [Function.update_self]
    exact ⟨rfl, h.2⟩
  · rw [Function.update_of_ne heq]
    exact h

theorem reenterable_of_pop {call : ι} {deadline : UInt64}
    (hsame : c'.entry = Function.update c.entry call { c.entry call with deadline := 0 })
    (h : (c.entry call).period ≠ 0 → deadline + (c.entry call).period ≠ 0) :
    c'.Reenterable call deadline := by
  unfold Callouts.Reenterable
  rw [hsame, Function.update_self]
  exact fun hne => ⟨rfl, h hne⟩

/-- Entering an entry again leaves idle entries idle. -/
theorem idle_of_reenter {call e : ι} {deadline : UInt64}
    (hsame : c'.entry =
      Function.update c.entry call (Callouts.afterCallout (c.entry call) deadline))
    (h : Idle c e) : Idle c' e := by
  unfold Idle
  rw [hsame]
  by_cases heq : e = call
  · subst heq
    rw [Function.update_self, Callouts.afterCallout, if_neg (fun hne => hne h.2)]
    exact h
  · rw [Function.update_of_ne heq]
    exact h

/-- An event after which an entry is idle. -/
def keepsIdle (c : Callouts ι κ) (e : ι) : Event ι κ → Prop
  | .op o => if o.entry = e then o.isCancel = true else Idle c e
  | _ => Idle c e

/-- **The step lemma**: the queue stays sound, and entries stay idle until they are
scheduled. -/
theorem Step.sound {s t : Machine ι κ} {e : Event ι κ} (hstep : Step s e t)
    (hregular : Regular s e) (hs : s.callouts.Sound l) :
    (∃ l', t.callouts.Sound l') ∧ ∀ x, keepsIdle s.callouts x e → Idle t.callouts x := by
  cases hstep with
  | op _ hrun =>
      obtain ⟨hsame, hsound⟩ := (Op.run_spec hs hregular _).some hrun
      exact ⟨hsound, fun x hx => Op.idle _ hsame hx⟩
  | interrupt => exact ⟨⟨l, hs⟩, fun x hx => hx⟩
  | invoke _ _ _ hpop =>
      obtain ⟨hsame, hsound⟩ := (Callouts.hrtCallPop_spec hs _ _).some hpop
      exact ⟨hsound, fun x hx => idle_of_pop hsame hx⟩
  | skip _ _ _ hpop hreenter =>
      obtain ⟨hsame, l₁, hl₁⟩ := (Callouts.hrtCallPop_spec hs _ _).some hpop
      have hok := reenterable_of_pop hsame hregular
      obtain ⟨hsame', hsound⟩ := (Callouts.hrtCallReenter_spec hl₁ hok _).some hreenter
      exact ⟨hsound, fun x hx => idle_of_reenter hsame' (idle_of_pop hsame hx)⟩
  | ret hphase hreenter =>
      simp only [Regular, hphase] at hregular
      obtain ⟨hsame, hsound⟩ := (Callouts.hrtCallReenter_spec hs hregular _).some hreenter
      exact ⟨hsound, fun x hx => idle_of_reenter hsame hx⟩
  | stop => exact ⟨⟨l, hs⟩, fun x hx => hx⟩

/-! ### Whole runs -/

/-- A watcher that notes which entries are cancelled and not scheduled since. -/
def noteCancelled (cancelled : ι → Bool) (_ : Machine ι κ) (e : Event ι κ) (_ : Machine ι κ) :
    ι → Bool :=
  match e with
  | .op o => Function.update cancelled o.entry o.isCancel
  | _ => cancelled

/-- The timer with its watcher, in runs whose steps meet a condition. -/
def watched (C : Machine ι κ → Event ι κ → Prop) : LTS (Machine ι κ × (ι → Bool)) (Event ι κ) :=
  ((timer (κ := κ)).restrict C).observe (fun _ => false) noteCancelled

/-- What holds in every state of a regular run. -/
def TimerInv (s : Machine ι κ) (cancelled : ι → Bool) : Prop :=
  (∃ l, s.callouts.Sound l) ∧ ∀ e, cancelled e = true → Idle s.callouts e

theorem TimerInv.step {s t : Machine ι κ} {cancelled : ι → Bool} {e : Event ι κ}
    (hinv : TimerInv s cancelled) (hregular : Regular s e) (hstep : Step s e t) :
    TimerInv t (noteCancelled cancelled s e t) := by
  obtain ⟨⟨l, hl⟩, hidle⟩ := hinv
  obtain ⟨hsound, hkeeps⟩ := hstep.sound hregular hl
  refine ⟨hsound, fun x hx => hkeeps x ?_⟩
  cases e with
  | op o =>
      simp only [noteCancelled, keepsIdle] at hx ⊢
      by_cases heq : o.entry = x
      · rw [if_pos heq]
        rw [heq, Function.update_self] at hx
        exact hx
      · rw [if_neg heq]
        rw [Function.update_of_ne (Ne.symm heq)] at hx
        exact hidle x hx
  | _ => exact hidle x hx

theorem timerInv_init {s : Machine ι κ} (h : (timer (κ := κ)).init s) :
    TimerInv s fun _ => false := by
  obtain ⟨⟨q, hq⟩, hentries, -⟩ := h
  refine ⟨⟨[], ?_, List.Pairwise.nil, fun e => ?_⟩, fun _ h => by cases h⟩
  · rw [hq]
    exact SqQueue.sqInit_repr
  · rw [hentries e]
    simp [zeroCall]

theorem timerInv_of_reachable {s : Machine ι κ × (ι → Bool)}
    (h : (watched (κ := κ) Regular).Reachable s) : TimerInv s.1 s.2 := by
  refine h.invariant (I := fun s => TimerInv s.1 s.2) ?_ ?_
  · rintro ⟨s, cancelled⟩ ⟨hinit, rfl⟩
    exact timerInv_init hinit
  · rintro ⟨s, cancelled⟩ e ⟨t, cancelled'⟩ hinv ⟨⟨hregular, hstep⟩, hnote⟩
    obtain rfl : cancelled' = noteCancelled cancelled s e t := hnote
    exact hinv.step hregular hstep

/-- May the event happen now? -/
def Enabled (s : Machine ι κ) : Event ι κ → Prop
  | .op _ => s.phase ≠ .isr
  | .interrupt => s.phase = .thread
  | .invoke call now => s.phase = .isr ∧ s.callouts.due now = some call ∧
      ∃ k, (s.callouts.entry call).callout = some k
  | .skip call now => s.phase = .isr ∧ s.callouts.due now = some call ∧
      (s.callouts.entry call).callout = none
  | .ret => ∃ call deadline, s.phase = .callout call deadline
  | .stop now => s.phase = .isr ∧ s.callouts.due now = none

/-- The functions that walk the queue come to an end: no call and no interrupt gets stuck. -/
theorem timer_progress {s : Machine ι κ × (ι → Bool)}
    (h : (watched (κ := κ) Regular).Reachable s) {e : Event ι κ} (hregular : Regular s.1 e)
    (henabled : Enabled s.1 e) : ∃ t, Step s.1 e t := by
  obtain ⟨⟨l, hl⟩, -⟩ := timerInv_of_reachable h
  cases e with
  | op o =>
      obtain ⟨c, hrun⟩ := (Op.run_spec hl hregular _).exists_some
      exact ⟨_, .op henabled hrun⟩
  | interrupt => exact ⟨_, .interrupt henabled⟩
  | invoke call now =>
      obtain ⟨hphase, hdue, k, hcallout⟩ := henabled
      obtain ⟨c, hpop⟩ := (Callouts.hrtCallPop_spec hl call _).exists_some
      exact ⟨_, .invoke hphase hdue hcallout hpop⟩
  | skip call now =>
      obtain ⟨hphase, hdue, hcallout⟩ := henabled
      obtain ⟨c, hpop⟩ := (Callouts.hrtCallPop_spec hl call _).exists_some
      obtain ⟨hsame, l₁, hl₁⟩ := (Callouts.hrtCallPop_spec hl call _).some hpop
      have hok := reenterable_of_pop hsame hregular
      obtain ⟨c', hreenter⟩ := (Callouts.hrtCallReenter_spec hl₁ hok _).exists_some
      exact ⟨_, .skip hphase hdue hcallout hpop hreenter⟩
  | ret =>
      obtain ⟨call, deadline, hphase⟩ := henabled
      simp only [Regular, hphase] at hregular
      obtain ⟨c, hreenter⟩ := (Callouts.hrtCallReenter_spec hl hregular _).exists_some
      exact ⟨_, .ret hphase hreenter⟩
  | stop now => exact ⟨_, .stop henabled.1 henabled.2⟩

/-- **The callout queue.** In every state of a run in which no callout returns with its own
entry scheduled and periodic, the queue holds the scheduled entries, each once, in the
order of their deadlines, and the callout of a cancelled entry does not start until
the entry is scheduled again. -/
theorem callout_queue_sound {s : Machine ι κ × (ι → Bool)}
    (h : (watched (κ := κ) Regular).Reachable s) :
    s.1.callouts.QueueSound ∧
      ∀ e, s.2 e = true → ∀ now t, ¬ Step s.1 (.invoke e now) t := by
  obtain ⟨⟨l, hl⟩, hidle⟩ := timerInv_of_reachable h
  refine ⟨Callouts.queueSound_iff.mpr ⟨l, hl⟩, fun e hcancelled now t hstep => ?_⟩
  cases hstep with
  | invoke _ hdue => exact Callouts.due_deadline hl hdue (hidle e hcancelled).1

end

/-! ### One entry -/

/-- The timer before its first use. -/
def unusedTimer : Machine Unit Unit :=
  { callouts := { queue := { head := none, tail := none, flink := fun _ => none }
                  entry := fun _ => zeroCall }
    phase := .thread }

/-- Schedule the only entry every 10 µs. -/
def everyTen (now : UInt64) : Op Unit Unit := .callEvery () now 10 10 (some ())

theorem unusedTimer_init (C : Machine Unit Unit → Event Unit Unit → Prop) :
    (watched C).init (unusedTimer, fun _ => false) :=
  ⟨⟨⟨unusedTimer.callouts.queue, rfl⟩, fun _ => rfl, rfl⟩, rfl⟩

/-- The timer after a call. -/
def called (o : Op Unit Unit) (s : Machine Unit Unit) : Machine Unit Unit :=
  { s with callouts := (o.run 3 s.callouts).getD s.callouts }

/-- The entry is scheduled. -/
def scheduledTimer : Machine Unit Unit := called (everyTen 0) unusedTimer

/-- Its callout runs. -/
def runningTimer : Machine Unit Unit :=
  { callouts := (scheduledTimer.callouts.hrtCallPop 3 ()).getD scheduledTimer.callouts
    phase := .callout () 10 }

/-- Its callout has scheduled it again. -/
def rescheduledTimer : Machine Unit Unit := called (everyTen 10) runningTimer

/-- Its callout has returned. -/
def returnedTimer : Machine Unit Unit :=
  { callouts := (rescheduledTimer.callouts.hrtCallReenter 3 () 10).getD rescheduledTimer.callouts
    phase := .isr }

/-- The entry is cancelled again before it is due. -/
def cancelledTimer : Machine Unit Unit := called (.cancel ()) scheduledTimer

theorem callout_queue_sound_cancelled :
    cancelledTimer.callouts.QueueSound ∧
      ∀ now t, ¬ Step cancelledTimer (.invoke () now) t := by
  have hcall : (everyTen 0).run 3 unusedTimer.callouts = some scheduledTimer.callouts := rfl
  have hcancel : (Op.cancel ()).run 3 scheduledTimer.callouts = some cancelledTimer.callouts := rfl
  have hreach : (watched (κ := Unit) Regular).Reachable (cancelledTimer, fun _ : Unit => true) := by
    refine ⟨_, [.op (everyTen 0), .op (.cancel ())], unusedTimer_init Regular,
      .cons (t := (scheduledTimer, fun _ => false)) ⟨⟨?_, ?_⟩, ?_⟩ (.cons ⟨⟨?_, ?_⟩, ?_⟩ (.nil _))⟩
    · exact ⟨by decide, by decide⟩
    · exact .op nofun hcall
    · rfl
    · trivial
    · exact .op nofun hcancel
    · rfl
  obtain ⟨hsound, hidle⟩ := callout_queue_sound hreach
  exact ⟨hsound, hidle () rfl⟩

/-- A callout that schedules its own entry with a period: when it returns, the entry is
put into the queue once more and links to itself. -/
theorem callEvery_from_callout_breaks :
    ¬ ∀ s : Machine Unit Unit × (Unit → Bool), (watched NonZero).Reachable s →
      s.1.callouts.QueueSound := by
  intro hall
  have hcall : (everyTen 0).run 3 unusedTimer.callouts = some scheduledTimer.callouts := rfl
  have hpop : scheduledTimer.callouts.hrtCallPop 3 () = some runningTimer.callouts := rfl
  have hagain : (everyTen 10).run 3 runningTimer.callouts = some rescheduledTimer.callouts := rfl
  have hreturn : rescheduledTimer.callouts.hrtCallReenter 3 () 10 =
      some returnedTimer.callouts := rfl
  have hreach : (watched NonZero).Reachable (returnedTimer, fun _ => false) := by
    refine ⟨_, [.op (everyTen 0), .interrupt, .invoke () 10, .op (everyTen 10), .ret],
      unusedTimer_init NonZero, .cons (t := (scheduledTimer, fun _ => false)) ⟨⟨?_, ?_⟩, ?_⟩
      (.cons (t := ({ scheduledTimer with phase := .isr }, fun _ => false)) ⟨⟨?_, ?_⟩, ?_⟩
      (.cons (t := (runningTimer, fun _ => false)) ⟨⟨?_, ?_⟩, ?_⟩
      (.cons (t := (rescheduledTimer, fun _ => false)) ⟨⟨?_, ?_⟩, ?_⟩
      (.cons ⟨⟨?_, ?_⟩, ?_⟩ (.nil _)))))⟩
    · exact ⟨by decide, by decide⟩
    · exact .op nofun hcall
    · rfl
    · trivial
    · exact .interrupt rfl
    · rfl
    · trivial
    · exact .invoke rfl rfl rfl hpop
    · rfl
    · exact ⟨by decide, by decide⟩
    · exact .op nofun hagain
    · rfl
    · trivial
    · exact .ret rfl hreturn
    · rfl
  obtain ⟨l, hrepr, -⟩ := hall _ hreach
  -- The queue is no chain: its only entry comes after itself.
  have hchain : Chain returnedTimer.callouts.queue.flink (some ()) l := hrepr.chain
  exact hchain.ne_self rfl

end Px4Firmware.Hrt
