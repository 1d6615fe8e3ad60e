import Mathlib.Data.List.FinRange
import Px4Firmware.Lib.Transition
import Px4Firmware.Uorb.Node

/-!
# Px4Firmware.Drivers.PollWaiters

**Poll registration of a character device** (`drivers/device/cdev.cpp`). A device keeps pointers to
the `struct pollfd` of its waiters in a table of a few slots; the structures are in the memory of
the callers. A subclass overrides what there is to report to a file.

`CDev::store_poll_waiter` returns a positive `ENOMEM` when the table is full, and `poll()` looks for
a negative result. The operations do what they should in exactly the runs in which a waiter is set
up only when a slot is free (`poll_registration`).
-/

namespace Px4Firmware.Drivers.Cdev

open Px4Firmware.Lib Px4Firmware.Uorb

/-! ### Events -/

/-- `pollevent_t`. -/
abbrev PollEvent := UInt8

/-- `POLLIN`. -/
def pollin : PollEvent := 1

/-- Every event of `e` is in `r`. -/
def Has (r e : PollEvent) : Prop := r &&& e = e

theorem has_iff {r e : PollEvent} :
    Has r e ↔ ∀ i (_ : i < 8), e.toBitVec[i] = true → r.toBitVec[i] = true := by
  unfold Has
  rw [← UInt8.toBitVec_inj, UInt8.toBitVec_and]
  constructor
  · intro h i hi he
    have hi := congrArg (fun b : BitVec 8 => b[i]) h
    simp only [BitVec.getElem_and, he, Bool.and_true] at hi
    exact hi
  · intro h
    ext i hi
    rw [BitVec.getElem_and]
    cases he : e.toBitVec[i] with
    | false => simp
    | true => simp [h i hi he]

theorem has_or_right (r e : PollEvent) : Has (r ||| e) e := by
  rw [has_iff]
  intro i hi he
  simp [he]

theorem Has.or {r e : PollEvent} (h : Has r e) (x : PollEvent) : Has (r ||| x) e := by
  rw [has_iff] at h ⊢
  intro i hi he
  simp [h i hi he]

/-! ### The device -/

/-- `struct pollfd`, as far as a device uses it. -/
structure PollFd where
  priv : Fd
  sem : Nat
  events : PollEvent
  revents : PollEvent

/-- What a subclass overrides, on its own data: `poll_state`, and whether its `poll_notify_one`
calls `CDev::poll_notify_one`. Asking about one file changes the answer for none. -/
structure Overrides (σ : Type) where
  pollState : UInt64 → Fd → σ → PollEvent × σ
  interested : UInt64 → Fd → σ → Bool × σ
  stable : ∀ now filp filp' own,
    (interested now filp (interested now filp' own).2).1 = (interested now filp own).1

/-- A device, the `struct pollfd` of the callers and their semaphores, and the data of the
subclass. -/
structure CDev (ι σ : Type) where
  pollset : Fin maxPollwaiters → Option ι
  fds : ι → PollFd
  semcount : Nat → Int
  own : σ

/-- `OK`. -/
def ok : Int := 0

/-- `ENOMEM`. -/
def enomem : Int := 12

/-- `EINVAL`. -/
def einval : Int := 22

namespace CDev

variable {ι σ : Type} [DecidableEq ι]

/-- Write to the structure of a waiter. -/
def modify (fds : ι) (f : PollFd → PollFd) (s : CDev ι σ) : CDev ι σ :=
  { s with fds := Function.update s.fds fds (f (s.fds fds)) }

/-- `sem_post`. -/
def semPost (sem : Nat) (s : CDev ι σ) : CDev ι σ :=
  { s with semcount := Function.update s.semcount sem (s.semcount sem + 1) }

/-- `CDev::store_poll_waiter`. -/
def storePollWaiter (fds : ι) (s : CDev ι σ) : Int × CDev ι σ :=
  match (List.finRange maxPollwaiters).find? fun i => (s.pollset i).isNone with
  | some i => (ok, { s with pollset := Function.update s.pollset i (some fds) })
  | none => (enomem, s)

/-- `CDev::remove_poll_waiter`. -/
def removePollWaiter (fds : ι) (s : CDev ι σ) : Int × CDev ι σ :=
  match (List.finRange maxPollwaiters).find? fun i => s.pollset i = some fds with
  | some i => (ok, { s with pollset := Function.update s.pollset i none })
  | none => (-einval, s)

/-- `CDev::poll`. -/
def poll (d : Overrides σ) (now : UInt64) (filp : Fd) (fds : ι) (setup : Bool) (s : CDev ι σ) :
    Int × CDev ι σ :=
  if setup then
    let s := s.modify fds fun p => { p with priv := filp }
    let (ret, s) := s.storePollWaiter fds
    if ret = ok then
      -- Should a notification be sent immediately?
      let (events, own) := d.pollState now filp s.own
      let s := { s with own := own }.modify fds fun p =>
        { p with revents := p.revents ||| (p.events &&& events) }
      (ret, if (s.fds fds).revents ≠ 0 then s.semPost (s.fds fds).sem else s)
    else
      (ret, s)
  else
    s.removePollWaiter fds

/-- `CDev::poll_notify_one`. -/
def cdevPollNotifyOne (fds : ι) (events : PollEvent) (s : CDev ι σ) : CDev ι σ :=
  let s := s.modify fds fun p => { p with revents := p.revents ||| (p.events &&& events) }
  if (s.fds fds).revents ≠ 0 ∧ s.semcount (s.fds fds).sem ≤ 0 then s.semPost (s.fds fds).sem
  else s

/-- `poll_notify_one` of the subclass. -/
def pollNotifyOne (d : Overrides σ) (now : UInt64) (fds : ι) (events : PollEvent)
    (s : CDev ι σ) : CDev ι σ :=
  let (interested, own) := d.interested now (s.fds fds).priv s.own
  let s := { s with own := own }
  if interested then s.cdevPollNotifyOne fds events else s

/-- `CDev::poll_notify`. -/
def pollNotify (d : Overrides σ) (now : UInt64) (events : PollEvent) (s : CDev ι σ) : CDev ι σ :=
  (List.finRange maxPollwaiters).foldl (fun s i =>
    match s.pollset i with
    | some fds => s.pollNotifyOne d now fds events
    | none => s) s

end CDev

/-! ### The subclasses -/

/-- `CDev` itself: there is never anything to report when a poll is set up. -/
def cdev : Overrides Unit where
  pollState _ _ own := (0, own)
  interested _ _ own := (true, own)
  stable _ _ _ _ := rfl

/-- What `ORBDevNode` asks for when it is polled: its generation, and the data of the subscriber
that a file belongs to (`filp_to_sd`). -/
structure Subscriptions where
  generation : UInt32
  sd : Fd → SubscriberData

/-- `ORBDevNode::appears_updated`. -/
def Subscriptions.appearsUpdated (now : UInt64) (filp : Fd) (own : Subscriptions) :
    Bool × Subscriptions :=
  let (updated, sd) := (own.sd filp).appearsUpdated now own.generation
  (updated, { own with sd := Function.update own.sd filp sd })

theorem Subscriptions.appearsUpdated_stable (now : UInt64) (filp filp' : Fd)
    (own : Subscriptions) :
    ((own.appearsUpdated now filp').2.appearsUpdated now filp).1 =
      (own.appearsUpdated now filp).1 := by
  unfold appearsUpdated
  by_cases heq : filp = filp'
  · subst heq
    simp [SubscriberData.appearsUpdated_twice]
  · simp [Function.update_of_ne heq]

/-- `ORBDevNode`. -/
def orbDevNode : Overrides Subscriptions where
  pollState now filp own :=
    let (updated, own) := own.appearsUpdated now filp
    (if updated then pollin else 0, own)
  interested now filp own := own.appearsUpdated now filp
  stable := Subscriptions.appearsUpdated_stable

/-! ### The system -/

/-- What happens to a device. In between, the callers and the subclass do what they like with what
is theirs. -/
inductive Event (ι σ : Type)
  | setup (now : UInt64) (filp : Fd) (fds : ι)
  | teardown (now : UInt64) (filp : Fd) (fds : ι)
  | notify (now : UInt64) (events : PollEvent)
  | other (fds : ι → PollFd) (semcount : Nat → Int) (own : σ)

section

variable {ι σ : Type} [DecidableEq ι]

/-- The result of an operation, and the device after it. -/
def CDev.run (d : Overrides σ) (s : CDev ι σ) : Event ι σ → Int × CDev ι σ
  | .setup now filp fds => s.poll d now filp fds true
  | .teardown now filp fds => s.poll d now filp fds false
  | .notify now events => (ok, s.pollNotify d now events)
  | .other fds semcount own => (ok, { s with fds := fds, semcount := semcount, own := own })

/-- A device as a transition system, from its construction on. -/
def waiters (d : Overrides σ) : LTS (CDev ι σ) (Event ι σ) where
  init s := ∀ i, s.pollset i = none
  step s e t := t = (s.run d e).2

/-- One slot that was free holds the waiter. -/
def Registers (fds : ι) (s t : CDev ι σ) : Prop :=
  ∃ i, s.pollset i = none ∧ t.pollset = Function.update s.pollset i (some fds)

/-- One slot that held the waiter is free. -/
def Frees (fds : ι) (s t : CDev ι σ) : Prop :=
  ∃ i, s.pollset i = some fds ∧ t.pollset = Function.update s.pollset i none

/-- The waiter is registered. -/
def Registered (fds : ι) (s : CDev ι σ) : Prop := ∃ i, s.pollset i = some fds

/-- **The law of an operation.** -/
def Law (d : Overrides σ) (s : CDev ι σ) (e : Event ι σ) (t : CDev ι σ) : Prop :=
  match e with
  | .setup _ _ fds =>
      (s.run d e).1 = ok ∧ Registers fds s t ∨ (s.run d e).1 < 0 ∧ t.pollset = s.pollset
  | .teardown _ _ fds =>
      (Registered fds s → (s.run d e).1 = ok ∧ Frees fds s t) ∧
        (¬ Registered fds s → (s.run d e).1 < 0 ∧ t.pollset = s.pollset)
  | .notify now events =>
      t.pollset = s.pollset ∧ ∀ fds, Registered fds s →
        (d.interested now (s.fds fds).priv s.own).1 = true →
          Has (t.fds fds).revents ((s.fds fds).events &&& events)
  | .other _ _ _ => t.pollset = s.pollset

/-- A waiter is set up only when a slot is free. -/
def SlotFree (s : CDev ι σ) : Event ι σ → Prop
  | .setup _ _ _ => ∃ i, s.pollset i = none
  | _ => True

end

/-! ### What the operations do -/

section

variable {ι σ : Type} {s : CDev ι σ}

theorem CDev.storePollWaiter_of_free {i : Fin maxPollwaiters} (hfree : s.pollset i = none)
    (fds : ι) :
    ∃ i, s.pollset i = none ∧ s.storePollWaiter fds =
      (ok, { s with pollset := Function.update s.pollset i (some fds) }) := by
  unfold storePollWaiter
  cases hfind : (List.finRange maxPollwaiters).find? fun i => (s.pollset i).isNone with
  | none =>
      have hnone := List.find?_eq_none.mp hfind i (List.mem_finRange i)
      simp [hfree] at hnone
  | some j =>
      have hj := List.find?_some hfind
      exact ⟨j, Option.isNone_iff_eq_none.mp hj, rfl⟩

theorem CDev.storePollWaiter_of_full (hfull : ∀ i, s.pollset i ≠ none) (fds : ι) :
    s.storePollWaiter fds = (enomem, s) := by
  have hfind : ((List.finRange maxPollwaiters).find? fun i => (s.pollset i).isNone) = none := by
    rw [List.find?_eq_none]
    intro i _ hnone
    exact hfull i (Option.isNone_iff_eq_none.mp hnone)
  unfold storePollWaiter
  rw [hfind]

/-- What a notification leaves as it is, and what it can only add to. -/
structure Notified (d : Overrides σ) (now : UInt64) (s t : CDev ι σ) : Prop where
  pollset : t.pollset = s.pollset
  priv : ∀ fds, (t.fds fds).priv = (s.fds fds).priv
  events : ∀ fds, (t.fds fds).events = (s.fds fds).events
  revents : ∀ fds e, Has (s.fds fds).revents e → Has (t.fds fds).revents e
  interested : ∀ filp, (d.interested now filp t.own).1 = (d.interested now filp s.own).1

namespace Notified

variable {d : Overrides σ} {now : UInt64} {s t u : CDev ι σ}

theorem refl (s : CDev ι σ) : Notified d now s s :=
  ⟨rfl, fun _ => rfl, fun _ => rfl, fun _ _ h => h, fun _ => rfl⟩

theorem trans (h : Notified d now s t) (h' : Notified d now t u) : Notified d now s u where
  pollset := h'.pollset.trans h.pollset
  priv fds := (h'.priv fds).trans (h.priv fds)
  events fds := (h'.events fds).trans (h.events fds)
  revents fds e hhas := h'.revents fds e (h.revents fds e hhas)
  interested filp := (h'.interested filp).trans (h.interested filp)

end Notified

end

section

variable {ι σ : Type} [DecidableEq ι]

namespace CDev

variable {s : CDev ι σ} {d : Overrides σ}

theorem removePollWaiter_of_registered {fds : ι} (h : Registered fds s) :
    ∃ i, s.pollset i = some fds ∧ s.removePollWaiter fds =
      (ok, { s with pollset := Function.update s.pollset i none }) := by
  obtain ⟨i, hi⟩ := h
  unfold removePollWaiter
  cases hfind : (List.finRange maxPollwaiters).find? fun i => s.pollset i = some fds with
  | none =>
      have hnone := List.find?_eq_none.mp hfind i (List.mem_finRange i)
      simp [hi] at hnone
  | some j =>
      have hj := List.find?_some hfind
      exact ⟨j, of_decide_eq_true hj, rfl⟩

theorem removePollWaiter_of_not {fds : ι} (h : ¬ Registered fds s) :
    s.removePollWaiter fds = (-einval, s) := by
  have hfind : ((List.finRange maxPollwaiters).find? fun i => s.pollset i = some fds) = none := by
    rw [List.find?_eq_none]
    intro i _ hheld
    exact h ⟨i, of_decide_eq_true hheld⟩
  unfold removePollWaiter
  rw [hfind]

/-- What is reported when a poll is set up does not concern the table. -/
theorem poll_setup (d : Overrides σ) (now : UInt64) (filp : Fd) (fds : ι) (s : CDev ι σ) :
    ∃ s₁ : CDev ι σ, s₁.pollset = s.pollset ∧
      (s.poll d now filp fds true).1 = (s₁.storePollWaiter fds).1 ∧
      (s.poll d now filp fds true).2.pollset = (s₁.storePollWaiter fds).2.pollset := by
  refine ⟨s.modify fds fun p => { p with priv := filp }, rfl, ?_⟩
  unfold poll
  rw [if_pos rfl]
  dsimp only
  split_ifs <;> exact ⟨rfl, rfl⟩

theorem run_setup_of_free (hfree : ∃ i, s.pollset i = none) (now : UInt64) (filp : Fd) (fds : ι) :
    (s.run d (.setup now filp fds)).1 = ok ∧
      Registers fds s (s.run d (.setup now filp fds)).2 := by
  obtain ⟨i, hi⟩ := hfree
  obtain ⟨s₁, hsame, hret, hpollset⟩ := poll_setup d now filp fds s
  obtain ⟨j, hj, hstore⟩ := storePollWaiter_of_free (s := s₁) (hsame ▸ hi) fds
  rw [hstore] at hret hpollset
  rw [hsame] at hj hpollset
  exact ⟨hret, j, hj, hpollset⟩

theorem run_setup_of_full (hfull : ∀ i, s.pollset i ≠ none) (now : UInt64) (filp : Fd) (fds : ι) :
    (s.run d (.setup now filp fds)).1 = enomem ∧
      (s.run d (.setup now filp fds)).2.pollset = s.pollset := by
  obtain ⟨s₁, hsame, hret, hpollset⟩ := poll_setup d now filp fds s
  rw [storePollWaiter_of_full (hsame ▸ hfull) fds] at hret hpollset
  exact ⟨hret, hpollset.trans hsame⟩

end CDev

namespace Notified

variable {d : Overrides σ} {now : UInt64} {s t u : CDev ι σ}

theorem modify (s : CDev ι σ) (fds : ι) (x : PollEvent) :
    Notified d now s (s.modify fds fun p => { p with revents := p.revents ||| x }) := by
  refine ⟨rfl, ?_, ?_, ?_, fun _ => rfl⟩
  · intro fds'
    by_cases heq : fds' = fds <;> simp [CDev.modify, heq]
  · intro fds'
    by_cases heq : fds' = fds <;> simp [CDev.modify, heq]
  · intro fds' e hhas
    by_cases heq : fds' = fds
    · subst heq
      simpa [CDev.modify] using hhas.or x
    · simpa [CDev.modify, heq] using hhas

variable (d now)

/-- A waiter that is notified has the events it asked for. -/
theorem cdevPollNotifyOne (fds : ι) (events : PollEvent) (s : CDev ι σ) :
    Notified d now s (s.cdevPollNotifyOne fds events) ∧
      Has ((s.cdevPollNotifyOne fds events).fds fds).revents ((s.fds fds).events &&& events) := by
  have hmodified : Notified d now s (s.modify fds fun p =>
      { p with revents := p.revents ||| (p.events &&& events) }) :=
    modify s fds ((s.fds fds).events &&& events)
  have hhas : Has ((s.modify fds fun p =>
      { p with revents := p.revents ||| (p.events &&& events) }).fds fds).revents
        ((s.fds fds).events &&& events) := by
    simpa [CDev.modify] using has_or_right (s.fds fds).revents ((s.fds fds).events &&& events)
  unfold CDev.cdevPollNotifyOne
  dsimp only
  split_ifs
  · exact ⟨⟨hmodified.pollset, hmodified.priv, hmodified.events, hmodified.revents,
      hmodified.interested⟩, hhas⟩
  · exact ⟨hmodified, hhas⟩

theorem pollNotifyOne (fds : ι) (events : PollEvent) (s : CDev ι σ) :
    Notified d now s (s.pollNotifyOne d now fds events) ∧
      ((d.interested now (s.fds fds).priv s.own).1 = true →
        Has ((s.pollNotifyOne d now fds events).fds fds).revents
          ((s.fds fds).events &&& events)) := by
  have hasked : Notified d now s { s with own := (d.interested now (s.fds fds).priv s.own).2 } :=
    ⟨rfl, fun _ => rfl, fun _ => rfl, fun _ _ h => h, fun filp => d.stable now filp _ s.own⟩
  unfold CDev.pollNotifyOne
  dsimp only
  split_ifs with hinterested
  · obtain ⟨hone, hhas⟩ := cdevPollNotifyOne d now fds events
      { s with own := (d.interested now (s.fds fds).priv s.own).2 }
    exact ⟨hasked.trans hone, fun _ => hhas⟩
  · exact ⟨hasked, fun h => absurd h hinterested⟩

/-- The loop of the notification, by induction on the slots that are left. -/
theorem loop (events : PollEvent) (slots : List (Fin maxPollwaiters)) (s : CDev ι σ) :
    let t := slots.foldl (fun s i =>
      match s.pollset i with
      | some fds => s.pollNotifyOne d now fds events
      | none => s) s
    Notified d now s t ∧ ∀ i ∈ slots, ∀ fds, s.pollset i = some fds →
      (d.interested now (s.fds fds).priv s.own).1 = true →
        Has (t.fds fds).revents ((s.fds fds).events &&& events) := by
  induction slots generalizing s with
  | nil => exact ⟨refl s, fun i hi => by cases hi⟩
  | cons j slots ih =>
      rw [List.foldl_cons]
      cases hslot : s.pollset j with
      | none =>
          obtain ⟨hrest, hhas⟩ := ih s
          refine ⟨hrest, ?_⟩
          intro i hi fds hfds
          rcases List.mem_cons.mp hi with rfl | hi
          · rw [hslot] at hfds
            cases hfds
          · exact hhas i hi fds hfds
      | some fds =>
          obtain ⟨hone, hfirst⟩ := pollNotifyOne d now fds events s
          obtain ⟨hrest, hhas⟩ := ih (s.pollNotifyOne d now fds events)
          refine ⟨hone.trans hrest, ?_⟩
          intro i hi fds' hfds' hinterested
          rcases List.mem_cons.mp hi with rfl | hi
          · obtain rfl := Option.some.inj (hslot.symm.trans hfds')
            exact hrest.revents fds _ (hfirst hinterested)
          · rw [← hone.events fds']
            refine hhas i hi fds' (hone.pollset ▸ hfds') ?_
            rw [hone.priv, hone.interested]
            exact hinterested

end Notified

/-! ### The law -/

variable {d : Overrides σ} {s t : CDev ι σ}

/-- A tear-down frees the slot of a waiter that is registered. -/
theorem law_teardown (now : UInt64) (filp : Fd) (fds : ι) :
    Law d s (.teardown now filp fds) (s.run d (.teardown now filp fds)).2 := by
  have hrun : s.run d (.teardown now filp fds) = s.removePollWaiter fds := rfl
  unfold Law
  rw [hrun]
  constructor
  · intro hregistered
    obtain ⟨i, hi, hremove⟩ := CDev.removePollWaiter_of_registered hregistered
    rw [hremove]
    exact ⟨rfl, i, hi, rfl⟩
  · intro hnot
    rw [CDev.removePollWaiter_of_not hnot]
    have hnegative : -einval < 0 := by decide
    exact ⟨hnegative, rfl⟩

/-- A notification reaches every waiter that there is something to report to. -/
theorem law_notify (now : UInt64) (events : PollEvent) :
    Law d s (.notify now events) (s.run d (.notify now events)).2 := by
  obtain ⟨hnotified, hhas⟩ :=
    Notified.loop d now events (List.finRange maxPollwaiters) s
  refine ⟨hnotified.pollset, ?_⟩
  intro fds hregistered hinterested
  obtain ⟨i, hi⟩ := hregistered
  exact hhas i (List.mem_finRange i) fds hi hinterested

/-- A setup that finds no slot does not obey the law: what it returns is positive. -/
theorem not_law_of_enomem {s t : CDev ι σ} {now : UInt64} {filp : Fd} {fds : ι}
    (hret : (s.run d (.setup now filp fds)).1 = enomem) : ¬ Law d s (.setup now filp fds) t := by
  intro hlaw
  unfold Law at hlaw
  dsimp only at hlaw
  rw [hret] at hlaw
  rcases hlaw with ⟨hok, -⟩ | ⟨hnegative, -⟩
  · exact absurd hok (by decide)
  · exact absurd hnegative (by decide)

/-- **The step lemma.** An operation obeys the law exactly if it does not set up a waiter when no
slot is free. -/
theorem law_iff (s : CDev ι σ) (e : Event ι σ) : Law d s e (s.run d e).2 ↔ SlotFree s e := by
  cases e with
  | teardown now filp fds => exact ⟨fun _ => trivial, fun _ => law_teardown now filp fds⟩
  | notify now events => exact ⟨fun _ => trivial, fun _ => law_notify now events⟩
  | other fds semcount own => exact ⟨fun _ => trivial, fun _ => rfl⟩
  | setup now filp fds =>
      constructor
      · intro hlaw
        by_contra hnone
        have hfull : ∀ i, s.pollset i ≠ none := fun i hi => hnone ⟨i, hi⟩
        exact not_law_of_enomem (CDev.run_setup_of_full hfull now filp fds).1 hlaw
      · intro hfree
        exact .inl (CDev.run_setup_of_free hfree now filp fds)

end

/-! ### The table as a list

A uORB node is modelled with a list of slots. Storing and removing a waiter there is what the two
functions do to the table. -/

/-- A function that replaces the first element with a property, on the list of a table. -/
theorem replaceFirst_ofFn {α : Type} {p : α → Bool} {x : α} {g : List α → Option (List α)}
    (hnil : g [] = none)
    (hcons : ∀ a l, g (a :: l) = if p a then some (x :: l) else (g l).map (a :: ·)) {n : Nat}
    (f : Fin n → α) :
    g (List.ofFn f) = ((List.finRange n).find? fun i => p (f i)).map fun i =>
      List.ofFn (Function.update f i x) := by
  induction n with
  | zero => simpa using hnil
  | succ n ih =>
      rw [List.ofFn_succ, hcons, List.finRange_succ, List.find?_cons]
      cases hfirst : p (f 0) with
      | true => simp [List.ofFn_succ]
      | false =>
          have hzero (i : Fin n) : (0 : Fin (n + 1)) ≠ i.succ := (Fin.succ_ne_zero i).symm
          have htail (i : Fin n) : (fun j : Fin n => Function.update f i.succ x j.succ) =
              Function.update (fun j => f j.succ) i x := by
            funext j
            by_cases heq : j = i <;> simp [heq]
          rw [ih fun i => f i.succ, List.find?_map]
          simp [List.ofFn_succ, hzero, htail, Function.comp_def]

section

variable {ι σ : Type} (view : ι → Uorb.PollFd)

/-- The table of the waiters as a list. -/
def CDev.slots (s : CDev ι σ) : List (Option Uorb.PollFd) :=
  List.ofFn fun i => (s.pollset i).map view

theorem CDev.slots_update (s : CDev ι σ) (i : Fin maxPollwaiters) (p : Option ι) :
    CDev.slots view { s with pollset := Function.update s.pollset i p } =
      List.ofFn (Function.update (fun i => (s.pollset i).map view) i (p.map view)) := by
  unfold slots
  congr 1
  funext j
  by_cases heq : j = i <;> simp [heq]

/-- Storing a waiter, on the list. -/
theorem CDev.storePollWaiter_slots (fds : ι) (s : CDev ι σ) :
    OrbDevNode.storePollWaiter (view fds) (s.slots view) =
      if (s.storePollWaiter fds).1 = ok then some ((s.storePollWaiter fds).2.slots view)
      else none := by
  have hfirst := replaceFirst_ofFn (p := Option.isNone) (x := some (view fds))
    (g := OrbDevNode.storePollWaiter (view fds)) rfl (fun a l => by cases a <;> rfl)
    fun i => (s.pollset i).map view
  unfold slots
  rw [hfirst]
  simp only [Option.isNone_map]
  unfold storePollWaiter
  cases (List.finRange maxPollwaiters).find? fun i => (s.pollset i).isNone with
  | none => rfl
  | some i =>
      simp only [Option.map_some, if_true]
      exact congrArg some (slots_update view s i (some fds)).symm

variable [DecidableEq ι]

/-- Removing a waiter, on the list, when the waiters have different names. -/
theorem CDev.removePollWaiter_slots (hview : ∀ a b, (view a).id = (view b).id → a = b) (fds : ι)
    (s : CDev ι σ) :
    OrbDevNode.removePollWaiter (view fds).id (s.slots view) =
      if (s.removePollWaiter fds).1 = ok then some ((s.removePollWaiter fds).2.slots view)
      else none := by
  have hfirst := replaceFirst_ofFn (p := fun a => a.any fun w => w.id == (view fds).id)
    (x := none) (g := OrbDevNode.removePollWaiter (view fds).id) rfl
    (fun a l => by cases a <;> simp [OrbDevNode.removePollWaiter])
    fun i => (s.pollset i).map view
  have hheld (i : Fin maxPollwaiters) :
      ((s.pollset i).map view).any (fun w => w.id == (view fds).id) =
        decide (s.pollset i = some fds) := by
    cases s.pollset i with
    | none => rfl
    | some w =>
        by_cases heq : w = fds
        · simp [heq]
        · have hne : (view w).id ≠ (view fds).id := fun hid => heq (hview w fds hid)
          simp [heq, hne]
  unfold slots
  rw [hfirst]
  simp only [hheld]
  unfold removePollWaiter
  cases (List.finRange maxPollwaiters).find? fun i => decide (s.pollset i = some fds) with
  | none => rfl
  | some i =>
      simp only [Option.map_some, if_true]
      exact congrArg some (slots_update view s i none).symm

end

/-! ### No waiter is in two slots -/

section

variable {ι σ : Type}

/-- No waiter is in two slots. -/
def OneSlot (s : CDev ι σ) : Prop :=
  ∀ i j fds, s.pollset i = some fds → s.pollset j = some fds → i = j

/-- No waiter is in two slots, and the ones in a slot are set up. -/
structure Slotted (p : CDev ι σ × (ι → Bool)) : Prop where
  oneSlot : OneSlot p.1
  up : ∀ fds, Registered fds p.1 → p.2 fds = true

/-- A step that leaves the table as it is. -/
theorem Slotted.same {p q : CDev ι σ × (ι → Bool)} (hp : Slotted p)
    (hpollset : q.1.pollset = p.1.pollset)
    (hup : ∀ fds, Registered fds p.1 → p.2 fds = true → q.2 fds = true) : Slotted q := by
  constructor
  · intro i j fds hi hj
    rw [hpollset] at hi hj
    exact hp.oneSlot i j fds hi hj
  · intro fds hregistered
    obtain ⟨i, hi⟩ := hregistered
    rw [hpollset] at hi
    exact hup fds ⟨i, hi⟩ (hp.up fds ⟨i, hi⟩)

variable [DecidableEq ι] {d : Overrides σ} {s : CDev ι σ}

/-- Which structures are set up and not torn down since. -/
def upAfter (up : ι → Bool) : Event ι σ → ι → Bool
  | .setup _ _ fds => Function.update up fds true
  | .teardown _ _ fds => Function.update up fds false
  | _ => up

/-- A structure that was set up is torn down before it is set up again. -/
def TornDown (p : CDev ι σ × (ι → Bool)) : Event ι σ → Prop
  | .setup _ _ fds => p.2 fds = false
  | _ => True

/-- The runs in which structures are torn down before they are set up again. -/
def provided (d : Overrides σ) : LTS (CDev ι σ × (ι → Bool)) (Event ι σ) :=
  ((waiters d).observe (fun _ => false) fun up _ e _ => upAfter up e).restrict TornDown

theorem Slotted.registers {p q : CDev ι σ × (ι → Bool)} {fds : ι} (hp : Slotted p)
    (hdown : p.2 fds = false) (h : Registers fds p.1 q.1)
    (hup : q.2 = Function.update p.2 fds true) : Slotted q := by
  obtain ⟨i, hfree, hpollset⟩ := h
  have hnot (j : Fin maxPollwaiters) : p.1.pollset j ≠ some fds := by
    intro hj
    rw [hp.up fds ⟨j, hj⟩] at hdown
    cases hdown
  constructor
  · intro j k fds' hj hk
    rw [hpollset] at hj hk
    by_cases hji : j = i
    · by_cases hki : k = i
      · exact hji.trans hki.symm
      · rw [hji, Function.update_self] at hj
        rw [Function.update_of_ne hki] at hk
        obtain rfl := Option.some.inj hj
        exact absurd hk (hnot k)
    · rw [Function.update_of_ne hji] at hj
      by_cases hki : k = i
      · rw [hki, Function.update_self] at hk
        obtain rfl := Option.some.inj hk
        exact absurd hj (hnot j)
      · rw [Function.update_of_ne hki] at hk
        exact hp.oneSlot j k fds' hj hk
  · intro fds' hregistered
    obtain ⟨j, hj⟩ := hregistered
    rw [hpollset] at hj
    rw [hup]
    by_cases heq : fds' = fds
    · rw [heq, Function.update_self]
    · rw [Function.update_of_ne heq]
      by_cases hji : j = i
      · rw [hji, Function.update_self] at hj
        exact absurd (Option.some.inj hj).symm heq
      · rw [Function.update_of_ne hji] at hj
        exact hp.up fds' ⟨j, hj⟩

theorem Slotted.frees {p q : CDev ι σ × (ι → Bool)} {fds : ι} (hp : Slotted p)
    (h : Frees fds p.1 q.1) (hup : q.2 = Function.update p.2 fds false) : Slotted q := by
  obtain ⟨i, hi, hpollset⟩ := h
  have hleft {j : Fin maxPollwaiters} {fds' : ι} (hj : q.1.pollset j = some fds') :
      j ≠ i ∧ p.1.pollset j = some fds' := by
    rw [hpollset] at hj
    by_cases hji : j = i
    · rw [hji, Function.update_self] at hj
      cases hj
    · rw [Function.update_of_ne hji] at hj
      exact ⟨hji, hj⟩
  constructor
  · intro j k fds' hj hk
    exact hp.oneSlot j k fds' (hleft hj).2 (hleft hk).2
  · intro fds' hregistered
    obtain ⟨j, hj⟩ := hregistered
    obtain ⟨hji, hj⟩ := hleft hj
    have hne : fds' ≠ fds := by
      intro heq
      exact hji (hp.oneSlot j i fds (heq ▸ hj) hi)
    rw [hup, Function.update_of_ne hne]
    exact hp.up fds' ⟨j, hj⟩

/-- **The step lemma.** -/
theorem Slotted.step {p q : CDev ι σ × (ι → Bool)} {e : Event ι σ} (hp : Slotted p)
    (h : (provided d).step p e q) : Slotted q := by
  obtain ⟨htorn, hstep, hup⟩ := h
  have hstep : q.1 = (p.1.run d e).2 := hstep
  cases e with
  | setup now filp fds =>
      by_cases hfree : ∃ i, p.1.pollset i = none
      · have hregisters := (CDev.run_setup_of_free (d := d) hfree now filp fds).2
        rw [← hstep] at hregisters
        exact hp.registers htorn hregisters hup
      · have hfull : ∀ i, p.1.pollset i ≠ none := fun i hi => hfree ⟨i, hi⟩
        refine hp.same ?_ ?_
        · rw [hstep]
          exact (CDev.run_setup_of_full hfull now filp fds).2
        · intro fds' _ hbefore
          rw [hup]
          show Function.update p.2 fds true fds' = true
          by_cases heq : fds' = fds
          · rw [heq, Function.update_self]
          · rw [Function.update_of_ne heq]
            exact hbefore
  | teardown now filp fds =>
      obtain ⟨hremoves, hrefuses⟩ := law_teardown (d := d) (s := p.1) now filp fds
      rw [← hstep] at hremoves hrefuses
      by_cases hregistered : Registered fds p.1
      · exact hp.frees (hremoves hregistered).2 hup
      · refine hp.same (hrefuses hregistered).2 ?_
        intro fds' hregistered' hbefore
        have hne : fds' ≠ fds := fun heq => hregistered (heq ▸ hregistered')
        rw [hup]
        show Function.update p.2 fds false fds' = true
        rw [Function.update_of_ne hne]
        exact hbefore
  | notify now events =>
      refine hp.same ?_ ?_
      · rw [hstep]
        exact (law_notify now events).1
      · intro fds _ hbefore
        rw [hup]
        exact hbefore
  | other fds semcount own =>
      refine hp.same ?_ ?_
      · rw [hstep]
        rfl
      · intro fds _ hbefore
        rw [hup]
        exact hbefore

/-- **Poll registration.** In a run from the construction of a device every operation obeys the law
exactly if every waiter is set up when a slot is free; and as long as a structure that was set up
is torn down before it is set up again, no waiter is ever in two slots. -/
theorem poll_registration (d : Overrides σ) (hs : (waiters d).init s) (es : List (Event ι σ)) :
    (∀ t, ((waiters d).obeying (Law d)).Run s es t ↔
      ((waiters d).restrict SlotFree).Run s es t) ∧
    ∀ t up, (provided d).Run (s, fun _ => false) es (t, up) → OneSlot t := by
  constructor
  · intro t
    refine LTS.run_obeying_iff ?_ hs
    intro s e t _ hstep
    have hstep : t = (s.run d e).2 := hstep
    rw [hstep]
    exact law_iff s e
  · intro t up hrun
    have hstart : Slotted (s, fun _ : ι => false) := by
      constructor
      · intro i j fds hi _
        rw [hs i] at hi
        cases hi
      · intro fds hregistered
        obtain ⟨i, hi⟩ := hregistered
        rw [hs i] at hi
        cases hi
    have hslotted : Slotted (t, up) := by
      refine hrun.invariant (I := Slotted) ?_ hstart
      intro p e q hp hstep
      exact hp.step hstep
    exact hslotted.oneSlot

end

/-! ### Runs -/

/-- A device that is constructed. -/
def constructed {σ : Type} (own : σ) : CDev Nat σ where
  pollset _ := none
  fds _ := { priv := 0, sem := 0, events := pollin, revents := 0 }
  semcount _ := 0
  own := own

/-- A topic that was published, with a subscriber that has not looked. -/
def publishedNode : CDev Nat Subscriptions :=
  constructed { generation := 1, sd := fun _ => ⟨0, 0, 0, false⟩ }

/-- A waiter is set up, notified and torn down. -/
theorem poll_registration_waiter : ∃ t, ((waiters orbDevNode).obeying (Law orbDevNode)).Run
    publishedNode [.setup 0 3 0, .notify 0 pollin, .teardown 0 3 0] t := by
  have hfree : SlotFree publishedNode (.setup 0 3 0) := ⟨⟨0, by decide⟩, rfl⟩
  exact ⟨_, ((poll_registration orbDevNode (fun _ => rfl) _).1 _).mpr
    (.cons ⟨hfree, rfl⟩ (.cons ⟨trivial, rfl⟩ (.cons ⟨trivial, rfl⟩ (.nil _))))⟩

/-- The device when as many waiters are set up as there are slots. -/
def filled : CDev Nat Unit :=
  (List.range maxPollwaiters).foldl (fun s fds => (s.run cdev (.setup 0 0 fds)).2) (constructed ())

/-- When all slots are taken, a set-up returns a positive number. -/
theorem setup_when_full : ¬ ∀ (s t : CDev Nat Unit) (e : Event Nat Unit),
    (waiters cdev).Reachable s → (waiters cdev).step s e t → Law cdev s e t := by
  intro hall
  have hrun (fdss : List Nat) (s : CDev Nat Unit) : ∃ es, (waiters cdev).Run s es
      (fdss.foldl (fun s fds => (s.run cdev (.setup 0 0 fds)).2) s) := by
    induction fdss generalizing s with
    | nil => exact ⟨[], .nil s⟩
    | cons fds fdss ih =>
        obtain ⟨es, hes⟩ := ih (s.run cdev (.setup 0 0 fds)).2
        exact ⟨_, .cons rfl hes⟩
  obtain ⟨es, hes⟩ := hrun (List.range maxPollwaiters) (constructed ())
  have hlaw := hall filled _ (.setup 0 0 8) ⟨constructed (), es, fun _ => rfl, hes⟩ rfl
  have hret : (filled.run cdev (.setup 0 0 8)).1 = enomem := by decide +kernel
  exact not_law_of_enomem hret hlaw

end Px4Firmware.Drivers.Cdev
