import Px4Firmware.Hrt.Machine
import Px4Firmware.Lib.Fuel
import Px4Firmware.Uorb.Interleaving

/-!
# Px4Firmware.Uorb.Timers

**The interval timers of a topic in the callout queue.** `SubscriberData::update_call` is an entry
of the callout queue of the high-resolution timer. Checking a topic that is updated starts the timer
of a subscriber with a rate limit, and so do a notification and the expiry of another timer; the
queue is shared with everybody else who uses the timer.

`ORBDevNode::close` deletes the data of the subscriber and leaves its entry in the queue. No entry
dangles in exactly the runs in which no subscription is closed while its timer runs
(`no_dangling_iff`).
-/

namespace Px4Firmware.Uorb

open Px4Firmware.Hrt Px4Firmware.Lib

/-! ### The topic and the queue -/

/-- What an entry of the queue calls: `update_deferred_trampoline`, or something of others. -/
inductive Callout (κ : Type)
  | updateDeferredTrampoline
  | other (k : κ)

/-- The callout queue. The entries are the `update_call` of the subscriptions, and those of
others. -/
abbrev Timers (ω κ : Type) := Callouts (Fd ⊕ ω) (Callout κ)

/-- A topic and the callout queue. The `updateCall` of a subscriber is the deadline of its entry. -/
structure TimedTopic (ω κ : Type) where
  topic : Topic
  timers : Timers ω κ

namespace TimedTopic

section

variable {ω κ : Type} [DecidableEq ω]

/-- `ORBDevNode::appears_updated`, with the interval timer in the callout queue. -/
def appearsUpdated (fuel : Nat) (now : UInt64) (generation : UInt32) (fd : Fd)
    (sd : SubscriberData) (h : Timers ω κ) : Option (Bool × SubscriberData × Timers ω κ) :=
  if sd.generation = generation then
    some (false, sd, h)
  else if sd.updateInterval = 0 then
    some (true, sd, h)
  else if sd.updateReported then
    some (true, sd, h)
  else if h.hrtCalled (.inl fd) then do
    let h ← h.hrtCallAfter fuel (.inl fd) now sd.updateInterval.toUInt64
      (some .updateDeferredTrampoline)
    return (true, { sd with
      updateCall := (h.entry (.inl fd)).deadline
      updateReported := true }, h)
  else
    some (false, sd, h)

/-- `ORBDevNode::poll_notify_one`. -/
def pollNotifyOne (fuel : Nat) (now : UInt64) (generation : UInt32) (fds : PollFd)
    (files : Fd → Option File) (h : Timers ω κ) :
    Option (PollFd × (Fd → Option File) × Timers ω κ) :=
  match files fds.priv with
  | some { path, oflags, priv := some sd } => do
      let (updated, sd, h) ← appearsUpdated fuel now generation fds.priv sd h
      return (if updated then { fds with revents := fds.revents || fds.events } else fds,
        Function.update files fds.priv (some { path, oflags, priv := some sd }), h)
  -- polling ends before the file is closed
  | _ => some (fds, files, h)

/-- The loop of `CDev::poll_notify`. -/
def pollNotifyAll (fuel : Nat) (now : UInt64) (generation : UInt32) :
    List (Option PollFd) → (Fd → Option File) → Timers ω κ →
      Option (List (Option PollFd) × (Fd → Option File) × Timers ω κ)
  | [], files, h => some ([], files, h)
  | none :: slots, files, h => do
      let (slots, files, h) ← pollNotifyAll fuel now generation slots files h
      return (none :: slots, files, h)
  | some fds :: slots, files, h => do
      let (fds, files, h) ← pollNotifyOne fuel now generation fds files h
      let (slots, files, h) ← pollNotifyAll fuel now generation slots files h
      return (some fds :: slots, files, h)

/-- The waiters of the topic are notified. -/
def notify (fuel : Nat) (ctx : Ctx) (s : TimedTopic ω κ) : Option (TimedTopic ω κ) := do
  let (pollset, files, timers) ← pollNotifyAll fuel ctx.now s.topic.node.generation
    s.topic.node.pollset s.topic.files s.timers
  return {
    topic := { s.topic with node := { s.topic.node with pollset := pollset }, files := files }
    timers := timers }

/-- The deadline of a subscriber's entry is zeroed. -/
def clearCall (fd : Fd) (s : Topic) : Topic :=
  match s.subscriber fd with
  | some (file, sd) => s.setPriv fd file { sd with updateCall := 0 }
  | none => s

/-- The next state, when the event is possible. -/
def next (fuel : Nat) (s : TimedTopic ω κ) : Topic.Event → Option (TimedTopic ω κ)
  | .countAndNotify publisher ctx =>
      if s.topic.writing.contains publisher then do
        let t ← notify fuel ctx
          { s with topic := { s.topic with node := s.topic.node.writeCount ctx } }
        return { t with topic := { t.topic with writing := t.topic.writing.erase publisher } }
      else none
  | .subscribe fd ctx retry =>
      match s.topic.files fd with
      | some _ => none
      | none =>
          match s.topic.node.open ctx retry .rdonly with
          | .ok (n, priv) =>
              -- the new subscriber data is zeroed, its entry included
              some {
                topic := { s.topic with
                  node := n
                  files := Function.update s.topic.files fd (some ⟨s.topic.path, .rdonly, priv⟩) }
                timers := s.timers.setEntry (.inl fd) zeroCall }
          | .error _ => some s
  | .check fd ctx => do
      let (file, sd) ← s.topic.subscriber fd
      let (_, sd, timers) ←
        appearsUpdated fuel ctx.now s.topic.node.generation fd sd s.timers
      return { topic := s.topic.setPriv fd file sd, timers := timers }
  | .pollSetup fd ctx id events => do
      let (file, sd) ← s.topic.subscriber fd
      let (updated, sd, timers) ←
        appearsUpdated fuel ctx.now s.topic.node.generation fd sd s.timers
      match OrbDevNode.storePollWaiter { id, priv := fd, events, revents := events && updated }
          s.topic.node.pollset with
      -- No place for the waiter: the topic is not looked at.
      | none => return s
      | some pollset =>
          return {
            topic := { s.topic with node := { s.topic.node with pollset := pollset } }.setPriv
              fd file sd
            timers := timers }
  | .updateDeferred fd ctx =>
      -- `hrt_call_invoke`
      match s.timers.due ctx.now with
      | none => none
      | some call =>
          if call = .inl fd then do
            let timers ← s.timers.hrtCallPop fuel call
            let popped : TimedTopic ω κ := { topic := clearCall fd s.topic, timers := timers }
            let t ← match (s.timers.entry call).callout with
              | some .updateDeferredTrampoline => popped.notify fuel ctx
              | _ => some popped
            let timers ← t.timers.hrtCallReenter fuel call (s.timers.entry call).deadline
            return { t with timers := timers }
          else none
  -- The other operations do not look at the queue; `unsubscribe` does not cancel the timer.
  | e => (s.topic.next e).map fun t => { s with topic := t }

end

/-! ### What starting timers does to the queue -/

section

variable {ω κ : Type}

/-- Timers of open subscriptions were started, and at most `n` entries have come into the queue. -/
structure Starts (files : Fd → Option File) (n : Nat) (h h' : Timers ω κ) : Prop where
  sound : ∀ l, h.Sound l → ∃ l', h'.Sound l' ∧ l'.length ≤ l.length + n
  period : ∀ fd, (h.entry (.inl fd)).period = 0 → (h'.entry (.inl fd)).period = 0
  started : ∀ fd, (h'.entry (.inl fd)).deadline ≠ 0 →
    (h.entry (.inl fd)).deadline ≠ 0 ∨ (files fd).isSome = true
  others : ∀ w, h'.entry (.inr w) = h.entry (.inr w)

variable {files files' : Fd → Option File} {h h' h'' : Timers ω κ} {l : List (Fd ⊕ ω)}
  {fuel n m : Nat} {now : UInt64}

theorem Starts.refl (h : Timers ω κ) : Starts files n h h where
  sound l hl := ⟨l, hl, Nat.le_add_right _ _⟩
  period _ hp := hp
  started _ hd := .inl hd
  others _ := rfl

theorem Starts.trans (hs : Starts files n h h') (hs' : Starts files m h' h'') :
    Starts files (n + m) h h'' where
  sound l hl := by
    obtain ⟨l', hl', hlen⟩ := hs.sound l hl
    obtain ⟨l'', hl'', hlen'⟩ := hs'.sound l' hl'
    exact ⟨l'', hl'', by omega⟩
  period fd hp := hs'.period fd (hs.period fd hp)
  started fd hd := (hs'.started fd hd).elim (hs.started fd) .inr
  others w := (hs'.others w).trans (hs.others w)

/-- The time, in microseconds since the start, to which any interval can be added. -/
def Timely (now : UInt64) : Prop := now < 0xffffffff00000000

theorem deadline_ne_zero (hnow : Timely now) {interval : UInt32}
    (hne : interval ≠ 0) : now + interval.toUInt64 ≠ 0 := by
  intro hzero
  have hsum := congrArg UInt64.toNat hzero
  have hlt := UInt64.lt_iff_toNat_lt.mp hnow
  have hint := UInt32.toNat_lt interval
  have hpos : interval.toNat ≠ 0 := fun h => hne (UInt32.toNat_inj.mp h)
  rw [UInt64.toNat_add, UInt32.toNat_toUInt64] at hsum
  simp only [UInt64.reduceToNat] at hlt hsum
  omega

/-- The same files are open. -/
def SameOpen (files files' : Fd → Option File) : Prop :=
  ∀ fd, (files' fd).isSome = (files fd).isSome

theorem SameOpen.trans {files'' : Fd → Option File} (hf : SameOpen files files')
    (hf' : SameOpen files' files'') : SameOpen files files'' :=
  fun fd => (hf' fd).trans (hf fd)

theorem SameOpen.update {fd : Fd} {file : File} (hopen : (files fd).isSome = true) :
    SameOpen files (Function.update files fd (some file)) := by
  intro fd'
  by_cases heq : fd' = fd
  · rw [heq, Function.update_self, hopen]
    rfl
  · rw [Function.update_of_ne heq]

theorem Starts.congr (hs : Starts files' n h h') (hf : SameOpen files files') :
    Starts files n h h' where
  sound := hs.sound
  period := hs.period
  started fd hd := (hs.started fd hd).imp_right fun hopen => (hf fd).symm.trans hopen
  others := hs.others

/-! ### Who owns the entries -/

/-- No entry dangles: the entries of the queue that belong to subscriptions belong to open ones. -/
def NoDangling (s : TimedTopic ω κ) : Prop :=
  ∃ l, s.timers.queue.Repr l ∧ ∀ fd, .inl fd ∈ l → (s.topic.files fd).isSome = true

/-- The queue is sound, and the entries of the topic in it belong to open subscriptions. -/
structure Owned (s : TimedTopic ω κ) : Prop where
  sound : ∃ l, s.timers.Sound l
  period : ∀ fd, (s.timers.entry (.inl fd)).period = 0
  opened : ∀ fd, (s.timers.entry (.inl fd)).deadline ≠ 0 → (s.topic.files fd).isSome = true

variable {s t : TimedTopic ω κ}

/-- Timers of open subscriptions are started, and the same subscriptions are open. -/
theorem Owned.starts (ho : Owned s) (hstarts : Starts s.topic.files n s.timers t.timers)
    (hfiles : SameOpen s.topic.files t.topic.files) : Owned t where
  sound := by
    obtain ⟨l, hl⟩ := ho.sound
    obtain ⟨l', hl', -⟩ := hstarts.sound l hl
    exact ⟨l', hl'⟩
  period fd := hstarts.period fd (ho.period fd)
  opened fd hd := by
    rw [hfiles fd]
    exact (hstarts.started fd hd).elim (ho.opened fd) id

/-- A step that does not touch the queue. -/
theorem Owned.keep (ho : Owned s) (htimers : t.timers = s.timers)
    (hfiles : SameOpen s.topic.files t.topic.files) : Owned t := by
  refine ho.starts (n := 0) ?_ hfiles
  rw [htimers]
  exact .refl s.timers

theorem Owned.noDangling (ho : Owned s) : NoDangling s := by
  obtain ⟨l, hl⟩ := ho.sound
  exact ⟨l, hl.repr, fun fd hmem => ho.opened fd ((hl.mem_iff _).mp hmem)⟩

/-- The operations that neither look at the queue nor open or close a file. -/
theorem Owned.quiet (ho : Owned s) {e : Topic.Event}
    (hfiles : ∀ t', s.topic.next e = some t' → SameOpen s.topic.files t'.files)
    (h : ((s.topic.next e).map fun t => { s with topic := t }) = some t) : Owned t := by
  obtain ⟨t', ht', rfl⟩ := Option.map_eq_some_iff.mp h
  exact ho.keep rfl (hfiles t' ht')

theorem setPriv_sameOpen {s : Topic} {fd : Fd} {file : File} {sd : SubscriberData}
    (hsub : s.subscriber fd = some (file, sd)) (sd' : SubscriberData) :
    SameOpen s.files (s.setPriv fd file sd').files := by
  refine .update ?_
  rw [(subscriber_eq_some hsub).1]
  rfl

theorem clearCall_sameOpen (fd : Fd) (s : Topic) : SameOpen s.files (clearCall fd s).files := by
  unfold clearCall
  split
  · next hsub => exact setPriv_sameOpen hsub _
  · exact fun _ => rfl

/-! ### Starting timers -/

variable [DecidableEq ω]

/-- Starting the timer of an open subscription. -/
theorem hrtCallAfter_starts (hl : h.Sound l) {delay : UInt64} (hne : now + delay ≠ 0) {fd : Fd}
    (hopen : (files fd).isSome = true) (callout : Option (Callout κ)) :
    fueled fuel l.length (Starts files 1 h) (h.hrtCallAfter fuel (.inl fd) now delay callout) := by
  have hends := Callouts.hrtCallInternal_spec hl hne (.inl fd) 0 callout fuel
  refine hends.fueled.mono (Nat.le_refl _) ?_
  rintro h' ⟨hsame, l', hl'⟩
  refine ⟨fun l₁ hl₁ => ⟨l', hl', hl₁.length_le hl' hsame⟩, fun fd' hp => ?_,
    fun fd' hd => ?_, fun w => ?_⟩
  · rw [hsame]
    by_cases heq : fd' = fd
    · rw [heq, Function.update_self]
    · rw [Function.update_of_ne fun h => heq (Sum.inl.inj h)]
      exact hp
  · by_cases heq : fd' = fd
    · exact .inr (heq ▸ hopen)
    · rw [hsame, Function.update_of_ne fun h => heq (Sum.inl.inj h)] at hd
      exact .inl hd
  · rw [hsame, Function.update_of_ne Sum.inr_ne_inl]

/-- Checking a topic starts the timer of the subscriber, or nothing. -/
theorem appearsUpdated_starts (hl : h.Sound l) (hnow : Timely now) {fd : Fd}
    (hopen : (files fd).isSome = true) (generation : UInt32) (sd : SubscriberData) :
    fueled fuel l.length (fun r => Starts files 1 h r.2.2)
      (appearsUpdated fuel now generation fd sd h) := by
  unfold appearsUpdated
  split_ifs with hgeneration hunlimited hreported hcalled
  · exact .refl h
  · exact .refl h
  · exact .refl h
  · exact (hrtCallAfter_starts hl (deadline_ne_zero hnow hunlimited) hopen _).bind fun _ h => h
  · exact .refl h

theorem pollNotifyOne_starts (hl : h.Sound l) (hnow : Timely now) (generation : UInt32)
    (fds : PollFd) :
    fueled fuel l.length (fun r => Starts files 1 h r.2.2 ∧ SameOpen files r.2.1)
      (pollNotifyOne fuel now generation fds files h) := by
  unfold pollNotifyOne
  split
  · next path oflags sd hfile =>
      have hopen : (files fds.priv).isSome = true := by
        rw [hfile]
        rfl
      exact (appearsUpdated_starts hl hnow hopen generation sd).bind fun r hr =>
        ⟨hr, .update hopen⟩
  · exact ⟨.refl h, fun _ => rfl⟩

/-- The loop of the notification, by induction on the slots: each adds an entry at most. -/
theorem pollNotifyAll_starts (hl : h.Sound l) (hnow : Timely now) (generation : UInt32)
    (slots : List (Option PollFd)) :
    fueled fuel (l.length + slots.length)
      (fun r => Starts files slots.length h r.2.2 ∧ SameOpen files r.2.1)
      (pollNotifyAll fuel now generation slots files h) := by
  induction slots generalizing files h l with
  | nil => exact ⟨.refl h, fun _ => rfl⟩
  | cons slot slots ih =>
      cases slot with
      | none =>
          unfold pollNotifyAll
          refine ((ih hl).mono (Nat.le_succ _) fun _ hr => hr).bind fun r hr => ?_
          exact ⟨hr.1.trans (.refl _ (n := 1)), hr.2⟩
      | some fds =>
          unfold pollNotifyAll
          have hone : fueled fuel _ _ (pollNotifyOne fuel now generation fds files h) :=
            pollNotifyOne_starts hl hnow generation fds
          refine (hone.mono (Nat.le_add_right _ _) fun _ hr => hr).bind fun r hr => ?_
          obtain ⟨l₁, hl₁, hlen⟩ := hr.1.sound l hl
          refine ((ih hl₁).mono ?_ fun _ hr' => hr').bind fun r' hr' => ?_
          · rw [List.length_cons]
            omega
          · have hall := hr.1.trans (hr'.1.congr hr.2)
            rw [Nat.add_comm] at hall
            exact ⟨hall, hr.2.trans hr'.2⟩

theorem notify_starts {s : TimedTopic ω κ} (hl : s.timers.Sound l) {ctx : Ctx}
    (hnow : Timely ctx.now) :
    fueled fuel (l.length + s.topic.node.pollset.length)
      (fun t => Starts s.topic.files s.topic.node.pollset.length s.timers t.timers ∧
        SameOpen s.topic.files t.topic.files)
      (s.notify fuel ctx) := by
  unfold notify
  exact (pollNotifyAll_starts hl hnow _ _).bind fun r hr => hr

/-! ### What an event does -/

theorem countAndNotify_owned (ho : Owned s) (hl : s.timers.Sound l) {publisher : Nat} {ctx : Ctx}
    (hnow : Timely ctx.now) (hwriting : s.topic.writing.contains publisher = true) :
    fueled fuel (l.length + s.topic.node.pollset.length) Owned
      (s.next fuel (.countAndNotify publisher ctx)) := by
  show fueled _ _ _ (if s.topic.writing.contains publisher then _ else _)
  rw [if_pos hwriting]
  have hnotified : fueled fuel _ _ _ := notify_starts
    (s := { s with topic := { s.topic with node := s.topic.node.writeCount ctx } }) hl hnow
  exact hnotified.bind fun t ht => (ho.starts ht.1 ht.2).keep rfl fun _ => rfl

theorem check_owned (ho : Owned s) (hl : s.timers.Sound l) {fd : Fd} {ctx : Ctx}
    (hnow : Timely ctx.now) {file : File} {sd : SubscriberData}
    (hsub : s.topic.subscriber fd = some (file, sd)) :
    fueled fuel l.length Owned (s.next fuel (.check fd ctx)) := by
  have hopen : (s.topic.files fd).isSome = true := by
    rw [(subscriber_eq_some hsub).1]
    rfl
  unfold next
  simp only [hsub]
  exact (appearsUpdated_starts hl hnow hopen _ sd).bind fun r hr =>
    ho.starts hr (setPriv_sameOpen hsub _)

theorem pollSetup_owned (ho : Owned s) (hl : s.timers.Sound l) {fd : Fd} {ctx : Ctx}
    (hnow : Timely ctx.now) (id : Nat) (events : Bool) {file : File} {sd : SubscriberData}
    (hsub : s.topic.subscriber fd = some (file, sd)) :
    fueled fuel l.length Owned (s.next fuel (.pollSetup fd ctx id events)) := by
  have hopen : (s.topic.files fd).isSome = true := by
    rw [(subscriber_eq_some hsub).1]
    rfl
  unfold next
  simp only [hsub]
  refine (appearsUpdated_starts hl hnow hopen _ sd).bind fun r hr => ?_
  dsimp only
  split
  · exact ho
  · exact ho.starts hr (setPriv_sameOpen hsub _)

/-- The expiry of a timer: its entry leaves the queue, and may be started again. -/
theorem updateDeferred_owned (ho : Owned s) (hl : s.timers.Sound l) {fd : Fd} {ctx : Ctx}
    (hnow : Timely ctx.now) (hdue : s.timers.due ctx.now = some (.inl fd)) :
    fueled fuel (l.length + s.topic.node.pollset.length + 1) Owned
      (s.next fuel (.updateDeferred fd ctx)) := by
  unfold next
  simp only [hdue, if_true]
  have hpop := (Callouts.hrtCallPop_spec hl (.inl fd) fuel).fueled
  refine (hpop.mono (by omega) fun _ h => h).bind fun timers hr => ?_
  obtain ⟨hsame, l', hl'⟩ := hr
  have hlen := hl.length_le hl' hsame
  have hpopped : Owned { topic := clearCall fd s.topic, timers := timers } := by
    refine ⟨⟨l', hl'⟩, fun fd' => ?_, fun fd' hd => ?_⟩
    · show (timers.entry (.inl fd')).period = 0
      rw [hsame]
      by_cases heq : fd' = fd
      · rw [heq, Function.update_self]
        exact ho.period fd
      · rw [Function.update_of_ne fun h => heq (Sum.inl.inj h)]
        exact ho.period fd'
    · have hd : (timers.entry (.inl fd')).deadline ≠ 0 := hd
      rw [hsame] at hd
      show ((clearCall fd s.topic).files fd').isSome = true
      rw [clearCall_sameOpen fd s.topic fd']
      by_cases heq : fd' = fd
      · rw [heq, Function.update_self] at hd
        exact absurd rfl hd
      · rw [Function.update_of_ne fun h => heq (Sum.inl.inj h)] at hd
        exact ho.opened fd' hd
  -- Its period is zero, so the entry is not entered again when the callout returns.
  have hreturn (t : TimedTopic ω κ) (ht : Owned t) :
      fueled fuel (l.length + s.topic.node.pollset.length + 1) Owned
        ((t.timers.hrtCallReenter fuel (.inl fd) (s.timers.entry (.inl fd)).deadline).bind
          fun timers => some { t with timers := timers }) := by
    unfold Callouts.hrtCallReenter
    rw [if_neg fun hne => hne (ht.period fd)]
    exact ht
  split
  · have hnotified : fueled fuel _ _ _ := notify_starts
      (s := { topic := clearCall fd s.topic, timers := timers }) hl' hnow
    have hslots : (clearCall fd s.topic).node = s.topic.node := by
      unfold clearCall
      split <;> rfl
    simp only [hslots] at hnotified
    refine (hnotified.mono (by omega) fun _ h => h).bind fun t ht => ?_
    exact hreturn t (hpopped.starts ht.1 ht.2)
  · exact hreturn _ hpopped

end

end TimedTopic

/-! ### The system -/

section

variable {ω κ : Type} [DecidableEq ω]

/-- What can happen next: something at the topic, or something that others do to the queue. -/
inductive TimedEvent
  | topic (e : Topic.Event)
  | others

/-- One step. Others leave the queue sound and the entries of the topic alone. -/
inductive TimedStep : TimedTopic ω κ → TimedEvent → TimedTopic ω κ → Prop
  | topic {s t : TimedTopic ω κ} {e : Topic.Event} {fuel : Nat} :
      s.next fuel e = some t → TimedStep s (.topic e) t
  | others {s : TimedTopic ω κ} {timers : Timers ω κ} : (∃ l, timers.Sound l) →
      (∀ fd, timers.entry (.inl fd) = s.timers.entry (.inl fd)) →
      TimedStep s .others { s with timers := timers }

/-- A topic with the callout queue as a transition system, from the creation of the topic on. -/
def timedTopic (metadata : OrbMetadata) : LTS (TimedTopic ω κ) TimedEvent where
  init s := (topic metadata).init s.topic ∧ (∃ l, s.timers.Sound l) ∧
    ∀ fd, s.timers.entry (.inl fd) = zeroCall
  step := TimedStep

/-- The time of the event is in range. -/
def TimelyEvent (_ : TimedTopic ω κ) : TimedEvent → Prop
  | .topic (.countAndNotify _ ctx) | .topic (.check _ ctx) | .topic (.pollSetup _ ctx _ _)
  | .topic (.updateDeferred _ ctx) => TimedTopic.Timely ctx.now
  | _ => True

/-- No subscription is closed while its timer runs. -/
def CloseCalled (s : TimedTopic ω κ) : TimedEvent → Prop
  | .topic (.unsubscribe fd _) => s.timers.hrtCalled (.inl fd) = true
  | _ => True

variable {s t : TimedTopic ω κ} {e : TimedEvent}

/-- A new subscription starts with an entry that is not in the queue. -/
theorem owned_of_subscribe (ho : s.Owned) {fuel : Nat} {fd : Fd} {ctx : Ctx} {retry : Bool}
    (h : s.next fuel (.subscribe fd ctx retry) = some t) : t.Owned := by
  unfold TimedTopic.next at h
  dsimp only at h
  split at h
  · cases h
  next hclosed =>
  split at h
  · cases h
    have hzero : (s.timers.entry (.inl fd)).deadline = 0 := by
      by_contra hne
      have hopen := ho.opened fd hne
      rw [hclosed] at hopen
      cases hopen
    obtain ⟨l, hl⟩ := ho.sound
    have hbut := (hl.but hzero).setEntry (zeroCall : HrtCall (Callout κ))
    refine ⟨⟨l, hbut.sound (by rw [Callouts.setEntry_self]; rfl)⟩, fun fd' => ?_,
      fun fd' hd => ?_⟩
    · by_cases heq : fd' = fd
      · rw [heq, Callouts.setEntry_self]
        rfl
      · rw [Callouts.setEntry_of_ne _ _ fun h => heq (Sum.inl.inj h)]
        exact ho.period fd'
    · dsimp only at hd ⊢
      by_cases heq : fd' = fd
      · rw [heq, Function.update_self]
        rfl
      · rw [Callouts.setEntry_of_ne _ _ fun h => heq (Sum.inl.inj h)] at hd
        rw [Function.update_of_ne heq]
        exact ho.opened fd' hd
  · cases h
    exact ho

/-- A subscription whose timer does not run may be closed. -/
theorem owned_of_unsubscribe (ho : s.Owned) {fuel : Nat} {fd : Fd} {ctx : Ctx}
    (hcalled : s.timers.hrtCalled (.inl fd) = true)
    (h : s.next fuel (.unsubscribe fd ctx) = some t) : t.Owned := by
  obtain ⟨t', ht', rfl⟩ := Option.map_eq_some_iff.mp h
  unfold Topic.next at ht'
  dsimp only at ht'
  split at ht'
  · cases ht'
  · cases ht'
    refine ⟨ho.sound, ho.period, fun fd' hd => ?_⟩
    have hne : fd' ≠ fd := by
      rintro rfl
      exact hd (of_decide_eq_true hcalled)
    dsimp only
    rw [Function.update_of_ne hne]
    exact ho.opened fd' hd

/-- A timer that expires is the one that is due. -/
theorem due_of_updateDeferred {fuel : Nat} {fd : Fd} {ctx : Ctx}
    (h : s.next fuel (.updateDeferred fd ctx) = some t) :
    s.timers.due ctx.now = some (.inl fd) := by
  unfold TimedTopic.next at h
  dsimp only at h
  split at h
  · cases h
  next call hcall =>
  split_ifs at h with heq
  exact heq ▸ hcall

/-- **The step lemma.** -/
theorem owned_of_step (ho : s.Owned) (h : TimedStep s e t) (hnow : TimelyEvent s e)
    (hcalled : CloseCalled s e) : t.Owned := by
  cases h with
  | others hsound hsame =>
      refine ⟨hsound, fun fd => ?_, fun fd hd => ?_⟩
      · rw [hsame]
        exact ho.period fd
      · rw [hsame] at hd
        exact ho.opened fd hd
  | @topic _ e fuel hnext =>
      obtain ⟨l, hl⟩ := ho.sound
      cases e with
      | copyData publisher ctx buffer =>
          refine ho.quiet (fun t' ht' => ?_) hnext
          unfold Topic.next at ht'
          dsimp only at ht'
          split_ifs at ht'
          split at ht' <;> cases ht' <;> exact fun _ => rfl
      | countAndNotify publisher ctx =>
          by_cases hwriting : s.topic.writing.contains publisher = true
          · exact (TimedTopic.countAndNotify_owned ho hl hnow hwriting).some hnext
          · unfold TimedTopic.next at hnext
            dsimp only at hnext
            rw [if_neg hwriting] at hnext
            cases hnext
      | subscribe fd ctx retry => exact owned_of_subscribe ho hnext
      | unsubscribe fd ctx => exact owned_of_unsubscribe ho hcalled hnext
      | read fd wanted buflen =>
          refine ho.quiet (fun t' ht' => ?_) hnext
          obtain ⟨⟨file, sd⟩, hsub, ht'⟩ := Option.bind_eq_some_iff.mp ht'
          cases ht'
          exact TimedTopic.setPriv_sameOpen hsub _
      | check fd ctx =>
          obtain ⟨⟨file, sd⟩, hsub, -⟩ := Option.bind_eq_some_iff.mp hnext
          exact (TimedTopic.check_owned ho hl hnow hsub).some hnext
      | setInterval fd interval =>
          refine ho.quiet (fun t' ht' => ?_) hnext
          obtain ⟨⟨file, sd⟩, hsub, ht'⟩ := Option.bind_eq_some_iff.mp ht'
          cases ht'
          exact TimedTopic.setPriv_sameOpen hsub _
      | pollSetup fd ctx id events =>
          obtain ⟨⟨file, sd⟩, hsub, -⟩ := Option.bind_eq_some_iff.mp hnext
          exact (TimedTopic.pollSetup_owned ho hl hnow id events hsub).some hnext
      | pollTeardown id =>
          refine ho.quiet (fun t' ht' => ?_) hnext
          unfold Topic.next at ht'
          dsimp only at ht'
          split at ht' <;> cases ht' <;> exact fun _ => rfl
      | updateDeferred fd ctx =>
          have hdue := due_of_updateDeferred hnext
          exact (TimedTopic.updateDeferred_owned ho hl hnow hdue).some hnext

theorem owned_of_reachable {metadata : OrbMetadata}
    (h : (((timedTopic metadata).restrict TimelyEvent).restrict CloseCalled).Reachable s) :
    s.Owned := by
  refine h.invariant ?_ ?_
  · rintro s ⟨-, hsound, hzero⟩
    refine ⟨hsound, fun fd => ?_, fun fd hd => ?_⟩
    · rw [hzero]
      rfl
    · rw [hzero] at hd
      exact absurd rfl hd
  · rintro s e t ho ⟨hcalled, hnow, hstep⟩
    exact owned_of_step ho hstep hnow hcalled

/-- Can the event happen now? A timer expires when its entry is due. -/
def Possible (s : TimedTopic ω κ) : Topic.Event → Prop
  | .updateDeferred fd ctx => s.timers.due ctx.now = some (.inl fd)
  | e => (s.topic.next e).isSome = true

/-- No operation gets stuck in the queue. -/
theorem timed_progress {metadata : OrbMetadata} {e : Topic.Event}
    (h : (((timedTopic metadata).restrict TimelyEvent).restrict CloseCalled).Reachable s)
    (hnow : TimelyEvent s (.topic e)) (hpossible : Possible s e) :
    ∃ t, TimedStep s (.topic e) t := by
  have ho := owned_of_reachable h
  obtain ⟨l, hl⟩ := ho.sound
  have hquiet (hnext : s.next 0 e = (s.topic.next e).map fun t => { s with topic := t })
      (hsome : (s.topic.next e).isSome = true) : ∃ t, TimedStep s (.topic e) t := by
    obtain ⟨t, ht⟩ := Option.isSome_iff_exists.mp hsome
    rw [ht] at hnext
    exact ⟨_, .topic hnext⟩
  cases e with
  | countAndNotify publisher ctx =>
      obtain ⟨t, ht⟩ := Option.isSome_iff_exists.mp hpossible
      unfold Topic.next at ht
      dsimp only at ht
      split_ifs at ht with hwriting
      obtain ⟨t, ht, -⟩ :=
        (TimedTopic.countAndNotify_owned ho hl hnow hwriting).exists_some
      exact ⟨t, .topic ht⟩
  | subscribe fd ctx retry =>
      have hsome : (s.next 0 (.subscribe fd ctx retry)).isSome = true := by
        unfold Possible Topic.next at hpossible
        unfold TimedTopic.next
        dsimp only at hpossible ⊢
        split
        · next hfile =>
            rw [hfile] at hpossible
            cases hpossible
        · split <;> rfl
      obtain ⟨t, ht⟩ := Option.isSome_iff_exists.mp hsome
      exact ⟨t, .topic ht⟩
  | check fd ctx =>
      obtain ⟨t, ht⟩ := Option.isSome_iff_exists.mp hpossible
      obtain ⟨⟨file, sd⟩, hsub, -⟩ := Option.bind_eq_some_iff.mp ht
      obtain ⟨t, ht, -⟩ := (TimedTopic.check_owned ho hl hnow hsub).exists_some
      exact ⟨t, .topic ht⟩
  | pollSetup fd ctx id events =>
      obtain ⟨t, ht⟩ := Option.isSome_iff_exists.mp hpossible
      obtain ⟨⟨file, sd⟩, hsub, -⟩ := Option.bind_eq_some_iff.mp ht
      obtain ⟨t, ht, -⟩ := (TimedTopic.pollSetup_owned ho hl hnow id events hsub).exists_some
      exact ⟨t, .topic ht⟩
  | updateDeferred fd ctx =>
      obtain ⟨t, ht, -⟩ := (TimedTopic.updateDeferred_owned ho hl hnow hpossible).exists_some
      exact ⟨t, .topic ht⟩
  | _ => exact hquiet rfl hpossible

/-- A subscription that is closed while its timer runs leaves its entry in the queue. -/
theorem dangling_of_close (ho : s.Owned) {fd : Fd} {ctx : Ctx}
    (h : TimedStep s (.topic (.unsubscribe fd ctx)) t)
    (hruns : s.timers.hrtCalled (.inl fd) ≠ true) : ¬ t.NoDangling := by
  rintro ⟨l', hrepr, hopen⟩
  obtain ⟨l, hl⟩ := ho.sound
  cases h with
  | topic hnext =>
      obtain ⟨t', ht', rfl⟩ := Option.map_eq_some_iff.mp hnext
      obtain rfl := hrepr.unique hl.repr
      have hqueued : Sum.inl fd ∈ l' :=
        (hl.mem_iff _).mpr fun hzero => hruns (decide_eq_true hzero)
      have hclosed := hopen fd hqueued
      unfold Topic.next at ht'
      dsimp only at ht'
      split at ht'
      · cases ht'
      · cases ht'
        dsimp only at hclosed
        rw [Function.update_self] at hclosed
        cases hclosed

/-- **No dangling timer.** In a run in which the times are in range, no entry of the callout queue
ever belongs to a subscription that is closed if and only if no subscription is closed while its
timer runs. -/
theorem no_dangling_iff {metadata : OrbMetadata} {es : List TimedEvent}
    (hs : (timedTopic metadata).init s) :
    (((timedTopic metadata).restrict TimelyEvent).obeying fun _ _ t => t.NoDangling).Run s es t ↔
      (((timedTopic metadata).restrict TimelyEvent).restrict CloseCalled).Run s es t := by
  refine LTS.run_obeying_iff (fun s e t hreach hstep => ⟨fun hno => ?_, fun hcalled => ?_⟩) hs
  · have ho := owned_of_reachable hreach
    by_contra hcareless
    cases e with
    | others => exact hcareless trivial
    | topic e =>
        cases e with
        | unsubscribe fd ctx => exact dangling_of_close ho hstep.2 hcareless hno
        | _ => exact hcareless trivial
  · exact (owned_of_step (owned_of_reachable hreach) hstep.2 hstep.1 hcalled).noDangling

end

/-! ### One subscriber -/

/-- The created topic, with an empty queue. -/
def createdTimed : TimedTopic Empty Unit where
  topic := created
  timers := { queue := { head := none, tail := none, flink := fun _ => none }
              entry := fun _ => zeroCall }

theorem createdTimed_init : (timedTopic ⟨"t", 1⟩).init createdTimed := by
  refine ⟨⟨rfl, fun _ => rfl, rfl⟩, ⟨[], ⟨rfl, rfl⟩, List.Pairwise.nil, fun e => ?_⟩, fun _ => rfl⟩
  simp [createdTimed, zeroCall]

/-- The next state after an event at the topic. -/
def nextTimed (s : TimedTopic Empty Unit) : TimedEvent → Option (TimedTopic Empty Unit)
  | .topic e => s.next 9 e
  | .others => none

theorem step_of_nextTimed {s t : TimedTopic Empty Unit} {e : TimedEvent}
    (h : nextTimed s e = some t) : TimedStep s e t := by
  cases e with
  | topic e => exact .topic h
  | others => cases h

/-- A subscriber asks for no more than one update a second, and checks the topic after it is
written. -/
def checkedEvents : List TimedEvent :=
  [.topic (.subscribe 0 ampleCtx false), .topic (.setInterval 0 1000000),
    .topic (.copyData 1 ampleCtx [7]), .topic (.countAndNotify 1 ampleCtx),
    .topic (.check 0 ampleCtx)]

/-- The timer expires, and the subscription is closed. -/
def expiredEvents : List TimedEvent :=
  checkedEvents ++ [.topic (.updateDeferred 0 { ampleCtx with now := 1000000 }),
    .topic (.unsubscribe 0 ampleCtx)]

/-- The subscription is closed while the timer runs. -/
def earlyEvents : List TimedEvent := checkedEvents ++ [.topic (.unsubscribe 0 ampleCtx)]

instance (s : TimedTopic Empty Unit) (e : TimedEvent) : Decidable (TimelyEvent s e) := by
  unfold TimelyEvent TimedTopic.Timely
  split <;> infer_instance

instance (s : TimedTopic Empty Unit) (e : TimedEvent) : Decidable (CloseCalled s e) := by
  unfold CloseCalled
  split <;> infer_instance

/-- The next state after an event at a time in range. -/
def nextTimely (s : TimedTopic Empty Unit) (e : TimedEvent) : Option (TimedTopic Empty Unit) :=
  if TimelyEvent s e then nextTimed s e else none

theorem step_of_nextTimely {s t : TimedTopic Empty Unit} {e : TimedEvent}
    (h : nextTimely s e = some t) :
    ((timedTopic ⟨"t", 1⟩).restrict TimelyEvent).step s e t := by
  unfold nextTimely at h
  split_ifs at h with hnow
  exact ⟨hnow, step_of_nextTimed h⟩

/-- When the timer has expired first, no entry dangles. -/
theorem no_dangling_expired :
    ∃ t, (((timedTopic ⟨"t", 1⟩).restrict TimelyEvent).obeying fun _ _ t => t.NoDangling).Run
      createdTimed expiredEvents t := by
  obtain ⟨t, ht⟩ := Option.isSome_iff_exists.mp (show (expiredEvents.foldlM (fun s e =>
    if CloseCalled s e then nextTimely s e else none) createdTimed).isSome = true by
    decide +kernel)
  have hrun : (((timedTopic ⟨"t", 1⟩).restrict TimelyEvent).restrict CloseCalled).Run
      createdTimed expiredEvents t :=
    .restrict_of_foldlM (fun _ _ _ => step_of_nextTimely) ht
  exact ⟨t, (no_dangling_iff createdTimed_init).mpr hrun⟩

/-- Otherwise the entry is still in the queue when its subscription is gone. -/
theorem close_dangles :
    ¬ ∀ s : TimedTopic Empty Unit,
      ((timedTopic ⟨"t", 1⟩).restrict TimelyEvent).Reachable s → s.NoDangling := by
  intro hall
  obtain ⟨s, hs⟩ := Option.isSome_iff_exists.mp
    (show (earlyEvents.foldlM nextTimely createdTimed).isSome = true by decide +kernel)
  have hleft : ∀ s ∈ earlyEvents.foldlM nextTimely createdTimed,
      s.timers.queue.head = some (.inl 0) ∧ (s.topic.files 0).isSome = false := by
    decide +kernel
  obtain ⟨hhead, hclosed⟩ := hleft s hs
  have hrun : ((timedTopic ⟨"t", 1⟩).restrict TimelyEvent).Run createdTimed earlyEvents s :=
    .of_foldlM (fun _ _ _ => step_of_nextTimely) hs
  obtain ⟨l, hrepr, hopen⟩ := hall s ⟨_, _, createdTimed_init, hrun⟩
  rw [hrepr.head] at hhead
  rw [hopen 0 (List.mem_of_head? hhead)] at hclosed
  cases hclosed

end Px4Firmware.Uorb
