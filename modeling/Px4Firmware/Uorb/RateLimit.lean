import Px4Firmware.Uorb.Mirror

/-!
# Px4Firmware.Uorb.RateLimit

**Rate-limited subscribers.** The generation a subscriber has seen, whether an update was reported
to it and its interval timer are three parts of one automaton, which checks, notifications, copies
and the expiry of timers move. `Moved` says once what a step can do to the data of a subscriber;
what the interval promises follows from that by induction on the runs (`rate_limited`).

The generation is a counter of 32 bits, and the time one of 64. When the topic is published 2^32
times without a copy, the subscriber cannot tell that it was, even if it was told before; and an
interval that would end after the time has wrapped is over at once (`rate_limit_wraps`).
-/

namespace Px4Firmware.Uorb

open Px4Firmware.Hrt Px4Firmware.Lib

/-! ### The system -/

/-- The time of an event, where the code asks for it. -/
def TimedEvent.time? : TimedEvent → Option UInt64
  | .topic (.countAndNotify _ ctx) | .topic (.check _ ctx) | .topic (.pollSetup _ ctx _ _)
  | .topic (.updateDeferred _ ctx) => some ctx.now
  | _ => none

/-- What an observer knows: the time of the last event, and how many copies and counts there
were. -/
structure Watch where
  clock : UInt64
  history : History

section

variable {ω κ : Type}

/-- What an observer knows after an event. -/
def Watch.next (w : Watch) (s : TimedTopic ω κ) (e : TimedEvent) : Watch where
  clock := e.time?.getD w.clock
  history :=
    match e with
    | .topic e => w.history.watch s.topic e
    | .others => w.history

/-- The time does not go back. -/
def Punctual (p : TimedTopic ω κ × Watch) (e : TimedEvent) : Prop :=
  ∀ now, e.time? = some now → p.2.clock ≤ now

end

/-- The private data of the file of a subscriber. -/
def Topic.priv (s : Topic) (fd : Fd) : Option SubscriberData := (s.files fd).bind File.priv

/-- The interval of the subscriber stays as it is, and so does its subscription. -/
def Constant (fd : Fd) : TimedEvent → Prop
  | .topic (.setInterval fd' _) | .topic (.unsubscribe fd' _) => fd' ≠ fd
  | _ => True

section

variable {ω κ : Type} [DecidableEq ω]

/-- A system that is observed, at times that do not go back. -/
def watched (m : LTS (TimedTopic ω κ) TimedEvent) : LTS (TimedTopic ω κ × Watch) TimedEvent :=
  (m.observe ⟨0, .empty⟩ fun w s e _ => w.next s e).restrict Punctual

/-- A topic with the callout queue, at times in range that do not go back. No subscription is closed
while its timer runs. -/
def clockedTopic (metadata : OrbMetadata) : LTS (TimedTopic ω κ × Watch) TimedEvent :=
  watched (((timedTopic metadata).restrict TimelyEvent).restrict CloseCalled)

/-- The runs in which the interval of a subscriber is constant. -/
def constantTopic (metadata : OrbMetadata) (fd : Fd) : LTS (TimedTopic ω κ × Watch) TimedEvent :=
  (clockedTopic metadata).restrict fun _ e => Constant fd e

/-- The event does not copy the topic to the subscriber. -/
def Uncopied (fd : Fd) (p : TimedTopic ω κ × Watch) : TimedEvent → Prop
  | .topic (.read fd' _ buflen) => fd' = fd → p.1.topic.node.readCopies buflen = false
  | _ => True

end

/-! ### What a step does to a subscriber -/

namespace SubscriberData

variable {now : UInt64} {generation : UInt32} {sd : SubscriberData}

/-- The next check reports an update if there is one. -/
def Free (sd : SubscriberData) : Prop := sd.updateCall = 0 ∨ sd.updateReported = true

theorem Free.checked (h : sd.Free) (now : UInt64) (generation : UInt32) :
    (sd.appearsUpdated now generation).2.Free := by
  rcases appearsUpdated_cases now generation sd with hkept | ⟨-, -, -, hreports⟩
  · rw [hkept]
    exact h
  · rw [hreports]
    exact .inr rfl

theorem Free.updated (hfree : sd.Free) (hne : sd.generation ≠ generation)
    (hlimited : sd.updateInterval ≠ 0) (now : UInt64) :
    (sd.appearsUpdated now generation).1 = true := by
  unfold appearsUpdated hrtCalled
  rw [if_neg hne, if_neg hlimited]
  rcases hfree with hcalled | hreported
  · by_cases hreported : sd.updateReported <;> simp [hcalled, hreported]
  · simp [hreported]

end SubscriberData

/-- What a step of the topic does to the data of a subscriber: it stays, it is checked, the topic is
copied, or the interval timer expires, after which the waiters are notified. -/
inductive Moved (fd : Fd) (s t : Topic) : TimedEvent → SubscriberData → SubscriberData → Prop
  | kept {e : TimedEvent} {sd : SubscriberData} :
      (∀ ctx, e ≠ .topic (.updateDeferred fd ctx)) → Moved fd s t e sd sd
  | checked {e : TimedEvent} {sd : SubscriberData} {now : UInt64} :
      (∀ ctx, e ≠ .topic (.updateDeferred fd ctx)) → e.time? = some now →
      Moved fd s t e sd (sd.appearsUpdated now t.node.generation).2
  | copied {wanted : Bool} {buflen : Nat} {sd : SubscriberData} :
      s.node.readCopies buflen = true → Moved fd s t (.topic (.read fd wanted buflen)) sd
        { sd with generation := s.node.generation, updateReported := false }
  | expired {ctx : Ctx} {sd : SubscriberData} : sd.updateCall ≤ ctx.now →
      Moved fd s t (.topic (.updateDeferred fd ctx)) sd { sd with updateCall := 0 }
  | expiredChecked {ctx : Ctx} {sd : SubscriberData} : sd.updateCall ≤ ctx.now →
      Moved fd s t (.topic (.updateDeferred fd ctx)) sd
        ({ sd with updateCall := 0 }.appearsUpdated ctx.now t.node.generation).2

/-! ### The data of a subscriber -/

section

variable {s t : Topic} {fd fd' : Fd} {sd : SubscriberData}

theorem subscriber_of_priv (h : s.priv fd = some sd) :
    ∃ file, s.subscriber fd = some (file, sd) := by
  obtain ⟨file, hfile, hpriv⟩ := Option.bind_eq_some_iff.mp h
  refine ⟨file, ?_⟩
  unfold Topic.subscriber
  rw [hfile, Option.bind_some, hpriv]
  rfl

theorem priv_of_subscriber {file : File} (h : s.subscriber fd = some (file, sd)) :
    s.priv fd = some sd := by
  obtain ⟨hfile, hpriv⟩ := subscriber_eq_some h
  unfold Topic.priv
  rw [hfile]
  exact hpriv

theorem priv_setPriv (s : Topic) (fd fd' : Fd) (file : File) (sd : SubscriberData) :
    (s.setPriv fd file sd).priv fd' = if fd' = fd then some sd else s.priv fd' := by
  unfold Topic.setPriv Topic.priv
  by_cases heq : fd' = fd
  · rw [if_pos heq, heq]
    simp
  · rw [if_neg heq]
    simp [Function.update_of_ne heq]

/-- Notifying a waiter checks the topic for it. -/
theorem pollNotifyOne_priv {files : Fd → Option File} (now : UInt64) (generation : UInt32)
    (fds : PollFd) (h : (files fd).bind File.priv = some sd) :
    ((pollNotifyOne now generation fds files).2 fd).bind File.priv =
      some (if fd = fds.priv then (sd.appearsUpdated now generation).2 else sd) := by
  unfold pollNotifyOne
  by_cases heq : fd = fds.priv
  · subst heq
    obtain ⟨⟨path, oflags, priv⟩, hfile, hpriv⟩ := Option.bind_eq_some_iff.mp h
    obtain rfl : priv = some sd := hpriv
    simp [hfile]
  · rw [if_neg heq, ← h]
    split
    · simp [Function.update_of_ne heq]
    · rfl

/-- The loop of the notification, by induction on the slots. A subscriber that waits in several is
checked again, which does nothing. -/
theorem pollNotifyAll_priv {files : Fd → Option File} (now : UInt64) (generation : UInt32)
    (slots : List (Option PollFd)) (h : (files fd).bind File.priv = some sd) :
    ((pollNotifyAll now generation slots files).2 fd).bind File.priv = some sd ∨
      ((pollNotifyAll now generation slots files).2 fd).bind File.priv =
        some (sd.appearsUpdated now generation).2 := by
  induction slots generalizing files sd with
  | nil => exact .inl h
  | cons slot slots ih =>
      cases slot with
      | none => exact ih h
      | some fds =>
          have hone := pollNotifyOne_priv now generation fds h
          have hrest := ih hone
          by_cases heq : fd = fds.priv
          · rw [if_pos heq, SubscriberData.appearsUpdated_twice] at hrest
            exact .inr (hrest.elim id id)
          · rw [if_neg heq] at hrest
            exact hrest

theorem notify_priv (ctx : Ctx) (h : s.priv fd = some sd) :
    (s.notify ctx).priv fd = some sd ∨
      (s.notify ctx).priv fd = some (sd.appearsUpdated ctx.now s.node.generation).2 :=
  pollNotifyAll_priv ctx.now s.node.generation s.node.pollset h

/-- A step that gives some subscriber other data moves the others not. -/
theorem Moved.setPriv {e : TimedEvent} {file : File} {sd' sd₁ : SubscriberData}
    (hother : ∀ ctx, e ≠ .topic (.updateDeferred fd ctx)) (h : s.priv fd = some sd)
    (hsub : s.subscriber fd' = some (file, sd'))
    (hmoved : fd = fd' → Moved fd s t e sd' sd₁)
    (ht : t.priv fd = (s.setPriv fd' file sd₁).priv fd) :
    ∃ sd₂, t.priv fd = some sd₂ ∧ Moved fd s t e sd sd₂ := by
  rw [priv_setPriv] at ht
  by_cases heq : fd = fd'
  · rw [if_pos heq] at ht
    subst heq
    obtain rfl := Option.some.inj (h.symm.trans (priv_of_subscriber hsub))
    exact ⟨sd₁, ht, hmoved rfl⟩
  · rw [if_neg heq, h] at ht
    exact ⟨sd, ht, .kept hother⟩

/-- A read either copies the topic or leaves the subscriber alone. -/
theorem OrbDevNode.read_priv (wanted : Bool) (buflen : Nat) (node : OrbDevNode)
    (sd : SubscriberData) :
    (node.read wanted buflen sd).2 =
      if node.readCopies buflen then
        { sd with generation := node.generation, updateReported := false }
      else sd := by
  unfold read readCopies
  cases node.data with
  | none => rfl
  | some data =>
      by_cases hlen : buflen = node.metadata.oSize
      · simp [hlen]
      · simp [hlen]

theorem moved_of_read {wanted : Bool} {buflen : Nat} (h : s.priv fd = some sd)
    (hnext : s.next (.read fd' wanted buflen) = some t) :
    ∃ sd', t.priv fd = some sd' ∧ Moved fd s t (.topic (.read fd' wanted buflen)) sd sd' := by
  obtain ⟨⟨file, sd₁⟩, hsub, hnext⟩ := Option.bind_eq_some_iff.mp hnext
  cases hnext
  refine Moved.setPriv (by simp) h hsub ?_ rfl
  intro heq
  subst heq
  rw [OrbDevNode.read_priv]
  split_ifs with hcopies
  · exact .copied hcopies
  · exact .kept (by simp)

/-- The expiry of a timer. -/
theorem moved_of_updateDeferred {ctx : Ctx} (h : s.priv fd = some sd)
    (hdue : fd' = fd → sd.updateCall ≤ ctx.now)
    (hnext : s.next (.updateDeferred fd' ctx) = some t) :
    ∃ sd', t.priv fd = some sd' ∧ Moved fd s t (.topic (.updateDeferred fd' ctx)) sd sd' := by
  obtain ⟨⟨file, sd₁⟩, hsub, hnext⟩ := Option.bind_eq_some_iff.mp hnext
  dsimp only at hnext
  split_ifs at hnext
  cases hnext
  have hcleared := priv_setPriv s fd' fd file { sd₁ with updateCall := 0 }
  by_cases heq : fd = fd'
  · rw [if_pos heq] at hcleared
    subst heq
    obtain rfl := Option.some.inj (h.symm.trans (priv_of_subscriber hsub))
    rcases notify_priv ctx hcleared with hkept | hchecked
    · exact ⟨_, hkept, .expired (hdue rfl)⟩
    · exact ⟨_, hchecked, .expiredChecked (hdue rfl)⟩
  · rw [if_neg heq, h] at hcleared
    have hother : ∀ ctx', TimedEvent.topic (.updateDeferred fd' ctx) ≠
        .topic (.updateDeferred fd ctx') := by
      intro ctx' hsame
      cases hsame
      exact heq rfl
    rcases notify_priv ctx hcleared with hkept | hchecked
    · exact ⟨_, hkept, .kept hother⟩
    · exact ⟨_, hchecked, .checked hother rfl⟩

/-- Events that leave the file of a subscriber as it is. -/
theorem files_of_next {e : Topic.Event} (h : s.priv fd = some sd)
    (hconstant : Constant fd (.topic e)) (hnext : s.next e = some t) :
    match e with
    | .copyData .. | .subscribe .. | .unsubscribe .. | .setInterval .. | .pollTeardown .. =>
        t.files fd = s.files fd
    | _ => True := by
  cases e with
  | copyData publisher ctx buffer =>
      unfold Topic.next at hnext
      dsimp only at hnext
      split_ifs at hnext
      split at hnext <;> cases hnext <;> rfl
  | subscribe fd' ctx retry =>
      unfold Topic.next at hnext
      dsimp only at hnext
      split at hnext
      · cases hnext
      next hclosed =>
      split at hnext
      · cases hnext
        -- The subscriber was there, and the new file was closed.
        refine Function.update_of_ne ?_ ..
        intro heq
        subst heq
        unfold Topic.priv at h
        rw [hclosed] at h
        cases h
      · cases hnext
        rfl
  | unsubscribe fd' ctx =>
      unfold Topic.next at hnext
      dsimp only at hnext
      split at hnext
      · cases hnext
      · cases hnext
        exact Function.update_of_ne (Ne.symm hconstant) ..
  | setInterval fd' interval =>
      obtain ⟨⟨file, sd₁⟩, hsub, hnext⟩ := Option.bind_eq_some_iff.mp hnext
      cases hnext
      exact Function.update_of_ne (Ne.symm hconstant) ..
  | pollTeardown id =>
      unfold Topic.next at hnext
      dsimp only at hnext
      split at hnext <;> cases hnext <;> rfl
  | _ => trivial

theorem moved_of_countAndNotify {publisher : Nat} {ctx : Ctx} (h : s.priv fd = some sd)
    (hnext : s.next (.countAndNotify publisher ctx) = some t) :
    ∃ sd', t.priv fd = some sd' ∧
      Moved fd s t (.topic (.countAndNotify publisher ctx)) sd sd' := by
  unfold Topic.next at hnext
  dsimp only at hnext
  split_ifs at hnext
  cases hnext
  have hwritten : ({ s with node := s.node.writeCount ctx } : Topic).priv fd = some sd := h
  rcases notify_priv ctx hwritten with hkept | hchecked
  · exact ⟨_, hkept, .kept (by simp)⟩
  · exact ⟨_, hchecked, .checked (by simp) rfl⟩

theorem moved_of_check {ctx : Ctx} (h : s.priv fd = some sd)
    (hnext : s.next (.check fd' ctx) = some t) :
    ∃ sd', t.priv fd = some sd' ∧ Moved fd s t (.topic (.check fd' ctx)) sd sd' := by
  obtain ⟨⟨file, sd₁⟩, hsub, hnext⟩ := Option.bind_eq_some_iff.mp hnext
  cases hnext
  exact Moved.setPriv (by simp) h hsub (fun _ => .checked (by simp) rfl) rfl

theorem moved_of_pollSetup {ctx : Ctx} {id : Nat} {events : Bool} (h : s.priv fd = some sd)
    (hnext : s.next (.pollSetup fd' ctx id events) = some t) :
    ∃ sd', t.priv fd = some sd' ∧ Moved fd s t (.topic (.pollSetup fd' ctx id events)) sd sd' := by
  obtain ⟨⟨file, sd₁⟩, hsub, hnext⟩ := Option.bind_eq_some_iff.mp hnext
  dsimp only at hnext
  split at hnext
  · cases hnext
    exact ⟨sd, h, .kept (by simp)⟩
  · cases hnext
    exact Moved.setPriv (by simp) h hsub (fun _ => .checked (by simp) rfl) rfl

/-- **What a step of the topic does to a subscriber.** One case for each event. -/
theorem moved_of_next {e : Topic.Event} (h : s.priv fd = some sd)
    (hconstant : Constant fd (.topic e))
    (hdue : ∀ ctx, e = .updateDeferred fd ctx → sd.updateCall ≤ ctx.now)
    (hnext : s.next e = some t) :
    ∃ sd', t.priv fd = some sd' ∧ Moved fd s t (.topic e) sd sd' := by
  have hfiles := files_of_next h hconstant hnext
  have hkept (hother : ∀ ctx, TimedEvent.topic e ≠ .topic (.updateDeferred fd ctx))
      (hfile : t.files fd = s.files fd) : ∃ sd', t.priv fd = some sd' ∧
        Moved fd s t (.topic e) sd sd' := by
    refine ⟨sd, ?_, .kept hother⟩
    unfold Topic.priv
    rw [hfile]
    exact h
  cases e with
  | copyData publisher ctx buffer => exact hkept (by simp) hfiles
  | countAndNotify publisher ctx => exact moved_of_countAndNotify h hnext
  | subscribe fd' ctx retry => exact hkept (by simp) hfiles
  | unsubscribe fd' ctx => exact hkept (by simp) hfiles
  | read fd' wanted buflen => exact moved_of_read h hnext
  | check fd' ctx => exact moved_of_check h hnext
  | setInterval fd' interval => exact hkept (by simp) hfiles
  | pollSetup fd' ctx id events => exact moved_of_pollSetup h hnext
  | pollTeardown id => exact hkept (by simp) hfiles
  | updateDeferred fd' ctx =>
      refine moved_of_updateDeferred h ?_ hnext
      intro heq
      subst heq
      exact hdue ctx rfl

end

/-! ### What a step cannot do -/

namespace Moved

variable {fd : Fd} {s t : Topic} {e : TimedEvent} {sd sd' : SubscriberData}

theorem interval (h : Moved fd s t e sd sd') : sd'.updateInterval = sd.updateInterval := by
  cases h with
  | checked => exact SubscriberData.appearsUpdated_interval _ _ _
  | expiredChecked => exact SubscriberData.appearsUpdated_interval _ _ _
  | _ => rfl

/-- The timer changes only after it has expired, or when it does. -/
theorem timer (h : Moved fd s t e sd sd') :
    sd'.updateCall = sd.updateCall ∨ ∃ now, e.time? = some now ∧ sd.updateCall ≤ now := by
  cases h with
  | kept => exact .inl rfl
  | copied => exact .inl rfl
  | expired hdue => exact .inr ⟨_, rfl, hdue⟩
  | expiredChecked hdue => exact .inr ⟨_, rfl, hdue⟩
  | @checked _ _ now hother htime =>
      rcases SubscriberData.appearsUpdated_cases now t.node.generation sd with
        hsame | ⟨-, -, hcalled, -⟩
      · exact .inl (congrArg SubscriberData.updateCall hsame)
      · exact .inr ⟨now, htime, hcalled ▸ UInt64.zero_le⟩

/-- **A new report** is made after the timer has expired, when there is an update, and starts the
timer. -/
theorem report (h : Moved fd s t e sd sd') (hbefore : sd.updateReported = false)
    (hafter : sd'.updateReported = true) :
    ∃ now, e.time? = some now ∧ sd.updateCall ≤ now ∧
      sd'.updateCall = now + sd.updateInterval.toUInt64 ∧
      sd'.generation ≠ t.node.generation := by
  have hunreported (sd₁ : SubscriberData) {now : UInt64} (hsame : sd₁.updateReported = false)
      (hreported : (sd₁.appearsUpdated now t.node.generation).2.updateReported = true) :
      (sd₁.appearsUpdated now t.node.generation).2.updateCall =
          now + sd₁.updateInterval.toUInt64 ∧ sd₁.updateCall = 0 ∧
        sd₁.generation ≠ t.node.generation := by
    rcases SubscriberData.appearsUpdated_cases now t.node.generation sd₁ with
      hkept | ⟨hne, -, hcalled, hreports⟩
    · rw [hkept, hsame] at hreported
      cases hreported
    · exact ⟨congrArg SubscriberData.updateCall hreports, hcalled, hne⟩
  cases h with
  | kept =>
      rw [hbefore] at hafter
      cases hafter
  | copied => cases hafter
  | expired =>
      rw [hbefore] at hafter
      cases hafter
  | @checked _ _ now hother htime =>
      obtain ⟨hcall, hcalled, hne⟩ := hunreported sd hbefore hafter
      refine ⟨now, htime, hcalled ▸ UInt64.zero_le, hcall, ?_⟩
      rw [SubscriberData.appearsUpdated_generation]
      exact hne
  | @expiredChecked ctx _ hdue =>
      obtain ⟨hcall, -, hne⟩ := hunreported { sd with updateCall := 0 } hbefore hafter
      refine ⟨ctx.now, rfl, hdue, hcall, ?_⟩
      rw [SubscriberData.appearsUpdated_generation]
      exact hne

/-- What was reported stays reported until it is copied. -/
theorem reported (h : Moved fd s t e sd sd')
    (huncopied : ∀ wanted buflen, e = .topic (.read fd wanted buflen) →
      s.node.readCopies buflen = false) (hreported : sd.updateReported = true) :
    sd'.updateReported = true := by
  have hchecks {now : UInt64} (sd₁ : SubscriberData) (hsame : sd₁.updateReported = true) :
      (sd₁.appearsUpdated now t.node.generation).2.updateReported = true := by
    rcases SubscriberData.appearsUpdated_cases now t.node.generation sd₁ with hkept | ⟨-, hnot, -⟩
    · rw [hkept]
      exact hsame
    · rw [hsame] at hnot
      cases hnot
  cases h with
  | kept => exact hreported
  | expired => exact hreported
  | checked => exact hchecks sd hreported
  | expiredChecked => exact hchecks { sd with updateCall := 0 } hreported
  | copied hcopies =>
      rw [huncopied _ _ rfl] at hcopies
      cases hcopies

/-- After the timer has expired, the next check reports an update, until the topic is copied. -/
theorem free (h : Moved fd s t e sd sd')
    (huncopied : ∀ wanted buflen, e = .topic (.read fd wanted buflen) →
      s.node.readCopies buflen = false) (hfree : sd.Free) : sd'.Free := by
  cases h with
  | kept => exact hfree
  | expired => exact .inl rfl
  | checked => exact hfree.checked _ _
  | expiredChecked => exact SubscriberData.Free.checked (.inl rfl) _ _
  | copied hcopies =>
      rw [huncopied _ _ rfl] at hcopies
      cases hcopies

theorem free_of_expired {ctx : Ctx}
    (h : Moved fd s t (.topic (.updateDeferred fd ctx)) sd sd') : sd'.Free := by
  cases h with
  | kept hother => exact absurd rfl (hother ctx)
  | checked hother => exact absurd rfl (hother ctx)
  | expired => exact .inl rfl
  | expiredChecked => exact SubscriberData.Free.checked (.inl rfl) _ _

end Moved

/-! ### What holds in every state -/

section

variable {ω κ : Type} {p q : TimedTopic ω κ × Watch} {metadata : OrbMetadata} {e : TimedEvent}
  {fd : Fd} {interval : UInt32}

/-- The entries of the topic in the queue are those of its subscribers, and the generations count
what has happened. -/
structure Settled (p : TimedTopic ω κ × Watch) : Prop where
  owned : p.1.Owned
  mirrored : Mirrored p.1.topic.files p.1.timers
  counted : Counted p.1.topic p.2.history

/-- There was a publication since the last copy. -/
def Pending (fd : Fd) (w : Watch) : Prop :=
  (w.history.last fd).counts < w.history.present.counts

/-- There were fewer than 2^32 publications since the last copy. -/
def Fresh (fd : Fd) (p : TimedTopic ω κ × Watch) : Prop :=
  p.2.history.present.counts - (p.2.history.last fd).counts < 2 ^ 32

/-- A subscriber has seen the generation of its last copy. -/
theorem Settled.seen (hp : Settled p) {sd : SubscriberData}
    (hpriv : p.1.topic.priv fd = some sd) :
    sd.generation = UInt32.ofNat (p.2.history.last fd).counts ∧
      (p.2.history.last fd).counts ≤ p.2.history.present.counts := by
  have hgeneration : generationOf p.1.topic.files fd = some sd.generation := by
    unfold generationOf
    rw [show (p.1.topic.files fd).bind File.priv = some sd from hpriv]
    rfl
  obtain ⟨hseen, hle, -⟩ := hp.counted.seen fd sd.generation hgeneration
  exact ⟨hseen, hle⟩

/-- A subscriber with another generation than the node was not copied the last publication. -/
theorem Settled.pending (hp : Settled p) {sd : SubscriberData}
    (hpriv : p.1.topic.priv fd = some sd) (hne : sd.generation ≠ p.1.topic.node.generation) :
    Pending fd p.2 := by
  obtain ⟨hseen, hle⟩ := hp.seen hpriv
  rw [hseen, hp.counted.generation] at hne
  refine Nat.lt_of_le_of_ne hle ?_
  intro heq
  exact hne (congrArg UInt32.ofNat heq)

/-- As long as there are fewer than 2^32, the generations show that there was one. -/
theorem Settled.generation_ne (hp : Settled p) {sd : SubscriberData}
    (hpriv : p.1.topic.priv fd = some sd) (hpending : Pending fd p.2) (hfresh : Fresh fd p) :
    sd.generation ≠ p.1.topic.node.generation := by
  obtain ⟨hseen, hle⟩ := hp.seen hpriv
  have hlt : (p.2.history.last fd).counts < p.2.history.present.counts := hpending
  rw [hseen, hp.counted.generation, Ne, ofNat_eq_ofNat_iff_of_lt hle hfresh]
  omega

/-- The time of an event is in range. -/
theorem timely_of_time {s : TimedTopic ω κ} {now : UInt64} (htime : e.time? = some now)
    (h : TimelyEvent s e) : TimedTopic.Timely now := by
  cases e with
  | others => cases htime
  | topic e =>
      cases e with
      | countAndNotify publisher ctx =>
          cases htime
          exact h
      | check fd ctx =>
          cases htime
          exact h
      | pollSetup fd ctx id events =>
          cases htime
          exact h
      | updateDeferred fd ctx =>
          cases htime
          exact h
      | _ => cases htime

/-- The end of an interval that starts at a time in range. -/
theorem toNat_deadline {now : UInt64} (h : TimedTopic.Timely now) :
    (now + interval.toUInt64).toNat = now.toNat + interval.toNat := by
  have hlt := UInt64.lt_iff_toNat_lt.mp h
  have hinterval := UInt32.toNat_lt interval
  rw [UInt64.toNat_add, UInt32.toNat_toUInt64]
  simp only [UInt64.reduceToNat] at hlt
  omega

theorem uncopied_read (h : Uncopied fd p e) (wanted : Bool) (buflen : Nat)
    (heq : e = .topic (.read fd wanted buflen)) :
    p.1.topic.node.readCopies buflen = false := by
  subst heq
  exact h rfl

variable [DecidableEq ω]

theorem watch_eq (h : (clockedTopic metadata).step p e q) : q.2 = p.2.next p.1 e := h.2.2

/-- Others do not touch the topic, nor its entries. -/
theorem others_same {s t : TimedTopic ω κ} (h : TimedStep s .others t) :
    t.topic = s.topic ∧ ∀ fd, t.timers.entry (.inl fd) = s.timers.entry (.inl fd) := by
  cases h with
  | others _ hsame => exact ⟨rfl, hsame⟩

theorem Settled.step (hp : Settled p) (h : (clockedTopic metadata).step p e q) : Settled q := by
  have hwatch := watch_eq h
  obtain ⟨-, ⟨hcalled, hnow, hstep⟩, -⟩ := h
  have howned := owned_of_step hp.owned hstep hnow hcalled
  cases e with
  | topic e =>
      obtain ⟨hnext, hmirrored⟩ := mirrors_of_step hp.owned hp.mirrored hnow hstep
      refine ⟨howned, hmirrored, ?_⟩
      rw [hwatch]
      exact hp.counted.next hnext
  | others =>
      obtain ⟨htopic, hsame⟩ := others_same hstep
      refine ⟨howned, ?_, ?_⟩
      · rw [htopic]
        exact hp.mirrored.others hsame
      · rw [hwatch, htopic]
        exact hp.counted

theorem settled_of_reachable (h : (clockedTopic metadata).Reachable p) : Settled p := by
  refine h.invariant ?_ ?_
  · intro p hinit
    obtain ⟨htimed, hstart⟩ := hinit
    have howned : p.1.Owned := owned_of_reachable (.of_init htimed)
    obtain ⟨⟨hnode, hfiles, hwriting⟩, -, hzero⟩ := htimed
    refine ⟨howned, ⟨?_, ?_⟩, ⟨?_, ?_, ?_⟩⟩
    · intro fd file hfile
      rw [hfiles fd] at hfile
      cases hfile
    · intro fd hd
      rw [hzero fd] at hd
      exact absurd rfl hd
    · rw [hstart, hnode]
      rfl
    · rw [hstart, hwriting]
      rfl
    · intro fd g hg
      unfold generationOf at hg
      rw [hfiles] at hg
      cases hg
  · intro p e q hp hstep
    exact hp.step hstep

theorem clock_le (h : (clockedTopic metadata).step p e q) : p.2.clock ≤ q.2.clock := by
  rw [watch_eq h]
  unfold Watch.next
  cases htime : e.time? with
  | none => exact UInt64.le_refl _
  | some now => exact h.1 now htime

theorem clock_eq (h : (clockedTopic metadata).step p e q) {now : UInt64}
    (htime : e.time? = some now) : q.2.clock = now := by
  rw [watch_eq h]
  unfold Watch.next
  rw [htime]
  rfl

/-- **What a step does to a subscriber**, with the queue: a timer expires when it is due. -/
theorem moved_of_step {sd : SubscriberData} (hp : Settled p) (hpriv : p.1.topic.priv fd = some sd)
    (h : (constantTopic metadata fd).step p e q) :
    ∃ sd', q.1.topic.priv fd = some sd' ∧ Moved fd p.1.topic q.1.topic e sd sd' := by
  obtain ⟨hconstant, -, ⟨-, hnow, hstep⟩, -⟩ := h
  cases e with
  | others =>
      refine ⟨sd, ?_, .kept (by simp)⟩
      rw [(others_same hstep).1]
      exact hpriv
  | topic e =>
      obtain ⟨hnext, -⟩ := mirrors_of_step hp.owned hp.mirrored hnow hstep
      refine moved_of_next hpriv hconstant ?_ hnext
      intro ctx heq
      subst heq
      obtain ⟨file, hsub⟩ := subscriber_of_priv hpriv
      rw [hp.mirrored.subscriber hsub]
      cases hstep with
      | topic hnext => exact Callouts.due_le (due_of_updateDeferred hnext)

/-! ### Runs that follow a subscriber -/

/-- The subscriber has this interval, and something holds of its data. -/
def Following (fd : Fd) (interval : UInt32) (P : SubscriberData → Watch → Prop)
    (p : TimedTopic ω κ × Watch) : Prop :=
  Settled p ∧ ∃ sd, p.1.topic.priv fd = some sd ∧ sd.updateInterval = interval ∧ P sd p.2

variable {P : SubscriberData → Watch → Prop}

theorem Following.step (hp : Following fd interval P p)
    (h : (constantTopic metadata fd).step p e q) {Q : SubscriberData → Watch → Prop}
    (hkeep : ∀ sd sd', p.1.topic.priv fd = some sd → sd.updateInterval = interval → P sd p.2 →
      Moved fd p.1.topic q.1.topic e sd sd' → Q sd' q.2) : Following fd interval Q q := by
  obtain ⟨hsettled, sd, hpriv, hinterval, hP⟩ := hp
  obtain ⟨sd', hpriv', hmoved⟩ := moved_of_step hsettled hpriv h
  exact ⟨hsettled.step h.2, sd', hpriv', hmoved.interval.trans hinterval,
    hkeep sd sd' hpriv hinterval hP hmoved⟩

/-- **The run rule.** What every step keeps of a subscriber, a run in which its interval is constant
keeps. -/
theorem Following.run {C : TimedTopic ω κ × Watch → TimedEvent → Prop} {es : List TimedEvent}
    (hkeep : ∀ (p q : TimedTopic ω κ × Watch) e sd sd', (constantTopic metadata fd).step p e q →
      C p e → p.1.topic.priv fd = some sd → Settled p → P sd p.2 →
      Moved fd p.1.topic q.1.topic e sd sd' → P sd' q.2)
    (h : ((constantTopic metadata fd).restrict C).Run p es q) (hp : Following fd interval P p) :
    Following fd interval P q := by
  refine h.invariant (I := Following fd interval P) ?_ hp
  intro s e t hs hstep
  refine hs.step hstep.2 ?_
  intro sd sd' hpriv _ hP hmoved
  exact hkeep s t e sd sd' hstep.2 hstep.1 hpriv hs.1 hP hmoved

/-! ### Publications -/

/-- A publication stays pending until the topic is copied. -/
theorem pending_step (hp : Settled p) {sd : SubscriberData} (hpriv : p.1.topic.priv fd = some sd)
    (h : (clockedTopic metadata).step p e q) (huncopied : Uncopied fd p e)
    (hpending : Pending fd p.2) : Pending fd q.2 := by
  have hlt : (p.2.history.last fd).counts < p.2.history.present.counts := hpending
  have hwatch := watch_eq h
  unfold Pending
  rw [hwatch]
  cases e with
  | others => exact hpending
  | topic e =>
      obtain ⟨-, ⟨-, hnow, hstep⟩, -⟩ := h
      obtain ⟨hnext, -⟩ := mirrors_of_step hp.owned hp.mirrored hnow hstep
      cases e with
      | copyData publisher ctx buffer =>
          unfold Watch.next History.watch
          dsimp only
          split
          · exact hpending
          · exact hpending
      | countAndNotify publisher ctx => exact Nat.lt_succ_of_lt hlt
      | subscribe fd' ctx retry =>
          have hne : fd ≠ fd' := by
            intro heq
            subst heq
            obtain ⟨file, hfile, -⟩ := Option.bind_eq_some_iff.mp hpriv
            unfold Topic.next at hnext
            simp [hfile] at hnext
          unfold Watch.next History.watch History.see
          dsimp only
          rw [Function.update_of_ne hne]
          exact hpending
      | read fd' wanted buflen =>
          unfold Watch.next History.watch
          dsimp only
          split_ifs with hcopies
          · have hne : fd ≠ fd' := by
              intro heq
              rw [huncopied heq.symm] at hcopies
              cases hcopies
            unfold History.see
            dsimp only
            rw [Function.update_of_ne hne]
            exact hpending
          · exact hpending
      | _ => exact hpending

/-- A publication is pending for every subscriber. -/
theorem pending_of_publication (hp : Settled p) {sd : SubscriberData}
    (hpriv : p.1.topic.priv fd = some sd) {publisher : Nat} {ctx : Ctx}
    (h : (clockedTopic metadata).step p (.topic (.countAndNotify publisher ctx)) q) :
    Pending fd q.2 := by
  unfold Pending
  rw [watch_eq h]
  exact Nat.lt_succ_of_le (hp.seen hpriv).2

/-! ### What the interval promises -/

/-- The update was reported to the subscriber. -/
def Reported (fd : Fd) (s : TimedTopic ω κ) : Prop :=
  ∃ sd, s.topic.priv fd = some sd ∧ sd.updateReported = true

/-- The step reports an update to the subscriber that was not reported before. -/
def NewReport (fd : Fd) (s t : TimedTopic ω κ) : Prop :=
  (∃ sd, s.topic.priv fd = some sd ∧ sd.updateReported = false) ∧ Reported fd t

/-- The topic appears updated at the next check. -/
def Updated (fd : Fd) (s : TimedTopic ω κ) : Prop :=
  ∃ sd, s.topic.priv fd = some sd ∧ ∀ now, TimedTopic.Timely now → ∃ fuel r,
    TimedTopic.appearsUpdated fuel now s.topic.node.generation fd sd s.timers = some r ∧
      r.1 = true

/-- What a subscriber with this interval can rely on. -/
structure RateLimited (metadata : OrbMetadata) (fd : Fd) (interval : UInt32)
    (p : TimedTopic ω κ × Watch) : Prop where
  /-- Two new reports are at least the interval apart. -/
  spaced : ∀ {e q es p' e' q'}, (constantTopic metadata fd).step p e q → NewReport fd p.1 q.1 →
    (constantTopic metadata fd).Run q es p' → (constantTopic metadata fd).step p' e' q' →
      NewReport fd p'.1 q'.1 → q.2.clock.toNat + interval.toNat ≤ q'.2.clock.toNat
  /-- What was reported appears updated until it is copied. -/
  kept : ∀ {e q es r}, (constantTopic metadata fd).step p e q → NewReport fd p.1 q.1 →
    ((constantTopic metadata fd).restrict (Uncopied fd)).Run q es r →
      Reported fd r.1 ∧ (Fresh fd r → Updated fd r.1)
  /-- A publication, suppressed or not, appears updated after the timer has expired, until it is
  copied. -/
  deferred : ∀ {publisher ctx q es r ctx' u es' v},
    (constantTopic metadata fd).step p (.topic (.countAndNotify publisher ctx)) q →
    ((constantTopic metadata fd).restrict (Uncopied fd)).Run q es r →
    (constantTopic metadata fd).step r (.topic (.updateDeferred fd ctx')) u →
    ((constantTopic metadata fd).restrict (Uncopied fd)).Run u es' v →
      Fresh fd v → Updated fd v.1

/-- With a pending publication, a subscriber whose timer does not run sees an update. -/
theorem Following.updated (hlimited : interval ≠ 0)
    (hp : Following fd interval (fun sd w => sd.Free ∧ Pending fd w) p) (hfresh : Fresh fd p) :
    Updated fd p.1 := by
  obtain ⟨hsettled, sd, hpriv, hinterval, hfree, hpending⟩ := hp
  refine ⟨sd, hpriv, ?_⟩
  intro now hnow
  obtain ⟨l, hl⟩ := hsettled.owned.sound
  obtain ⟨file, hsub⟩ := subscriber_of_priv hpriv
  obtain ⟨r, hr, hchecked⟩ := (appearsUpdated_checked hl hnow (hsettled.mirrored.subscriber hsub)
    (hsettled.mirrored.callout fd) p.1.topic.node.generation).exists_some
  have hne := hsettled.generation_ne hpriv hpending hfresh
  refine ⟨_, r, hr, ?_⟩
  rw [(Prod.ext_iff.mp hchecked.result).1]
  exact hfree.updated hne (hinterval ▸ hlimited) now

/-- A new report is made when the timer has expired, and starts it again. -/
theorem following_of_report {sd : SubscriberData} (hp : Settled p)
    (hpriv : p.1.topic.priv fd = some sd) (h : (constantTopic metadata fd).step p e q)
    (hreport : NewReport fd p.1 q.1) :
    sd.updateCall ≤ q.2.clock ∧ Following fd sd.updateInterval (fun sd' w =>
      sd'.updateReported = true ∧ Pending fd w ∧
        q.2.clock.toNat + sd.updateInterval.toNat ≤ sd'.updateCall.toNat) q := by
  obtain ⟨⟨sd₀, hpriv₀, hbefore⟩, ⟨sd₁, hpriv₁, hafter⟩⟩ := hreport
  obtain rfl := Option.some.inj (hpriv.symm.trans hpriv₀)
  obtain ⟨sd', hpriv', hmoved⟩ := moved_of_step hp hpriv h
  obtain rfl := Option.some.inj (hpriv'.symm.trans hpriv₁)
  obtain ⟨now, htime, hdue, hcall, hne⟩ := hmoved.report hbefore hafter
  have hsettled := hp.step h.2
  have hclock := clock_eq h.2 htime
  have htimely : TimedTopic.Timely now := timely_of_time htime h.2.2.1.2.1
  refine ⟨hclock ▸ hdue, hsettled, sd', hpriv', hmoved.interval, hafter,
    hsettled.pending hpriv' hne, ?_⟩
  rw [hcall, hclock, toNat_deadline htimely]

/-- The next new report waits for the end of the interval. -/
theorem spaced_of_following {n : Nat} {q' : TimedTopic ω κ × Watch} {es : List TimedEvent}
    (hq : Following fd interval (fun sd _ => n ≤ sd.updateCall.toNat) p)
    (hrun : (constantTopic metadata fd).Run p es q)
    (hstep : (constantTopic metadata fd).step q e q') (hreport : NewReport fd q.1 q'.1) :
    n ≤ q'.2.clock.toNat := by
  -- Until the timer changes it ends the interval; when it does, the interval is over.
  have hstart : Following fd interval
      (fun sd w => n ≤ sd.updateCall.toNat ∨ n ≤ w.clock.toNat) p := by
    obtain ⟨hsettled, sd, hpriv, hinterval, hcall⟩ := hq
    exact ⟨hsettled, sd, hpriv, hinterval, .inl hcall⟩
  have hkept : Following fd interval
      (fun sd w => n ≤ sd.updateCall.toNat ∨ n ≤ w.clock.toNat) q := by
    refine hrun.invariant (I := Following fd interval _) ?_ hstart
    intro s e t hs hstep
    refine hs.step hstep ?_
    intro sd sd' _ _ hover hmoved
    have hclock := UInt64.le_iff_toNat_le.mp (clock_le hstep.2)
    rcases hover with hcall | hclock'
    · rcases hmoved.timer with hsame | ⟨now, htime, hdue⟩
      · rw [hsame]
        exact .inl hcall
      · rw [clock_eq hstep.2 htime]
        exact .inr (hcall.trans (UInt64.le_iff_toNat_le.mp hdue))
    · exact .inr (hclock'.trans hclock)
  obtain ⟨hsettled, sd, hpriv, -, hover⟩ := hkept
  have hdue := (following_of_report hsettled hpriv hstep hreport).1
  have hclock := UInt64.le_iff_toNat_le.mp (clock_le hstep.2)
  rcases hover with hcall | hclock'
  · exact hcall.trans (UInt64.le_iff_toNat_le.mp hdue)
  · exact hclock'.trans hclock

/-- **Rate-limited subscribers.** Two new reports to a subscriber with a constant interval are at
least the interval apart. As long as there were fewer than 2^32 publications since its last copy,
what was reported to it appears updated until it is copied, and so does a publication after the
timer has expired. -/
theorem rate_limited {sd : SubscriberData} (hreach : (clockedTopic metadata).Reachable p)
    (hpriv : p.1.topic.priv fd = some sd) (hlimited : sd.updateInterval ≠ 0) :
    RateLimited metadata fd sd.updateInterval p := by
  have hp := settled_of_reachable hreach
  have hpending {s t : TimedTopic ω κ × Watch} {e : TimedEvent} {sd : SubscriberData}
      (hstep : (constantTopic metadata fd).step s e t) (huncopied : Uncopied fd s e)
      (hpriv : s.1.topic.priv fd = some sd) (hs : Settled s) (hpending : Pending fd s.2) :
      Pending fd t.2 :=
    pending_step hs hpriv hstep.2 huncopied hpending
  refine ⟨?_, ?_, ?_⟩
  · intro e q es p' e' q' hstep hreport hrun hstep' hreport'
    obtain ⟨-, hsettled, sd', hpriv', hinterval, -, -, hcall⟩ :=
      following_of_report hp hpriv hstep hreport
    exact spaced_of_following ⟨hsettled, sd', hpriv', hinterval, hcall⟩ hrun hstep' hreport'
  · intro e q es r hstep hreport hrun
    obtain ⟨-, hsettled, sd', hpriv', hinterval, hreported, hcounted, -⟩ :=
      following_of_report hp hpriv hstep hreport
    have hkept : Following fd sd.updateInterval
        (fun sd w => sd.updateReported = true ∧ Pending fd w) r := by
      refine Following.run ?_ hrun ⟨hsettled, sd', hpriv', hinterval, hreported, hcounted⟩
      intro s t e sd sd' hstep huncopied hpriv hs hP hmoved
      exact ⟨hmoved.reported (uncopied_read huncopied) hP.1,
        hpending hstep huncopied hpriv hs hP.2⟩
    obtain ⟨hr, sd₁, hpriv₁, hinterval₁, hreported₁, hcounted₁⟩ := hkept
    refine ⟨⟨sd₁, hpriv₁, hreported₁⟩, ?_⟩
    exact Following.updated hlimited ⟨hr, sd₁, hpriv₁, hinterval₁, .inr hreported₁, hcounted₁⟩
  · intro publisher ctx q es r ctx' u es' v hstep hrun hexpiry hrun'
    have hq : Following fd sd.updateInterval (fun _ w => Pending fd w) q := by
      refine Following.step (P := fun _ _ => True) ⟨hp, sd, hpriv, rfl, trivial⟩ hstep ?_
      intro sd₀ sd' hpriv₀ _ _ _
      exact pending_of_publication hp hpriv₀ hstep.2
    have hr : Following fd sd.updateInterval (fun _ w => Pending fd w) r := by
      refine Following.run ?_ hrun hq
      intro s t e sd sd' hstep huncopied hpriv hs hP hmoved
      exact hpending hstep huncopied hpriv hs hP
    have hu : Following fd sd.updateInterval (fun sd w => sd.Free ∧ Pending fd w) u := by
      refine hr.step hexpiry ?_
      intro sd₀ sd' hpriv₀ _ hP hmoved
      exact ⟨hmoved.free_of_expired, hpending hexpiry trivial hpriv₀ hr.1 hP⟩
    have hv : Following fd sd.updateInterval (fun sd w => sd.Free ∧ Pending fd w) v := by
      refine Following.run ?_ hrun' hu
      intro s t e sd sd' hstep huncopied hpriv hs hP hmoved
      exact ⟨hmoved.free (uncopied_read huncopied) hP.1, hpending hstep huncopied hpriv hs hP.2⟩
    exact Following.updated hlimited hv

end

/-! ### Runs -/

theorem punctual_iff (p : TimedTopic Empty Unit × Watch) (e : TimedEvent) :
    e.time?.all (fun now => decide (p.2.clock ≤ now)) = true ↔ Punctual p e := by
  rw [Option.all_eq_true]
  unfold Punctual
  simp only [decide_eq_true_eq]

instance instDecidablePunctual (p : TimedTopic Empty Unit × Watch) (e : TimedEvent) :
    Decidable (Punctual p e) :=
  decidable_of_iff _ (punctual_iff p e)

/-- The next state, observed. -/
def nextWatched (next : TimedTopic Empty Unit → TimedEvent → Option (TimedTopic Empty Unit))
    (p : TimedTopic Empty Unit × Watch) (e : TimedEvent) :
    Option (TimedTopic Empty Unit × Watch) :=
  if Punctual p e then (next p.1 e).map fun t => (t, p.2.next p.1 e) else none

theorem step_of_nextWatched {m : LTS (TimedTopic Empty Unit) TimedEvent}
    {next : TimedTopic Empty Unit → TimedEvent → Option (TimedTopic Empty Unit)}
    (hnext : ∀ s e t, next s e = some t → m.step s e t) {p q : TimedTopic Empty Unit × Watch}
    {e : TimedEvent} (h : nextWatched next p e = some q) : (watched m).step p e q := by
  unfold nextWatched at h
  split_ifs at h with hpunctual
  obtain ⟨t, ht, rfl⟩ := Option.map_eq_some_iff.mp h
  exact ⟨hpunctual, hnext p.1 e t ht, rfl⟩

/-- The next state, when no subscription is closed while its timer runs. -/
def nextCalled (s : TimedTopic Empty Unit) (e : TimedEvent) : Option (TimedTopic Empty Unit) :=
  if CloseCalled s e then nextTimed s e else none

theorem step_of_nextCalled {s t : TimedTopic Empty Unit} {e : TimedEvent}
    (h : nextCalled s e = some t) : ((timedTopic ⟨"t", 1⟩).restrict CloseCalled).step s e t := by
  unfold nextCalled at h
  split_ifs at h with hcalled
  exact ⟨hcalled, step_of_nextTimed h⟩

/-- The next state after an event at a time in range, observed. -/
def nextClocked : TimedTopic Empty Unit × Watch → TimedEvent →
    Option (TimedTopic Empty Unit × Watch) :=
  nextWatched fun s e => if CloseCalled s e then nextTimely s e else none

theorem step_of_nextClocked {p q : TimedTopic Empty Unit × Watch} {e : TimedEvent}
    (h : nextClocked p e = some q) : (clockedTopic ⟨"t", 1⟩).step p e q := by
  refine step_of_nextWatched ?_ h
  intro s e t hnext
  split_ifs at hnext with hcalled
  exact ⟨hcalled, step_of_nextTimely hnext⟩

theorem clocked_init : (clockedTopic ⟨"t", 1⟩).init (createdTimed, ⟨0, .empty⟩) :=
  ⟨createdTimed_init, rfl⟩

/-- A subscriber that asks for no more than one update a second. -/
theorem rate_limited_subscribed : ∃ p : TimedTopic Empty Unit × Watch,
    (clockedTopic ⟨"t", 1⟩).Reachable p ∧ RateLimited ⟨"t", 1⟩ 0 1000000 p := by
  have hends : ((checkedEvents.take 2).foldlM nextClocked (createdTimed, ⟨0, .empty⟩)).any
      (fun p => (p.1.topic.priv 0).any fun sd => sd.updateInterval == 1000000) = true := by
    decide +kernel
  obtain ⟨p, hp, hsub⟩ := (Option.any_eq_true _ _).mp hends
  obtain ⟨sd, hpriv, hinterval⟩ := (Option.any_eq_true _ _).mp hsub
  have hreach : (clockedTopic ⟨"t", 1⟩).Reachable p :=
    ⟨_, _, clocked_init, .of_foldlM (fun _ _ _ => step_of_nextClocked) hp⟩
  have hinterval : sd.updateInterval = 1000000 := eq_of_beq hinterval
  have hlimited := rate_limited hreach hpriv (by rw [hinterval]; decide)
  rw [hinterval] at hlimited
  exact ⟨p, hreach, hlimited⟩

/-! ### Where the counters end -/

/-- The state of a topic that can be published again and again. -/
structure Idle (p : TimedTopic Empty Unit × Watch) : Prop where
  writing : p.1.topic.writing = []
  data : p.1.topic.node.data = some [7]
  size : p.1.topic.node.metadata.oSize = 1
  pollset : p.1.topic.node.pollset = List.replicate maxPollwaiters none
  clock : p.2.clock = 0

/-- One publication. -/
def publication : List TimedEvent :=
  [.topic (.copyData 1 ampleCtx [7]), .topic (.countAndNotify 1 ampleCtx)]

/-- The runs in which the topic is not copied to the subscriber. -/
def uncopiedTopic : LTS (TimedTopic Empty Unit × Watch) TimedEvent :=
  (constantTopic ⟨"t", 1⟩ 0).restrict (Uncopied 0)

theorem pollNotifyAll_none (now : UInt64) (generation : UInt32) (n : Nat)
    (files : Fd → Option File) (h : Timers Empty Unit) :
    TimedTopic.pollNotifyAll 0 now generation (List.replicate n none) files h =
      some (List.replicate n none, files, h) := by
  induction n with
  | zero => rfl
  | succ n ih =>
      rw [List.replicate_succ]
      unfold TimedTopic.pollNotifyAll
      rw [ih]
      rfl

theorem run_publication {p : TimedTopic Empty Unit × Watch} (hp : Idle p) :
    ∃ q, uncopiedTopic.Run p publication q ∧ Idle q ∧ q.1.topic.files = p.1.topic.files ∧
      q.1.topic.node.generation = p.1.topic.node.generation + 1 := by
  obtain ⟨⟨⟨path, node, files, writing⟩, timers⟩, w⟩ := p
  obtain ⟨hwriting, hdata, hsize, hpollset, hclock⟩ := hp
  dsimp only at hwriting hdata hsize hpollset hclock
  subst hwriting
  have hnotify := pollNotifyAll_none 0 (node.generation + 1) maxPollwaiters files timers
  rw [← hpollset] at hnotify
  have hcopy : node.writeCopy ampleCtx [7] = (.ok (), node) := by
    unfold OrbDevNode.writeCopy OrbDevNode.allocate
    simp [hdata, hsize]
    cases node
    simp_all
  let s : TimedTopic Empty Unit := ⟨⟨path, node, files, []⟩, timers⟩
  let s₁ : TimedTopic Empty Unit := ⟨⟨path, node, files, [1]⟩, timers⟩
  let s₂ : TimedTopic Empty Unit := ⟨⟨path, node.writeCount ampleCtx, files, []⟩, timers⟩
  have hcopied : s.next 0 (.copyData 1 ampleCtx [7]) = some s₁ := by
    simp [s, s₁, TimedTopic.next, Topic.next, hcopy]
  have hcounted : s₁.next 0 (.countAndNotify 1 ampleCtx) = some s₂ := by
    simp [s₁, s₂, TimedTopic.next, TimedTopic.notify, OrbDevNode.writeCount, hnotify, ampleCtx]
  have hstep {t u : TimedTopic Empty Unit} {w : Watch} {e : Topic.Event}
      (hnext : t.next 0 e = some u) (hquiet : Constant 0 (.topic e) ∧ Uncopied 0 (t, w) (.topic e) ∧
        Punctual (t, w) (.topic e) ∧ TimelyEvent t (.topic e) ∧ CloseCalled t (.topic e)) :
      uncopiedTopic.step (t, w) (.topic e) (u, w.next t (.topic e)) :=
    ⟨hquiet.2.1, hquiet.1, hquiet.2.2.1, ⟨hquiet.2.2.2.2, hquiet.2.2.2.1, .topic hnext⟩, rfl⟩
  refine ⟨(s₂, (w.next s (.topic (.copyData 1 ampleCtx [7]))).next s₁
    (.topic (.countAndNotify 1 ampleCtx))), .cons (hstep hcopied ?_) (.cons (hstep hcounted ?_)
    (.nil _)), ⟨rfl, hdata, hsize, hpollset, rfl⟩, rfl, rfl⟩
  · exact ⟨trivial, trivial, nofun, trivial, trivial⟩
  · refine ⟨trivial, trivial, ?_, ?_, trivial⟩
    · intro now hnow
      cases hnow
      exact UInt64.le_of_eq hclock
    · show (0 : UInt64) < _
      decide

theorem run_publications {p : TimedTopic Empty Unit × Watch} (hp : Idle p) (n : Nat) :
    ∃ q es, uncopiedTopic.Run p es q ∧ Idle q ∧ q.1.topic.files = p.1.topic.files ∧
      q.1.topic.node.generation = p.1.topic.node.generation + UInt32.ofNat n := by
  induction n with
  | zero => exact ⟨p, [], .nil p, hp, rfl, (UInt32.add_zero _).symm⟩
  | succ n ih =>
      obtain ⟨q, es, hrun, hq, hfiles, hgeneration⟩ := ih
      obtain ⟨r, hrun', hr, hfiles', hgeneration'⟩ := run_publication hq
      refine ⟨r, _, hrun.append hrun', hr, hfiles'.trans hfiles, ?_⟩
      rw [hgeneration', hgeneration, ofNat_succ_counter, UInt32.add_assoc]

/-- Is an update reported to the first subscriber that was not reported before? -/
def reports (s t : TimedTopic Empty Unit) : Bool :=
  (s.topic.priv 0).any (fun sd => !sd.updateReported) &&
    (t.topic.priv 0).any SubscriberData.updateReported

theorem newReport_of_reports {s t : TimedTopic Empty Unit} (h : reports s t = true) :
    NewReport 0 s t := by
  obtain ⟨hbefore, hafter⟩ := Bool.and_eq_true_iff.mp h
  obtain ⟨sd, hpriv, hunreported⟩ := (Option.any_eq_true _ _).mp hbefore
  obtain ⟨sd', hpriv', hreported⟩ := (Option.any_eq_true _ _).mp hafter
  refine ⟨⟨sd, hpriv, ?_⟩, sd', hpriv', hreported⟩
  simpa using hunreported

/-- Events up to a new report, 5 microseconds before the time wraps. -/
def lateEvents : List TimedEvent :=
  [.topic (.subscribe 0 ampleCtx false), .topic (.setInterval 0 10),
    .topic (.copyData 1 ampleCtx [7]),
    .topic (.countAndNotify 1 { ampleCtx with now := 0xfffffffffffffffb })]

/-- The update is copied when the timer has expired, which it does at once, and there is
another. -/
def wrappedEvents : List TimedEvent :=
  [.topic (.updateDeferred 0 { ampleCtx with now := 0xfffffffffffffffc }),
    .topic (.read 0 true 1), .topic (.copyData 1 ampleCtx [8]),
    .topic (.countAndNotify 1 { ampleCtx with now := 0xfffffffffffffffc })]

/-- The subscriber looks for an update. -/
def checkAt (now : UInt64) : TimedEvent := .topic (.check 0 { ampleCtx with now := now })

/-- A topic at any times that do not go back. -/
def anytimeTopic : LTS (TimedTopic Empty Unit × Watch) TimedEvent :=
  watched ((timedTopic ⟨"t", 1⟩).restrict CloseCalled)

/-- The topic that was reported is published until its generation is the one that was copied. -/
theorem reported_then_lost : ∃ (p q r : TimedTopic Empty Unit × Watch) (es : List TimedEvent),
    (clockedTopic ⟨"t", 1⟩).Reachable p ∧
      (constantTopic ⟨"t", 1⟩ 0).step p (checkAt 0) q ∧ NewReport 0 p.1 q.1 ∧
      uncopiedTopic.Run q es r ∧ ¬ Updated 0 r.1 := by
  have hends : ((checkedEvents.take 4).foldlM nextClocked (createdTimed, ⟨0, .empty⟩)).any
      (fun p => (nextClocked p (checkAt 0)).any fun q => reports p.1 q.1 &&
        decide (q.1.topic.writing = [] ∧ q.1.topic.node.data = some [7] ∧
          q.1.topic.node.metadata.oSize = 1 ∧
          q.1.topic.node.pollset = List.replicate maxPollwaiters none ∧ q.2.clock = 0 ∧
          q.1.topic.node.generation = 1) &&
        (q.1.topic.priv 0).any fun sd => sd.generation == 0) = true := by
    decide +kernel
  obtain ⟨p, hp, hends⟩ := (Option.any_eq_true _ _).mp hends
  obtain ⟨q, hq, hfacts⟩ := (Option.any_eq_true _ _).mp hends
  obtain ⟨hboth, hseen⟩ := Bool.and_eq_true_iff.mp hfacts
  obtain ⟨hreport, hidle⟩ := Bool.and_eq_true_iff.mp hboth
  obtain ⟨hwriting, hdata, hsize, hpollset, hclock, hone⟩ := of_decide_eq_true hidle
  obtain ⟨sd, hpriv, hzero⟩ := (Option.any_eq_true _ _).mp hseen
  obtain ⟨r, es, hrun, -, hfiles, hgeneration⟩ :=
    run_publications ⟨hwriting, hdata, hsize, hpollset, hclock⟩ (2 ^ 32 - 1)
  have hreach : (clockedTopic ⟨"t", 1⟩).Reachable p :=
    ⟨_, _, clocked_init, .of_foldlM (fun _ _ _ => step_of_nextClocked) hp⟩
  refine ⟨p, q, r, es, hreach, ⟨trivial, step_of_nextClocked hq⟩, newReport_of_reports hreport,
    hrun, ?_⟩
  -- The generation is zero again, as it was at the last copy.
  have hwrapped : r.1.topic.node.generation = 0 := by
    rw [hgeneration, hone]
    decide
  intro hupdated
  obtain ⟨sd', hpriv', hchecks⟩ := hupdated
  have hsame : r.1.topic.priv 0 = some sd := by
    unfold Topic.priv
    rw [hfiles]
    exact hpriv
  obtain rfl := Option.some.inj (hsame.symm.trans hpriv')
  obtain ⟨fuel, result, hresult, htrue⟩ := hchecks 0 (by unfold TimedTopic.Timely; decide)
  unfold TimedTopic.appearsUpdated at hresult
  rw [if_pos ((eq_of_beq hzero).trans hwrapped.symm)] at hresult
  cases hresult
  cases htrue

/-- The interval ends after the time has wrapped, so the timer is due at once. -/
theorem reported_too_early : ∃ p q p' q' : TimedTopic Empty Unit × Watch,
    anytimeTopic.Reachable p ∧
      (∃ sd, p.1.topic.priv 0 = some sd ∧ sd.updateInterval = 10) ∧
      anytimeTopic.step p (checkAt 0xfffffffffffffffb) q ∧
      NewReport 0 p.1 q.1 ∧
      anytimeTopic.Run q wrappedEvents p' ∧
      anytimeTopic.step p' (checkAt 0xfffffffffffffffc) q' ∧
      NewReport 0 p'.1 q'.1 ∧ q'.2.clock.toNat < q.2.clock.toNat + 10 := by
  have hends : (lateEvents.foldlM (nextWatched nextCalled) (createdTimed, ⟨0, .empty⟩)).any
      (fun p => (p.1.topic.priv 0).any (fun sd => sd.updateInterval == 10) &&
        (nextWatched nextCalled p (checkAt 0xfffffffffffffffb)).any fun q => reports p.1 q.1 &&
          (wrappedEvents.foldlM (nextWatched nextCalled) q).any fun p' =>
            (nextWatched nextCalled p' (checkAt 0xfffffffffffffffc)).any fun q' =>
              reports p'.1 q'.1 && decide (q'.2.clock.toNat < q.2.clock.toNat + 10)) = true := by
    decide +kernel
  obtain ⟨p, hp, hends⟩ := (Option.any_eq_true _ _).mp hends
  obtain ⟨hinterval, hends⟩ := Bool.and_eq_true_iff.mp hends
  obtain ⟨q, hq, hends⟩ := (Option.any_eq_true _ _).mp hends
  obtain ⟨hreport, hends⟩ := Bool.and_eq_true_iff.mp hends
  obtain ⟨p', hp', hends⟩ := (Option.any_eq_true _ _).mp hends
  obtain ⟨q', hq', hends⟩ := (Option.any_eq_true _ _).mp hends
  obtain ⟨hreport', hearly⟩ := Bool.and_eq_true_iff.mp hends
  obtain ⟨sd, hpriv, hten⟩ := (Option.any_eq_true _ _).mp hinterval
  have hstep {s t : TimedTopic Empty Unit × Watch} {e : TimedEvent}
      (h : nextWatched nextCalled s e = some t) :
      anytimeTopic.step s e t :=
    step_of_nextWatched (fun _ _ _ => step_of_nextCalled) h
  exact ⟨p, q, p', q', ⟨_, _, clocked_init, .of_foldlM (fun _ _ _ => hstep) hp⟩,
    ⟨sd, hpriv, eq_of_beq hten⟩, hstep hq, newReport_of_reports hreport,
    .of_foldlM (fun _ _ _ => hstep) hp', hstep hq', newReport_of_reports hreport',
    of_decide_eq_true hearly⟩

/-- Without a bound on the publications what was reported is not kept, and without a bound on the
time two reports are not spaced. -/
theorem rate_limit_wraps :
    (¬ ∀ (p q r : TimedTopic Empty Unit × Watch) (e : TimedEvent) (es : List TimedEvent),
      (clockedTopic ⟨"t", 1⟩).Reachable p → (constantTopic ⟨"t", 1⟩ 0).step p e q →
        NewReport 0 p.1 q.1 → uncopiedTopic.Run q es r → Updated 0 r.1) ∧
    ¬ ∀ (p q p' q' : TimedTopic Empty Unit × Watch) (e e' : TimedEvent) (es : List TimedEvent)
        (sd : SubscriberData), anytimeTopic.Reachable p → p.1.topic.priv 0 = some sd →
      (anytimeTopic.restrict fun _ e => Constant 0 e).step p e q → NewReport 0 p.1 q.1 →
        (anytimeTopic.restrict fun _ e => Constant 0 e).Run q es p' →
          (anytimeTopic.restrict fun _ e => Constant 0 e).step p' e' q' → NewReport 0 p'.1 q'.1 →
            q.2.clock.toNat + sd.updateInterval.toNat ≤ q'.2.clock.toNat := by
  constructor
  · intro hall
    obtain ⟨p, q, r, es, hreach, hstep, hreport, hrun, hlost⟩ := reported_then_lost
    exact hlost (hall p q r _ es hreach hstep hreport hrun)
  · intro hall
    obtain ⟨p, q, p', q', hreach, ⟨sd, hpriv, hten⟩, hstep, hreport, hrun, hstep', hreport',
      hearly⟩ := reported_too_early
    have hconstant : ∀ e ∈ wrappedEvents, Constant 0 e := by simp [wrappedEvents, Constant]
    have hspaced := hall p q p' q' (checkAt _) (checkAt _) _ sd hreach hpriv ⟨trivial, hstep⟩
      hreport (hrun.restrict_of_forall hconstant) ⟨trivial, hstep'⟩ hreport'
    rw [hten] at hspaced
    exact Nat.not_le_of_lt hearly hspaced

end Px4Firmware.Uorb
