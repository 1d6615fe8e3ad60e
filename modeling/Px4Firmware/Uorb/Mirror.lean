import Px4Firmware.Uorb.Timers

/-!
# Px4Firmware.Uorb.Mirror

**The topic with the callout queue is the topic.** The model of a topic without the queue keeps of
an interval timer only its deadline. As long as no subscription is closed while its timer runs, that
is the deadline of the entry in the queue (`Mirrored`), and every step of the topic with the queue
is the step of the topic (`mirrors_of_step`). So a run is a run of the topic, and what is proved of
these holds with the queue as well (`run_mirrors`).

What the others do to the queue is what the timer does with entries that are not of the topic
(`others_of_machine`).
-/

namespace Px4Firmware.Uorb

open Px4Firmware.Hrt Px4Firmware.Lib

/-! ### The other users of the timer -/

section

variable {ω κ : Type} [DecidableEq ω]

/-- The event is about an entry of others, or about none. -/
def Foreign (s : Machine (Fd ⊕ ω) (Callout κ)) : Hrt.Event (Fd ⊕ ω) (Callout κ) → Prop
  | .op o => o.entry.isRight = true
  | .invoke call _ | .skip call _ => call.isRight = true
  | .ret => ∀ fd deadline, s.phase ≠ .callout (.inl fd) deadline
  | _ => True

theorem update_of_isRight {call : Fd ⊕ ω} (hcall : call.isRight = true)
    (entry : Fd ⊕ ω → HrtCall (Callout κ)) (c : HrtCall (Callout κ)) (fd : Fd) :
    Function.update entry call c (.inl fd) = entry (.inl fd) := by
  refine Function.update_of_ne ?_ ..
  rintro rfl
  cases hcall

/-- **The rely condition.** A step of the timer for an entry of others leaves the queue sound and
the entries of the topic alone. -/
theorem others_of_machine {s t : Machine (Fd ⊕ ω) (Callout κ)}
    {e : Hrt.Event (Fd ⊕ ω) (Callout κ)} {l : List (Fd ⊕ ω)} (h : Hrt.Step s e t)
    (hregular : Regular s e) (hforeign : Foreign s e) (hs : s.callouts.Sound l) :
    (∃ l', t.callouts.Sound l') ∧
      ∀ fd, t.callouts.entry (.inl fd) = s.callouts.entry (.inl fd) := by
  refine ⟨(h.sound hregular hs).1, fun fd => ?_⟩
  cases h with
  | @op o _ _ _ hrun =>
      obtain ⟨hsame, -⟩ := (Op.run_spec hs hregular _).some hrun
      have hright : o.entry.isRight = true := hforeign
      have hne : o.entry ≠ .inl fd := by
        intro heq
        rw [heq] at hright
        cases hright
      rw [hsame]
      exact o.entries_of_ne _ hne
  | interrupt => rfl
  | invoke _ _ _ hpop =>
      obtain ⟨hsame, -⟩ := (Callouts.hrtCallPop_spec hs _ _).some hpop
      rw [hsame]
      exact update_of_isRight hforeign _ _ fd
  | skip _ _ _ hpop hreenter =>
      obtain ⟨hsame, l₁, hl₁⟩ := (Callouts.hrtCallPop_spec hs _ _).some hpop
      have hok := reenterable_of_pop hsame hregular
      obtain ⟨hsame', -⟩ := (Callouts.hrtCallReenter_spec hl₁ hok _).some hreenter
      rw [hsame', update_of_isRight hforeign, hsame]
      exact update_of_isRight hforeign _ _ fd
  | @ret call deadline _ _ hphase hreenter =>
      simp only [Regular, hphase] at hregular
      obtain ⟨hsame, -⟩ := (Callouts.hrtCallReenter_spec hs hregular _).some hreenter
      have hright : call.isRight = true := by
        cases call with
        | inl fd' => exact absurd hphase (hforeign fd' deadline)
        | inr w => rfl
      rw [hsame]
      exact update_of_isRight hright _ _ fd
  | stop => rfl

end

/-! ### The deadlines -/

section

variable {ω κ : Type}

/-- What a subscriber keeps of its timer is the deadline of its entry, and an entry that is
scheduled calls `update_deferred_trampoline`. -/
structure Mirrored (files : Fd → Option File) (h : Timers ω κ) : Prop where
  call : ∀ fd file, files fd = some file →
    ∃ sd, file.priv = some sd ∧ sd.updateCall = (h.entry (.inl fd)).deadline
  callout : ∀ fd, (h.entry (.inl fd)).deadline ≠ 0 →
    (h.entry (.inl fd)).callout = some .updateDeferredTrampoline

variable {files : Fd → Option File} {h h' : Timers ω κ} {l : List (Fd ⊕ ω)} {fuel : Nat}
  {now : UInt64}

/-- One subscriber and its entry change together. -/
theorem Mirrored.update (hm : Mirrored files h) {fd : Fd} {file : File} {sd : SubscriberData}
    (hpriv : file.priv = some sd) (hcall : sd.updateCall = (h'.entry (.inl fd)).deadline)
    (hcallout : (h'.entry (.inl fd)).deadline ≠ 0 →
      (h'.entry (.inl fd)).callout = some .updateDeferredTrampoline)
    (hothers : ∀ e, e ≠ .inl fd → h'.entry e = h.entry e) :
    Mirrored (Function.update files fd (some file)) h' where
  call fd' file' hfile := by
    by_cases heq : fd' = fd
    · rw [heq, Function.update_self] at hfile
      cases hfile
      exact ⟨sd, hpriv, heq ▸ hcall⟩
    · rw [Function.update_of_ne heq] at hfile
      rw [hothers _ fun h => heq (Sum.inl.inj h)]
      exact hm.call fd' file' hfile
  callout fd' hd := by
    by_cases heq : fd' = fd
    · subst heq
      exact hcallout hd
    · rw [hothers _ fun h => heq (Sum.inl.inj h)] at hd ⊢
      exact hm.callout fd' hd

/-- A subscription is closed. -/
theorem Mirrored.close (hm : Mirrored files h) (fd : Fd) :
    Mirrored (Function.update files fd none) h where
  call fd' file hfile := by
    by_cases heq : fd' = fd
    · rw [heq, Function.update_self] at hfile
      cases hfile
    · rw [Function.update_of_ne heq] at hfile
      exact hm.call fd' file hfile
  callout := hm.callout

/-- Others leave the entries of the topic alone. -/
theorem Mirrored.others (hm : Mirrored files h)
    (hsame : ∀ fd, h'.entry (.inl fd) = h.entry (.inl fd)) : Mirrored files h' where
  call fd file hfile := by
    rw [hsame]
    exact hm.call fd file hfile
  callout fd hd := by
    rw [hsame] at hd ⊢
    exact hm.callout fd hd

/-- Checking a topic with the queue is checking it without. -/
structure Checked (fd : Fd) (sd : SubscriberData) (now : UInt64) (generation : UInt32)
    (h : Timers ω κ) (r : Bool × SubscriberData × Timers ω κ) : Prop where
  result : (r.1, r.2.1) = sd.appearsUpdated now generation
  call : r.2.1.updateCall = (r.2.2.entry (.inl fd)).deadline
  callout : (r.2.2.entry (.inl fd)).deadline ≠ 0 →
    (r.2.2.entry (.inl fd)).callout = some .updateDeferredTrampoline
  others : ∀ e, e ≠ .inl fd → r.2.2.entry e = h.entry e

/-- The subscriber that was checked is given its new data. -/
theorem Mirrored.checked (hm : Mirrored files h) {fd : Fd} {sd : SubscriberData}
    {generation : UInt32} {r : Bool × SubscriberData × Timers ω κ}
    (hr : Checked fd sd now generation h r) {file : File} (hpriv : file.priv = some r.2.1) :
    Mirrored (Function.update files fd (some file)) r.2.2 :=
  hm.update hpriv hr.call hr.callout hr.others

/-- A subscriber with a running timer, or with none, has the deadline of its entry. -/
theorem Mirrored.subscriber {s : Topic} (hm : Mirrored s.files h) {fd : Fd} {file : File}
    {sd : SubscriberData} (hsub : s.subscriber fd = some (file, sd)) :
    sd.updateCall = (h.entry (.inl fd)).deadline := by
  obtain ⟨hfile, hpriv⟩ := subscriber_eq_some hsub
  obtain ⟨sd', hpriv', hcall⟩ := hm.call fd file hfile
  rw [hpriv] at hpriv'
  cases hpriv'
  exact hcall

/-- Other private data with the same deadline. -/
theorem Mirrored.setPriv {s : Topic} (hm : Mirrored s.files h) {fd : Fd} {file : File}
    {sd sd' : SubscriberData} (hsub : s.subscriber fd = some (file, sd))
    (hcall : sd'.updateCall = sd.updateCall) :
    Mirrored (s.setPriv fd file sd').files h :=
  hm.update rfl (hcall.trans (hm.subscriber hsub)) (hm.callout fd) fun _ _ => rfl

variable [DecidableEq ω]

theorem appearsUpdated_checked (hl : h.Sound l) (hnow : TimedTopic.Timely now) {fd : Fd}
    {sd : SubscriberData} (hcall : sd.updateCall = (h.entry (.inl fd)).deadline)
    (hcallout : (h.entry (.inl fd)).deadline ≠ 0 →
      (h.entry (.inl fd)).callout = some .updateDeferredTrampoline) (generation : UInt32) :
    fueled fuel l.length (Checked fd sd now generation h)
      (TimedTopic.appearsUpdated fuel now generation fd sd h) := by
  have hsame : sd.hrtCalled = h.hrtCalled (.inl fd) := by
    unfold SubscriberData.hrtCalled Callouts.hrtCalled
    rw [hcall]
  have hunchanged {updated : Bool} (hresult : (updated, sd) = sd.appearsUpdated now generation) :
      Checked fd sd now generation h (updated, sd, h) :=
    ⟨hresult, hcall, hcallout, fun _ _ => rfl⟩
  unfold TimedTopic.appearsUpdated
  unfold SubscriberData.appearsUpdated at hunchanged
  split_ifs with hgeneration hunlimited hreported hcalled
  · exact hunchanged (by rw [if_pos hgeneration])
  · exact hunchanged (by rw [if_neg hgeneration, if_pos hunlimited])
  · exact hunchanged (by rw [if_neg hgeneration, if_neg hunlimited, if_pos hreported])
  · have hne := TimedTopic.deadline_ne_zero hnow hunlimited
    have hstart := (Callouts.hrtCallInternal_spec hl hne (.inl fd) 0
      (some Callout.updateDeferredTrampoline) fuel).fueled
    refine hstart.bind ?_
    rintro h' ⟨hentry, -⟩
    refine ⟨?_, rfl, fun _ => ?_, fun e he => ?_⟩
    · unfold SubscriberData.appearsUpdated
      rw [if_neg hgeneration, if_neg hunlimited, if_neg hreported, hsame, if_pos hcalled, hentry,
        Function.update_self]
    · dsimp only
      rw [hentry, Function.update_self]
    · dsimp only
      rw [hentry, Function.update_of_ne he]
  · refine hunchanged ?_
    rw [if_neg hgeneration, if_neg hunlimited, if_neg hreported, hsame, if_neg hcalled]

theorem pollNotifyOne_mirrored (hl : h.Sound l) (hm : Mirrored files h)
    (hnow : TimedTopic.Timely now) (generation : UInt32) (fds : PollFd) :
    fueled fuel l.length
      (fun r => (r.1, r.2.1) = pollNotifyOne now generation fds files ∧ Mirrored r.2.1 r.2.2)
      (TimedTopic.pollNotifyOne fuel now generation fds files h) := by
  unfold TimedTopic.pollNotifyOne pollNotifyOne
  cases hfile : files fds.priv with
  | none => exact ⟨rfl, hm⟩
  | some file =>
      obtain ⟨sd, hpriv, hcall⟩ := hm.call fds.priv file hfile
      obtain ⟨path, oflags, priv⟩ := file
      cases hpriv
      refine (appearsUpdated_checked hl hnow hcall (hm.callout fds.priv) generation).bind ?_
      intro r hr
      dsimp only
      rw [← hr.result]
      exact ⟨rfl, hm.checked hr rfl⟩

/-- The loop of the notification, by induction on the slots. -/
theorem pollNotifyAll_mirrored (hl : h.Sound l) (hm : Mirrored files h)
    (hnow : TimedTopic.Timely now) (generation : UInt32) (slots : List (Option PollFd)) :
    fueled fuel (l.length + slots.length)
      (fun r => (r.1, r.2.1) = pollNotifyAll now generation slots files ∧ Mirrored r.2.1 r.2.2)
      (TimedTopic.pollNotifyAll fuel now generation slots files h) := by
  induction slots generalizing files h l with
  | nil => exact ⟨rfl, hm⟩
  | cons slot slots ih =>
      cases slot with
      | none =>
          unfold TimedTopic.pollNotifyAll pollNotifyAll
          refine ((ih hl hm).mono (Nat.le_succ _) fun _ hr => hr).bind ?_
          rintro r ⟨hr, hm'⟩
          rw [← hr]
          exact ⟨rfl, hm'⟩
      | some fds =>
          unfold TimedTopic.pollNotifyAll pollNotifyAll
          refine (((pollNotifyOne_mirrored hl hm hnow generation fds).and
            (TimedTopic.pollNotifyOne_starts hl hnow generation fds)).mono
            (Nat.le_add_right _ _) fun _ hr => hr).bind ?_
          rintro r ⟨⟨hr, hm₁⟩, hstarts, -⟩
          obtain ⟨l₁, hl₁, hlen⟩ := hstarts.sound l hl
          refine ((ih hl₁ hm₁).mono ?_ fun _ hr' => hr').bind ?_
          · rw [List.length_cons]
            omega
          · rintro r' ⟨hr', hm₂⟩
            rw [← hr]
            dsimp only
            rw [← hr']
            exact ⟨rfl, hm₂⟩

end

/-! ### A step -/

section

variable {ω κ : Type} {s t : TimedTopic ω κ} {l : List (Fd ⊕ ω)} {fuel : Nat}

/-- The topic takes the step, and the deadlines agree after it. -/
def Mirrors (s : TimedTopic ω κ) (e : Topic.Event) (t : TimedTopic ω κ) : Prop :=
  s.topic.next e = some t.topic ∧ Mirrored t.topic.files t.timers

/-- The operations that do not look at the queue. -/
theorem quiet_mirrors {e : Topic.Event}
    (hfiles : ∀ t', s.topic.next e = some t' → Mirrored t'.files s.timers)
    (h : ((s.topic.next e).map fun t => { s with topic := t }) = some t) : Mirrors s e t := by
  obtain ⟨t', ht', rfl⟩ := Option.map_eq_some_iff.mp h
  exact ⟨ht', hfiles t' ht'⟩

variable [DecidableEq ω]

theorem notify_mirrored (hl : s.timers.Sound l) (hm : Mirrored s.topic.files s.timers) {ctx : Ctx}
    (hnow : TimedTopic.Timely ctx.now) :
    fueled fuel (l.length + s.topic.node.pollset.length)
      (fun t => t.topic = s.topic.notify ctx ∧ Mirrored t.topic.files t.timers)
      (s.notify fuel ctx) := by
  unfold TimedTopic.notify Topic.notify
  refine (pollNotifyAll_mirrored hl hm hnow _ _).bind ?_
  rintro r ⟨hr, hm'⟩
  rw [← hr]
  exact ⟨rfl, hm'⟩

theorem countAndNotify_mirrors (hl : s.timers.Sound l) (hm : Mirrored s.topic.files s.timers)
    {publisher : Nat} {ctx : Ctx} (hnow : TimedTopic.Timely ctx.now)
    (hwriting : s.topic.writing.contains publisher = true) :
    fueled fuel (l.length + s.topic.node.pollset.length) (Mirrors s (.countAndNotify publisher ctx))
      (s.next fuel (.countAndNotify publisher ctx)) := by
  show fueled _ _ _ (if s.topic.writing.contains publisher then _ else _)
  rw [if_pos hwriting]
  refine (notify_mirrored (s := { s with topic :=
    { s.topic with node := s.topic.node.writeCount ctx } }) hl hm hnow).bind ?_
  rintro t ⟨ht, hm'⟩
  refine ⟨?_, hm'⟩
  show (if s.topic.writing.contains publisher then _ else _) = _
  rw [if_pos hwriting, ht]
  rfl

theorem check_mirrors (hl : s.timers.Sound l) (hm : Mirrored s.topic.files s.timers) {fd : Fd}
    {ctx : Ctx} (hnow : TimedTopic.Timely ctx.now) {file : File} {sd : SubscriberData}
    (hsub : s.topic.subscriber fd = some (file, sd)) :
    fueled fuel l.length (Mirrors s (.check fd ctx)) (s.next fuel (.check fd ctx)) := by
  unfold TimedTopic.next
  simp only [hsub]
  refine (appearsUpdated_checked hl hnow (hm.subscriber hsub) (hm.callout fd) _).bind ?_
  intro r hr
  refine ⟨?_, hm.checked hr rfl⟩
  unfold Topic.next
  simp only [hsub]
  show some _ = _
  rw [← hr.result]

theorem pollSetup_mirrors (hl : s.timers.Sound l) (hm : Mirrored s.topic.files s.timers) {fd : Fd}
    {ctx : Ctx} (hnow : TimedTopic.Timely ctx.now) (id : Nat) (events : Bool) {file : File}
    {sd : SubscriberData} (hsub : s.topic.subscriber fd = some (file, sd)) :
    fueled fuel l.length (Mirrors s (.pollSetup fd ctx id events))
      (s.next fuel (.pollSetup fd ctx id events)) := by
  unfold TimedTopic.next
  simp only [hsub]
  refine (appearsUpdated_checked hl hnow (hm.subscriber hsub) (hm.callout fd) _).bind ?_
  intro r hr
  obtain ⟨hupdated, hsd⟩ : r.1 = _ ∧ r.2.1 = _ := Prod.ext_iff.mp hr.result
  unfold Mirrors Topic.next
  simp only [hsub]
  cases hstored : OrbDevNode.storePollWaiter
      { id, priv := fd, events, revents := events && r.1 } s.topic.node.pollset with
  | none =>
      refine ⟨?_, hm⟩
      rw [hupdated] at hstored
      show (Option.bind (some (file, sd)) _) = _
      rw [Option.bind_some]
      dsimp only
      rw [hstored]
      rfl
  | some pollset =>
      refine ⟨?_, hm.checked hr rfl⟩
      rw [hupdated] at hstored
      show (Option.bind (some (file, sd)) _) = _
      rw [Option.bind_some]
      dsimp only
      rw [hstored, hsd]
      rfl

theorem subscribe_mirrors (hm : Mirrored s.topic.files s.timers) {fd : Fd} {ctx : Ctx}
    {retry : Bool} (h : s.next fuel (.subscribe fd ctx retry) = some t) :
    Mirrors s (.subscribe fd ctx retry) t := by
  unfold TimedTopic.next at h
  unfold Mirrors Topic.next
  cases hfile : s.topic.files fd with
  | some file =>
      simp only [hfile] at h
      cases h
  | none =>
      simp only [hfile] at h ⊢
      cases hopened : s.topic.node.open ctx retry .rdonly with
      | error e =>
          simp only [hopened] at h ⊢
          cases h
          exact ⟨rfl, hm⟩
      | ok r =>
          obtain ⟨n, priv⟩ := r
          simp only [hopened] at h ⊢
          cases h
          refine ⟨rfl, ?_⟩
          obtain ⟨sd, rfl, hcall⟩ : ∃ sd, priv = some sd ∧ sd.updateCall = 0 := by
            unfold OrbDevNode.open at hopened
            dsimp only at hopened
            split_ifs at hopened
            cases hopened
            exact ⟨_, rfl, rfl⟩
          refine hm.update rfl ?_ ?_ ?_
          · rw [Callouts.setEntry_self, hcall]
            rfl
          · intro hd
            rw [Callouts.setEntry_self] at hd
            exact absurd rfl hd
          · intro e he
            exact Callouts.setEntry_of_ne _ _ he

/-- The expiry of a timer. The entry leaves the queue as the deadline of the subscriber is zeroed,
and calls the notification. -/
theorem updateDeferred_mirrors (ho : s.Owned) (hl : s.timers.Sound l)
    (hm : Mirrored s.topic.files s.timers) {fd : Fd} {ctx : Ctx} (hnow : TimedTopic.Timely ctx.now)
    (hdue : s.timers.due ctx.now = some (.inl fd)) :
    fueled fuel (l.length + s.topic.node.pollset.length + 1) (Mirrors s (.updateDeferred fd ctx))
      (s.next fuel (.updateDeferred fd ctx)) := by
  have hscheduled := Callouts.due_deadline hl hdue
  obtain ⟨file, hfile⟩ := Option.isSome_iff_exists.mp (ho.opened fd hscheduled)
  obtain ⟨sd, hpriv, hcall⟩ := hm.call fd file hfile
  have hsub : s.topic.subscriber fd = some (file, sd) := by
    unfold Topic.subscriber
    rw [hfile, Option.bind_some, hpriv]
    rfl
  have hclear : TimedTopic.clearCall fd s.topic =
      s.topic.setPriv fd file { sd with updateCall := 0 } := by
    unfold TimedTopic.clearCall
    rw [hsub]
  have hnext : s.topic.next (.updateDeferred fd ctx) =
      some ((s.topic.setPriv fd file { sd with updateCall := 0 }).notify ctx) := by
    unfold Topic.next
    simp only [hsub]
    show (if sd.updateCall = 0 then _ else _) = _
    rw [if_neg (hcall ▸ hscheduled)]
    rfl
  unfold TimedTopic.next
  simp only [hdue, if_true]
  have hpop := (Callouts.hrtCallPop_spec hl (.inl fd) fuel).fueled
  refine (hpop.mono (by omega) fun _ h => h).bind ?_
  rintro timers ⟨hsame, l', hl'⟩
  have hlen := hl.length_le hl' hsame
  have hm' : Mirrored (TimedTopic.clearCall fd s.topic).files timers := by
    rw [hclear]
    refine hm.update rfl ?_ ?_ ?_
    · rw [hsame, Function.update_self]
    · intro hd
      rw [hsame, Function.update_self] at hd
      exact absurd rfl hd
    · intro e he
      rw [hsame, Function.update_of_ne he]
  rw [hm.callout fd hscheduled]
  have hnotified : fueled fuel _ _ _ := (notify_mirrored
    (s := { topic := TimedTopic.clearCall fd s.topic, timers := timers }) hl' hm' hnow).and
    (TimedTopic.notify_starts hl' hnow)
  have hslots : (TimedTopic.clearCall fd s.topic).node = s.topic.node := by
    rw [hclear]
    rfl
  simp only [hslots] at hnotified
  refine (hnotified.mono (by omega) fun _ h => h).bind ?_
  rintro t ⟨⟨ht, hm₁⟩, hstarts, -⟩
  have hperiod : (t.timers.entry (.inl fd)).period = 0 := by
    refine hstarts.period fd ?_
    rw [hsame, Function.update_self]
    exact ho.period fd
  -- Its period is zero, so the entry is not entered again.
  unfold Callouts.hrtCallReenter
  rw [if_neg fun hne => hne hperiod]
  rw [hclear] at ht
  exact ⟨hnext.trans (congrArg some ht.symm), hm₁⟩

/-- **The step lemma.** One case for each event. -/
theorem mirrors_of_step {e : Topic.Event} (ho : s.Owned) (hm : Mirrored s.topic.files s.timers)
    (hnow : TimelyEvent s (.topic e)) (h : TimedStep s (.topic e) t) : Mirrors s e t := by
  cases h with
  | topic hnext =>
      obtain ⟨l, hl⟩ := ho.sound
      cases e with
      | copyData publisher ctx buffer =>
          refine quiet_mirrors (fun t' ht' => ?_) hnext
          unfold Topic.next at ht'
          dsimp only at ht'
          split_ifs at ht'
          split at ht' <;> cases ht' <;> exact hm
      | countAndNotify publisher ctx =>
          by_cases hwriting : s.topic.writing.contains publisher = true
          · exact (countAndNotify_mirrors hl hm hnow hwriting).some hnext
          · unfold TimedTopic.next at hnext
            dsimp only at hnext
            rw [if_neg hwriting] at hnext
            cases hnext
      | subscribe fd ctx retry => exact subscribe_mirrors hm hnext
      | unsubscribe fd ctx =>
          refine quiet_mirrors (fun t' ht' => ?_) hnext
          unfold Topic.next at ht'
          dsimp only at ht'
          split at ht'
          · cases ht'
          · cases ht'
            exact hm.close fd
      | read fd wanted buflen =>
          refine quiet_mirrors (fun t' ht' => ?_) hnext
          obtain ⟨⟨file, sd⟩, hsub, ht'⟩ := Option.bind_eq_some_iff.mp ht'
          cases ht'
          exact hm.setPriv hsub (s.topic.node.read_updateCall wanted buflen sd)
      | check fd ctx =>
          obtain ⟨⟨file, sd⟩, hsub, -⟩ := Option.bind_eq_some_iff.mp hnext
          exact (check_mirrors hl hm hnow hsub).some hnext
      | setInterval fd interval =>
          refine quiet_mirrors (fun t' ht' => ?_) hnext
          obtain ⟨⟨file, sd⟩, hsub, ht'⟩ := Option.bind_eq_some_iff.mp ht'
          cases ht'
          exact hm.setPriv hsub rfl
      | pollSetup fd ctx id events =>
          obtain ⟨⟨file, sd⟩, hsub, -⟩ := Option.bind_eq_some_iff.mp hnext
          exact (pollSetup_mirrors hl hm hnow id events hsub).some hnext
      | pollTeardown id =>
          refine quiet_mirrors (fun t' ht' => ?_) hnext
          unfold Topic.next at ht'
          dsimp only at ht'
          split at ht' <;> cases ht' <;> exact hm
      | updateDeferred fd ctx =>
          have hdue := due_of_updateDeferred hnext
          exact (updateDeferred_mirrors ho hl hm hnow hdue).some hnext

/-! ### A run -/

/-- The event at the topic. What others do is none. -/
def TimedEvent.topic? : TimedEvent → Option Topic.Event
  | .topic e => some e
  | .others => none

/-- **The topic with the queue is the topic.** A run in which no subscription is closed while its
timer runs is a run of the topic. -/
theorem run_mirrors {metadata : OrbMetadata} {es : List TimedEvent}
    (hs : (timedTopic metadata).init s)
    (h : (((timedTopic metadata).restrict TimelyEvent).restrict CloseCalled).Run s es t) :
    (topic metadata).Run s.topic (es.filterMap TimedEvent.topic?) t.topic := by
  have hstart : s.Owned ∧ Mirrored s.topic.files s.timers := by
    refine ⟨owned_of_reachable (.of_init hs), ?_, ?_⟩
    · intro fd file hfile
      rw [hs.1.2.1 fd] at hfile
      cases hfile
    · intro fd hd
      rw [hs.2.2 fd] at hd
      exact absurd rfl hd
  have hsimulates : ∃ u, (t.topic = u ∧ t.Owned ∧ Mirrored t.topic.files t.timers) ∧
      (topic metadata).Run s.topic (es.filterMap TimedEvent.topic?) u := by
    refine h.simulates (R := fun s u => s.topic = u ∧ s.Owned ∧ Mirrored s.topic.files s.timers)
      TimedEvent.topic? ?_ ?_ ⟨rfl, hstart⟩
    · rintro s e t _ d ⟨rfl, ho, hm⟩ ⟨hcalled, hnow, hstep⟩ hseen
      cases e with
      | others => cases hseen
      | topic e =>
          cases hseen
          obtain ⟨hnext, hm'⟩ := mirrors_of_step ho hm hnow hstep
          exact ⟨t.topic, ⟨rfl, owned_of_step ho hstep hnow hcalled, hm'⟩, hnext⟩
    · rintro s e t _ ⟨rfl, ho, hm⟩ ⟨hcalled, hnow, hstep⟩ hunseen
      cases e with
      | topic e => cases hunseen
      | others =>
          refine ⟨?_, owned_of_step ho hstep hnow hcalled, ?_⟩
          · cases hstep
            rfl
          · cases hstep with
            | others _ hsame => exact hm.others hsame
  obtain ⟨u, ⟨rfl, -⟩, hrun⟩ := hsimulates
  exact hrun

end

end Px4Firmware.Uorb
