import Mathlib.Data.List.Sort
import Px4Firmware.Hrt.SqQueue
import Px4Firmware.Lib.Fuel

/-!
# Px4Firmware.Hrt.Callout

The callout list of the high-resolution timer (`up_hrt.c`): scheduling an entry,
cancelling it, and the parts of the interrupt handler `hrt_call_invoke` between which a
callout runs.

The queue holds the scheduled entries in the order of their deadlines, and an entry is
scheduled exactly when its deadline is not zero (`Sound`). Where deadlines may be zero, an
entry in the queue may look as if it was not scheduled (`Queued`). Every operation has one
lemma for each of the two that says that it keeps it, with any fuel, and how much fuel it
needs. Setting the compare register for the next interrupt is left out: an interrupt may
come at any time.
-/

namespace Px4Firmware.Hrt

open Px4Firmware.Lib

/-- `struct hrt_call`, without its link. A callout and its argument are one value of
`κ`; `none` is the null callout. -/
structure HrtCall (κ : Type) where
  deadline : UInt64
  period : UInt64
  callout : Option κ

/-- The callout queue and all entries. -/
structure Callouts (ι : Type) (κ : Type) where
  queue : SqQueue ι
  entry : ι → HrtCall κ

namespace Callouts

section

variable {ι κ : Type} [DecidableEq ι]

/-- Change one entry. -/
def setEntry (h : Callouts ι κ) (e : ι) (c : HrtCall κ) : Callouts ι κ :=
  { h with entry := Function.update h.entry e c }

@[simp] theorem setEntry_self (h : Callouts ι κ) (e : ι) (c : HrtCall κ) :
    (h.setEntry e c).entry e = c := Function.update_self ..

theorem setEntry_of_ne (h : Callouts ι κ) {e e' : ι} (c : HrtCall κ) (hne : e' ≠ e) :
    (h.setEntry e c).entry e' = h.entry e' := Function.update_of_ne hne ..

/-- The loop of `hrt_call_enter`: `entry` goes after the last call that is not later. -/
def enterAfter (entry : ι) : Nat → ι → Callouts ι κ → Option (Callouts ι κ)
  | 0, _, _ => none
  | fuel + 1, call, h =>
      match h.queue.flink call with
      | none => some { h with queue := h.queue.sqAddafter call entry }
      | some next =>
          if (h.entry entry).deadline < (h.entry next).deadline then
            some { h with queue := h.queue.sqAddafter call entry }
          else
            enterAfter entry fuel next h

/-- `hrt_call_enter`. -/
def hrtCallEnter (fuel : Nat) (entry : ι) (h : Callouts ι κ) : Option (Callouts ι κ) :=
  match h.queue.head with
  | none => some { h with queue := h.queue.sqAddfirst entry }
  | some call =>
      if (h.entry entry).deadline < (h.entry call).deadline then
        some { h with queue := h.queue.sqAddfirst entry }
      else
        enterAfter entry fuel call h

/-- Take an entry out of the callout queue. -/
def remove (fuel : Nat) (entry : ι) (h : Callouts ι κ) : Option (Callouts ι κ) := do
  let queue ← h.queue.sqRem fuel entry
  return { h with queue := queue }

/-- `hrt_call_internal`. -/
def hrtCallInternal (fuel : Nat) (entry : ι) (deadline interval : UInt64) (callout : Option κ)
    (h : Callouts ι κ) : Option (Callouts ι κ) := do
  let h ← if (h.entry entry).deadline ≠ 0 then h.remove fuel entry else some h
  hrtCallEnter fuel entry
    (h.setEntry entry { deadline := deadline, period := interval, callout := callout })

/-- `hrt_call_after`, called at the time `now`. -/
def hrtCallAfter (fuel : Nat) (entry : ι) (now delay : UInt64) (callout : Option κ) :
    Callouts ι κ → Option (Callouts ι κ) :=
  hrtCallInternal fuel entry (now + delay) 0 callout

/-- `hrt_call_at`. -/
def hrtCallAt (fuel : Nat) (entry : ι) (calltime : UInt64) (callout : Option κ) :
    Callouts ι κ → Option (Callouts ι κ) :=
  hrtCallInternal fuel entry calltime 0 callout

/-- `hrt_call_every`, called at the time `now`. -/
def hrtCallEvery (fuel : Nat) (entry : ι) (now delay interval : UInt64) (callout : Option κ) :
    Callouts ι κ → Option (Callouts ι κ) :=
  hrtCallInternal fuel entry (now + delay) interval callout

/-- `hrt_called`. -/
def hrtCalled (entry : ι) (h : Callouts ι κ) : Bool := (h.entry entry).deadline = 0

/-- `hrt_cancel`. -/
def hrtCancel (fuel : Nat) (entry : ι) (h : Callouts ι κ) : Option (Callouts ι κ) := do
  let h ← h.remove fuel entry
  return h.setEntry entry { h.entry entry with deadline := 0, period := 0 }

/-- The entry that `hrt_call_invoke` takes next: the head of the queue, if it is due. -/
def due (now : UInt64) (h : Callouts ι κ) : Option ι :=
  match h.queue.head with
  | none => none
  | some call => if (h.entry call).deadline > now then none else some call

/-- `hrt_call_invoke`, before the callout: the entry is taken out and its deadline is
zeroed. -/
def hrtCallPop (fuel : Nat) (call : ι) (h : Callouts ι κ) : Option (Callouts ι κ) := do
  let h ← h.remove fuel call
  return h.setEntry call { h.entry call with deadline := 0 }

/-- `hrt_call_invoke`, after the callout: an entry with a period is entered again, at
its saved deadline and one period. -/
def hrtCallReenter (fuel : Nat) (call : ι) (deadline : UInt64) (h : Callouts ι κ) :
    Option (Callouts ι κ) :=
  if (h.entry call).period ≠ 0 then
    hrtCallEnter fuel call
      (h.setEntry call { h.entry call with deadline := deadline + (h.entry call).period })
  else
    some h

end

/-! ### The order of the queue -/

section

variable {ι κ : Type} {h : Callouts ι κ} {l l' : List ι} {entry call : ι}

/-- The queue in the order of the deadlines. -/
def Ordered (h : Callouts ι κ) (l : List ι) : Prop :=
  l.Pairwise fun a b => (h.entry a).deadline ≤ (h.entry b).deadline

/-- Where an entry goes: before the first later one. -/
def insertCall (h : Callouts ι κ) (entry : ι) (l : List ι) : List ι :=
  l.orderedInsert (fun a b => (h.entry a).deadline < (h.entry b).deadline) entry

theorem insertCall_cons :
    h.insertCall entry (call :: l) =
      if (h.entry entry).deadline < (h.entry call).deadline then entry :: call :: l
      else call :: h.insertCall entry l :=
  List.orderedInsert_cons ..

theorem mem_insertCall :
    call ∈ h.insertCall entry l ↔ call = entry ∨ call ∈ l :=
  List.mem_orderedInsert ..

/-- The queue holds the scheduled entries, in the order of their deadlines. -/
structure Sound (h : Callouts ι κ) (l : List ι) : Prop where
  repr : h.queue.Repr l
  ordered : h.Ordered l
  mem_iff : ∀ e, e ∈ l ↔ (h.entry e).deadline ≠ 0

theorem insertCall_ordered (hl : h.Ordered l) : h.Ordered (h.insertCall entry l) := by
  induction l with
  | nil => exact List.pairwise_singleton _ _
  | cons a l ih =>
      obtain ⟨ha, hl'⟩ := List.pairwise_cons.mp hl
      rw [insertCall_cons]
      by_cases hlt : (h.entry entry).deadline < (h.entry a).deadline
      · rw [if_pos hlt]
        refine List.pairwise_cons.mpr ⟨fun b hb => ?_, hl⟩
        rcases List.mem_cons.mp hb with rfl | hb
        · exact UInt64.le_of_lt hlt
        · exact UInt64.le_trans (UInt64.le_of_lt hlt) (ha b hb)
      · rw [if_neg hlt]
        refine List.pairwise_cons.mpr ⟨fun b hb => ?_, ih hl'⟩
        rcases mem_insertCall.mp hb with rfl | hb
        · exact UInt64.not_lt.mp hlt
        · exact ha b hb

/-- The queue is sound, except that nothing is known about `entry`, which is not in it. -/
structure SoundBut (h : Callouts ι κ) (l : List ι) (entry : ι) : Prop where
  repr : h.queue.Repr l
  ordered : h.Ordered l
  not_mem : entry ∉ l
  mem_iff : ∀ e, e ≠ entry → (e ∈ l ↔ (h.entry e).deadline ≠ 0)

theorem Sound.but (hl : h.Sound l) (hzero : (h.entry entry).deadline = 0) :
    h.SoundBut l entry where
  repr := hl.repr
  ordered := hl.ordered
  not_mem hmem := (hl.mem_iff entry).mp hmem hzero
  mem_iff e _ := hl.mem_iff e

theorem SoundBut.sound (hl : h.SoundBut l entry) (hzero : (h.entry entry).deadline = 0) :
    h.Sound l where
  repr := hl.repr
  ordered := hl.ordered
  mem_iff e := by
    by_cases he : e = entry
    · subst he
      exact ⟨fun hmem => absurd hmem hl.not_mem, fun hne => absurd hzero hne⟩
    · exact hl.mem_iff e he

/-- The queue as it should be: the entries that are scheduled, each once, in the order of
their deadlines. -/
def QueueSound (c : Callouts ι κ) : Prop :=
  ∃ l : List ι, c.queue.Repr l ∧ l.Nodup ∧ c.Ordered l ∧
    (∀ e, e ∈ l ↔ (c.entry e).deadline ≠ 0) ∧ ∀ e, c.hrtCalled e = true ↔ e ∉ l

theorem queueSound_iff : h.QueueSound ↔ ∃ l, h.Sound l := by
  constructor
  · rintro ⟨l, hrepr, -, hordered, hmem, -⟩
    exact ⟨l, hrepr, hordered, hmem⟩
  · rintro ⟨l, hl⟩
    refine ⟨l, hl.repr, hl.repr.nodup, hl.ordered, hl.mem_iff, fun e => ?_⟩
    unfold hrtCalled
    rw [decide_eq_true_iff, hl.mem_iff, Decidable.not_not]

/-- An operation on a queue of `l` ends when it has enough fuel, with the entries `entries`
and a sound queue. -/
def Ends (fuel : Nat) (l : List ι) (entries : ι → HrtCall κ) (r : Option (Callouts ι κ)) : Prop :=
  match r with
  | none => fuel ≤ l.length
  | some h' => h'.entry = entries ∧ ∃ l', h'.Sound l'

/-- An operation on one entry makes the queue longer by one entry at most. -/
theorem Sound.length_le [DecidableEq ι] {h' : Callouts ι κ} (hl : h.Sound l) (hl' : h'.Sound l')
    {c : HrtCall κ} (hsame : h'.entry = Function.update h.entry entry c) :
    l'.length ≤ l.length + 1 := by
  have hsub : l' ⊆ entry :: l := by
    intro e he
    by_cases heq : e = entry
    · exact heq ▸ List.mem_cons_self
    · have hne := (hl'.mem_iff e).mp he
      rw [hsame, Function.update_of_ne heq] at hne
      exact List.mem_cons_of_mem _ ((hl.mem_iff e).mpr hne)
  exact List.Nodup.length_le_of_subset hl'.repr.nodup hsub

theorem Ends.fueled {fuel : Nat} {entries : ι → HrtCall κ} {r : Option (Callouts ι κ)}
    (hends : Ends fuel l entries r) :
    fueled fuel l.length (fun h' => h'.entry = entries ∧ ∃ l', h'.Sound l') r := by
  cases r <;> exact hends

/-- An operation that has ended. -/
theorem Ends.some {fuel : Nat} {entries : ι → HrtCall κ} {r : Option (Callouts ι κ)}
    (hends : Ends fuel l entries r) (hr : r = some h) : h.entry = entries ∧ ∃ l', h.Sound l' := by
  subst hr
  exact hends

/-- With more fuel than there are entries in the queue, it ends. -/
theorem Ends.exists_some {entries : ι → HrtCall κ} {r : Option (Callouts ι κ)}
    (hends : Ends (l.length + 1) l entries r) : ∃ h', r = .some h' := by
  cases r with
  | none => exact absurd hends (Nat.not_succ_le_self _)
  | some h' => exact ⟨h', rfl⟩

/-- Every scheduled entry is in the queue, which is in the order of the deadlines. -/
structure Queued (h : Callouts ι κ) (l : List ι) : Prop where
  repr : h.queue.Repr l
  ordered : h.Ordered l
  mem : ∀ e, (h.entry e).deadline ≠ 0 → e ∈ l

/-- The same, except that nothing is known about `entry`, which is not in the queue. -/
structure QueuedBut (h : Callouts ι κ) (l : List ι) (entry : ι) : Prop where
  repr : h.queue.Repr l
  ordered : h.Ordered l
  not_mem : entry ∉ l
  mem : ∀ e, e ≠ entry → (h.entry e).deadline ≠ 0 → e ∈ l

/-- The entry that is due is the first. -/
theorem Queued.first (hl : h.Queued l) {now : UInt64} (hdue : h.due now = some call) :
    ∃ l', l = call :: l' := by
  unfold due at hdue
  rw [hl.repr.head] at hdue
  cases l with
  | nil => cases hdue
  | cons first l =>
      simp only [List.head?_cons] at hdue
      split_ifs at hdue
      cases hdue
      exact ⟨l, rfl⟩

/-- No entry in the queue has an earlier deadline. -/
theorem Queued.due_le (hl : h.Queued l) {now : UInt64} (hdue : h.due now = some call) {e : ι}
    (he : e ∈ l) : (h.entry call).deadline ≤ (h.entry e).deadline := by
  obtain ⟨l', rfl⟩ := hl.first hdue
  rcases List.mem_cons.mp he with rfl | he
  · exact UInt64.le_refl _
  · exact (List.pairwise_cons.mp hl.ordered).1 e he

/-- When no entry is due, the deadline of no entry in the queue has come. -/
theorem Queued.lt_of_not_due (hl : h.Queued l) {now : UInt64} (hdue : h.due now = none) {e : ι}
    (he : e ∈ l) : now < (h.entry e).deadline := by
  unfold due at hdue
  rw [hl.repr.head] at hdue
  cases l with
  | nil => cases he
  | cons first l =>
      simp only [List.head?_cons] at hdue
      split_ifs at hdue with hlater
      rcases List.mem_cons.mp he with rfl | he
      · exact hlater
      · exact UInt64.lt_of_lt_of_le hlater ((List.pairwise_cons.mp hl.ordered).1 e he)

theorem Queued.but (hl : h.Queued l) (hout : call ∉ l) : h.QueuedBut l call :=
  ⟨hl.repr, hl.ordered, hout, fun e _ => hl.mem e⟩

theorem Sound.queued (hl : h.Sound l) : h.Queued l :=
  ⟨hl.repr, hl.ordered, fun e => (hl.mem_iff e).mpr⟩

/-- The entry that is due is scheduled. -/
theorem due_deadline (hl : h.Sound l) {now : UInt64} (hdue : h.due now = some call) :
    (h.entry call).deadline ≠ 0 := by
  obtain ⟨l', rfl⟩ := hl.queued.first hdue
  exact (hl.mem_iff call).mp List.mem_cons_self

/-- Its deadline has come. -/
theorem due_le {now : UInt64} (hdue : h.due now = some call) :
    (h.entry call).deadline ≤ now := by
  unfold due at hdue
  split at hdue
  · cases hdue
  · split_ifs at hdue with hlater
    cases hdue
    exact UInt64.not_lt.mp hlater

end

section

variable {ι κ : Type} [DecidableEq ι]

/-! ### Entering a call -/

variable {h h' : Callouts ι κ} {l l' : List ι} {entry call : ι}

theorem enterAfter_spec (hl : h.queue.Repr (l ++ call :: l')) (hentry : entry ∉ l ++ call :: l')
    (fuel : Nat) :
    match enterAfter entry fuel call h with
    | none => fuel ≤ l'.length
    | some h' => h'.entry = h.entry ∧
        h'.queue.Repr (l ++ call :: h.insertCall entry l') := by
  induction l' generalizing l call fuel with
  | nil =>
      cases fuel with
      | zero => exact Nat.le_refl 0
      | succ fuel =>
          unfold enterAfter
          rw [hl.flink_eq]
          exact ⟨rfl, SqQueue.sqAddafter_repr hl hentry⟩
  | cons next l' ih =>
      cases fuel with
      | zero => exact Nat.zero_le _
      | succ fuel =>
          unfold enterAfter
          rw [hl.flink_eq, insertCall_cons]
          simp only [List.head?_cons]
          by_cases hlt : (h.entry entry).deadline < (h.entry next).deadline
          · rw [if_pos hlt, if_pos hlt]
            exact ⟨rfl, SqQueue.sqAddafter_repr hl hentry⟩
          · rw [if_neg hlt, if_neg hlt]
            -- `next` is not later than the entry, and belongs to what comes before it.
            have hsplit : l ++ call :: next :: l' = (l ++ [call]) ++ next :: l' := by simp
            rw [hsplit] at hl hentry
            have hrest := ih hl hentry fuel
            cases hres : enterAfter entry fuel next h with
            | none =>
                rw [hres] at hrest
                exact Nat.succ_le_succ hrest
            | some h' =>
                rw [hres] at hrest
                simpa using hrest

/-- **Entering a call**: it goes before the first later call. -/
theorem hrtCallEnter_spec (hl : h.queue.Repr l) (hentry : entry ∉ l) (fuel : Nat) :
    match hrtCallEnter fuel entry h with
    | none => fuel ≤ l.length
    | some h' => h'.entry = h.entry ∧ h'.queue.Repr (h.insertCall entry l) := by
  unfold hrtCallEnter
  rw [hl.head]
  cases l with
  | nil => exact ⟨rfl, SqQueue.sqAddfirst_repr hl hentry⟩
  | cons call l =>
      rw [insertCall_cons]
      simp only [List.head?_cons]
      by_cases hlt : (h.entry entry).deadline < (h.entry call).deadline
      · rw [if_pos hlt, if_pos hlt]
        exact ⟨rfl, SqQueue.sqAddfirst_repr hl hentry⟩
      · rw [if_neg hlt, if_neg hlt]
        have hafter := enterAfter_spec (l := []) hl hentry fuel
        cases hres : enterAfter entry fuel call h with
        | none =>
            rw [hres] at hafter
            exact Nat.le_succ_of_le hafter
        | some h' =>
            rw [hres] at hafter
            exact hafter

/-! ### The operations -/

/-- The entry that is not in the queue may change. -/
theorem Ordered.setEntry (hl : h.Ordered l) (hout : entry ∉ l) (c : HrtCall κ) :
    (h.setEntry entry c).Ordered l := by
  refine hl.imp_of_mem fun {a b} ha hb hab => ?_
  have hae : a ≠ entry := fun heq => hout (heq ▸ ha)
  have hbe : b ≠ entry := fun heq => hout (heq ▸ hb)
  rw [setEntry_of_ne h c hae, setEntry_of_ne h c hbe]
  exact hab

/-- An operation has changed one entry, and the queue then holds these entries. -/
def Changed (h : Callouts ι κ) (entry : ι) (c : HrtCall κ) (members : ι → Prop)
    (h' : Callouts ι κ) : Prop :=
  h'.entry = Function.update h.entry entry c ∧ ∃ l, h'.Queued l ∧ ∀ e, e ∈ l ↔ members e

theorem QueuedBut.setEntry (hl : h.QueuedBut l entry) (c : HrtCall κ) :
    (h.setEntry entry c).QueuedBut l entry where
  repr := hl.repr
  ordered := hl.ordered.setEntry hl.not_mem c
  not_mem := hl.not_mem
  mem e he hne := by
    rw [setEntry_of_ne h c he] at hne
    exact hl.mem e he hne

theorem Queued.remove (hl : h.Queued l) (entry : ι) (fuel : Nat) :
    fueled fuel l.length (fun h' => h'.entry = h.entry ∧ h'.QueuedBut (l.erase entry) entry)
      (h.remove fuel entry) := by
  have hrem := SqQueue.sqRem_spec hl.repr entry fuel
  have hnodup := hl.repr.nodup
  unfold Callouts.remove
  cases hres : h.queue.sqRem fuel entry with
  | none =>
      rw [hres] at hrem
      exact hrem
  | some q' =>
      rw [hres] at hrem
      refine ⟨rfl, hrem, hl.ordered.sublist List.erase_sublist, ?_, fun e he hne => ?_⟩
      · intro hmem
        exact (hnodup.mem_erase_iff.mp hmem).1 rfl
      · exact hnodup.mem_erase_iff.mpr ⟨he, hl.mem e hne⟩

/-- Changing an entry that is not in the queue, and entering it. -/
theorem QueuedBut.enter (hl : h.QueuedBut l entry) (c : HrtCall κ) (fuel : Nat) :
    fueled fuel l.length (Changed h entry c fun e => e = entry ∨ e ∈ l)
      (hrtCallEnter fuel entry (h.setEntry entry c)) := by
  have hset := hl.setEntry c
  have henter := hrtCallEnter_spec hset.repr hset.not_mem fuel
  cases hres : hrtCallEnter fuel entry (h.setEntry entry c) with
  | none =>
      rw [hres] at henter
      exact henter
  | some h' =>
      rw [hres] at henter
      obtain ⟨hsame, hrepr⟩ := henter
      refine ⟨hsame, _, ⟨hrepr, ?_, fun e hne => ?_⟩, fun e => mem_insertCall⟩
      · unfold Ordered
        rw [hsame]
        exact insertCall_ordered hset.ordered
      · rw [hsame] at hne
        by_cases he : e = entry
        · exact mem_insertCall.mpr (.inl he)
        · exact mem_insertCall.mpr (.inr (hset.mem e he hne))

/-- Scheduling an entry. One with the deadline zero is not taken out first, and must not be in the
queue. -/
theorem Queued.hrtCallInternal (hl : h.Queued l) (hout : (h.entry entry).deadline = 0 → entry ∉ l)
    (deadline interval : UInt64) (callout : Option κ) (fuel : Nat) :
    fueled fuel l.length
      (Changed h entry ⟨deadline, interval, callout⟩ fun e => e = entry ∨ e ∈ l)
      (hrtCallInternal fuel entry deadline interval callout h) := by
  unfold Callouts.hrtCallInternal
  by_cases hqueued : (h.entry entry).deadline ≠ 0
  · rw [if_pos hqueued]
    refine (hl.remove entry fuel).bind fun h₁ h₁l => ?_
    obtain ⟨hsame, hbut⟩ := h₁l
    refine (hbut.enter _ fuel).mono List.erase_sublist.length_le fun h' hchanged => ?_
    obtain ⟨hentry, l', hl', hmem⟩ := hchanged
    refine ⟨hsame ▸ hentry, l', hl', fun e => ?_⟩
    rw [hmem]
    show e = entry ∨ e ∈ l.erase entry ↔ e = entry ∨ e ∈ l
    rw [hl.repr.nodup.mem_erase_iff]
    by_cases he : e = entry <;> simp [he]
  · rw [if_neg hqueued]
    exact (hl.but (hout (Decidable.not_not.mp hqueued))).enter _ fuel

/-- Taking an entry out and zeroing its deadline. -/
theorem Queued.remove_clear (hl : h.Queued l) (entry : ι) (fuel : Nat)
    (clear : HrtCall κ → HrtCall κ) (hclear : ∀ c, (clear c).deadline = 0) :
    fueled fuel l.length
      (Changed h entry (clear (h.entry entry)) fun e => e ≠ entry ∧ e ∈ l)
      (do
        let h ← h.remove fuel entry
        return h.setEntry entry (clear (h.entry entry))) := by
  refine (hl.remove entry fuel).bind fun h₁ h₁l => ?_
  obtain ⟨hsame, hbut⟩ := h₁l
  have hset := hbut.setEntry (clear (h₁.entry entry))
  refine ⟨?_, _, ⟨hset.repr, hset.ordered, fun e hne => ?_⟩, fun e => hl.repr.nodup.mem_erase_iff⟩
  · show Function.update h₁.entry entry (clear (h₁.entry entry)) = _
    rw [hsame]
  · refine hset.mem e ?_ hne
    intro heq
    subst heq
    rw [setEntry_self] at hne
    exact hne (hclear _)

theorem Queued.hrtCancel (hl : h.Queued l) (entry : ι) (fuel : Nat) :
    fueled fuel l.length
      (Changed h entry { h.entry entry with deadline := 0, period := 0 } fun e => e ≠ entry ∧ e ∈ l)
      (hrtCancel fuel entry h) :=
  hl.remove_clear entry fuel (fun c => { c with deadline := 0, period := 0 }) fun _ => rfl

theorem Queued.hrtCallPop (hl : h.Queued l) (entry : ι) (fuel : Nat) :
    fueled fuel l.length
      (Changed h entry { h.entry entry with deadline := 0 } fun e => e ≠ entry ∧ e ∈ l)
      (hrtCallPop fuel entry h) :=
  hl.remove_clear entry fuel (fun c => { c with deadline := 0 }) fun _ => rfl

/-- The entry after its callout. -/
def afterCallout (c : HrtCall κ) (deadline : UInt64) : HrtCall κ :=
  if c.period ≠ 0 then { c with deadline := deadline + c.period } else c

/-- Entering an entry again, which must not be in the queue. -/
theorem Queued.hrtCallReenter (hl : h.Queued l) (hout : (h.entry entry).period ≠ 0 → entry ∉ l)
    (deadline : UInt64) (fuel : Nat) :
    fueled fuel l.length
      (Changed h entry (afterCallout (h.entry entry) deadline) fun e =>
        (h.entry entry).period ≠ 0 ∧ e = entry ∨ e ∈ l)
      (hrtCallReenter fuel entry deadline h) := by
  unfold Callouts.hrtCallReenter afterCallout
  by_cases hperiod : (h.entry entry).period ≠ 0
  · rw [if_pos hperiod, if_pos hperiod]
    have henter := (hl.but (hout hperiod)).enter
      { h.entry entry with deadline := deadline + (h.entry entry).period } fuel
    simpa only [hperiod, not_false_eq_true, ne_eq, true_and] using henter
  · rw [if_neg hperiod, if_neg hperiod]
    refine ⟨(Function.update_eq_self ..).symm, l, hl, fun e => ?_⟩
    simp [Decidable.not_not.mp hperiod]

/-- What an operation on one entry leaves of the others. -/
theorem Changed.others {c : HrtCall κ} {members : ι → Prop}
    (hchanged : Changed h entry c members h') (hmem : ∀ e, e ≠ entry → (members e ↔ e ∈ l)) :
    ∃ l', h'.Queued l' ∧ ∀ e, e ≠ entry → h'.entry e = h.entry e ∧ (e ∈ l' ↔ e ∈ l) := by
  obtain ⟨hsame, l', hl', hmem'⟩ := hchanged
  refine ⟨l', hl', fun e he => ⟨?_, (hmem' e).trans (hmem e he)⟩⟩
  rw [hsame, Function.update_of_ne he]

/-! ### The operations on a sound queue -/

theorem SoundBut.setEntry (hl : h.SoundBut l entry) (c : HrtCall κ) :
    (h.setEntry entry c).SoundBut l entry where
  repr := hl.repr
  ordered := hl.ordered.setEntry hl.not_mem c
  not_mem := hl.not_mem
  mem_iff e he := by
    rw [setEntry_of_ne h c he]
    exact hl.mem_iff e he

/-- An operation on one entry keeps the queue sound if afterwards the entry is in the queue exactly
when it is scheduled. -/
theorem Sound.ends (hl : h.Sound l) {c : HrtCall κ} {members : ι → Prop} {fuel : Nat}
    {r : Option (Callouts ι κ)} (hchanged : fueled fuel l.length (Changed h entry c members) r)
    (hself : members entry ↔ c.deadline ≠ 0)
    (hothers : ∀ e, e ≠ entry → (members e ↔ e ∈ l)) :
    Ends fuel l (Function.update h.entry entry c) r := by
  cases r with
  | none => exact hchanged
  | some h' =>
      obtain ⟨hsame, l', hl', hmem⟩ := hchanged
      refine ⟨hsame, l', hl'.repr, hl'.ordered, fun e => ?_⟩
      rw [hmem, hsame]
      by_cases he : e = entry
      · subst he
        rw [Function.update_self]
        exact hself
      · rw [Function.update_of_ne he, hothers e he]
        exact hl.mem_iff e

/-- Scheduling an entry at a deadline. -/
theorem hrtCallInternal_spec (hl : h.Sound l) {deadline : UInt64} (hne : deadline ≠ 0)
    (entry : ι) (interval : UInt64) (callout : Option κ) (fuel : Nat) :
    Ends fuel l (Function.update h.entry entry ⟨deadline, interval, callout⟩)
      (hrtCallInternal fuel entry deadline interval callout h) := by
  have hout : (h.entry entry).deadline = 0 → entry ∉ l := by
    intro hzero hmem
    exact (hl.mem_iff entry).mp hmem hzero
  have hchanged := hl.queued.hrtCallInternal hout deadline interval callout fuel
  exact hl.ends hchanged (by simp [hne]) fun e he => by simp [he]

theorem hrtCancel_spec (hl : h.Sound l) (entry : ι) (fuel : Nat) :
    Ends fuel l (Function.update h.entry entry { h.entry entry with deadline := 0, period := 0 })
      (hrtCancel fuel entry h) :=
  hl.ends (hl.queued.hrtCancel entry fuel) (by simp) fun _ he => and_iff_right he

theorem hrtCallPop_spec (hl : h.Sound l) (entry : ι) (fuel : Nat) :
    Ends fuel l (Function.update h.entry entry { h.entry entry with deadline := 0 })
      (hrtCallPop fuel entry h) :=
  hl.ends (hl.queued.hrtCallPop entry fuel) (by simp) fun _ he => and_iff_right he

/-- May the entry be entered again? Not when its callout has left it scheduled with a
period, and not at the deadline zero. -/
def Reenterable (h : Callouts ι κ) (call : ι) (deadline : UInt64) : Prop :=
  (h.entry call).period ≠ 0 →
    (h.entry call).deadline = 0 ∧ deadline + (h.entry call).period ≠ 0

theorem hrtCallReenter_spec (hl : h.Sound l) {call : ι} {deadline : UInt64}
    (hok : h.Reenterable call deadline) (fuel : Nat) :
    Ends fuel l (Function.update h.entry call (afterCallout (h.entry call) deadline))
      (hrtCallReenter fuel call deadline h) := by
  have hout : (h.entry call).period ≠ 0 → call ∉ l := by
    intro hperiod hmem
    exact (hl.mem_iff call).mp hmem (hok hperiod).1
  refine hl.ends (hl.queued.hrtCallReenter hout deadline fuel) ?_ fun e he => by simp [he]
  unfold afterCallout
  by_cases hperiod : (h.entry call).period ≠ 0
  · rw [if_pos hperiod]
    exact ⟨fun _ => (hok hperiod).2, fun _ => .inl ⟨hperiod, rfl⟩⟩
  · rw [if_neg hperiod, ← hl.mem_iff call]
    exact or_iff_right fun h => hperiod h.1

end

end Callouts

end Px4Firmware.Hrt
