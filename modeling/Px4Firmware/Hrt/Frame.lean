import Px4Firmware.Hrt.Machine

/-!
# Px4Firmware.Hrt.Frame

**The frame of the timer's operations.** An entry that the links of the queue do not lead to is not
looked at by an operation on another entry: its fields may be anything, the operation leaves them
alone, and afterwards the links still do not lead to it. `Spares` says this of one operation,
whether or not the queue represents a list, and it holds of operations that follow each other.

At the end, an event of the timer has one outcome, whatever the fuel.
-/

namespace Px4Firmware.Hrt

open Px4Firmware.Lib

/-! ### Where the links lead -/

namespace SqQueue

/-- The links lead from the head to this entry. -/
inductive Linked {ι : Type} (q : SqQueue ι) : ι → Prop
  | head {a : ι} : q.head = some a → Linked q a
  | next {a b : ι} : Linked q a → q.flink a = some b → Linked q b

variable {ι : Type} {q : SqQueue ι} {l : List ι} {e node prev : ι}

/-- The links lead only to entries of a set that holds the head and is closed under them. -/
theorem not_linked_of_closed {S : ι → Prop} (hhead : ∀ a, q.head = some a → S a)
    (hnext : ∀ a b, S a → q.flink a = some b → S b) (he : ¬ S e) : ¬ q.Linked e := by
  intro hlinked
  refine he ?_
  clear he
  induction hlinked with
  | head h => exact hhead _ h
  | next _ h ih => exact hnext _ _ ih h

/-- In a queue that represents a list, the links lead to the entries of the list. -/
theorem Repr.linked_iff (h : q.Repr l) : q.Linked e ↔ e ∈ l := by
  constructor
  · intro hlinked
    induction hlinked with
    | head hhead =>
        rw [h.head] at hhead
        exact List.mem_of_mem_head? hhead
    | next _ hnext ih =>
        obtain ⟨l₁, l₂, rfl⟩ := List.append_of_mem ih
        rw [h.flink_eq] at hnext
        exact List.mem_append_right l₁ (List.mem_cons_of_mem _ (List.mem_of_mem_head? hnext))
  · intro hmem
    have hchain (p : Option ι) (hp : ∀ a, p = some a → q.Linked a) (hl : Chain q.flink p l) :
        q.Linked e := by
      clear h
      induction l generalizing p with
      | nil => cases hmem
      | cons a l ih =>
          obtain ⟨rfl, hrest⟩ := hl
          rcases List.mem_cons.mp hmem with rfl | hmem
          · exact hp _ rfl
          · exact ih hmem _ (fun b hb => .next (hp a rfl) hb) hrest
    exact hchain q.head (fun a ha => .head ha) h.chain

variable [DecidableEq ι]

theorem not_linked_sqAddfirst (h : ¬ q.Linked e) (hne : e ≠ node) :
    ¬ (sqAddfirst node q).Linked e := by
  refine not_linked_of_closed (S := fun a => a = node ∨ q.Linked a) ?_ ?_ (not_or.mpr ⟨hne, h⟩)
  · intro a ha
    exact .inl (Option.some.inj ha).symm
  · intro a b ha hb
    have hb' : Function.update q.flink node q.head a = some b := hb
    by_cases heq : a = node
    · rw [heq, Function.update_self] at hb'
      exact .inr (.head hb')
    · rw [Function.update_of_ne heq] at hb'
      exact .inr (.next (ha.resolve_left heq) hb')

theorem not_linked_sqAddlast (h : ¬ q.Linked e) (hne : e ≠ node) :
    ¬ (sqAddlast node q).Linked e := by
  refine not_linked_of_closed (S := fun a => a = node ∨ q.Linked a) ?_ ?_ (not_or.mpr ⟨hne, h⟩)
  · intro a ha
    unfold sqAddlast at ha
    simp only [setFlink] at ha
    split at ha
    · exact .inl (Option.some.inj ha).symm
    · next hhead =>
        have ha' : q.head = some a := by
          split at ha <;> exact ha
        exact .inr (.head ha')
  · intro a b ha hb
    -- The links are those from before, but for those of the new entry and of the tail.
    have hold (hb : Function.update q.flink node none a = some b) : b = node ∨ q.Linked b := by
      by_cases heq : a = node
      · rw [heq, Function.update_self] at hb
        cases hb
      · rw [Function.update_of_ne heq] at hb
        exact .inr (.next (ha.resolve_left heq) hb)
    unfold sqAddlast at hb
    simp only [setFlink] at hb
    split at hb
    · exact hold hb
    · split at hb
      · next tail _ =>
          have hb' : Function.update (Function.update q.flink node none) tail (some node) a =
              some b := hb
          by_cases heq : a = tail
          · rw [heq, Function.update_self] at hb'
            exact .inl (Option.some.inj hb').symm
          · rw [Function.update_of_ne heq] at hb'
            exact hold hb'
      · exact hold hb

theorem not_linked_sqAddafter (h : ¬ q.Linked e) (hprev : q.Linked prev) (hne : e ≠ node) :
    ¬ (sqAddafter prev node q).Linked e := by
  unfold sqAddafter
  split
  · exact not_linked_sqAddlast h hne
  · refine not_linked_of_closed (S := fun a => a = node ∨ q.Linked a) ?_ ?_ (not_or.mpr ⟨hne, h⟩)
    · intro a ha
      exact .inr (.head ha)
    · intro a b ha hb
      have hb' : Function.update (Function.update q.flink node (q.flink prev)) prev (some node) a =
          some b := hb
      by_cases heq : a = prev
      · rw [heq, Function.update_self] at hb'
        exact .inl (Option.some.inj hb').symm
      · rw [Function.update_of_ne heq] at hb'
        by_cases heq' : a = node
        · rw [heq', Function.update_self] at hb'
          exact .inr (.next hprev hb')
        · rw [Function.update_of_ne heq'] at hb'
          exact .inr (.next (ha.resolve_left heq') hb')

theorem not_linked_sqRemafter (h : ¬ q.Linked e) : ¬ (sqRemafter prev q).Linked e := by
  unfold sqRemafter
  split
  · next ret hhead hret =>
      refine not_linked_of_closed (S := q.Linked) ?_ ?_ h
      · intro a ha
        have ha' : q.head = some a := by
          dsimp only [setFlink] at ha
          split at ha <;> exact ha
        exact .head ha'
      · intro a b ha hb
        dsimp only [setFlink] at hb
        by_cases heq : a = ret
        · rw [heq, Function.update_self] at hb
          cases hb
        · rw [Function.update_of_ne heq] at hb
          -- What is linked after `prev` was linked after the entry that is taken out.
          have hold (p : Option ι) (hp : ∀ c, p = some c → q.flink ret = some c)
              (hb : Function.update q.flink prev p a = some b) : q.Linked b := by
            by_cases heq' : a = prev
            · subst heq'
              rw [Function.update_self] at hb
              exact .next (.next ha hret) (hp b hb)
            · rw [Function.update_of_ne heq'] at hb
              exact .next ha hb
          split at hb
          · exact hold none nofun hb
          · exact hold (q.flink ret) (fun _ h => h) hb
  · exact h

theorem not_linked_sqRem {fuel : Nat} {q' : SqQueue ι} (h : ¬ q.Linked e)
    (hrem : sqRem fuel node q = some q') : ¬ q'.Linked e := by
  unfold sqRem at hrem
  split at hrem
  · cases hrem
    exact h
  · next head hhead =>
      split at hrem
      · next heq =>
          cases hrem
          refine not_linked_of_closed (S := q.Linked) ?_ ?_ h
          · intro a ha
            exact .next (heq ▸ .head hhead) ha
          · intro a b ha hb
            exact .next ha hb
      · obtain ⟨found, -, hfound⟩ := Option.bind_eq_some_iff.mp hrem
        cases found with
        | none =>
            cases hfound
            exact h
        | some prev =>
            cases hfound
            exact not_linked_sqRemafter h

end SqQueue

/-! ### What an operation spares -/

namespace Callouts

section

variable {ι κ : Type} {h : Callouts ι κ} {call : ι}

/-- The entry that is due is linked. -/
theorem linked_of_due {now : UInt64} (hdue : h.due now = some call) : h.queue.Linked call := by
  unfold due at hdue
  cases hhead : h.queue.head with
  | none =>
      rw [hhead] at hdue
      cases hdue
  | some first =>
      rw [hhead] at hdue
      dsimp only at hdue
      split at hdue
      · cases hdue
      · cases hdue
        exact .head hhead

end

variable {ι κ : Type} [DecidableEq ι] {h h' : Callouts ι κ} {e entry call : ι} {fuel : Nat}

/-- An operation does not look at the entry `e`: it does the same whatever the fields of the entry
are, leaves them alone, and does not link the entry. -/
def Spares (e : ι) (f : Callouts ι κ → Option (Callouts ι κ)) (h : Callouts ι κ) : Prop :=
  (∀ c, f (h.setEntry e c) = (f h).map fun h' => h'.setEntry e c) ∧
    ∀ h', f h = some h' → ¬ h'.queue.Linked e ∧ h'.entry e = h.entry e

theorem Spares.bind {f g : Callouts ι κ → Option (Callouts ι κ)} (hf : Spares e f h)
    (hg : ∀ h', f h = some h' → Spares e g h') : Spares e (fun h => (f h).bind g) h := by
  refine ⟨fun c => ?_, fun h₂ hh₂ => ?_⟩
  · show (f (h.setEntry e c)).bind g = ((f h).bind g).map fun h' => h'.setEntry e c
    rw [hf.1 c]
    cases hres : f h with
    | none => rfl
    | some h₁ => exact (hg h₁ hres).1 c
  · obtain ⟨h₁, hh₁, hrest⟩ := Option.bind_eq_some_iff.mp hh₂
    obtain ⟨-, hsame₁⟩ := hf.2 h₁ hh₁
    obtain ⟨hunlinked, hsame₂⟩ := (hg h₁ hh₁).2 h₂ hrest
    exact ⟨hunlinked, hsame₂.trans hsame₁⟩

/-- Changing an entry spares the others. -/
theorem spares_setEntry (hunlinked : ¬ h.queue.Linked e) (hne : e ≠ entry)
    (c : HrtCall κ → HrtCall κ) :
    Spares e (fun h => some (h.setEntry entry (c (h.entry entry)))) h := by
  refine ⟨fun d => ?_, fun h' hh' => ?_⟩
  · show some ((h.setEntry e d).setEntry entry (c ((h.setEntry e d).entry entry))) = _
    rw [setEntry_of_ne h d (Ne.symm hne)]
    simp only [setEntry, Option.map_some, Function.update_comm hne]
  · cases hh'
    exact ⟨hunlinked, setEntry_of_ne h _ hne⟩

theorem spares_remove (hunlinked : ¬ h.queue.Linked e) : Spares e (remove fuel entry) h := by
  refine ⟨fun c => ?_, fun h' hh' => ?_⟩
  · unfold remove
    cases hres : h.queue.sqRem fuel entry with
    | none => simp [setEntry, hres]
    | some q => simp [setEntry, hres]
  · obtain ⟨q, hq, hh'⟩ := Option.bind_eq_some_iff.mp hh'
    cases hh'
    exact ⟨SqQueue.not_linked_sqRem hunlinked hq, rfl⟩

theorem spares_enterAfter (hunlinked : ¬ h.queue.Linked e) (hne : e ≠ entry)
    (hcall : h.queue.Linked call) : Spares e (enterAfter entry fuel call) h := by
  induction fuel generalizing call with
  | zero => exact ⟨fun _ => rfl, nofun⟩
  | succ fuel ih =>
      have hadd : ¬ (h.queue.sqAddafter call entry).Linked e :=
        SqQueue.not_linked_sqAddafter hunlinked hcall hne
      cases hnext : h.queue.flink call with
      | none =>
          refine ⟨fun c => ?_, fun h' hh' => ?_⟩
          · simp [enterAfter, setEntry, hnext]
          · simp only [enterAfter, hnext, Option.some.injEq] at hh'
            subst hh'
            exact ⟨hadd, rfl⟩
      | some next =>
          have hlinked : h.queue.Linked next := .next hcall hnext
          have hnext' : next ≠ e := fun heq => hunlinked (heq ▸ hlinked)
          obtain ⟨hsame, hspares⟩ := ih hlinked
          refine ⟨fun c => ?_, fun h' hh' => ?_⟩
          · have hqueue : (h.setEntry e c).queue.flink call = some next := hnext
            rw [enterAfter, enterAfter, hqueue, hnext]
            dsimp only
            rw [setEntry_of_ne h c (Ne.symm hne), setEntry_of_ne h c hnext']
            split
            · rfl
            · exact hsame c
          · rw [enterAfter, hnext] at hh'
            dsimp only at hh'
            split at hh'
            · cases hh'
              exact ⟨hadd, rfl⟩
            · exact hspares h' hh'

theorem spares_hrtCallEnter (hunlinked : ¬ h.queue.Linked e) (hne : e ≠ entry) :
    Spares e (hrtCallEnter fuel entry) h := by
  have hadd : ¬ (h.queue.sqAddfirst entry).Linked e :=
    SqQueue.not_linked_sqAddfirst hunlinked hne
  cases hhead : h.queue.head with
  | none =>
      refine ⟨fun c => ?_, fun h' hh' => ?_⟩
      · simp [hrtCallEnter, setEntry, hhead]
      · simp only [hrtCallEnter, hhead, Option.some.injEq] at hh'
        subst hh'
        exact ⟨hadd, rfl⟩
  | some call =>
      have hlinked : h.queue.Linked call := .head hhead
      have hcall : call ≠ e := fun heq => hunlinked (heq ▸ hlinked)
      obtain ⟨hsame, hspares⟩ : Spares e (enterAfter entry fuel call) h :=
        spares_enterAfter hunlinked hne hlinked
      refine ⟨fun c => ?_, fun h' hh' => ?_⟩
      · have hqueue : (h.setEntry e c).queue.head = some call := hhead
        rw [hrtCallEnter, hrtCallEnter, hqueue, hhead]
        dsimp only
        rw [setEntry_of_ne h c (Ne.symm hne), setEntry_of_ne h c hcall]
        split
        · rfl
        · exact hsame c
      · rw [hrtCallEnter, hhead] at hh'
        dsimp only at hh'
        split at hh'
        · cases hh'
          exact ⟨hadd, rfl⟩
        · exact hspares h' hh'

/-- Taking an entry out and changing its fields. -/
theorem spares_remove_set (hunlinked : ¬ h.queue.Linked e) (hne : e ≠ entry)
    (c : HrtCall κ → HrtCall κ) :
    Spares e (fun h => (h.remove fuel entry).bind fun h =>
      some (h.setEntry entry (c (h.entry entry)))) h :=
  (spares_remove hunlinked).bind fun h' hh' =>
    spares_setEntry ((spares_remove hunlinked).2 h' hh').1 hne c

theorem spares_hrtCancel (hunlinked : ¬ h.queue.Linked e) (hne : e ≠ entry) :
    Spares e (hrtCancel fuel entry) h :=
  spares_remove_set hunlinked hne fun c => { c with deadline := 0, period := 0 }

theorem spares_hrtCallPop (hunlinked : ¬ h.queue.Linked e) (hne : e ≠ entry) :
    Spares e (hrtCallPop fuel entry) h :=
  spares_remove_set hunlinked hne fun c => { c with deadline := 0 }

/-- Changing the fields of an entry and entering it. -/
theorem spares_set_enter (hunlinked : ¬ h.queue.Linked e) (hne : e ≠ entry)
    (c : HrtCall κ → HrtCall κ) :
    Spares e (fun h => hrtCallEnter fuel entry (h.setEntry entry (c (h.entry entry)))) h :=
  (spares_setEntry hunlinked hne c).bind fun h' hh' =>
    spares_hrtCallEnter ((spares_setEntry hunlinked hne c).2 h' hh').1 hne

theorem spares_hrtCallReenter (hunlinked : ¬ h.queue.Linked e) (hne : e ≠ call)
    (deadline : UInt64) : Spares e (hrtCallReenter fuel call deadline) h := by
  have henter : Spares e (fun h => hrtCallEnter fuel call (h.setEntry call
      { h.entry call with deadline := deadline + (h.entry call).period })) h :=
    spares_set_enter hunlinked hne fun c => { c with deadline := deadline + c.period }
  refine ⟨fun c => ?_, fun h' hh' => ?_⟩
  · have hsame := henter.1 c
    dsimp only at hsame
    unfold hrtCallReenter
    rw [setEntry_of_ne h c (Ne.symm hne)] at hsame ⊢
    split
    · exact hsame
    · rfl
  · unfold hrtCallReenter at hh'
    split at hh'
    · exact henter.2 h' hh'
    · cases hh'
      exact ⟨hunlinked, rfl⟩

/-- The fields of an entry that is not linked do not matter for which entry is due. -/
theorem due_setEntry (hunlinked : ¬ h.queue.Linked e) (c : HrtCall κ) (now : UInt64) :
    (h.setEntry e c).due now = h.due now := by
  have hqueue : (h.setEntry e c).queue.head = h.queue.head := rfl
  unfold due
  rw [hqueue]
  cases hhead : h.queue.head with
  | none => rfl
  | some call =>
      have hcall : call ≠ e := fun heq => hunlinked (heq ▸ .head hhead)
      dsimp only
      rw [setEntry_of_ne h c hcall]

end Callouts

/-! ### One event has one outcome -/

section

variable {ι κ : Type} [DecidableEq ι]

theorem SqQueue.findPrev_fuelFree (flink : ι → Option ι) (node : ι) (p : Option ι) :
    FuelFree fun fuel => findPrev flink node fuel p := by
  refine FuelFree.loop (f := findPrev flink node) (fun _ => rfl) ?_ p
  intro p
  cases p with
  | none => exact .inl ⟨_, fun _ => rfl⟩
  | some prev =>
      by_cases hfound : flink prev = some node
      · exact .inl ⟨_, fun _ => if_pos hfound⟩
      · exact .inr ⟨_, fun _ => if_neg hfound⟩

theorem SqQueue.sqRem_fuelFree (node : ι) (q : SqQueue ι) :
    FuelFree fun fuel => sqRem fuel node q := by
  cases hhead : q.head with
  | none =>
      simp only [sqRem, hhead]
      exact FuelFree.const _
  | some head =>
      simp only [sqRem, hhead]
      by_cases hnode : node = head
      · simp only [if_pos hnode]
        exact FuelFree.const _
      · simp only [if_neg hnode]
        exact (findPrev_fuelFree q.flink node (some head)).bind fun _ => FuelFree.const _

namespace Callouts

theorem enterAfter_fuelFree (entry call : ι) (h : Callouts ι κ) :
    FuelFree fun fuel => enterAfter entry fuel call h := by
  refine FuelFree.loop (f := fun fuel call => enterAfter entry fuel call h) (fun _ => rfl) ?_ call
  intro call
  simp only [enterAfter]
  cases h.queue.flink call with
  | none => exact .inl ⟨_, fun _ => rfl⟩
  | some next =>
      by_cases hlt : (h.entry entry).deadline < (h.entry next).deadline
      · exact .inl ⟨_, fun _ => if_pos hlt⟩
      · exact .inr ⟨_, fun _ => if_neg hlt⟩

theorem hrtCallEnter_fuelFree (entry : ι) (h : Callouts ι κ) :
    FuelFree fun fuel => hrtCallEnter fuel entry h := by
  cases hhead : h.queue.head with
  | none =>
      simp only [hrtCallEnter, hhead]
      exact FuelFree.const _
  | some call =>
      simp only [hrtCallEnter, hhead]
      by_cases hlt : (h.entry entry).deadline < (h.entry call).deadline
      · simp only [if_pos hlt]
        exact FuelFree.const _
      · simp only [if_neg hlt]
        exact enterAfter_fuelFree entry call h

theorem remove_fuelFree (entry : ι) (h : Callouts ι κ) :
    FuelFree fun fuel => h.remove fuel entry :=
  (SqQueue.sqRem_fuelFree entry h.queue).bind fun _ => FuelFree.const _

theorem hrtCallInternal_fuelFree (entry : ι) (deadline interval : UInt64) (callout : Option κ)
    (h : Callouts ι κ) :
    FuelFree fun fuel => hrtCallInternal fuel entry deadline interval callout h := by
  unfold hrtCallInternal
  by_cases hqueued : (h.entry entry).deadline ≠ 0
  · simp only [if_pos hqueued]
    exact (remove_fuelFree entry h).bind fun _ => hrtCallEnter_fuelFree entry _
  · simp only [if_neg hqueued]
    exact hrtCallEnter_fuelFree entry _

theorem hrtCallPop_fuelFree (call : ι) (h : Callouts ι κ) :
    FuelFree fun fuel => hrtCallPop fuel call h :=
  (remove_fuelFree call h).bind fun _ => FuelFree.const _

theorem hrtCallReenter_fuelFree (call : ι) (deadline : UInt64) (h : Callouts ι κ) :
    FuelFree fun fuel => hrtCallReenter fuel call deadline h := by
  unfold hrtCallReenter
  by_cases hperiod : (h.entry call).period ≠ 0
  · simp only [if_pos hperiod]
    exact hrtCallEnter_fuelFree call _
  · simp only [if_neg hperiod]
    exact FuelFree.const _

end Callouts

theorem Op.run_fuelFree (o : Op ι κ) (h : Callouts ι κ) : FuelFree fun fuel => o.run fuel h := by
  cases o with
  | callAfter entry now delay callout => exact Callouts.hrtCallInternal_fuelFree entry _ _ _ h
  | callAt entry calltime callout => exact Callouts.hrtCallInternal_fuelFree entry _ _ _ h
  | callEvery entry now delay interval callout =>
      exact Callouts.hrtCallInternal_fuelFree entry _ _ _ h
  | cancel entry => exact (Callouts.remove_fuelFree entry h).bind fun _ => FuelFree.const _

/-- An event has one outcome. -/
theorem Step.unique {s t t' : Machine ι κ} {e : Event ι κ} (h : Step s e t) (h' : Step s e t') :
    t = t' := by
  cases h with
  | op _ hrun =>
      cases h' with
      | op _ hrun' => rw [Op.run_fuelFree _ _ hrun hrun']
  | interrupt =>
      cases h'
      rfl
  | invoke _ _ _ hpop =>
      cases h' with
      | invoke _ _ _ hpop' => rw [Callouts.hrtCallPop_fuelFree _ _ hpop hpop']
  | skip _ _ _ hpop hreenter =>
      cases h' with
      | skip _ _ _ hpop' hreenter' =>
          obtain rfl := Callouts.hrtCallPop_fuelFree _ _ hpop hpop'
          rw [Callouts.hrtCallReenter_fuelFree _ _ _ hreenter hreenter']
  | ret hphase hreenter =>
      cases h' with
      | ret hphase' hreenter' =>
          rw [hphase] at hphase'
          cases hphase'
          rw [Callouts.hrtCallReenter_fuelFree _ _ _ hreenter hreenter']
  | stop =>
      cases h'
      rfl

end

end Px4Firmware.Hrt
