import Px4Firmware.Lib.Broadcast
import Px4Firmware.Lib.Transition
import Px4Firmware.Uorb.Api

/-!
# Px4Firmware.Uorb.Interleaving

**No lost update.** `ORBDevNode::write` copies the new data in a critical section, and counts the
generation and notifies the waiters after it. In between other publishers may write, and a
subscriber may read: it then takes the new data with the old generation.

`no_lost_update`: when no publisher is in between, a subscriber whose last copy came before the
latest data sees the topic as updated. The invariant `Counted` says that as many publishers are in
between as there are data copies that are not counted yet, so a subscriber can never have seen a
generation that counts more than the copies it came after.
-/

namespace Px4Firmware.Uorb

open Px4Firmware.Lib

/-! ### The two steps of a write -/

namespace OrbDevNode

/-- `ORBDevNode::write` up to the end of its critical section. -/
def writeCopy (ctx : Ctx) (buffer : List UInt8) (node : OrbDevNode) :
    Except Errno Unit × OrbDevNode :=
  let node := node.allocate ctx
  if node.data = none then
    (.error .enomem, node)
  else if node.metadata.oSize ≠ buffer.length then
    (.error .eio, node)
  else
    (.ok (), { node with data := some buffer })

/-- What comes after the critical section, up to the notification. -/
def writeCount (ctx : Ctx) (node : OrbDevNode) : OrbDevNode :=
  { node with
    lastUpdate := ctx.now
    generation := node.generation + 1 }

/-- Without anything in between, the two steps are a write. -/
theorem write_eq (ctx : Ctx) (buffer : List UInt8) (node : OrbDevNode) :
    node.write ctx buffer =
      match node.writeCopy ctx buffer with
      | (.ok _, n) => (.ok n.metadata.oSize, n.writeCount ctx)
      | (.error e, n) => (.error e, n) := by
  unfold write writeCopy
  dsimp only
  split_ifs <;> rfl

theorem writeCopy_generation (ctx : Ctx) (buffer : List UInt8) (node : OrbDevNode) :
    (node.writeCopy ctx buffer).2.generation = node.generation := by
  have hsame := (allocate_same ctx node).generation
  unfold writeCopy
  dsimp only
  split_ifs <;> exact hsame

/-- A read gets to its critical section. -/
def readCopies (buflen : Nat) (node : OrbDevNode) : Bool :=
  node.data.isSome && buflen == node.metadata.oSize

/-- In its critical section a read takes the generation of the node; otherwise it takes nothing. -/
theorem read_generation_eq (wanted : Bool) (buflen : Nat) (node : OrbDevNode)
    (sd : SubscriberData) :
    (node.read wanted buflen sd).2.generation =
      if node.readCopies buflen then node.generation else sd.generation := by
  unfold read readCopies
  cases node.data with
  | none => rfl
  | some data =>
      by_cases hlen : buflen = node.metadata.oSize
      · simp [hlen]
      · simp [hlen]

end OrbDevNode

/-! ### The system -/

/-- A topic: its node, the files of its subscribers, and the publishers that are between the two
steps of a write. -/
structure Topic where
  path : Path
  node : OrbDevNode
  files : Fd → Option File
  writing : List Nat

namespace Topic

/-- An atomic step. `updateDeferred` is the expiry of an interval timer. -/
inductive Event
  | copyData (publisher : Nat) (ctx : Ctx) (buffer : List UInt8)
  | countAndNotify (publisher : Nat) (ctx : Ctx)
  | subscribe (fd : Fd) (ctx : Ctx) (retry : Bool)
  | unsubscribe (fd : Fd) (ctx : Ctx)
  | read (fd : Fd) (wanted : Bool) (buflen : Nat)
  | check (fd : Fd) (ctx : Ctx)
  | setInterval (fd : Fd) (interval : UInt32)
  | pollSetup (fd : Fd) (ctx : Ctx) (id : Nat) (events : Bool)
  | pollTeardown (id : Nat)
  | updateDeferred (fd : Fd) (ctx : Ctx)

/-- Give the file of a subscriber other private data. -/
def setPriv (fd : Fd) (file : File) (sd : SubscriberData) (s : Topic) : Topic :=
  { s with files := Function.update s.files fd (some { file with priv := some sd }) }

/-- The waiters of the topic are notified. -/
def notify (ctx : Ctx) (s : Topic) : Topic :=
  let (pollset, files) := pollNotifyAll ctx.now s.node.generation s.node.pollset s.files
  { s with node := { s.node with pollset := pollset }, files := files }

/-- The file of a subscriber, with its private data. -/
def subscriber (s : Topic) (fd : Fd) : Option (File × SubscriberData) :=
  (s.files fd).bind fun file => file.priv.map fun sd => (file, sd)

/-- The next state, when the event is possible. A step that fails is possible and changes nothing
that a subscriber can see. -/
def next (s : Topic) : Event → Option Topic
  | .copyData publisher ctx buffer =>
      if s.writing.contains publisher then none
      else
        match s.node.writeCopy ctx buffer with
        | (.ok _, n) => some { s with node := n, writing := publisher :: s.writing }
        | (.error _, n) => some { s with node := n }
  | .countAndNotify publisher ctx =>
      if s.writing.contains publisher then
        some { { s with node := s.node.writeCount ctx }.notify ctx with
          writing := s.writing.erase publisher }
      else none
  | .subscribe fd ctx retry =>
      match s.files fd with
      | some _ => none
      | none =>
          match s.node.open ctx retry .rdonly with
          | .ok (n, priv) =>
              some { s with
                node := n
                files := Function.update s.files fd (some ⟨s.path, .rdonly, priv⟩) }
          | .error _ => some s
  | .unsubscribe fd ctx =>
      match s.files fd with
      | none => none
      | some _ =>
          some { s with
            node := (s.node.close ctx).2
            files := Function.update s.files fd none }
  | .read fd wanted buflen => do
      let (file, sd) ← s.subscriber fd
      return s.setPriv fd file (s.node.read wanted buflen sd).2
  | .check fd ctx => do
      let (file, sd) ← s.subscriber fd
      return s.setPriv fd file (sd.appearsUpdated ctx.now s.node.generation).2
  | .setInterval fd interval => do
      let (file, sd) ← s.subscriber fd
      return s.setPriv fd file { sd with updateInterval := interval }
  | .pollSetup fd ctx id events => do
      let (file, sd) ← s.subscriber fd
      let (updated, sd) := sd.appearsUpdated ctx.now s.node.generation
      match OrbDevNode.storePollWaiter { id, priv := fd, events, revents := events && updated }
          s.node.pollset with
      -- No place for the waiter: the topic is not looked at.
      | none => return s
      | some pollset =>
          return { s with node := { s.node with pollset := pollset } }.setPriv fd file sd
  | .pollTeardown id =>
      match OrbDevNode.removePollWaiter id s.node.pollset with
      | none => some s
      | some pollset => some { s with node := { s.node with pollset := pollset } }
  | .updateDeferred fd ctx => do
      let (file, sd) ← s.subscriber fd
      if sd.updateCall = 0 then none
      else return (s.setPriv fd file { sd with updateCall := 0 }).notify ctx

end Topic

/-- A topic as a transition system, from its creation on. -/
def topic (metadata : OrbMetadata) : LTS Topic Topic.Event where
  init s := s.node = .new metadata ∧ (∀ fd, s.files fd = none) ∧ s.writing = []
  step s e t := s.next e = some t

/-! ### What has happened -/

/-- How many data copies and how many counts there were by some moment. -/
structure Moment where
  copies : Nat
  counts : Nat

/-- The present moment, and the moment of the last copy or of the subscription of a file. -/
structure History where
  present : Moment
  last : Fd → Moment

/-- Nothing has happened. -/
def History.empty : History := { present := ⟨0, 0⟩, last := fun _ => ⟨0, 0⟩ }

/-- The file has seen what there is. -/
def History.see (fd : Fd) (h : History) : History :=
  { h with last := Function.update h.last fd h.present }

/-- The history after an event. -/
def History.watch (h : History) (s : Topic) : Topic.Event → History
  | .copyData _ ctx buffer =>
      match s.node.writeCopy ctx buffer with
      | (.ok _, _) => { h with present.copies := h.present.copies + 1 }
      | (.error _, _) => h
  | .countAndNotify _ _ => { h with present.counts := h.present.counts + 1 }
  | .subscribe fd _ _ => h.see fd
  | .read fd _ buflen => if s.node.readCopies buflen then h.see fd else h
  | _ => h

/-- A topic with its history. -/
def topicHistory (metadata : OrbMetadata) : LTS (Topic × History) Topic.Event :=
  (topic metadata).observe .empty fun h s e _ => h.watch s e

/-! ### The invariant -/

/-- The generation that a file has seen. -/
def generationOf (files : Fd → Option File) (fd : Fd) : Option UInt32 :=
  ((files fd).bind File.priv).map SubscriberData.generation

/-- What the generations count. As many publishers are between their two steps as there are data
copies that are not counted yet, and no file has seen a generation that counts more than the copies
that it came after. -/
structure Counted (s : Topic) (h : History) : Prop where
  generation : s.node.generation = UInt32.ofNat h.present.counts
  writing : h.present.counts + s.writing.length = h.present.copies
  seen : ∀ fd g, generationOf s.files fd = some g →
    g = UInt32.ofNat (h.last fd).counts ∧ (h.last fd).counts ≤ h.present.counts ∧
      (h.last fd).counts ≤ (h.last fd).copies

namespace Counted

variable {s : Topic} {h : History}

/-- A step that counts nothing, and shows no file a generation. -/
theorem keep (hc : Counted s h) {t : Topic} (hgeneration : t.node.generation = s.node.generation)
    (hwriting : t.writing = s.writing)
    (hfiles : ∀ fd g, generationOf t.files fd = some g → generationOf s.files fd = some g) :
    Counted t h := by
  refine ⟨hgeneration.trans hc.generation, ?_, ?_⟩
  · rw [hwriting]
    exact hc.writing
  · intro fd g hg
    exact hc.seen fd g (hfiles fd g hg)

end Counted

theorem generationOf_update (files : Fd → Option File) (fd fd' : Fd) (file : Option File) :
    generationOf (Function.update files fd file) fd' =
      if fd' = fd then (file.bind File.priv).map SubscriberData.generation
      else generationOf files fd' := by
  unfold generationOf
  by_cases heq : fd' = fd
  · rw [if_pos heq, heq, Function.update_self]
  · rw [if_neg heq, Function.update_of_ne heq]

/-- Other private data with the same generation. -/
theorem generationOf_update_priv {files : Fd → Option File} {fd : Fd} {file : File}
    {sd sd' : SubscriberData} (hfile : files fd = some file) (hpriv : file.priv = some sd)
    (hsd : sd'.generation = sd.generation) :
    generationOf (Function.update files fd (some { file with priv := some sd' })) =
      generationOf files := by
  funext fd'
  rw [generationOf_update]
  by_cases heq : fd' = fd
  · rw [if_pos heq, heq]
    unfold generationOf
    rw [hfile, Option.bind_some, Option.bind_some, hpriv, Option.map_some, Option.map_some, hsd]
  · rw [if_neg heq]

/-- The notification shows no file a generation. -/
theorem generationOf_pollNotifyAll (now : UInt64) (generation : UInt32)
    (slots : List (Option PollFd)) (files : Fd → Option File) :
    generationOf (pollNotifyAll now generation slots files).2 = generationOf files := by
  induction slots generalizing files with
  | nil => rfl
  | cons slot slots ih =>
      cases slot with
      | none => exact ih files
      | some fds =>
          refine (ih (pollNotifyOne now generation fds files).2).trans ?_
          unfold pollNotifyOne
          split
          · next hfile =>
              exact generationOf_update_priv hfile rfl
                (SubscriberData.appearsUpdated_generation now generation _)
          · rfl

theorem generationOf_notify (ctx : Ctx) (s : Topic) :
    generationOf (s.notify ctx).files = generationOf s.files :=
  generationOf_pollNotifyAll ctx.now s.node.generation s.node.pollset s.files

theorem subscriber_eq_some {s : Topic} {fd : Fd} {file : File} {sd : SubscriberData}
    (h : s.subscriber fd = some (file, sd)) : s.files fd = some file ∧ file.priv = some sd := by
  unfold Topic.subscriber at h
  obtain ⟨file', hfile, h⟩ := Option.bind_eq_some_iff.mp h
  obtain ⟨sd', hpriv, h⟩ := Option.map_eq_some_iff.mp h
  cases h
  exact ⟨hfile, hpriv⟩

/-- A step that gives a subscriber other private data, with the same generation. -/
theorem Counted.setPriv {s : Topic} {h : History} (hc : Counted s h) {fd : Fd} {file : File}
    {sd sd' : SubscriberData} (hsub : s.subscriber fd = some (file, sd))
    (hsd : sd'.generation = sd.generation) : Counted (s.setPriv fd file sd') h := by
  obtain ⟨hfile, hpriv⟩ := subscriber_eq_some hsub
  refine hc.keep rfl rfl fun fd' g hg => ?_
  rw [← generationOf_update_priv hfile hpriv hsd]
  exact hg

theorem Counted.notify {s : Topic} {h : History} (hc : Counted s h) (ctx : Ctx) :
    Counted (s.notify ctx) h := by
  refine hc.keep rfl rfl fun fd g hg => ?_
  rw [← generationOf_notify ctx s]
  exact hg

/-- The file has seen the generation of the node, and what there is. -/
theorem Counted.see {s t : Topic} {h : History} (hc : Counted s h) {fd : Fd} {file : Option File}
    (hgeneration : t.node.generation = s.node.generation) (hwriting : t.writing = s.writing)
    (hfiles : t.files = Function.update s.files fd file)
    (hfile : ∀ g, (file.bind File.priv).map SubscriberData.generation = some g →
      g = s.node.generation) : Counted t (h.see fd) := by
  refine ⟨hgeneration.trans hc.generation, ?_, ?_⟩
  · rw [hwriting]
    exact hc.writing
  · intro fd' g hg
    rw [hfiles, generationOf_update] at hg
    unfold History.see
    dsimp only
    by_cases heq : fd' = fd
    · rw [if_pos heq] at hg
      rw [heq, Function.update_self]
      refine ⟨(hfile g hg).trans hc.generation, Nat.le_refl _, ?_⟩
      have hwriting := hc.writing
      omega
    · rw [if_neg heq] at hg
      rw [Function.update_of_ne heq]
      exact hc.seen fd' g hg

/-- The first step of a write: one more copy, and one more publisher in between. -/
theorem Counted.copyData {s t : Topic} {h : History} (hc : Counted s h) {publisher : Nat}
    {ctx : Ctx} {buffer : List UInt8} (hstep : s.next (.copyData publisher ctx buffer) = some t) :
    Counted t (h.watch s (.copyData publisher ctx buffer)) := by
  have hgeneration := OrbDevNode.writeCopy_generation ctx buffer s.node
  unfold Topic.next at hstep
  dsimp only at hstep
  split_ifs at hstep
  unfold History.watch
  dsimp only
  split at hstep
  · next n hcopy =>
      cases hstep
      rw [hcopy] at hgeneration
      refine ⟨hgeneration.trans hc.generation, ?_, hc.seen⟩
      show h.present.counts + (s.writing.length + 1) = h.present.copies + 1
      rw [← hc.writing, Nat.add_assoc]
  · next e n hcopy =>
      cases hstep
      rw [hcopy] at hgeneration
      exact hc.keep hgeneration rfl fun _ _ hg => hg

/-- The second step: one more count, and one publisher less in between. -/
theorem Counted.countAndNotify {s t : Topic} {h : History} (hc : Counted s h) {publisher : Nat}
    {ctx : Ctx} (hstep : s.next (.countAndNotify publisher ctx) = some t) :
    Counted t (h.watch s (.countAndNotify publisher ctx)) := by
  unfold Topic.next at hstep
  dsimp only at hstep
  split_ifs at hstep with hcontains
  cases hstep
  have hmem : publisher ∈ s.writing := List.contains_iff_mem.mp hcontains
  have hpos : 0 < s.writing.length := List.length_pos_of_mem hmem
  have hwriting := hc.writing
  refine ⟨?_, ?_, ?_⟩
  · show s.node.generation + 1 = UInt32.ofNat (h.present.counts + 1)
    rw [hc.generation, ofNat_succ_counter]
  · show h.present.counts + 1 + (s.writing.erase publisher).length = h.present.copies
    rw [List.length_erase_of_mem hmem]
    omega
  · intro fd g hg
    have hg : generationOf s.files fd = some g := by
      rw [← generationOf_notify ctx { s with node := s.node.writeCount ctx }]
      exact hg
    obtain ⟨hgen, hcounts, hcopies⟩ := hc.seen fd g hg
    exact ⟨hgen, Nat.le_succ_of_le hcounts, hcopies⟩

/-- A new subscriber has seen the generation that there is. -/
theorem Counted.subscribe {s t : Topic} {h : History} (hc : Counted s h) {fd : Fd} {ctx : Ctx}
    {retry : Bool} (hstep : s.next (.subscribe fd ctx retry) = some t) :
    Counted t (h.watch s (.subscribe fd ctx retry)) := by
  unfold Topic.next at hstep
  dsimp only at hstep
  split at hstep
  · cases hstep
  · next hclosed =>
      split at hstep
      · next n priv hopen =>
          cases hstep
          obtain ⟨hsame, -, hgen⟩ := OrbDevNode.open_ok hopen
          refine hc.see hsame.generation rfl rfl fun g hg => ?_
          obtain ⟨sd, hsd, rfl⟩ := Option.map_eq_some_iff.mp hg
          exact hgen sd hsd
      · cases hstep
        -- There is no file, so it does not matter what it has seen.
        have hsame : s.files = Function.update s.files fd none :=
          (Function.update_eq_self_iff.mpr hclosed.symm).symm
        exact hc.see rfl rfl hsame fun g hg => by cases hg

/-- A read takes the generation of the node in its critical section, or nothing. -/
theorem Counted.read {s t : Topic} {h : History} (hc : Counted s h) {fd : Fd} {wanted : Bool}
    {buflen : Nat} (hstep : s.next (.read fd wanted buflen) = some t) :
    Counted t (h.watch s (.read fd wanted buflen)) := by
  obtain ⟨⟨file, sd⟩, hsub, hstep⟩ := Option.bind_eq_some_iff.mp hstep
  cases hstep
  have hread := s.node.read_generation_eq wanted buflen sd
  unfold History.watch
  dsimp only
  split_ifs at hread ⊢ with hcopies
  · refine hc.see rfl rfl rfl fun g hg => ?_
    obtain ⟨sd', hsd', rfl⟩ := Option.map_eq_some_iff.mp hg
    cases hsd'
    exact hread
  · exact hc.setPriv hsub hread

/-- A waiter is stored, or there is no room for it. -/
theorem Counted.pollSetup {s t : Topic} {h : History} (hc : Counted s h) {fd : Fd} {ctx : Ctx}
    {id : Nat} {events : Bool} (hstep : s.next (.pollSetup fd ctx id events) = some t) :
    Counted t h := by
  obtain ⟨⟨file, sd⟩, hsub, hstep⟩ := Option.bind_eq_some_iff.mp hstep
  dsimp only at hstep
  split at hstep
  · cases hstep
    exact hc
  · cases hstep
    have hset := hc.setPriv hsub
      (SubscriberData.appearsUpdated_generation ctx.now s.node.generation sd)
    exact hset.keep rfl rfl fun _ _ hg => hg

/-- **The step lemma.** -/
theorem Counted.next {s t : Topic} {h : History} (hc : Counted s h) {e : Topic.Event}
    (hstep : s.next e = some t) : Counted t (h.watch s e) := by
  cases e with
  | copyData publisher ctx buffer => exact hc.copyData hstep
  | countAndNotify publisher ctx => exact hc.countAndNotify hstep
  | subscribe fd ctx retry => exact hc.subscribe hstep
  | unsubscribe fd ctx =>
      unfold Topic.next at hstep
      dsimp only at hstep
      split at hstep
      · cases hstep
      · cases hstep
        refine hc.keep (OrbDevNode.close_same ctx s.node).generation rfl fun fd' g hg => ?_
        dsimp only at hg
        rw [generationOf_update] at hg
        split_ifs at hg
        · cases hg
        · exact hg
  | read fd wanted buflen => exact hc.read hstep
  | check fd ctx =>
      obtain ⟨⟨file, sd⟩, hsub, hstep⟩ := Option.bind_eq_some_iff.mp hstep
      cases hstep
      exact hc.setPriv hsub (SubscriberData.appearsUpdated_generation _ _ sd)
  | setInterval fd interval =>
      obtain ⟨⟨file, sd⟩, hsub, hstep⟩ := Option.bind_eq_some_iff.mp hstep
      cases hstep
      exact hc.setPriv hsub rfl
  | pollSetup fd ctx id events => exact hc.pollSetup hstep
  | pollTeardown id =>
      unfold Topic.next at hstep
      dsimp only at hstep
      split at hstep
      · cases hstep
        exact hc
      · cases hstep
        exact hc.keep rfl rfl fun _ _ hg => hg
  | updateDeferred fd ctx =>
      obtain ⟨⟨file, sd⟩, hsub, hstep⟩ := Option.bind_eq_some_iff.mp hstep
      dsimp only at hstep
      split_ifs at hstep
      cases hstep
      have hcleared : Counted (s.setPriv fd file { sd with updateCall := 0 }) h :=
        hc.setPriv hsub rfl
      exact hcleared.notify ctx

theorem counted_of_reachable {metadata : OrbMetadata} {s : Topic} {h : History}
    (hreach : (topicHistory metadata).Reachable (s, h)) : Counted s h := by
  refine LTS.Reachable.invariant (I := fun p => Counted p.1 p.2) ?_ ?_ hreach
  · intro p hinit
    obtain ⟨⟨hnode, hfiles, hwriting⟩, hstart⟩ := hinit
    rw [hstart]
    refine ⟨?_, ?_, ?_⟩
    · rw [hnode]
      rfl
    · rw [hwriting]
      rfl
    · intro fd g hg
      unfold generationOf at hg
      rw [hfiles] at hg
      cases hg
  · intro p e q hp hstep
    obtain ⟨hnext, hwatch⟩ := hstep
    rw [hwatch]
    exact hp.next hnext

/-! ### No lost update -/

/-- **No lost update.** When no publisher is between its two steps, a subscriber without a rate
limit whose last copy, or subscription, came before the latest data sees the topic as updated, as
long as there were fewer than 2^32 counts since. -/
theorem no_lost_update {metadata : OrbMetadata} {s : Topic} {h : History}
    (hreach : (topicHistory metadata).Reachable (s, h)) (hquiet : s.writing = []) {fd : Fd}
    {file : File} {sd : SubscriberData} (hsub : s.subscriber fd = some (file, sd))
    (hunlimited : sd.updateInterval = 0) (hbefore : (h.last fd).copies < h.present.copies)
    (hbound : h.present.counts - (h.last fd).counts < 2 ^ 32) (now : UInt64) :
    (sd.appearsUpdated now s.node.generation).1 = true := by
  have hc := counted_of_reachable hreach
  obtain ⟨hfile, hpriv⟩ := subscriber_eq_some hsub
  have hgenerationOf : generationOf s.files fd = some sd.generation := by
    unfold generationOf
    rw [hfile, Option.bind_some, hpriv, Option.map_some]
  obtain ⟨hseen, hcounts, hcopies⟩ := hc.seen fd sd.generation hgenerationOf
  -- Everything that was copied is counted now, and the last copy of the subscriber is not the end.
  have hcounted : h.present.counts = h.present.copies := by
    have hwriting := hc.writing
    rw [hquiet] at hwriting
    exact hwriting
  have hne : sd.generation ≠ s.node.generation := by
    rw [hseen, hc.generation, Ne, ofNat_eq_ofNat_iff_of_lt hcounts hbound]
    omega
  rw [SubscriberData.appearsUpdated_unlimited hunlimited]
  exact decide_eq_true hne

/-! ### A run -/

/-- The next state and the history of it. -/
def nextHistory (p : Topic × History) (e : Topic.Event) : Option (Topic × History) :=
  (p.1.next e).map fun t => (t, p.2.watch p.1 e)

/-- A thread that can allocate. -/
def ampleCtx : Ctx where
  pid := 1
  interruptContext := false
  now := 0
  alloc _ := true
  fresh _ := 0

/-- A topic of one byte, when it is created. -/
def created : Topic where
  path := "/obj/t"
  node := .new ⟨"t", 1⟩
  files _ := none
  writing := []

/-- Two publishers write, and the subscriber reads in between. -/
def interleaved : List Topic.Event :=
  [.subscribe 0 ampleCtx false, .copyData 1 ampleCtx [7], .read 0 true 1, .copyData 2 ampleCtx [8],
    .countAndNotify 1 ampleCtx, .countAndNotify 2 ampleCtx]

theorem no_lost_update_interleaved :
    ∃ s h file sd, (topicHistory ⟨"t", 1⟩).Run (created, .empty) interleaved (s, h) ∧
      s.subscriber 0 = some (file, sd) ∧ (sd.appearsUpdated 0 s.node.generation).1 = true := by
  have hends : (interleaved.foldlM nextHistory (created, .empty)).any (fun p =>
      decide (p.1.writing = [] ∧ (p.2.last 0).copies < p.2.present.copies ∧
        p.2.present.counts - (p.2.last 0).counts < 2 ^ 32) &&
      (p.1.subscriber 0).any fun q => decide (q.2.updateInterval = 0)) = true := by
    decide +kernel
  obtain ⟨⟨s, h⟩, hend, hfacts⟩ := (Option.any_eq_true _ _).mp hends
  obtain ⟨hnumbers, hsubscriber⟩ := Bool.and_eq_true_iff.mp hfacts
  obtain ⟨hquiet, hbefore, hbound⟩ := of_decide_eq_true hnumbers
  obtain ⟨⟨file, sd⟩, hsub, hinterval⟩ := (Option.any_eq_true _ _).mp hsubscriber
  have hrun : (topicHistory ⟨"t", 1⟩).Run (created, .empty) interleaved (s, h) := by
    refine LTS.Run.of_foldlM ?_ hend
    intro p e q hnext
    obtain ⟨t, ht, rfl⟩ := Option.map_eq_some_iff.mp hnext
    exact ⟨ht, rfl⟩
  have hstart : (topicHistory ⟨"t", 1⟩).init (created, .empty) := ⟨⟨rfl, fun _ => rfl, rfl⟩, rfl⟩
  exact ⟨s, h, file, sd, hrun, hsub, no_lost_update ⟨_, _, hstart, hrun⟩ hquiet hsub
    (of_decide_eq_true hinterval) hbefore hbound 0⟩

end Px4Firmware.Uorb
