import Px4Firmware.Lib.Transition
import Px4Firmware.Uorb.Simulation

/-!
# Px4Firmware.Uorb.Delivery

**uORB delivers.** Publishers and subscribers, threads and interrupt handlers, call the
library functions one at a time, in any order. Next to the devices runs a broadcast log that
is told of the calls that succeed, and the devices simulate it.

It follows that a copy returns the last publication, and that a check returns and reports an
update exactly when there is an unread publication (`delivery`).
-/

namespace Px4Firmware.Uorb

open Px4Firmware.Lib

/-! ### The system -/

/-- A call of the library, a poll, or the expiry of the interval timer of a subscriber. -/
inductive Op
  | advertise (metadata : OrbMetadata) (data : Option (TopicData metadata))
  | publish (metadata : OrbMetadata) (handle : Path) (data : TopicData metadata)
  | subscribe (metadata : Option OrbMetadata)
  | unsubscribe (fd : Fd)
  | copy (metadata : OrbMetadata) (fd : Fd) (wanted : Bool)
  | check (fd : Fd)
  | stat (fd : Fd)
  | setInterval (fd : Fd) (interval : UInt32)
  | poll (fd : Fd) (id : Nat) (events setup : Bool)
  | updateDeferred (fd : Fd)

/-- What a call returns. -/
inductive Reply
  | handle (path : Path)
  | fd (fd : Fd)
  | done
  | copied (data : Option (List UInt8))
  | updated (b : Option Bool)
  | time (t : Option UInt64)
  | failed (errno : Errno)
deriving DecidableEq

/-- Make the call. -/
def Op.run (ctx : Ctx) : Op → Exec Reply
  | advertise metadata data => Reply.handle <$> orbAdvertise ctx metadata data
  | publish metadata handle data => (fun _ => Reply.done) <$> orbPublish ctx metadata handle data
  | subscribe metadata => Reply.fd <$> orbSubscribe ctx metadata
  | unsubscribe fd => (fun _ => Reply.done) <$> orbUnsubscribe ctx fd
  | copy metadata fd wanted => Reply.copied <$> orbCopy metadata fd wanted
  | check fd => Reply.updated <$> orbCheck ctx fd
  | stat fd => Reply.time <$> orbStat fd
  | setInterval fd interval => (fun _ => Reply.done) <$> orbSetInterval fd interval
  | poll fd id events setup => (fun _ => Reply.done) <$> Uorb.poll ctx fd id events setup
  | updateDeferred fd => (fun _ => Reply.done) <$> Uorb.updateDeferred ctx fd

/-- A call with its surroundings and its answer. -/
structure Event where
  ctx : Ctx
  op : Op
  reply : Reply

/-- The call ends in the state, with the answer. A call that follows a pointer that leads
nowhere does not end. -/
def Event.Ends (e : Event) (s t : Devices) : Prop :=
  outcome (e.op.run e.ctx) (fun reply t' => e.reply = reply ∧ t = t')
    (fun errno t' => errno ≠ .fault ∧ e.reply = .failed errno ∧ t = t') s

/-- uORB, after it has been started, as a transition system. -/
def uorb : LTS Devices Event where
  init s := s = Devices.started
  step s e t := e.Ends s t

/-! ### The broadcast log -/

/-- The path of a topic, as `node_open` finds it. -/
def topicPath (metadata : OrbMetadata) : Path := "/obj/" ++ metadata.oName

/-- The log is told of the publications, subscriptions and copies that succeed. -/
def record (b : Publications) : Op → Reply → Publications
  | .advertise _ (some data), .handle path => b.publish path data.val
  | .publish _ handle data, .done => b.publish handle data.val
  | .subscribe (some metadata), .fd fd => b.subscribe fd (topicPath metadata)
  | .copy _ fd _, .copied _ => b.read fd
  | _, _ => b

/-- A call that fails publishes nothing. -/
@[simp] theorem record_failed (b : Publications) (op : Op) (errno : Errno) :
    record b op (.failed errno) = b := by
  cases op with
  | advertise metadata data => cases data <;> rfl
  | subscribe metadata => cases metadata <;> rfl
  | _ => rfl

/-- uORB with the log beside it. -/
def uorbLog : LTS (Devices × Publications) Event :=
  uorb.observe Broadcast.empty fun b _ e _ => record b e.op e.reply

/-! ### The file operations -/

section

variable {b : Publications} {s : Devices} {α : Type}

@[simp] theorem outcome_ofExcept (r : Except Errno α) {Q : α → Devices → Prop}
    {E : Errno → Devices → Prop} :
    outcome (ofExcept r) Q E s ↔ (∀ a, r = .ok a → Q a s) ∧ (∀ e, r = .error e → E e s) := by
  cases r with
  | ok a => simp [ofExcept]
  | error e => simp [ofExcept]

@[simp] theorem outcome_require (c : Bool) (e : Errno) {Q : Unit → Devices → Prop}
    {E : Errno → Devices → Prop} :
    outcome (require c e) Q E s ↔ (c = true → Q () s) ∧ (c = false → E e s) := by
  cases c <;> simp [require]

theorem outcome_getNode {path : Path} {n : OrbDevNode} (hn : s.inodes path = some (.node n))
    {Q : OrbDevNode → Devices → Prop} {E : Errno → Devices → Prop} :
    outcome (getNode path) Q E s ↔ Q n s := by
  simp [getNode, hn]

/-- A topic is looked up, and the program stops if it is not there. -/
theorem outcome_getNode_of_refines {path : Path} {Q : OrbDevNode → Devices → Prop}
    (h : Refines b s) (hQ : ∀ n, s.inodes path = some (.node n) → Q n s) :
    outcome (getNode path) Q (fun _ => Refines b) s := by
  simp only [getNode, outcome_bind, outcome_get]
  cases hinode : s.inodes path with
  | none => exact h
  | some inode =>
      cases inode with
      | master => exact h
      | node n => exact hQ n hinode

theorem outcome_filpToSd {file : File} {sd : SubscriberData} (hpriv : file.priv = some sd)
    {Q : SubscriberData → Devices → Prop} {E : Errno → Devices → Prop} :
    outcome (filpToSd file) Q E s ↔ Q sd s := by
  simp [filpToSd, hpriv]

/-- The data of a subscriber is looked up, and the program stops if there is none. -/
theorem outcome_filpToSd_of_refines {file : File} {Q : SubscriberData → Devices → Prop}
    (h : Refines b s) (hQ : ∀ sd, file.priv = some sd → Q sd s) :
    outcome (filpToSd file) Q (fun _ => Refines b) s := by
  cases hpriv : file.priv with
  | none => simpa [filpToSd, hpriv] using h
  | some sd => exact (outcome_filpToSd hpriv).mpr (hQ sd hpriv)

/-- Notifying the poll waiters of a topic shows its subscribers nothing new. -/
theorem outcome_pollNotify (ctx : Ctx) {path : Path} {n : OrbDevNode}
    (hn : s.inodes path = some (.node n)) (h : Refines b s) :
    outcome (pollNotify ctx path) (fun _ => Refines b) (fun _ _ => False) s := by
  simp only [pollNotify, outcome_bind, outcome_getNode hn, outcome_get, outcome_modify]
  have hsame : n.Same { n with
      pollset := (pollNotifyAll ctx.now n.generation n.pollset s.files).1 } :=
    ⟨rfl, rfl, fun _ hd => hd⟩
  exact (h.setNode_same hn hsame).setFiles rfl
    (h.files.pollNotifyAll ctx.now n.generation n.pollset)

theorem outcome_openFile (ctx : Ctx) (retry : Bool) (path : Path) (oflags : OFlags)
    (h : Refines b s) :
    outcome (openFile ctx retry path oflags) (fun fd => Refines (opened oflags fd path b))
      (fun _ => Refines b) s := by
  simp only [openFile, outcome_bind, outcome_get]
  cases hinode : s.inodes path with
  | none => exact h
  | some inode =>
      cases inode with
      | master =>
          simp only [outcome_bind, outcome_require, outcome_modifyGet]
          refine ⟨fun _ => ?_, fun _ => h⟩
          refine h.addFile ⟨path, oflags, none⟩ (.inr rfl) fun sd hsd => ?_
          cases hsd
      | node n =>
          simp only [outcome_bind, outcome_require, outcome_ofExcept, outcome_modifyGet]
          refine ⟨fun _ => ⟨?_, fun _ _ => h⟩, fun _ => h⟩
          rintro ⟨n', priv⟩ hopen
          obtain ⟨hsame, hpub, hgen⟩ := OrbDevNode.open_ok hopen
          refine (h.setNode_same hinode hsame).addFile ⟨path, oflags, priv⟩ hpub fun sd hsd => ?_
          exact (hgen sd hsd).trans (h.node path n hinode).generation

theorem outcome_closeFile (ctx : Ctx) (fd : Fd) (h : Refines b s) :
    outcome (closeFile ctx fd) (fun _ => Refines b) (fun _ => Refines b) s := by
  simp only [closeFile, outcome_bind, outcome_get]
  cases hfile : s.files fd with
  | none => exact h
  | some file =>
      simp only [outcome_bind, outcome_modify, outcome_get]
      have hremoved := h.removeFile hfile
      cases hinode : (s.removeFile fd).inodes file.path with
      | none => exact hremoved
      | some inode =>
          cases inode with
          | master => exact hremoved
          | node n =>
              simp only [outcome_bind, outcome_modify, outcome_ofExcept]
              have hclosed := hremoved.setNode_same hinode (OrbDevNode.close_same ctx n)
              exact ⟨fun _ _ => hclosed, fun _ _ => hclosed⟩

theorem outcome_closeQuietly (ctx : Ctx) (fd : Fd) (h : Refines b s) :
    outcome (closeQuietly ctx fd) (fun _ => Refines b) (fun _ => Refines b) s := by
  simp only [closeQuietly, outcome_tryCatch, outcome_pure]
  exact outcome_closeFile ctx fd h

/-- A successful write is a publication. -/
theorem outcome_write (ctx : Ctx) {path : Path} {n : OrbDevNode} (buffer : List UInt8)
    (hn : s.inodes path = some (.node n)) (h : Refines b s) :
    outcome (write ctx path buffer)
      (fun ret t => ret = n.metadata.oSize ∧ Refines (b.publish path buffer) t)
      (fun _ => Refines b) s := by
  simp only [write, outcome_bind, outcome_getNode hn, outcome_modify, outcome_ofExcept]
  refine ⟨fun ret hret => ?_, fun e he => ?_⟩
  · have hwrite : n.write ctx buffer = (.ok ret, (n.write ctx buffer).2) := Prod.ext hret rfl
    obtain ⟨hlen, -, hdata, hgen⟩ := OrbDevNode.write_ok hwrite
    have hpublished := h.publish hn hgen hdata
    have hnode : (s.setNode path (n.write ctx buffer).2).inodes path =
        some (.node (n.write ctx buffer).2) := Function.update_self ..
    exact (outcome_pollNotify ctx hnode hpublished).mono (fun _ t ht => ⟨hlen, ht⟩)
      fun _ _ hfalse => hfalse.elim
  · have hwrite : n.write ctx buffer = (.error e, (n.write ctx buffer).2) := Prod.ext he rfl
    exact h.setNode_same hn (OrbDevNode.write_error hwrite)

/-- The driver's part of an `ioctl` is run for a file that is open on a topic. -/
theorem outcome_ioctl (fd : Fd) {driver : File → OrbDevNode → Exec α} (h : Refines b s)
    (hdriver : ∀ file n, s.files fd = some file → s.inodes file.path = some (.node n) →
      outcome (driver file n) (fun _ => Refines b) (fun _ => Refines b) s) :
    outcome (ioctl fd driver) (fun _ => Refines b) (fun _ => Refines b) s := by
  simp only [ioctl, outcome_bind, outcome_get]
  cases hfile : s.files fd with
  | none => exact h
  | some file =>
      simp only [outcome_bind, outcome_get]
      cases hinode : s.inodes file.path with
      | none => exact h
      | some inode =>
          cases inode with
          | master => exact h
          | node n =>
              simp only [outcome_map]
              exact hdriver file n hfile hinode

/-- Changes to the data of a subscriber that keep its generation. -/
theorem outcome_modifyPriv {fd : Fd} {file : File} (hfile : s.files fd = some file)
    (h : Refines b s) {f : SubscriberData → α × SubscriberData}
    (hf : ∀ sd, (f sd).2.generation = sd.generation) :
    outcome (do
      let sd ← filpToSd file
      modify (Devices.setPriv fd file (f sd).2)
      return (f sd).1) (fun _ => Refines b) (fun _ => Refines b) s := by
  simp only [outcome_bind, outcome_modify, outcome_pure]
  exact outcome_filpToSd_of_refines h fun sd hpriv => h.setPriv hfile hpriv (hf sd)

theorem outcome_orbiocadvertise (ctx : Ctx) (metadata : OrbMetadata) (h : Refines b s) :
    outcome (orbiocadvertise ctx metadata) (fun _ => Refines b) (fun _ => Refines b) s := by
  simp only [orbiocadvertise, outcome_bind, outcome_ofExcept, outcome_require, outcome_get,
    outcome_modify]
  refine ⟨fun path _ => ⟨fun _ => ⟨fun _ => ⟨fun hnone => ⟨fun _ => ?_, fun _ => h⟩,
    fun _ => h⟩, fun _ => h⟩, fun _ => h⟩, fun _ _ => h⟩
  exact h.setNode_new (Option.isNone_iff_eq_none.mp hnone) metadata

/-! ### The library functions -/

theorem outcome_nodeAdvertise (ctx : Ctx) (metadata : OrbMetadata) (h : Refines b s) :
    outcome (nodeAdvertise ctx metadata) (fun _ => Refines b) (fun _ => Refines b) s := by
  simp only [nodeAdvertise, outcome_bind, outcome_require, outcome_get, outcome_tryCatch]
  refine ⟨fun _ => ⟨fun _ => ?_, fun _ => h⟩, fun _ => h⟩
  refine (outcome_orbiocadvertise ctx metadata h).mono (fun _ _ ht => ht) fun e t ht => ?_
  simp only [outcome_ite, outcome_pure, outcome_throw]
  exact ⟨fun _ => ht, fun _ => ht⟩

/-- The file that `node_open` returns, from the first attempt or the second. -/
theorem outcome_nodeOpen (ctx : Ctx) (metadata : OrbMetadata) (data advertiser : Bool)
    (h : Refines b s) :
    outcome (nodeOpen ctx .pubsub (some metadata) data advertiser)
      (fun fd => Refines
        (opened (if advertiser then .wronly else .rdonly) fd (topicPath metadata) b))
      (fun _ => Refines b) s := by
  simp only [nodeOpen, outcome_bind, outcome_require, outcome_ofExcept, outcome_tryCatch,
    outcome_throw]
  refine ⟨fun _ => ⟨fun path hpath => ?_, fun _ _ => h⟩, fun _ => h⟩
  have hpath' : path = topicPath metadata := by
    unfold nodeMkpath at hpath
    simp only at hpath
    split_ifs at hpath
    exact (Except.ok.inj hpath).symm
  subst hpath'
  refine (outcome_openFile ctx false _ _ h).mono (fun _ _ ht => ht) fun _ t ht => ?_
  refine (outcome_nodeAdvertise ctx metadata ht).mono (fun _ t' ht' => ?_) fun _ _ ht' => ht'
  exact outcome_openFile ctx true _ _ ht'

/-- Nothing fails once the node has been written. -/
theorem outcome_orbPublish (ctx : Ctx) (metadata : OrbMetadata) (handle : Path)
    (data : TopicData metadata) (h : Refines b s) :
    outcome (orbPublish ctx metadata handle data)
      (fun _ => Refines (b.publish handle data.val)) (fun _ => Refines b) s := by
  simp only [orbPublish, outcome_bind]
  refine outcome_getNode_of_refines h fun n hn => ?_
  simp only [outcome_require, outcome_tryCatch, outcome_throw, decide_eq_true_eq,
    decide_eq_false_iff_not]
  refine ⟨fun hmeta => ?_, fun _ => h⟩
  refine (outcome_write ctx data.val hn h).mono ?_ fun _ _ ht => ht
  rintro ret t ⟨hret, ht⟩
  exact ⟨fun _ => ht, fun hne => absurd (hret.trans (congrArg OrbMetadata.oSize hmeta)) hne⟩

theorem outcome_orbAdvertise (ctx : Ctx) (metadata : OrbMetadata)
    (data : Option (TopicData metadata)) (h : Refines b s) :
    outcome (orbAdvertise ctx metadata data)
      (fun path => Refines (record b (.advertise metadata data) (.handle path)))
      (fun _ => Refines b) s := by
  simp only [orbAdvertise, outcome_bind, outcome_tryCatch, outcome_throw]
  refine (outcome_nodeOpen ctx metadata data.isSome true h).mono (fun fd t ht => ?_)
    fun _ _ ht => ht
  have hopened : Refines b t := ht
  have hadvertiser : outcome (orbiocgadvertiser fd) (fun _ => Refines b) (fun _ => Refines b) t :=
    outcome_ioctl fd hopened fun _ _ _ _ => hopened
  refine hadvertiser.mono (fun advertiser u hu => ?_) fun _ u hu => outcome_closeQuietly ctx fd hu
  refine (outcome_closeQuietly ctx fd hu).mono (fun _ u' hu' => ?_) fun _ _ hu' => hu'
  cases advertiser with
  | none => exact hu'
  | some advertiser =>
      cases data with
      | none => exact hu'
      | some data =>
          simp only [outcome_bind, outcome_pure]
          exact outcome_orbPublish ctx metadata advertiser data hu'

/-- A read that returns something moves its subscriber to the end of the topic. A topic without
data has no publications. -/
theorem outcome_readFile (fd : Fd) (wanted : Bool) (buflen : Nat) (h : Refines b s) :
    outcome (readFile fd wanted buflen)
      (fun r t => Refines (b.read fd) t ∧ (r.1 = buflen ∨ Refines b t)) (fun _ => Refines b) s := by
  simp only [readFile, outcome_bind, outcome_get]
  cases hfile : s.files fd with
  | none => exact h
  | some file =>
      simp only [outcome_bind, outcome_require, outcome_get]
      refine ⟨fun _ => ?_, fun _ => h⟩
      cases hinode : s.inodes file.path with
      | none => exact h
      | some inode =>
          cases inode with
          | master => exact h
          | node n =>
              simp only [outcome_bind, outcome_modify, outcome_ofExcept]
              refine outcome_filpToSd_of_refines h fun sd hpriv => ?_
              rcases n.read_generation wanted buflen sd with
                ⟨hstay, ⟨e, he⟩ | hnone⟩ | ⟨hmove, copied, hok⟩
              · refine ⟨fun r hr => ?_, fun _ _ => h.setPriv hfile hpriv hstay⟩
                rw [he] at hr
                cases hr
              · have hsame := h.setPriv hfile hpriv hstay
                have hseen := h.generation_of_no_data hfile hpriv hinode hnone
                have hend := h.catchUp hfile hpriv (hstay.trans hseen)
                exact ⟨fun _ _ => ⟨hend, .inr hsame⟩, fun _ _ => hsame⟩
              · have hend := h.catchUp hfile hpriv
                  (hmove.trans (h.node file.path n hinode).generation)
                refine ⟨fun r hr => ⟨hend, .inl ?_⟩, fun e he => ?_⟩
                · exact congrArg Prod.fst (Except.ok.inj (hr.symm.trans hok))
                · rw [hok] at he
                  cases he

/-- A copy moves its subscriber to the end of the topic. -/
theorem outcome_orbCopy (metadata : OrbMetadata) (fd : Fd) (wanted : Bool) (h : Refines b s) :
    outcome (orbCopy metadata fd wanted) (fun _ => Refines (b.read fd)) (fun _ => Refines b) s := by
  simp only [orbCopy, outcome_bind]
  refine (outcome_readFile fd wanted metadata.oSize h).mono ?_ fun _ _ ht => ht
  rintro ⟨ret, copied⟩ t ⟨hend, hsame⟩
  simp only [outcome_require, outcome_pure, decide_eq_true_eq, decide_eq_false_iff_not]
  exact ⟨fun _ => hend, fun hne => hsame.resolve_left hne⟩

/-! ### Polling and the interval timer -/

theorem outcome_poll (ctx : Ctx) (fd : Fd) (id : Nat) (events setup : Bool) (h : Refines b s) :
    outcome (poll ctx fd id events setup) (fun _ => Refines b) (fun _ => Refines b) s := by
  refine outcome_ioctl fd h fun file n hfile hinode => ?_
  have hpollset : ∀ slots,
      Refines b (s.setNode file.path { n with pollset := slots }) := fun slots =>
    h.setNode_same hinode ⟨rfl, rfl, fun _ hd => hd⟩
  cases setup with
  | true =>
      simp only [if_true, outcome_bind]
      refine outcome_filpToSd_of_refines h fun sd hpriv => ?_
      split
      · exact h
      · rename_i slots _
        exact (hpollset slots).setPriv hfile hpriv
          (sd.appearsUpdated_generation ctx.now n.generation)
  | false =>
      simp only [Bool.false_eq_true, if_false]
      split
      · exact h
      · exact hpollset _

theorem outcome_updateDeferred (ctx : Ctx) (fd : Fd) (h : Refines b s) :
    outcome (updateDeferred ctx fd) (fun _ => Refines b) (fun _ => Refines b) s := by
  simp only [updateDeferred, outcome_bind, outcome_get]
  cases hfile : s.files fd with
  | none => exact h
  | some file =>
      simp only [outcome_bind, outcome_require, outcome_modify]
      refine outcome_filpToSd_of_refines h fun sd hpriv => ⟨fun _ => ?_, fun _ => h⟩
      have hcleared : Refines b (s.setPriv fd file { sd with updateCall := 0 }) :=
        h.setPriv hfile hpriv rfl
      simp only [pollNotify, outcome_bind]
      refine outcome_getNode_of_refines hcleared fun n hn => ?_
      have hnotify := outcome_pollNotify ctx hn hcleared
      simp only [pollNotify, outcome_bind, outcome_getNode hn] at hnotify
      exact hnotify.mono (fun _ _ ht => ht) fun _ _ hfalse => hfalse.elim

/-! ### Runs -/

/-- One call, and the log takes the same step. -/
theorem outcome_run (ctx : Ctx) (op : Op) (h : Refines b s) :
    outcome (op.run ctx) (fun reply => Refines (record b op reply)) (fun _ => Refines b) s := by
  cases op with
  | advertise metadata data =>
      simp only [Op.run, outcome_map]
      exact outcome_orbAdvertise ctx metadata data h
  | publish metadata handle data =>
      simp only [Op.run, outcome_map]
      exact outcome_orbPublish ctx metadata handle data h
  | subscribe metadata =>
      simp only [Op.run, outcome_map]
      cases metadata with
      | none => exact h
      | some metadata => exact outcome_nodeOpen ctx metadata false false h
  | unsubscribe fd =>
      simp only [Op.run, outcome_map]
      exact outcome_closeFile ctx fd h
  | copy metadata fd wanted =>
      simp only [Op.run, outcome_map]
      exact outcome_orbCopy metadata fd wanted h
  | check fd =>
      simp only [Op.run, outcome_map]
      exact outcome_ioctl fd h fun file n hfile hinode =>
        outcome_modifyPriv hfile h fun sd => sd.appearsUpdated_generation ctx.now n.generation
  | stat fd =>
      simp only [Op.run, outcome_map]
      exact outcome_ioctl fd h fun _ _ _ _ => h
  | setInterval fd interval =>
      simp only [Op.run, outcome_map]
      refine outcome_ioctl fd h fun file n hfile hinode => ?_
      exact outcome_modifyPriv (f := fun sd => ((), { sd with updateInterval := interval * 1000 }))
        hfile h fun _ => rfl
  | poll fd id events setup =>
      simp only [Op.run, outcome_map]
      exact outcome_poll ctx fd id events setup h
  | updateDeferred fd =>
      simp only [Op.run, outcome_map]
      exact outcome_updateDeferred ctx fd h

/-- **The simulation.** In every reachable state the devices agree with the log. -/
theorem refines_of_reachable {p : Devices × Publications} (h : uorbLog.Reachable p) :
    Refines p.2 p.1 := by
  refine h.invariant (I := fun p => Refines p.2 p.1) ?_ ?_
  · rintro ⟨s, b⟩ ⟨rfl, rfl⟩
    exact refines_started
  · rintro ⟨s, b⟩ e ⟨t, b'⟩ hs ⟨hends, hb'⟩
    obtain rfl : b' = record b e.op e.reply := hb'
    have hboth := (outcome_run e.ctx e.op hs).and hends
    refine (hboth.mono ?_ ?_).elim
    · rintro reply t' ⟨ht, hreply, rfl⟩
      exact hreply ▸ ht
    · rintro errno t' ⟨ht, -, hreply, rfl⟩
      show Refines (record b e.op e.reply) t
      rw [hreply, record_failed]
      exact ht

/-! ### Delivery -/

/-- The file is a subscription to the topic, with this data. -/
def Subscribed (s : Devices) (fd : Fd) (metadata : OrbMetadata) (sd : SubscriberData) : Prop :=
  ∃ file n, s.files fd = some file ∧ file.priv = some sd ∧
    s.inodes file.path = some (.node n) ∧ n.metadata = metadata

/-- A copy of a topic that has data returns it. -/
theorem outcome_orbCopy_of_data {fd : Fd} {file : File} {n : OrbDevNode} {sd : SubscriberData}
    {d : List UInt8} (hfile : s.files fd = some file) (haccess : file.oflags = .rdonly)
    (hpriv : file.priv = some sd) (hn : s.inodes file.path = some (.node n))
    (hd : n.data = some d) :
    outcome (orbCopy n.metadata fd true) (fun copied _ => copied = some d)
      (fun _ _ => False) s := by
  simp [orbCopy, readFile, hfile, haccess, hn, outcome_filpToSd hpriv, OrbDevNode.read_of_data hd]

/-- A check without a rate limit compares generations. -/
theorem outcome_orbCheck_unlimited (ctx : Ctx) {fd : Fd} {file : File} {n : OrbDevNode}
    {sd : SubscriberData} (hfile : s.files fd = some file) (hpriv : file.priv = some sd)
    (hn : s.inodes file.path = some (.node n)) (hunlimited : sd.updateInterval = 0) :
    outcome (orbCheck ctx fd)
      (fun updated _ => updated = some (decide (sd.generation ≠ n.generation)))
      (fun _ _ => False) s := by
  simp [orbCheck, orbiocupdated, ioctl, hfile, hn, outcome_filpToSd hpriv,
    SubscriberData.appearsUpdated_unlimited hunlimited]

/-- The call returns, with this answer and no other. -/
def Answers (s : Devices) (ctx : Ctx) (op : Op) (reply : Reply) : Prop :=
  ∀ reply', (∃ t, uorb.step s ⟨ctx, op, reply'⟩ t) ↔ reply' = reply

theorem answers_of_outcome {ctx : Ctx} {op : Op} {reply : Reply}
    (h : outcome (op.run ctx) (fun reply' _ => reply' = reply) (fun _ _ => False) s) :
    Answers s ctx op reply := by
  intro reply'
  simp only [uorb, Event.Ends]
  unfold outcome at h ⊢
  cases hrun : op.run ctx s with
  | error errno t =>
      rw [hrun] at h
      exact h.elim
  | ok returned t =>
      rw [hrun] at h
      obtain rfl : returned = reply := h
      exact ⟨fun ⟨_, hreply, _⟩ => hreply, fun hreply => ⟨t, hreply, rfl⟩⟩

/-- **uORB delivery.** Whatever calls were made, in whatever order: a copy of a topic with
publications returns the last of them, and a check on a subscription without a rate limit
returns and reports an update exactly when there was a publication since it was made or last
copied, as long as there were fewer than 2^32 of them. -/
theorem delivery {b : Publications} (h : uorbLog.Reachable (s, b)) {fd : Fd}
    {metadata : OrbMetadata} {sd : SubscriberData} (hsub : Subscribed s fd metadata sd) :
    (∀ ctx d, b.latest fd = some d →
        Answers s ctx (.copy metadata fd true) (.copied (some d))) ∧
      (∀ ctx, sd.updateInterval = 0 → b.unread fd < 2 ^ 32 →
        Answers s ctx (.check fd) (.updated (some (decide (0 < b.unread fd))))) := by
  have hrefines := refines_of_reachable h
  obtain ⟨file, n, hfile, hpriv, hn, rfl⟩ := hsub
  obtain ⟨seen, hreader, hle, hseen⟩ := (hrefines.files.reader fd file sd hfile hpriv).cursor
  have hagrees := hrefines.node file.path n hn
  constructor
  · intro ctx d hlatest
    rw [Broadcast.latest_eq hreader] at hlatest
    have hcopy := outcome_orbCopy_of_data hfile (hrefines.files.access fd file sd hfile hpriv)
      hpriv hn (hagrees.data d hlatest)
    refine answers_of_outcome ?_
    simp only [Op.run, outcome_map]
    exact hcopy.mono (fun _ _ hcopied => congrArg Reply.copied hcopied) fun _ _ hfalse => hfalse
  · intro ctx hunlimited hlt
    rw [Broadcast.unread_eq hreader] at hlt ⊢
    have hcheck := outcome_orbCheck_unlimited ctx hfile hpriv hn hunlimited
    have hgen : sd.generation ≠ n.generation ↔ 0 < (b.log file.path).length - seen := by
      rw [hseen, hagrees.generation, Ne, ofNat_eq_ofNat_iff_of_lt hle hlt]
      exact Nat.pos_iff_ne_zero.symm
    refine answers_of_outcome ?_
    simp only [Op.run, outcome_map]
    refine hcheck.mono (fun updated _ hupdated => ?_) fun _ _ hfalse => hfalse
    rw [hupdated]
    simp only [hgen]

end

/-! ### A run -/

/-- A call that succeeds, with the log, as a function. -/
def call (ctx : Ctx) (op : Op) (p : Devices × Publications) : Devices × Publications :=
  match op.run ctx p.1 with
  | .ok reply t => (t, record p.2 op reply)
  | .error _ t => (t, p.2)

theorem reachable_call {p : Devices × Publications} (h : uorbLog.Reachable p) {ctx : Ctx} {op : Op}
    (hends : ends (op.run ctx) p.1 = true) : uorbLog.Reachable (call ctx op p) := by
  unfold ends at hends
  unfold call
  cases hrun : op.run ctx p.1 with
  | error errno t =>
      rw [hrun] at hends
      exact nomatch hends
  | ok reply t =>
      refine h.step (e := ⟨ctx, op, reply⟩) ⟨?_, rfl⟩
      show outcome (op.run ctx) _ _ p.1
      unfold outcome
      rw [hrun]
      exact ⟨rfl, rfl⟩

/-- A thread, with memory to spare. -/
def threadCtx : Ctx where
  pid := 1
  interruptContext := false
  now := 0
  alloc _ := true
  fresh _ := 0

/-- A topic of one byte. -/
def byteTopic : OrbMetadata := { oName := "byte", oSize := 1 }

/-- A subscription is made, and then the topic is advertised with a first value. -/
def subscribedAdvertised : Devices × Publications :=
  call threadCtx (.advertise byteTopic (some ⟨[7], rfl⟩))
    (call threadCtx (.subscribe (some byteTopic)) (Devices.started, .empty))

/-- The value is copied, and there is another one. -/
def copiedPublished : Devices × Publications :=
  call threadCtx (.publish byteTopic "/obj/byte" ⟨[8], rfl⟩)
    (call threadCtx (.copy byteTopic 0 true) subscribedAdvertised)

theorem delivery_advertised :
    uorbLog.Reachable copiedPublished ∧
      Answers copiedPublished.1 threadCtx (.copy byteTopic 0 true) (.copied (some [8])) ∧
      Answers copiedPublished.1 threadCtx (.check 0) (.updated (some true)) := by
  have hstart : uorbLog.Reachable (Devices.started, .empty) := .of_init ⟨rfl, rfl⟩
  have hadvertised : uorbLog.Reachable subscribedAdvertised := by
    refine reachable_call (reachable_call hstart ?_) ?_
    · decide +kernel
    · decide +kernel
  have hreach : uorbLog.Reachable copiedPublished := by
    refine reachable_call (reachable_call hadvertised ?_) ?_
    · decide +kernel
    · decide +kernel
  have hsub : Subscribed copiedPublished.1 0 byteTopic
      { generation := 1, updateInterval := 0, updateCall := 0, updateReported := false } :=
    ⟨_, _, rfl, rfl, rfl, rfl⟩
  obtain ⟨hcopy, hcheck⟩ := delivery hreach hsub
  refine ⟨hreach, hcopy threadCtx [8] (by decide +kernel), ?_⟩
  exact hcheck threadCtx rfl (by decide +kernel)

end Px4Firmware.Uorb
