import Px4Firmware.Lib.Broadcast
import Px4Firmware.Uorb.Api

/-!
# Px4Firmware.Uorb.Simulation

How the devices of uORB relate to a broadcast log: the generation of a node is the length of
the log of its topic modulo 2^32, that of a subscriber is its place in the log, and a node
holds the last publication (`Refines`). The changes that the file operations make to nodes and
files keep this relation, with the log as it is or with the one that has taken the same step.
-/

namespace Px4Firmware.Uorb

open Px4Firmware.Lib

/-- What was published, with the places of the subscribers. -/
abbrev Publications := Broadcast Path Fd (List UInt8)

/-! ### The relation -/


/-- A node agrees with the log of its topic. -/
structure NodeAgrees (n : OrbDevNode) (log : List (List UInt8)) : Prop where
  generation : n.generation = UInt32.ofNat log.length
  data : ∀ d, log.getLast? = some d → n.data = some d

/-- The data of a subscriber agrees with its place in the log. -/
structure ReaderAgrees (b : Publications) (fd : Fd) (path : Path) (sd : SubscriberData) : Prop where
  cursor : ∃ seen, b.reader fd = some ⟨path, seen⟩ ∧ seen ≤ (b.log path).length ∧
    sd.generation = UInt32.ofNat seen

/-- The data of every subscriber agrees with its place, subscribers read, and only files that
have been handed out are open. -/
structure FilesAgree (b : Publications) (nextFd : Fd) (files : Fd → Option File) : Prop where
  reader : ∀ fd file sd, files fd = some file → file.priv = some sd →
    ReaderAgrees b fd file.path sd
  access : ∀ fd file sd, files fd = some file → file.priv = some sd → file.oflags = .rdonly
  fresh : ∀ fd, nextFd ≤ fd → files fd = none

/-- **The devices simulate the broadcast log.** -/
structure Refines (b : Publications) (s : Devices) : Prop where
  node : ∀ path n, s.inodes path = some (.node n) → NodeAgrees n (b.log path)
  silent : ∀ path, (∀ n, s.inodes path ≠ some (.node n)) → b.log path = []
  files : FilesAgree b s.nextFd s.files

theorem refines_started : Refines Broadcast.empty Devices.started where
  node path n h := by
    by_cases hpath : path = topicMasterDevicePath
    · subst hpath
      simp [Devices.started] at h
    · simp [Devices.started, hpath] at h
  silent _ _ := rfl
  files :=
    { reader := nofun
      access := nofun
      fresh := fun _ _ => rfl }

/-- The log after a file has been opened. -/
def opened (oflags : OFlags) (fd : Fd) (path : Path) (b : Publications) : Publications :=
  if oflags = .rdonly then b.subscribe fd path else b

/-! ### Nodes -/

/-- For its subscribers, a topic that is the same agrees with the same log. -/
theorem NodeAgrees.of_same {n n' : OrbDevNode} {log : List (List UInt8)} (h : NodeAgrees n log)
    (hsame : n.Same n') : NodeAgrees n' log where
  generation := hsame.generation.trans h.generation
  data d hd := hsame.data d (h.data d hd)

theorem NodeAgrees.new (metadata : OrbMetadata) : NodeAgrees (.new metadata) [] where
  generation := rfl
  data _ hd := nomatch hd

/-- One more generation, and the data is that of the last publication. -/
theorem NodeAgrees.publish {n n' : OrbDevNode} {log : List (List UInt8)} {d : List UInt8}
    (h : NodeAgrees n log) (hgen : n'.generation = n.generation + 1) (hdata : n'.data = some d) :
    NodeAgrees n' (log ++ [d]) where
  generation := by
    rw [hgen, h.generation, List.length_append]
    exact (ofNat_succ_counter log.length).symm
  data e he := by
    rw [List.getLast?_concat] at he
    cases he
    exact hdata

/-! ### Readers -/

/-- A publication leaves the readers where they are. -/
theorem ReaderAgrees.publish {b : Publications} {fd : Fd} {path : Path} {sd : SubscriberData}
    (h : ReaderAgrees b fd path sd) (topic : Path) (d : List UInt8) :
    ReaderAgrees (b.publish topic d) fd path sd := by
  obtain ⟨seen, hreader, hle, hgen⟩ := h.cursor
  exact ⟨seen, hreader, Nat.le_trans hle (Broadcast.length_log_le_publish topic path d b), hgen⟩

/-- Only the generation counts. -/
theorem ReaderAgrees.of_generation {b : Publications} {fd : Fd} {path : Path}
    {sd sd' : SubscriberData} (h : ReaderAgrees b fd path sd)
    (hgen : sd'.generation = sd.generation) : ReaderAgrees b fd path sd' := by
  obtain ⟨seen, hreader, hle, hseen⟩ := h.cursor
  exact ⟨seen, hreader, hle, hgen.trans hseen⟩

/-- A subscriber that has the generation of the log is at its end. -/
theorem ReaderAgrees.subscribe {b : Publications} {path : Path} {sd : SubscriberData}
    (hgen : sd.generation = UInt32.ofNat (b.log path).length) (fd : Fd) :
    ReaderAgrees (b.subscribe fd path) fd path sd :=
  ⟨_, Broadcast.reader_subscribe_self fd path b, Nat.le_refl _, hgen⟩

/-- Another subscriber moves. -/
theorem ReaderAgrees.subscribe_of_ne {b : Publications} {fd fd' : Fd} {path : Path}
    {sd : SubscriberData} (h : ReaderAgrees b fd path sd) (hfd : fd ≠ fd') (path' : Path) :
    ReaderAgrees (b.subscribe fd' path') fd path sd := by
  obtain ⟨seen, hreader, hle, hgen⟩ := h.cursor
  exact ⟨seen, (Broadcast.reader_subscribe_of_ne hfd path' b).trans hreader, hle, hgen⟩

namespace FilesAgree

variable {b b' : Publications} {nextFd fd₀ : Fd} {files : Fd → Option File}

/-- One file changes: the others still agree. -/
theorem update (h : FilesAgree b nextFd files)
    (hother : ∀ fd path sd, fd ≠ fd₀ → ReaderAgrees b fd path sd → ReaderAgrees b' fd path sd)
    {file : Option File} {nextFd' : Fd} (hnext : nextFd ≤ nextFd') (hlt : fd₀ < nextFd')
    (hfile : ∀ f sd, file = some f → f.priv = some sd →
      f.oflags = .rdonly ∧ ReaderAgrees b' fd₀ f.path sd) :
    FilesAgree b' nextFd' (Function.update files fd₀ file) where
  reader fd f sd hf hsd := by
    by_cases hfd : fd = fd₀
    · subst hfd
      rw [Function.update_self] at hf
      exact (hfile f sd hf hsd).2
    · rw [Function.update_of_ne hfd] at hf
      exact hother fd f.path sd hfd (h.reader fd f sd hf hsd)
  access fd f sd hf hsd := by
    by_cases hfd : fd = fd₀
    · subst hfd
      rw [Function.update_self] at hf
      exact (hfile f sd hf hsd).1
    · rw [Function.update_of_ne hfd] at hf
      exact h.access fd f sd hf hsd
  fresh fd hfd := by
    rw [Function.update_of_ne (Nat.ne_of_gt (Nat.lt_of_lt_of_le hlt hfd))]
    exact h.fresh fd (Nat.le_trans hnext hfd)

/-- An open file has been handed out. -/
theorem lt_of_open (h : FilesAgree b nextFd files) {fd : Fd} {file : File}
    (hfile : files fd = some file) : fd < nextFd := by
  refine Nat.lt_of_not_le fun hle => ?_
  rw [h.fresh fd hle] at hfile
  exact nomatch hfile

/-- The data of a subscriber changes, except for its generation. -/
theorem setPriv (h : FilesAgree b nextFd files) {fd : Fd} {file : File}
    (hfile : files fd = some file) {sd sd' : SubscriberData} (hsd : file.priv = some sd)
    (hgen : sd'.generation = sd.generation) :
    FilesAgree b nextFd (Function.update files fd (some { file with priv := some sd' })) := by
  refine h.update (fun _ _ _ _ hr => hr) (Nat.le_refl _) (h.lt_of_open hfile) ?_
  rintro f sd'' ⟨⟩ ⟨⟩
  exact ⟨h.access fd file sd hfile hsd, (h.reader fd file sd hfile hsd).of_generation hgen⟩

/-- A subscriber moves to the end of its topic. -/
theorem catchUp (h : FilesAgree b nextFd files) {fd : Fd} {file : File}
    (hfile : files fd = some file) {sd sd' : SubscriberData} (hsd : file.priv = some sd)
    (hgen : sd'.generation = UInt32.ofNat (b.log file.path).length) :
    FilesAgree (b.subscribe fd file.path) nextFd
      (Function.update files fd (some { file with priv := some sd' })) := by
  refine h.update (fun _ _ _ hne hr => hr.subscribe_of_ne hne file.path) (Nat.le_refl _)
    (h.lt_of_open hfile) ?_
  rintro f sd'' ⟨⟩ ⟨⟩
  exact ⟨h.access fd file sd hfile hsd, .subscribe hgen fd⟩

theorem publish (h : FilesAgree b nextFd files) (topic : Path) (d : List UInt8) :
    FilesAgree (b.publish topic d) nextFd files where
  reader fd file sd hfile hsd := (h.reader fd file sd hfile hsd).publish topic d
  access := h.access
  fresh := h.fresh

/-- Looking at a poll waiter. -/
theorem pollNotifyOne (h : FilesAgree b nextFd files) (now : UInt64) (generation : UInt32)
    (fds : PollFd) :
    FilesAgree b nextFd (Uorb.pollNotifyOne now generation fds files).2 := by
  unfold Uorb.pollNotifyOne
  split
  · rename_i path oflags sd hfile
    exact h.setPriv hfile rfl (SubscriberData.appearsUpdated_generation now generation sd)
  · exact h

theorem pollNotifyAll (h : FilesAgree b nextFd files) (now : UInt64) (generation : UInt32)
    (slots : List (Option PollFd)) :
    FilesAgree b nextFd (Uorb.pollNotifyAll now generation slots files).2 := by
  induction slots generalizing files with
  | nil => exact h
  | cons slot slots ih =>
      cases slot with
      | none => exact ih h
      | some fds => exact ih (h.pollNotifyOne now generation fds)

end FilesAgree

namespace Refines

variable {b : Publications} {s : Devices}

/-- A topic changes to one that agrees with its log, which may have grown. -/
theorem setNode {b' : Publications} (h : Refines b s) {path : Path} {n : OrbDevNode}
    (hother : ∀ p, p ≠ path → b'.log p = b.log p) (hn : NodeAgrees n (b'.log path))
    (hfiles : FilesAgree b' s.nextFd s.files) : Refines b' (s.setNode path n) where
  node p m hm := by
    by_cases hp : p = path
    · subst hp
      simp only [Devices.setNode, Function.update_self, Option.some.injEq, Inode.node.injEq] at hm
      exact hm ▸ hn
    · simp only [Devices.setNode, Function.update_of_ne hp] at hm
      exact hother p hp ▸ h.node p m hm
  silent p hp := by
    by_cases hne : p = path
    · subst hne
      exact absurd (Function.update_self p _ s.inodes) (hp n)
    · refine (hother p hne).trans (h.silent p fun m hm => hp m ?_)
      simpa only [Devices.setNode, Function.update_of_ne hne] using hm
  files := hfiles

/-- A topic changes in a way that its subscribers cannot see. -/
theorem setNode_same (h : Refines b s) {path : Path} {n n' : OrbDevNode}
    (hn : s.inodes path = some (.node n)) (hsame : n.Same n') : Refines b (s.setNode path n') :=
  h.setNode (fun _ _ => rfl) ((h.node path n hn).of_same hsame) h.files

/-- A topic is created. -/
theorem setNode_new (h : Refines b s) {path : Path} (hpath : s.inodes path = none)
    (metadata : OrbMetadata) : Refines b (s.setNode path (.new metadata)) := by
  refine h.setNode (fun _ _ => rfl) ?_ h.files
  rw [h.silent path fun n hn => nomatch hpath.symm.trans hn]
  exact .new metadata

/-- A publication. -/
theorem publish (h : Refines b s) {path : Path} {n n' : OrbDevNode} {d : List UInt8}
    (hn : s.inodes path = some (.node n)) (hgen : n'.generation = n.generation + 1)
    (hdata : n'.data = some d) : Refines (b.publish path d) (s.setNode path n') := by
  refine h.setNode (fun p hp => Broadcast.log_publish_of_ne hp d b) ?_ (h.files.publish path d)
  rw [Broadcast.log_publish_self]
  exact (h.node path n hn).publish hgen hdata

/-- The files change to some that agree with the log. -/
theorem setFiles {b' : Publications} (h : Refines b s) (hlog : b'.log = b.log)
    {files : Fd → Option File} {nextFd : Fd} (hfiles : FilesAgree b' nextFd files) :
    Refines b' { s with files := files, nextFd := nextFd } where
  node p n hn := hlog ▸ h.node p n hn
  silent p hp := hlog ▸ h.silent p hp
  files := hfiles

theorem removeFile (h : Refines b s) {fd : Fd} {file : File} (hfile : s.files fd = some file) :
    Refines b (s.removeFile fd) :=
  h.setFiles rfl (h.files.update (fun _ _ _ _ hr => hr) (Nat.le_refl _) (h.files.lt_of_open hfile)
    nofun)

/-- The data of a subscriber changes, except for its generation. -/
theorem setPriv (h : Refines b s) {fd : Fd} {file : File} (hfile : s.files fd = some file)
    {sd sd' : SubscriberData} (hsd : file.priv = some sd) (hgen : sd'.generation = sd.generation) :
    Refines b (s.setPriv fd file sd') :=
  h.setFiles rfl (h.files.setPriv hfile hsd hgen)

/-- A subscriber moves to the end of its topic. -/
theorem catchUp (h : Refines b s) {fd : Fd} {file : File} (hfile : s.files fd = some file)
    {sd sd' : SubscriberData} (hsd : file.priv = some sd)
    (hgen : sd'.generation = UInt32.ofNat (b.log file.path).length) :
    Refines (b.read fd) (s.setPriv fd file sd') := by
  obtain ⟨seen, hreader, -, -⟩ := (h.files.reader fd file sd hfile hsd).cursor
  rw [Broadcast.read_eq_subscribe hreader]
  exact h.setFiles (Broadcast.log_subscribe fd file.path b) (h.files.catchUp hfile hsd hgen)

/-- A subscriber to a topic without data has seen all of it: nothing was published. -/
theorem generation_of_no_data (h : Refines b s) {fd : Fd} {file : File}
    (hfile : s.files fd = some file) {sd : SubscriberData} (hsd : file.priv = some sd)
    {n : OrbDevNode} (hn : s.inodes file.path = some (.node n)) (hdata : n.data = none) :
    sd.generation = UInt32.ofNat (b.log file.path).length := by
  have hempty : b.log file.path = [] := by
    by_contra hne
    have hlast := (h.node file.path n hn).data _ (List.getLast?_eq_some_getLast hne)
    exact nomatch hdata.symm.trans hlast
  obtain ⟨seen, -, hle, hgen⟩ := (h.files.reader fd file sd hfile hsd).cursor
  rw [hempty] at hle ⊢
  rw [hgen, Nat.le_zero.mp hle]
  rfl

/-- A new file: a subscriber is placed at the end of its topic, and the file of a publisher
has no data. -/
theorem addFile (h : Refines b s) (file : File) (hpub : file.oflags = .rdonly ∨ file.priv = none)
    (hsd : ∀ sd, file.priv = some sd → sd.generation = UInt32.ofNat (b.log file.path).length) :
    Refines (opened file.oflags s.nextFd file.path b) (s.addFile file) := by
  unfold opened
  by_cases hflags : file.oflags = .rdonly
  · rw [if_pos hflags]
    refine h.setFiles (Broadcast.log_subscribe s.nextFd file.path b) (h.files.update
      (fun _ _ _ hne hr => hr.subscribe_of_ne hne file.path) (Nat.le_succ _)
      (Nat.lt_succ_self _) ?_)
    rintro f sd ⟨⟩ hpriv
    exact ⟨hflags, .subscribe (hsd sd hpriv) s.nextFd⟩
  · rw [if_neg hflags]
    refine h.setFiles rfl (h.files.update (fun _ _ _ _ hr => hr) (Nat.le_succ _)
      (Nat.lt_succ_self _) ?_)
    rintro f sd ⟨⟩ hpriv
    rcases hpub with hrd | hnone
    · exact absurd hrd hflags
    · exact nomatch hnone.symm.trans hpriv

end Refines

end Px4Firmware.Uorb
