import Px4Firmware.Sched.CpuLoad

/-!
# Px4Firmware.Sched.CpuAccounts

**The account of the processor time.** The notes of the scheduler look at no slots but those of live
tasks, every live task has one slot, and its runtime is the time that it has run, as long as the
loops do not come to a free slot before they have found what they look for (`accounts_of_careful`).

A free slot in front is enough: `sched_note_stop` and `sched_note_switch` read the pid in it. The
loop of the former starts behind the idle thread, so this one cannot be stopped. And the run of the
init thread in which the table is set up is counted from the start of the clock.
-/

namespace Px4Firmware.CpuLoad

open Lib

/-! ### The scheduler -/

/-- What the scheduler notes. -/
inductive Note
  | start (tcb : Pid) (now : UInt64)
  | stop (tcb : Pid)
  | switch (toTcb : Pid) (newTime : UInt64)

/-- The tasks beside the table: which ones are alive, which one runs and since when, whether this is
the run in which the table has been set up, and the runs that each task has completed since it was
registered. -/
structure Sched where
  load : SystemLoad
  live : List Pid
  running : Option Pid
  began : UInt64
  first : Bool
  runs : Pid → List (UInt64 × UInt64)

/-- The lengths of runs, together. -/
def runtime : List (UInt64 × UInt64) → UInt64
  | [] => 0
  | (start, stop) :: runs => runtime runs + (stop - start)

section

variable (maxTasks : Nat) (nullPid : Pid)

/-- A note, for a task that is not alive yet and for which there is room, for one that is alive, or
for two of which one is running. -/
inductive Sched.Next (s : Sched) : Note → Sched → Prop
  | start {tcb : Pid} {now : UInt64} (hnew : tcb ∉ s.live) (hroom : s.live.length < maxTasks) :
      Next s (.start tcb now)
        { s with
          load := schedNoteStart maxTasks tcb now s.load
          live := tcb :: s.live
          runs := fun p => if p = tcb then [] else s.runs p }
  | stop {tcb : Pid} (hlive : tcb ∈ s.live) :
      Next s (.stop tcb)
        { s with
          load := (schedNoteStop maxTasks nullPid tcb s.load).1
          live := s.live.erase tcb
          running := if s.running = some tcb then none else s.running }
  | switch {fromTcb toTcb : Pid} {newTime : UInt64} (hrunning : s.running = some fromTcb)
      (hlive : toTcb ∈ s.live) (hne : toTcb ≠ fromTcb) :
      Next s (.switch toTcb newTime)
        { s with
          load := (schedNoteSwitch maxTasks nullPid fromTcb toTcb newTime s.load).1
          running := some toTcb
          began := newTime
          first := false
          runs := fun p => if p = fromTcb then (s.began, newTime) :: s.runs p else s.runs p }

/-- The scheduler when the table has been set up, by the init thread. -/
def Sched.init (startTime now : UInt64) (before : SystemLoad) : Sched where
  load := cpuloadInitializeOnce maxTasks startTime now before
  live := [0, 1]
  running := some 1
  began := now
  first := true
  runs := fun _ => []

/-- The notes from then on. -/
def schedSystem : LTS Sched Note where
  init s := ∃ startTime now before, s = .init maxTasks startTime now before
  step := Sched.Next maxTasks nullPid

/-- The slots in which a note looks at `tcb`. -/
def Sched.looked (s : Sched) : Note → List Nat
  | .start _ _ => []
  | .stop tcb => (schedNoteStop maxTasks nullPid tcb s.load).2
  | .switch toTcb newTime =>
      match s.running with
      | some fromTcb => (schedNoteSwitch maxTasks nullPid fromTcb toTcb newTime s.load).2
      | none => []

/-! ### The law -/

/-- How many slots are valid. -/
def SystemLoad.validCount (load : SystemLoad) : Nat :=
  (List.range maxTasks).countP fun i => (load.tasks i).valid

/-- The accounts are right. -/
structure Sched.Accounts (s : Sched) : Prop where
  count : s.load.totalCount = s.load.validCount maxTasks
  slot : ∀ p ∈ s.live, ∃ i < maxTasks, s.load.Holds i p ∧
    ∀ j < maxTasks, s.load.Holds j p → j = i
  runtime : ∀ p ∈ s.live, ∀ i < maxTasks, s.load.Holds i p →
    (s.load.tasks i).totalRuntime = runtime (s.runs p)

/-- A note looks at no slots but those of live tasks, and the accounts are right after it. -/
def AccountLaw (s : Sched) (note : Note) (t : Sched) : Prop :=
  (∀ i ∈ s.looked maxTasks nullPid note, i < maxTasks ∧ ∃ p ∈ s.live, s.load.Holds i p) ∧
    t.Accounts maxTasks

/-- No slot is free before the one of a task, from a slot on. -/
def SystemLoad.Packed (load : SystemLoad) (start : Nat) (p : Pid) : Prop :=
  ∀ i < maxTasks, load.Holds i p → ∀ j, start ≤ j → j < i → (load.tasks j).valid = true

/-- A task is stopped that is not the idle thread and before which no slot is free; a switch is one
between tasks before which none is free, and the first one comes only when the clock has been zero
at the start. -/
def Sched.Careful (s : Sched) : Note → Prop
  | .start _ _ => True
  | .stop tcb => tcb ≠ 0 ∧ s.load.Packed maxTasks 1 tcb
  | .switch toTcb _ =>
      (s.first = true → s.began = 0) ∧ s.load.Packed maxTasks 0 toTcb ∧
        ∀ fromTcb, s.running = some fromTcb → s.load.Packed maxTasks 0 fromTcb

end

/-! ### Slots -/

section

variable {maxTasks : Nat} {load : SystemLoad} {task : TaskInfo} {newTime : UInt64} {i j : Nat}
  {p q : Pid}

theorem SystemLoad.Holds.unique (h : load.Holds i p) (h' : load.Holds i q) : p = q :=
  Option.some.inj (h.2.symm.trans h'.2)

theorem SystemLoad.holds_set :
    (load.set i task).Holds j p ↔
      (j = i ∧ task.valid = true ∧ task.tcb = some p) ∨ (j ≠ i ∧ load.Holds j p) := by
  by_cases h : j = i
  · subst h
    simp [SystemLoad.Holds]
  · simp [SystemLoad.Holds, h]

theorem SystemLoad.holds_clear : (load.clear i).Holds j p ↔ j ≠ i ∧ load.Holds j p := by
  have hset : (load.clear i).Holds j p ↔ (load.set i (load.tasks i).free).Holds j p := Iff.rfl
  rw [hset, SystemLoad.holds_set]
  simp [TaskInfo.free]

@[simp] theorem SystemLoad.valid_endRun :
    ((load.endRun i newTime).tasks j).valid = (load.tasks j).valid :=
  SystemLoad.field_set TaskInfo.valid rfl

@[simp] theorem SystemLoad.tcb_endRun :
    ((load.endRun i newTime).tasks j).tcb = (load.tasks j).tcb :=
  SystemLoad.field_set TaskInfo.tcb rfl

@[simp] theorem SystemLoad.valid_beginRun :
    ((load.beginRun i newTime).tasks j).valid = (load.tasks j).valid :=
  SystemLoad.field_set TaskInfo.valid rfl

@[simp] theorem SystemLoad.tcb_beginRun :
    ((load.beginRun i newTime).tasks j).tcb = (load.tasks j).tcb :=
  SystemLoad.field_set TaskInfo.tcb rfl

@[simp] theorem SystemLoad.totalRuntime_beginRun :
    ((load.beginRun i newTime).tasks j).totalRuntime = (load.tasks j).totalRuntime :=
  SystemLoad.field_set TaskInfo.totalRuntime rfl

/-- The slots keep their tasks through a switch. -/
theorem SystemLoad.holds_switch {a b : Nat} :
    ((load.endRun a newTime).beginRun b newTime).Holds j p ↔ load.Holds j p := by
  simp [SystemLoad.Holds]

/-- A count over a range, when one place changes. -/
theorem countP_range_update {f g : Nat → Bool} {n : Nat} (hi : i < n)
    (hsame : ∀ j, j ≠ i → g j = f j) :
    (List.range n).countP g + (f i).toNat = (List.range n).countP f + (g i).toNat := by
  have hbefore : ∀ n ≤ i, (List.range n).countP g = (List.range n).countP f := by
    intro n hn
    refine List.countP_congr fun j hj => ?_
    rw [hsame j (Nat.ne_of_lt (Nat.lt_of_lt_of_le (List.mem_range.mp hj) hn))]
  induction n with
  | zero => exact absurd hi (Nat.not_lt_zero i)
  | succ n ih =>
      have hlast : ∀ f : Nat → Bool, (List.range (n + 1)).countP f
          = (List.range n).countP f + (f n).toNat := by
        intro f
        rw [List.range_succ, List.countP_append, List.countP_singleton]
        cases f n <;> rfl
      rw [hlast, hlast]
      rcases Nat.lt_or_eq_of_le (Nat.le_of_lt_succ hi) with hlt | rfl
      · rw [hsame n (Nat.ne_of_gt hlt)]
        have hcount := ih hlt
        omega
      · rw [hbefore i (Nat.le_refl i)]
        omega

theorem SystemLoad.validCount_set (hi : i < maxTasks) :
    (load.set i task).validCount maxTasks + (load.tasks i).valid.toNat
      = load.validCount maxTasks + task.valid.toNat := by
  have hupdate := countP_range_update (f := fun j => (load.tasks j).valid)
    (g := fun j => ((load.set i task).tasks j).valid) hi fun j hj => by
      rw [SystemLoad.tasks_set_of_ne hj]
  simpa [SystemLoad.validCount] using hupdate

theorem SystemLoad.validCount_switch {a b : Nat} :
    ((load.endRun a newTime).beginRun b newTime).validCount maxTasks
      = load.validCount maxTasks := by
  simp [SystemLoad.validCount]

/-- A slot that is taken counts. -/
theorem SystemLoad.validCount_taken (hi : i < maxTasks) (hfree : (load.tasks i).valid = false)
    (now : UInt64) : (load.set i (taken p now)).validCount maxTasks
      = load.validCount maxTasks + 1 := by
  have hset : (load.set i (taken p now)).validCount maxTasks + (load.tasks i).valid.toNat
      = load.validCount maxTasks + (taken p now).valid.toNat := load.validCount_set hi
  rw [hfree] at hset
  exact hset

theorem SystemLoad.validCount_clear (hi : i < maxTasks) (hvalid : (load.tasks i).valid = true) :
    (load.clear i).validCount maxTasks + 1 = load.validCount maxTasks := by
  have hset : (load.set i (load.tasks i).free).validCount maxTasks + (load.tasks i).valid.toNat
      = load.validCount maxTasks + (load.tasks i).free.valid.toNat := load.validCount_set hi
  rw [hvalid] at hset
  exact hset

/-- A task that is in a slot is not in one that is free. -/
theorem SystemLoad.Holds.ne_of_free (h : load.Holds j q) (hfree : (load.tasks i).valid = false) :
    j ≠ i := by
  rintro rfl
  rw [h.1] at hfree
  cases hfree

theorem SystemLoad.holds_taken {now : UInt64} (hfree : (load.tasks i).valid = false) :
    (load.set i (taken p now)).Holds j q ↔ (j = i ∧ q = p) ∨ load.Holds j q := by
  rw [SystemLoad.holds_set]
  simp only [taken, true_and, Option.some.injEq, eq_comm]
  exact or_congr_right ⟨And.right, fun hheld => ⟨hheld.ne_of_free hfree, hheld⟩⟩

theorem SystemLoad.tasks_taken {now : UInt64} (hfree : (load.tasks i).valid = false)
    (hheld : load.Holds j q) : (load.set i (taken p now)).tasks j = load.tasks j :=
  SystemLoad.tasks_set_of_ne (hheld.ne_of_free hfree)

/-- If not all slots count, one is free. -/
theorem SystemLoad.exists_free (hcount : load.validCount maxTasks < maxTasks) :
    ∃ i < maxTasks, (load.tasks i).valid = false := by
  refine Classical.byContradiction fun hnone => ?_
  have hall : load.validCount maxTasks = (List.range maxTasks).length := by
    refine List.countP_eq_length.mpr fun i hi => ?_
    cases hvalid : (load.tasks i).valid with
    | false => exact absurd ⟨i, List.mem_range.mp hi, hvalid⟩ hnone
    | true => rfl
  rw [hall, List.length_range] at hcount
  exact Nat.lt_irrefl _ hcount

end

/-! ### The invariant -/

section

variable {maxTasks : Nat} {nullPid : Pid} {s t : Sched} {p : Pid} {i j : Nat}

/-- The accounts are right, and the valid slots are those of the live tasks. Before the first
switch, the run of the task that runs is counted from zero. -/
structure Sched.Inv (maxTasks : Nat) (s : Sched) : Prop where
  accounts : s.Accounts maxTasks
  owner : ∀ i < maxTasks, (s.load.tasks i).valid = true → ∃ p ∈ s.live, s.load.Holds i p
  number : s.load.validCount maxTasks = s.live.length
  nodup : s.live.Nodup
  idle : s.load.Holds 0 0
  running : ∀ p, s.running = some p → p ∈ s.live
  began : ∀ p, s.running = some p → ∀ i < maxTasks, s.load.Holds i p →
    (s.load.tasks i).currStartTime = if s.first then 0 else s.began

/-- A live task has no second slot. -/
theorem Sched.Inv.slot_unique (h : s.Inv maxTasks) (hp : p ∈ s.live) (hi : i < maxTasks)
    (hj : j < maxTasks) (hholds : s.load.Holds i p) (hholds' : s.load.Holds j p) : i = j := by
  obtain ⟨k, -, -, honly⟩ := h.accounts.slot p hp
  exact (honly i hi hholds).trans (honly j hj hholds').symm

/-- In a valid slot that is not the one of a task, its pid is not found. -/
theorem Sched.Inv.pid_ne (nullPid : Pid) (h : s.Inv maxTasks) (hp : p ∈ s.live) (hi : i < maxTasks)
    (hholds : s.load.Holds i p) (hj : j < maxTasks) (hvalid : (s.load.tasks j).valid = true)
    (hne : j ≠ i) : s.load.pid nullPid j ≠ p := by
  obtain ⟨q, hq, hqholds⟩ := h.owner j hj hvalid
  rw [hqholds.pid]
  rintro rfl
  exact hne (h.slot_unique hp hj hi hqholds hholds)

/-- There is a free slot behind the idle thread for another task. -/
theorem Sched.Inv.exists_free (h : s.Inv maxTasks) (hroom : s.live.length < maxTasks) :
    ∃ i, 1 ≤ i ∧ i < maxTasks ∧ (s.load.tasks i).valid = false := by
  rw [← h.number] at hroom
  obtain ⟨i, hi, hfree⟩ := s.load.exists_free hroom
  refine ⟨i, Nat.one_le_iff_ne_zero.mpr fun hzero => ?_, hi, hfree⟩
  rw [hzero, h.idle.1] at hfree
  cases hfree

/-- A task that is not alive is in no slot. -/
theorem Sched.Inv.not_holds (h : s.Inv maxTasks) (hp : p ∉ s.live) (hi : i < maxTasks) :
    ¬ s.load.Holds i p := by
  intro hheld
  obtain ⟨q, hq, hqheld⟩ := h.owner i hi hheld.1
  exact hp (hheld.unique hqheld ▸ hq)

/-- Every task has one slot, with the new one. -/
theorem Sched.Inv.slot_taken (h : s.Inv maxTasks) {tcb : Pid} {now : UInt64} (hi : i < maxTasks)
    (hfree : (s.load.tasks i).valid = false) (hnew : tcb ∉ s.live) :
    ∀ p ∈ tcb :: s.live, ∃ j < maxTasks, (s.load.set i (taken tcb now)).Holds j p ∧
      ∀ k < maxTasks, (s.load.set i (taken tcb now)).Holds k p → k = j := by
  intro p hp
  simp only [SystemLoad.holds_taken hfree]
  rcases List.mem_cons.mp hp with rfl | hlive
  · refine ⟨i, hi, .inl ⟨rfl, rfl⟩, fun k hk hheld => ?_⟩
    exact (hheld.resolve_right (h.not_holds hnew hk)).1
  · obtain ⟨j, hj, hheld, honly⟩ := h.accounts.slot p hlive
    refine ⟨j, hj, .inr hheld, fun k hk hheld' => ?_⟩
    rcases hheld' with ⟨-, rfl⟩ | hold
    · exact absurd hlive hnew
    · exact honly k hk hold

/-- A new task has run for no time. -/
theorem Sched.Inv.runtime_taken (h : s.Inv maxTasks) {tcb : Pid} {now : UInt64}
    (hfree : (s.load.tasks i).valid = false) (hnew : tcb ∉ s.live) (hp : p ∈ tcb :: s.live)
    (hj : j < maxTasks) (hheld : (s.load.set i (taken tcb now)).Holds j p) :
    ((s.load.set i (taken tcb now)).tasks j).totalRuntime
      = CpuLoad.runtime (if p = tcb then [] else s.runs p) := by
  rcases (SystemLoad.holds_taken hfree).mp hheld with ⟨rfl, rfl⟩ | hold
  · rw [SystemLoad.tasks_set_self, if_pos rfl]
    rfl
  · have hp' : p ≠ tcb := fun heq => h.not_holds hnew hj (heq ▸ hold)
    rw [SystemLoad.tasks_taken hfree hold, if_neg hp']
    exact h.accounts.runtime p ((List.mem_cons.mp hp).resolve_left hp') j hj hold

/-- The slot that has been taken has an owner, and so have the others. -/
theorem Sched.Inv.owner_taken (h : s.Inv maxTasks) {tcb : Pid} {now : UInt64}
    (hfree : (s.load.tasks i).valid = false) (hj : j < maxTasks)
    (hvalid : ((s.load.set i (taken tcb now)).tasks j).valid = true) :
    ∃ p ∈ tcb :: s.live, (s.load.set i (taken tcb now)).Holds j p := by
  simp only [SystemLoad.holds_taken hfree]
  by_cases hji : j = i
  · exact ⟨tcb, .head _, .inl ⟨hji, rfl⟩⟩
  · rw [SystemLoad.tasks_set_of_ne hji] at hvalid
    obtain ⟨p, hp, hheld⟩ := h.owner j hj hvalid
    exact ⟨p, .tail _ hp, .inr hheld⟩

/-- A start keeps the invariant. -/
theorem Sched.Inv.start (h : s.Inv maxTasks) {tcb : Pid} {now : UInt64} (hnew : tcb ∉ s.live)
    (hroom : s.live.length < maxTasks) :
    Sched.Inv maxTasks { s with
      load := schedNoteStart maxTasks tcb now s.load
      live := tcb :: s.live
      runs := fun p => if p = tcb then [] else s.runs p } := by
  obtain ⟨i, hi, hfree, hstart⟩ := schedNoteStart_eq (h.exists_free hroom)
  have hholds : ∀ {j p}, (s.load.set i (taken tcb now)).Holds j p ↔
      (j = i ∧ p = tcb) ∨ s.load.Holds j p := SystemLoad.holds_taken hfree
  rw [hstart]
  refine ⟨⟨?_, h.slot_taken hi hfree hnew, fun p hp j => h.runtime_taken hfree hnew hp⟩,
    fun j => h.owner_taken hfree, ?_, List.nodup_cons.mpr ⟨hnew, h.nodup⟩,
    hholds.mpr (.inr h.idle), fun p hp => .tail _ (h.running p hp), fun p hp j hj hheld => ?_⟩
  · show s.load.totalCount + 1 = ((s.load.set i (taken tcb now)).validCount maxTasks : Int)
    rw [SystemLoad.validCount_taken hi hfree, h.accounts.count]
    rfl
  · show (s.load.set i (taken tcb now)).validCount maxTasks = s.live.length + 1
    rw [SystemLoad.validCount_taken hi hfree, h.number]
  · show ((s.load.set i (taken tcb now)).tasks j).currStartTime = if s.first then 0 else s.began
    rcases hholds.mp hheld with ⟨-, rfl⟩ | hold
    · exact absurd (h.running p hp) hnew
    · rw [SystemLoad.tasks_taken hfree hold]
      exact h.began p hp j hj hold

/-- The slot of a task that is stopped carefully is the first one in which its pid is found. -/
theorem Sched.Inv.stop_found (nullPid : Pid) (h : s.Inv maxTasks) {tcb : Pid} (hlive : tcb ∈ s.live)
    (hcareful : s.Careful maxTasks (.stop tcb)) :
    ∃ i looked, i < maxTasks ∧ s.load.Holds i tcb ∧
      schedNoteStop maxTasks nullPid tcb s.load = (s.load.clear i, looked) ∧
      ∀ j ∈ looked, j < maxTasks ∧ (s.load.tasks j).valid = true := by
  obtain ⟨i, hi, hheld, -⟩ := h.accounts.slot tcb hlive
  have hpacked := hcareful.2 i hi hheld
  have hpos : 1 ≤ i := by
    refine Nat.one_le_iff_ne_zero.mpr ?_
    rintro rfl
    exact hcareful.1 (hheld.unique h.idle)
  obtain ⟨looked, hstop, hlooked⟩ := schedNoteStop_eq nullPid hpos hi hheld.pid
    fun j hj hj' => h.pid_ne nullPid hlive hi hheld (Nat.lt_trans hj hi) (hpacked j hj' hj)
      (Nat.ne_of_lt hj)
  refine ⟨i, looked, hi, hheld, hstop, fun j hj => ?_⟩
  obtain ⟨hj', hle⟩ := hlooked j hj
  rcases Nat.lt_or_eq_of_le hle with hlt | rfl
  · exact ⟨Nat.lt_trans hlt hi, hpacked j hj' hlt⟩
  · exact ⟨hi, hheld.1⟩

/-- The slot of no other task is cleared. -/
theorem Sched.Inv.slot_cleared (h : s.Inv maxTasks) {tcb : Pid} (hheld : s.load.Holds i tcb)
    (hp : p ∈ s.live.erase tcb) :
    ∃ j < maxTasks, (s.load.clear i).Holds j p ∧
      ∀ k < maxTasks, (s.load.clear i).Holds k p → k = j := by
  simp only [SystemLoad.holds_clear]
  rw [h.nodup.mem_erase_iff] at hp
  obtain ⟨j, hj, hheld', honly⟩ := h.accounts.slot p hp.2
  have hji : j ≠ i := by
    rintro rfl
    exact hp.1 (hheld'.unique hheld)
  exact ⟨j, hj, ⟨hji, hheld'⟩, fun k hk hk' => honly k hk hk'.2⟩

/-- The slots that have not been cleared have their owners. -/
theorem Sched.Inv.owner_cleared (h : s.Inv maxTasks) {tcb : Pid} (hi : i < maxTasks)
    (hheld : s.load.Holds i tcb) (hj : j < maxTasks)
    (hvalid : ((s.load.clear i).tasks j).valid = true) :
    ∃ p ∈ s.live.erase tcb, (s.load.clear i).Holds j p := by
  simp only [SystemLoad.holds_clear, h.nodup.mem_erase_iff]
  have hji : j ≠ i := by
    rintro rfl
    simp [SystemLoad.clear, TaskInfo.free] at hvalid
  have hvalid' : (s.load.tasks j).valid = true := by
    simpa [SystemLoad.clear, hji] using hvalid
  obtain ⟨p, hp, hheld'⟩ := h.owner j hj hvalid'
  have hne : p ≠ tcb := by
    rintro rfl
    exact hji (h.slot_unique hp hj hi hheld' hheld)
  exact ⟨p, ⟨hne, hp⟩, hji, hheld'⟩

/-- A careful stop keeps the invariant. -/
theorem Sched.Inv.stop (h : s.Inv maxTasks) {tcb : Pid} (hlive : tcb ∈ s.live)
    (hcareful : s.Careful maxTasks (.stop tcb)) :
    Sched.Inv maxTasks { s with
      load := (schedNoteStop maxTasks nullPid tcb s.load).1
      live := s.live.erase tcb
      running := if s.running = some tcb then none else s.running } := by
  obtain ⟨i, looked, hi, hheld, hstop, -⟩ := h.stop_found nullPid hlive hcareful
  rw [hstop]
  have hclear := SystemLoad.validCount_clear hi hheld.1
  have htasks : ∀ j, j ≠ i → (s.load.clear i).tasks j = s.load.tasks j :=
    fun j hj => SystemLoad.tasks_set_of_ne hj
  have hrunning : ∀ p, (if s.running = some tcb then none else s.running) = some p →
      s.running = some p ∧ p ≠ tcb := by
    intro p hp
    split at hp
    · cases hp
    · rename_i hne
      exact ⟨hp, fun heq => hne (heq ▸ hp)⟩
  refine ⟨⟨?_, fun p => h.slot_cleared hheld, fun p hp j hj hheld' => ?_⟩,
    fun j => h.owner_cleared hi hheld, ?_, h.nodup.erase tcb, ?_, fun p hp => ?_,
    fun p hp j hj hheld' => ?_⟩
  · show s.load.totalCount - 1 = ((s.load.clear i).validCount maxTasks : Int)
    rw [h.accounts.count]
    omega
  · obtain ⟨hji, hold⟩ := SystemLoad.holds_clear.mp hheld'
    show ((s.load.clear i).tasks j).totalRuntime = runtime (s.runs p)
    rw [htasks j hji]
    exact h.accounts.runtime p (List.mem_of_mem_erase hp) j hj hold
  · show (s.load.clear i).validCount maxTasks = (s.live.erase tcb).length
    rw [List.length_erase_of_mem hlive, ← h.number]
    omega
  · refine SystemLoad.holds_clear.mpr ⟨?_, h.idle⟩
    rintro rfl
    exact hcareful.1 (hheld.unique h.idle)
  · obtain ⟨hp', hne⟩ := hrunning p hp
    exact (h.nodup.mem_erase_iff).mpr ⟨hne, h.running p hp'⟩
  · obtain ⟨hji, hold⟩ := SystemLoad.holds_clear.mp hheld'
    show ((s.load.clear i).tasks j).currStartTime = if s.first then 0 else s.began
    rw [htasks j hji]
    exact h.began p (hrunning p hp).1 j hj hold

/-- The slots of the two tasks of a careful switch are the first ones in which their pids are
found. -/
theorem Sched.Inv.switch_found (nullPid : Pid) (h : s.Inv maxTasks) {fromTcb toTcb : Pid}
    {newTime : UInt64}
    (hrunning : s.running = some fromTcb) (hlive : toTcb ∈ s.live) (hne : toTcb ≠ fromTcb)
    (hcareful : s.Careful maxTasks (.switch toTcb newTime)) :
    ∃ a b looked, a < maxTasks ∧ b < maxTasks ∧ s.load.Holds a fromTcb ∧ s.load.Holds b toTcb ∧
      schedNoteSwitch maxTasks nullPid fromTcb toTcb newTime s.load
        = ((s.load.endRun a newTime).beginRun b newTime, looked) ∧
      ∀ j ∈ looked, j < maxTasks ∧ (s.load.tasks j).valid = true := by
  have hfromLive : fromTcb ∈ s.live := h.running fromTcb hrunning
  obtain ⟨a, ha, haheld, -⟩ := h.accounts.slot fromTcb hfromLive
  obtain ⟨b, hb, hbheld, -⟩ := h.accounts.slot toTcb hlive
  obtain ⟨-, hto, hfrom⟩ := hcareful
  have hvalid : ∀ j, j < a ∨ j < b → j < maxTasks ∧ (s.load.tasks j).valid = true := by
    intro j hj
    rcases hj with hj | hj
    · exact ⟨Nat.lt_trans hj ha, hfrom fromTcb hrunning a ha haheld j (Nat.zero_le j) hj⟩
    · exact ⟨Nat.lt_trans hj hb, hto b hb hbheld j (Nat.zero_le j) hj⟩
  obtain ⟨looked, hswitch, hlooked⟩ := schedNoteSwitch_eq nullPid newTime
    ha hb hne.symm haheld.pid hbheld.pid fun j hj hja hjb =>
      ⟨h.pid_ne nullPid hfromLive ha haheld (hvalid j hj).1 (hvalid j hj).2 hja,
        h.pid_ne nullPid hlive hb hbheld (hvalid j hj).1 (hvalid j hj).2 hjb⟩
  refine ⟨a, b, looked, ha, hb, haheld, hbheld, hswitch, fun j hj => ?_⟩
  by_cases hja : j = a
  · rw [hja]
    exact ⟨ha, haheld.1⟩
  · by_cases hjb : j = b
    · rw [hjb]
      exact ⟨hb, hbheld.1⟩
    · exact hvalid j (by have hle := hlooked j hj; omega)

/-- The run that ends is added to the runtime of its task. -/
theorem Sched.Inv.runtime_switched (h : s.Inv maxTasks) {a b : Nat} {fromTcb : Pid}
    {newTime : UInt64} (ha : a < maxTasks) (haheld : s.load.Holds a fromTcb)
    (hbegan : (s.load.tasks a).currStartTime = s.began) (hp : p ∈ s.live) (hj : j < maxTasks)
    (hheld : s.load.Holds j p) :
    (((s.load.endRun a newTime).beginRun b newTime).tasks j).totalRuntime
      = CpuLoad.runtime (if p = fromTcb then (s.began, newTime) :: s.runs p else s.runs p) := by
  rw [SystemLoad.totalRuntime_beginRun]
  by_cases hfrom : p = fromTcb
  · subst hfrom
    obtain rfl : j = a := h.slot_unique hp hj ha hheld haheld
    rw [if_pos rfl, SystemLoad.endRun, SystemLoad.tasks_set_self, hbegan,
      h.accounts.runtime p hp j hj hheld]
    rfl
  · have hja : j ≠ a := by
      rintro rfl
      exact hfrom (hheld.unique haheld)
    rw [if_neg hfrom, SystemLoad.endRun, SystemLoad.tasks_set_of_ne hja]
    exact h.accounts.runtime p hp j hj hheld

/-- A careful switch keeps the invariant. -/
theorem Sched.Inv.switch (h : s.Inv maxTasks) {fromTcb toTcb : Pid} {newTime : UInt64}
    (hrunning : s.running = some fromTcb) (hlive : toTcb ∈ s.live) (hne : toTcb ≠ fromTcb)
    (hcareful : s.Careful maxTasks (.switch toTcb newTime)) :
    Sched.Inv maxTasks { s with
      load := (schedNoteSwitch maxTasks nullPid fromTcb toTcb newTime s.load).1
      running := some toTcb
      began := newTime
      first := false
      runs := fun p => if p = fromTcb then (s.began, newTime) :: s.runs p else s.runs p } := by
  obtain ⟨a, b, looked, ha, hb, haheld, hbheld, hswitch, -⟩ :=
    h.switch_found nullPid hrunning hlive hne hcareful
  rw [hswitch]
  have hholds : ∀ {j p}, ((s.load.endRun a newTime).beginRun b newTime).Holds j p
      ↔ s.load.Holds j p := SystemLoad.holds_switch
  have hcount : ((s.load.endRun a newTime).beginRun b newTime).validCount maxTasks
      = s.load.validCount maxTasks := SystemLoad.validCount_switch
  -- The run that ends has begun when the table says, or at zero.
  have hbegan : (s.load.tasks a).currStartTime = s.began := by
    rw [h.began fromTcb hrunning a ha haheld]
    cases hfirst : s.first with
    | false => rfl
    | true => exact (hcareful.1 hfirst).symm
  refine ⟨⟨?_, fun p hp => ?_, fun p hp j hj hheld =>
      h.runtime_switched ha haheld hbegan hp hj (hholds.mp hheld)⟩, fun j hj hvalid => ?_,
    hcount.trans h.number, h.nodup, hholds.mpr h.idle, fun p hp => ?_,
    fun p hp j hj hheld => ?_⟩
  · show s.load.totalCount
      = (((s.load.endRun a newTime).beginRun b newTime).validCount maxTasks : Int)
    rw [hcount, h.accounts.count]
  · simpa only [hholds] using h.accounts.slot p hp
  · have hvalid' : (s.load.tasks j).valid = true := by
      rw [← SystemLoad.valid_endRun, ← SystemLoad.valid_beginRun]
      exact hvalid
    obtain ⟨p, hp, hheld⟩ := h.owner j hj hvalid'
    exact ⟨p, hp, hholds.mpr hheld⟩
  · obtain rfl : toTcb = p := Option.some.inj hp
    exact hlive
  · obtain rfl : toTcb = p := Option.some.inj hp
    rw [hholds] at hheld
    obtain rfl : j = b := h.slot_unique hlive hj hb hheld hbheld
    show (((s.load.endRun a newTime).beginRun j newTime).tasks j).currStartTime
      = if false then 0 else newTime
    rw [SystemLoad.beginRun, SystemLoad.tasks_set_self, if_neg Bool.false_ne_true]

/-- The table that has been set up holds two tasks. -/
theorem SystemLoad.holds_init {startTime now : UInt64} {before : SystemLoad} (hj : j < maxTasks) :
    (cpuloadInitializeOnce maxTasks startTime now before).Holds j p ↔
      (j = 0 ∧ p = 0) ∨ (j = 1 ∧ p = 1) := by
  have hfree : ((before.reset maxTasks startTime).tasks j).valid = false := by
    simp [SystemLoad.reset, hj]
  have hempty : ¬ (before.reset maxTasks startTime).Holds j p := by
    intro hheld
    rw [hheld.1] at hfree
    cases hfree
  have hset : (cpuloadInitializeOnce maxTasks startTime now before).Holds j p ↔
      (((before.reset maxTasks startTime).set 0 (taken 0 now)).set 1 (taken 1 now)).Holds j p :=
    Iff.rfl
  rw [hset, SystemLoad.holds_set, SystemLoad.holds_set]
  simp only [taken, true_and, Option.some.injEq, hempty, and_false, or_false]
  constructor
  · rintro (⟨rfl, rfl⟩ | ⟨-, rfl, rfl⟩)
    · exact .inr ⟨rfl, rfl⟩
    · exact .inl ⟨rfl, rfl⟩
  · rintro (⟨rfl, rfl⟩ | ⟨rfl, rfl⟩)
    · exact .inr ⟨Nat.zero_ne_one, rfl, rfl⟩
    · exact .inl ⟨rfl, rfl⟩

/-- No other slot is valid. -/
theorem SystemLoad.slot_init {startTime now : UInt64} {before : SystemLoad} (hj : j < maxTasks)
    (hvalid : ((cpuloadInitializeOnce maxTasks startTime now before).tasks j).valid = true) :
    j = 0 ∨ j = 1 := by
  refine Decidable.byContradiction fun hneither => ?_
  rw [not_or] at hneither
  simp [cpuloadInitializeOnce, SystemLoad.set, SystemLoad.reset, hneither.1, hneither.2, hj]
    at hvalid

theorem SystemLoad.validCount_init (hmax : 2 ≤ maxTasks) (startTime now : UInt64)
    (before : SystemLoad) :
    (cpuloadInitializeOnce maxTasks startTime now before).validCount maxTasks = 2 := by
  have hfree : ∀ i < maxTasks, ((before.reset maxTasks startTime).tasks i).valid = false := by
    intro i hi
    simp [SystemLoad.reset, hi]
  have hnone : (before.reset maxTasks startTime).validCount maxTasks = 0 := by
    refine List.countP_eq_zero.mpr fun i hi => ?_
    rw [hfree i (List.mem_range.mp hi)]
    exact Bool.false_ne_true
  have hfirst : (((before.reset maxTasks startTime).set 0 (taken 0 now)).tasks 1).valid
      = false := by
    rw [SystemLoad.tasks_set_of_ne (by decide)]
    exact hfree 1 (by omega)
  show (((before.reset maxTasks startTime).set 0 (taken 0 now)).set 1
    (taken 1 now)).validCount maxTasks = 2
  rw [SystemLoad.validCount_taken (by omega) hfirst,
    SystemLoad.validCount_taken (by omega) (hfree 0 (by omega)), hnone]

/-- The invariant holds when the table has been set up. -/
theorem Sched.Inv.init (hmax : 2 ≤ maxTasks) (startTime now : UInt64) (before : SystemLoad) :
    (Sched.init maxTasks startTime now before).Inv maxTasks := by
  have hholds : ∀ {j p}, j < maxTasks →
      ((Sched.init maxTasks startTime now before).load.Holds j p ↔
        (j = 0 ∧ p = 0) ∨ (j = 1 ∧ p = 1)) := SystemLoad.holds_init
  have hcount := SystemLoad.validCount_init hmax startTime now before
  have hlive : ∀ {p}, p ∈ (Sched.init maxTasks startTime now before).live ↔ p = 0 ∨ p = 1 := by
    simp [Sched.init]
  have hnodup : [(0 : Pid), 1].Nodup := by decide
  refine ⟨⟨?_, fun p hp => ?_, fun p hp j hj hheld => ?_⟩, fun j hj hvalid => ?_, hcount,
    hnodup, (hholds (by omega)).mpr (.inl ⟨rfl, rfl⟩), fun p hp => ?_,
    fun p hp j hj hheld => ?_⟩
  · show (0 + 1 + 1 : Int)
      = ((cpuloadInitializeOnce maxTasks startTime now before).validCount maxTasks : Int)
    rw [hcount]
    rfl
  · rcases hlive.mp hp with rfl | rfl
    · refine ⟨0, by omega, (hholds (by omega)).mpr (.inl ⟨rfl, rfl⟩), fun k hk hheld => ?_⟩
      simpa using (hholds hk).mp hheld
    · refine ⟨1, by omega, (hholds (by omega)).mpr (.inr ⟨rfl, rfl⟩), fun k hk hheld => ?_⟩
      simpa using (hholds hk).mp hheld
  · rcases (hholds hj).mp hheld with ⟨rfl, -⟩ | ⟨rfl, -⟩ <;> rfl
  · rcases SystemLoad.slot_init hj hvalid with rfl | rfl
    · exact ⟨0, hlive.mpr (.inl rfl), (hholds hj).mpr (.inl ⟨rfl, rfl⟩)⟩
    · exact ⟨1, hlive.mpr (.inr rfl), (hholds hj).mpr (.inr ⟨rfl, rfl⟩)⟩
  · exact hlive.mpr (.inr (Option.some.inj hp).symm)
  · rcases (hholds hj).mp hheld with ⟨rfl, rfl⟩ | ⟨rfl, -⟩
    · cases hp
    · rfl

/-! ### Runs -/

/-- A careful note keeps the invariant. -/
theorem Sched.Inv.next (h : s.Inv maxTasks) {note : Note}
    (hstep : Sched.Next maxTasks nullPid s note t) (hcareful : s.Careful maxTasks note) :
    t.Inv maxTasks := by
  cases hstep with
  | start hnew hroom => exact h.start hnew hroom
  | stop hlive => exact h.stop hlive hcareful
  | switch hrunning hlive hne => exact h.switch hrunning hlive hne hcareful

/-- A careful note looks at no slots but those of live tasks. -/
theorem Sched.Inv.looked (h : s.Inv maxTasks) {note : Note}
    (hstep : Sched.Next maxTasks nullPid s note t) (hcareful : s.Careful maxTasks note) :
    ∀ i ∈ s.looked maxTasks nullPid note, i < maxTasks ∧ ∃ p ∈ s.live, s.load.Holds i p := by
  have howner : ∀ looked : List Nat,
      (∀ i ∈ looked, i < maxTasks ∧ (s.load.tasks i).valid = true) →
      ∀ i ∈ looked, i < maxTasks ∧ ∃ p ∈ s.live, s.load.Holds i p :=
    fun looked hlooked i hi => ⟨(hlooked i hi).1, h.owner i (hlooked i hi).1 (hlooked i hi).2⟩
  cases hstep with
  | start hnew hroom => simp [Sched.looked]
  | stop hlive =>
      obtain ⟨i, looked, -, -, hstop, hlooked⟩ := h.stop_found nullPid hlive hcareful
      simp only [Sched.looked, hstop]
      exact howner looked hlooked
  | switch hrunning hlive hne =>
      obtain ⟨a, b, looked, -, -, -, -, hswitch, hlooked⟩ :=
        h.switch_found nullPid hrunning hlive hne hcareful
      simp only [Sched.looked, hrunning, hswitch]
      exact howner looked hlooked

/-- **The account of the processor time.** The accounts are right when the table has been set up,
and in every run of careful notes each one looks at no slots but those of live tasks and leaves the
accounts right. -/
theorem accounts_of_careful (hmax : 2 ≤ maxTasks) {startTime now : UInt64} {before : SystemLoad}
    {notes : List Note}
    (hrun : ((schedSystem maxTasks nullPid).restrict (Sched.Careful maxTasks)).Run
      (.init maxTasks startTime now before) notes t) :
    (Sched.init maxTasks startTime now before).Accounts maxTasks ∧
      ((schedSystem maxTasks nullPid).obeying (AccountLaw maxTasks nullPid)).Run
        (.init maxTasks startTime now before) notes t := by
  refine ⟨(Sched.Inv.init hmax startTime now before).accounts, ?_⟩
  refine hrun.obeying_of_restrict (fun s note t hreach hstep hcareful => ?_)
    (LTS.Reachable.of_init ⟨startTime, now, before, rfl⟩)
  have hinv : s.Inv maxTasks := by
    refine hreach.invariant (fun s hs => ?_) fun s note t hs hstep => hs.next hstep.2 hstep.1
    obtain ⟨startTime, now, before, rfl⟩ := hs
    exact .init hmax startTime now before
  exact ⟨hinv.looked hstep hcareful, (hinv.next hstep hcareful).accounts⟩

end

/-! ### Free slots -/

/-- A table in memory that is zero. -/
def zeroLoad : SystemLoad where
  startTime := 0
  tasks := fun _ => {
    totalRuntime := 0
    currStartTime := 0
    startTime := 0
    tcb := none
    valid := false }
  totalCount := 0

/-- With three slots, a task is started and switched to. -/
theorem accounts_of_careful_three :
    ∃ t, t.running = some 2 ∧ (Sched.init 3 0 0 zeroLoad).Accounts 3 ∧
      ((schedSystem 3 0).obeying (AccountLaw 3 0)).Run (.init 3 0 0 zeroLoad)
        [.start 2 5, .switch 2 10] t := by
  have hstart : Sched.Next 3 0 (.init 3 0 0 zeroLoad) (.start 2 5) _ :=
    .start (by decide) (by decide)
  have hvalid : ∀ j < 3, ((schedNoteStart 3 2 5 (Sched.init 3 0 0 zeroLoad).load).tasks j).valid
      = true := by decide
  have hpacked : ∀ p, (schedNoteStart 3 2 5 (Sched.init 3 0 0 zeroLoad).load).Packed 3 0 p :=
    fun _ _ hi _ j _ hj => hvalid j (Nat.lt_trans hj hi)
  refine ⟨_, ?_, accounts_of_careful (by decide) (.cons ⟨trivial, hstart⟩
    (.cons ⟨⟨fun _ => rfl, hpacked 2, fun p _ => hpacked p⟩, .switch rfl (by decide) (by decide)⟩
      (.nil _)))⟩
  rfl

/-- Two tasks are started, and stopped in the same order: looking for the second one, the note reads
the pid in the slot of the first one, which has been freed. -/
theorem free_slot_read :
    ¬ ∀ notes t, (schedSystem 32 0).Run (.init 32 0 0 zeroLoad) notes t →
      ((schedSystem 32 0).obeying (AccountLaw 32 0)).Run (.init 32 0 0 zeroLoad) notes t := by
  intro hlaw
  have hrun : (schedSystem 32 0).Run (.init 32 0 0 zeroLoad)
      [.start 2 0, .start 3 0, .stop 2, .stop 3] _ :=
    .cons (.start (by decide) (by decide)) (.cons (.start (by decide) (by decide))
      (.cons (.stop (by decide)) (.cons (.stop (by decide)) (.nil _))))
  cases hlaw _ _ hrun with
  | cons h₁ hrest =>
      cases hrest with
      | cons h₂ hrest =>
          cases hrest with
          | cons h₃ hrest =>
              cases hrest with
              | cons h₄ _ =>
                  cases h₁.1
                  cases h₂.1
                  cases h₃.1
                  obtain ⟨-, p, -, hheld⟩ := h₄.2.1 2 (by decide)
                  exact absurd hheld.1 (by decide)

end Px4Firmware.CpuLoad
