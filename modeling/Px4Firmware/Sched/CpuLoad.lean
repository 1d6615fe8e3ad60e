import Px4Firmware.Lib.Transition

/-!
# Px4Firmware.Sched.CpuLoad

The account of the processor time that the tasks use (`configs/px4fmu/src/up_cpuload.c`): a table
with a slot for each task, kept by three notes of the scheduler.

A task control block is known by the pid in it. `tasks[i].tcb->pid` is read without a look at
`valid`, and in a slot that is free `tcb` is mostly null: what is read then is a parameter
(`nullPid`), and every note says in which slots it has looked.
-/

namespace Px4Firmware.CpuLoad

open Lib

/-- A process id. -/
abbrev Pid := Int

/-- A slot (`struct system_load_taskinfo_s`). -/
structure TaskInfo where
  totalRuntime : UInt64
  currStartTime : UInt64
  startTime : UInt64
  tcb : Option Pid
  valid : Bool

/-- The table (`struct system_load_s`). -/
structure SystemLoad where
  startTime : UInt64
  tasks : Nat → TaskInfo
  totalCount : Int

/-- A slot is written. -/
def SystemLoad.set (load : SystemLoad) (i : Nat) (task : TaskInfo) : SystemLoad :=
  { load with tasks := fun j => if j = i then task else load.tasks j }

/-! ### The notes -/

section

variable (maxTasks : Nat) (nullPid : Pid)

/-- A slot is taken by a task that has not run yet. -/
def taken (tcb : Pid) (now : UInt64) : TaskInfo where
  totalRuntime := 0
  currStartTime := 0
  startTime := now
  tcb := some tcb
  valid := true

/-- The loop of `cpuload_initialize_once`: no slot is valid. `tcb` stays what it is. -/
def SystemLoad.reset (startTime : UInt64) (load : SystemLoad) : SystemLoad :=
  { load with
    startTime := startTime
    tasks := fun i =>
      if i < maxTasks then { load.tasks i with valid := false } else load.tasks i
    totalCount := 0 }

/-- `cpuload_initialize_once`, which reads the clock twice. The tasks with the pids 0 and 1 are the
idle thread and the init thread. -/
def cpuloadInitializeOnce (startTime now : UInt64) (load : SystemLoad) : SystemLoad :=
  let load := load.reset maxTasks startTime
  let load := { load.set 0 (taken 0 now) with totalCount := load.totalCount + 1 }
  { load.set 1 (taken 1 now) with totalCount := load.totalCount + 1 }

/-- The slots after the first. -/
def afterFirst : List Nat := List.range' 1 (maxTasks - 1)

/-- The loop of `sched_note_start`. -/
def startLoop (tcb : Pid) (now : UInt64) : List Nat → SystemLoad → SystemLoad
  | [], load => load
  | i :: is, load =>
      if (load.tasks i).valid = false then
        { load.set i (taken tcb now) with totalCount := load.totalCount + 1 }
      else
        startLoop tcb now is load

/-- `sched_note_start`. -/
def schedNoteStart (tcb : Pid) (now : UInt64) (load : SystemLoad) : SystemLoad :=
  startLoop tcb now (afterFirst maxTasks) load

/-- `tasks[i].tcb->pid`. -/
def SystemLoad.pid (load : SystemLoad) (i : Nat) : Pid := (load.tasks i).tcb.getD nullPid

/-- A slot is marked as free. -/
def TaskInfo.free (task : TaskInfo) : TaskInfo :=
  { task with
    valid := false
    totalRuntime := 0
    currStartTime := 0
    tcb := none }

/-- A task is taken out of the table. -/
def SystemLoad.clear (load : SystemLoad) (i : Nat) : SystemLoad :=
  { load.set i (load.tasks i).free with totalCount := load.totalCount - 1 }

/-- The loop of `sched_note_stop`, and the slots in which it looks at `tcb`. -/
def stopLoop (tcb : Pid) : List Nat → SystemLoad → SystemLoad × List Nat
  | [], load => (load, [])
  | i :: is, load =>
      if load.pid nullPid i = tcb then
        (load.clear i, [i])
      else
        let (load, looked) := stopLoop tcb is load
        (load, i :: looked)

/-- `sched_note_stop`. -/
def schedNoteStop (tcb : Pid) (load : SystemLoad) : SystemLoad × List Nat :=
  stopLoop nullPid tcb (afterFirst maxTasks) load

/-- A run of a task has ended. -/
def SystemLoad.endRun (load : SystemLoad) (i : Nat) (newTime : UInt64) : SystemLoad :=
  load.set i { load.tasks i with
    totalRuntime :=
      (load.tasks i).totalRuntime + (newTime - (load.tasks i).currStartTime) }

/-- A run of a task begins. -/
def SystemLoad.beginRun (load : SystemLoad) (i : Nat) (newTime : UInt64) : SystemLoad :=
  load.set i { load.tasks i with currStartTime := newTime }

/-- The loop of `sched_note_switch`, and the slots in which it looks at `tcb`. -/
def switchLoop (fromTcb toTcb : Pid) (newTime : UInt64) :
    Nat → List Nat → SystemLoad → SystemLoad × List Nat
  | _, [], load => (load, [])
  | bothFound, i :: is, load =>
      let (load, bothFound) :=
        if load.pid nullPid i = fromTcb then (load.endRun i newTime, bothFound + 1)
        else if load.pid nullPid i = toTcb then (load.beginRun i newTime, bothFound + 1)
        else (load, bothFound)
      if bothFound = 2 then
        (load, [i])
      else
        let (load, looked) := switchLoop fromTcb toTcb newTime bothFound is load
        (load, i :: looked)

/-- `sched_note_switch`. -/
def schedNoteSwitch (fromTcb toTcb : Pid) (newTime : UInt64) (load : SystemLoad) :
    SystemLoad × List Nat :=
  switchLoop nullPid fromTcb toTcb newTime 0 (List.range maxTasks) load

end

/-! ### What the loops do -/

/-- A slot holds a task. -/
def SystemLoad.Holds (load : SystemLoad) (i : Nat) (tcb : Pid) : Prop :=
  (load.tasks i).valid = true ∧ (load.tasks i).tcb = some tcb

section

variable {maxTasks : Nat} {nullPid tcb fromTcb toTcb : Pid} {now newTime : UInt64}
  {load : SystemLoad} {task : TaskInfo} {a b i j : Nat} {before is : List Nat}

@[simp] theorem SystemLoad.tasks_set_self : (load.set i task).tasks i = task := if_pos rfl

@[simp] theorem SystemLoad.tasks_set_of_ne (h : j ≠ i) :
    (load.set i task).tasks j = load.tasks j := if_neg h

/-- What is written into a slot changes nothing that it agrees on with the slot. -/
theorem SystemLoad.field_set {β : Type} (f : TaskInfo → β) (hsame : f task = f (load.tasks i)) :
    f ((load.set i task).tasks j) = f (load.tasks j) := by
  by_cases h : j = i
  · rw [h, SystemLoad.tasks_set_self, hsame]
  · rw [SystemLoad.tasks_set_of_ne h]

theorem SystemLoad.Holds.pid (h : load.Holds i tcb) : load.pid nullPid i = tcb := by
  rw [SystemLoad.pid, h.2, Option.getD_some]

/-- A range, cut at a place in it. -/
theorem range'_split (start count : Nat) (hstart : start ≤ i) (hi : i < start + count) :
    List.range' start count
      = List.range' start (i - start) ++ i :: List.range' (i + 1) (start + count - i - 1) := by
  obtain ⟨k, rfl⟩ : ∃ k, i = start + k := ⟨i - start, by omega⟩
  obtain ⟨m, rfl⟩ : ∃ m, count = k + (m + 1) := ⟨count - k - 1, by omega⟩
  have hrest : start + (k + (m + 1)) - (start + k) - 1 = m := by omega
  rw [Nat.add_sub_cancel_left, hrest, ← List.range'_append_1, List.range'_succ]

/-- All slots, cut at two places. -/
theorem range_split_two {count : Nat} (hab : a < b) (hb : b < count) :
    ∃ rest, List.range count
      = List.range' 0 a ++ a :: (List.range' (a + 1) (b - (a + 1)) ++ b :: rest) := by
  have hfirst := range'_split 0 count (Nat.zero_le a) (by omega)
  have hsecond := range'_split (a + 1) (0 + count - a - 1) hab (by omega)
  rw [List.range_eq_range', hfirst, hsecond]
  exact ⟨_, rfl⟩

/-- If there is a free slot, the first one is taken. -/
theorem startLoop_eq (tcb : Pid) (now : UInt64) (hfree : ∃ i ∈ is, (load.tasks i).valid = false) :
    ∃ i ∈ is, (load.tasks i).valid = false ∧
      startLoop tcb now is load
        = { load.set i (taken tcb now) with totalCount := load.totalCount + 1 } := by
  induction is with
  | nil => simp at hfree
  | cons i is ih =>
      by_cases hi : (load.tasks i).valid = false
      · exact ⟨i, .head _, hi, by rw [startLoop, if_pos hi]⟩
      · have hrest : ∃ i ∈ is, (load.tasks i).valid = false := by simpa [hi] using hfree
        obtain ⟨j, hj, hfreeJ, hloop⟩ := ih hrest
        exact ⟨j, .tail _ hj, hfreeJ, by rw [startLoop, if_neg hi, hloop]⟩

/-- The first slot with the pid is cleared. -/
theorem stopLoop_eq (hbefore : ∀ j ∈ before, load.pid nullPid j ≠ tcb)
    (hi : load.pid nullPid i = tcb) :
    stopLoop nullPid tcb (before ++ i :: is) load = (load.clear i, before ++ [i]) := by
  induction before with
  | nil => rw [List.nil_append, stopLoop, if_pos hi, List.nil_append]
  | cons j before ih =>
      rw [List.cons_append, stopLoop, if_neg (hbefore j (.head _)),
        ih fun j hj => hbefore j (.tail _ hj)]
      rfl

/-- Slots of other tasks are passed over. -/
theorem switchLoop_skip {bothFound : Nat} (hfound : bothFound ≠ 2)
    (hbefore : ∀ j ∈ before, load.pid nullPid j ≠ fromTcb ∧ load.pid nullPid j ≠ toTcb) :
    switchLoop nullPid fromTcb toTcb newTime bothFound (before ++ is) load
      = ((switchLoop nullPid fromTcb toTcb newTime bothFound is load).1,
          before ++ (switchLoop nullPid fromTcb toTcb newTime bothFound is load).2) := by
  induction before with
  | nil => rfl
  | cons j before ih =>
      have hj := hbefore j (.head _)
      rw [List.cons_append, switchLoop]
      simp only [if_neg hj.1, if_neg hj.2, if_neg hfound]
      rw [ih fun j hj => hbefore j (.tail _ hj)]
      rfl

/-- A slot keeps its task through a run. -/
theorem SystemLoad.pid_endRun : (load.endRun i newTime).pid nullPid j = load.pid nullPid j :=
  SystemLoad.field_set (fun task => task.tcb.getD nullPid) rfl

theorem SystemLoad.pid_beginRun : (load.beginRun i newTime).pid nullPid j = load.pid nullPid j :=
  SystemLoad.field_set (fun task => task.tcb.getD nullPid) rfl

/-- What a switch makes of the slot of one of the two tasks. -/
def SystemLoad.visit (load : SystemLoad) (nullPid fromTcb : Pid) (newTime : UInt64) (i : Nat) :
    SystemLoad :=
  if load.pid nullPid i = fromTcb then load.endRun i newTime else load.beginRun i newTime

theorem SystemLoad.pid_visit :
    (load.visit nullPid fromTcb newTime i).pid nullPid j = load.pid nullPid j := by
  rw [SystemLoad.visit]
  split
  · exact pid_endRun
  · exact pid_beginRun

theorem switchLoop_found {bothFound : Nat}
    (hi : load.pid nullPid i = fromTcb ∨ load.pid nullPid i = toTcb) :
    switchLoop nullPid fromTcb toTcb newTime bothFound (i :: is) load
      = if bothFound + 1 = 2 then (load.visit nullPid fromTcb newTime i, [i])
        else
          ((switchLoop nullPid fromTcb toTcb newTime (bothFound + 1) is
              (load.visit nullPid fromTcb newTime i)).1,
            i :: (switchLoop nullPid fromTcb toTcb newTime (bothFound + 1) is
              (load.visit nullPid fromTcb newTime i)).2) := by
  rw [switchLoop, SystemLoad.visit]
  by_cases hfrom : load.pid nullPid i = fromTcb
  · simp only [if_pos hfrom]
  · simp only [if_neg hfrom, if_pos (hi.resolve_left hfrom)]

/-- The slots of both tasks are found, and no slot behind them is looked at. -/
theorem switchLoop_two {between : List Nat}
    (hbefore : ∀ j ∈ before, load.pid nullPid j ≠ fromTcb ∧ load.pid nullPid j ≠ toTcb)
    (hbetween : ∀ j ∈ between, load.pid nullPid j ≠ fromTcb ∧ load.pid nullPid j ≠ toTcb)
    (ha : load.pid nullPid a = fromTcb ∨ load.pid nullPid a = toTcb)
    (hb : load.pid nullPid b = fromTcb ∨ load.pid nullPid b = toTcb) :
    switchLoop nullPid fromTcb toTcb newTime 0 (before ++ a :: (between ++ b :: is)) load
      = ((load.visit nullPid fromTcb newTime a).visit nullPid fromTcb newTime b,
          before ++ a :: (between ++ [b])) := by
  rw [switchLoop_skip (by decide) hbefore, switchLoop_found ha, if_neg (by decide),
    switchLoop_skip (by decide) (by simpa only [SystemLoad.pid_visit] using hbetween),
    switchLoop_found (by simpa only [SystemLoad.pid_visit] using hb), if_pos (by decide)]

/-- A switch between two tasks that are found looks at no slot behind both. -/
theorem schedNoteSwitch_two (newTime : UInt64) (hab : a < b) (hb : b < maxTasks)
    (ha : load.pid nullPid a = fromTcb ∨ load.pid nullPid a = toTcb)
    (hb' : load.pid nullPid b = fromTcb ∨ load.pid nullPid b = toTcb)
    (hother : ∀ j < b, j ≠ a → load.pid nullPid j ≠ fromTcb ∧ load.pid nullPid j ≠ toTcb) :
    ∃ looked, schedNoteSwitch maxTasks nullPid fromTcb toTcb newTime load
        = ((load.visit nullPid fromTcb newTime a).visit nullPid fromTcb newTime b, looked) ∧
      ∀ j ∈ looked, j ≤ b := by
  obtain ⟨rest, hrange⟩ := range_split_two hab hb
  refine ⟨List.range' 0 a ++ a :: (List.range' (a + 1) (b - (a + 1)) ++ [b]), ?_, fun j hj => ?_⟩
  · rw [schedNoteSwitch, hrange]
    refine switchLoop_two (fun j hj => ?_) (fun j hj => ?_) ha hb'
    · rw [List.mem_range'_1] at hj
      exact hother j (by omega) (by omega)
    · rw [List.mem_range'_1] at hj
      exact hother j (by omega) (by omega)
  · simp only [List.mem_append, List.mem_cons, List.mem_range'_1, List.not_mem_nil, or_false] at hj
    omega

/-- The two slots of a switch can be written in any order. -/
theorem SystemLoad.endRun_beginRun (hne : a ≠ b) :
    (load.beginRun b newTime).endRun a newTime = (load.endRun a newTime).beginRun b newTime := by
  have htasks : ∀ j, ((load.beginRun b newTime).endRun a newTime).tasks j
      = ((load.endRun a newTime).beginRun b newTime).tasks j := by
    intro j
    by_cases ha : j = a
    · subst ha
      simp [SystemLoad.endRun, SystemLoad.beginRun, hne]
    · by_cases hb : j = b
      · subst hb
        simp [SystemLoad.endRun, SystemLoad.beginRun, ha]
      · simp [SystemLoad.endRun, SystemLoad.beginRun, ha, hb]
  have hsame := funext htasks
  simp only [SystemLoad.endRun, SystemLoad.beginRun, SystemLoad.set] at hsame ⊢
  rw [hsame]

/-- A switch between two tasks that are found writes their slots. -/
theorem schedNoteSwitch_eq (nullPid : Pid) (newTime : UInt64) (ha : a < maxTasks)
    (hb : b < maxTasks) (hne : fromTcb ≠ toTcb) (hfrom : load.pid nullPid a = fromTcb)
    (hto : load.pid nullPid b = toTcb)
    (hother : ∀ j, j < a ∨ j < b → j ≠ a → j ≠ b →
      load.pid nullPid j ≠ fromTcb ∧ load.pid nullPid j ≠ toTcb) :
    ∃ looked, schedNoteSwitch maxTasks nullPid fromTcb toTcb newTime load
        = ((load.endRun a newTime).beginRun b newTime, looked) ∧
      ∀ j ∈ looked, j ≤ a ∨ j ≤ b := by
  have hab : a ≠ b := fun h => hne (by rw [← hfrom, ← hto, h])
  have hvisitA : ∀ load' : SystemLoad, load'.pid nullPid a = fromTcb →
      load'.visit nullPid fromTcb newTime a = load'.endRun a newTime := fun _ h => if_pos h
  have hvisitB : ∀ load' : SystemLoad, load'.pid nullPid b = toTcb →
      load'.visit nullPid fromTcb newTime b = load'.beginRun b newTime := by
    intro load' h
    rw [SystemLoad.visit, h, if_neg hne.symm]
  rcases Nat.lt_or_gt_of_ne hab with hlt | hlt
  · obtain ⟨looked, hnote, hlooked⟩ := schedNoteSwitch_two newTime hlt hb (.inl hfrom) (.inr hto)
      fun j hj hja => hother j (.inr hj) hja (Nat.ne_of_lt hj)
    refine ⟨looked, ?_, fun j hj => .inr (hlooked j hj)⟩
    rw [hnote, hvisitA load hfrom, hvisitB _ (SystemLoad.pid_endRun.trans hto)]
  · obtain ⟨looked, hnote, hlooked⟩ := schedNoteSwitch_two newTime hlt ha (.inr hto) (.inl hfrom)
      fun j hj hjb => hother j (.inl hj) (Nat.ne_of_lt hj) hjb
    refine ⟨looked, ?_, fun j hj => .inl (hlooked j hj)⟩
    rw [hnote, hvisitB load hto, hvisitA _ (SystemLoad.pid_beginRun.trans hfrom),
      SystemLoad.endRun_beginRun hab]

/-- A task that is found is cleared out of its slot, and no slot behind it is looked at. -/
theorem schedNoteStop_eq (nullPid : Pid) (hi : 1 ≤ i) (hlt : i < maxTasks)
    (htcb : load.pid nullPid i = tcb)
    (hother : ∀ j < i, 1 ≤ j → load.pid nullPid j ≠ tcb) :
    ∃ looked, schedNoteStop maxTasks nullPid tcb load = (load.clear i, looked) ∧
      ∀ j ∈ looked, 1 ≤ j ∧ j ≤ i := by
  have hsplit := range'_split 1 (maxTasks - 1) hi (by omega)
  refine ⟨List.range' 1 (i - 1) ++ [i], ?_, fun j hj => ?_⟩
  · rw [schedNoteStop, afterFirst, hsplit]
    refine stopLoop_eq (fun j hj => ?_) htcb
    rw [List.mem_range'_1] at hj
    exact hother j (by omega) hj.1
  · simp only [List.mem_append, List.mem_singleton, List.mem_range'_1] at hj
    omega

/-- If there is a free slot after the first, the task is put into one. -/
theorem schedNoteStart_eq (hfree : ∃ i, 1 ≤ i ∧ i < maxTasks ∧ (load.tasks i).valid = false) :
    ∃ i < maxTasks, (load.tasks i).valid = false ∧
      schedNoteStart maxTasks tcb now load
        = { load.set i (taken tcb now) with totalCount := load.totalCount + 1 } := by
  have hmem : ∀ i, i ∈ afterFirst maxTasks ↔ 1 ≤ i ∧ i < maxTasks := by
    intro i
    rw [afterFirst, List.mem_range'_1]
    omega
  obtain ⟨i, hi, hlt, hfree⟩ := hfree
  obtain ⟨j, hj, hfree', hstart⟩ := startLoop_eq tcb now
    ⟨i, (hmem i).mpr ⟨hi, hlt⟩, hfree⟩
  exact ⟨j, ((hmem j).mp hj).2, hfree', hstart⟩

end

end Px4Firmware.CpuLoad
