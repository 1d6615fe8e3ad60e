import Px4Firmware.Lib.Counter
import Px4Firmware.Lib.Transition

/-!
# Px4Firmware.Hrt.Timebase

**The timebase** (`up_hrt.c`). The time is kept in the low 16 bits by a counter that runs freely,
and above by a base that `hrt_absolute_time` corrects when it finds that the counter has wrapped.
That is enough when it is called once in every period, which the compare interrupt sees to:
`hrt_call_reschedule` programs it from the time that `hrt_absolute_time` returns. The two are
proved together (`timebase_integrity`).

The time has 64 bits; when it has run for 2^64 microseconds it starts again (`time_goes_back`).
-/

namespace Px4Firmware.Hrt

open Px4Firmware.Lib

/-! ### The code -/

/-- `HRT_COUNTER_PERIOD`. -/
def hrtCounterPeriod : UInt64 := 65536

/-- `HRT_INTERVAL_MIN`. -/
def hrtIntervalMin : UInt64 := 50

/-- `HRT_INTERVAL_MAX`. -/
def hrtIntervalMax : UInt64 := 50000

/-- `HRT_COUNTER_SCALE`. -/
def hrtCounterScale (c : UInt64) : UInt64 := c

/-- The static variables of `hrt_absolute_time`. -/
structure Timebase where
  baseTime : UInt64
  lastCount : UInt32

/-- `rCNT`: the counter shows the low 16 bits of the true time. -/
def rCNT (time : Nat) : UInt32 := UInt32.ofNat (time % 65536)

namespace Timebase

/-- `hrt_absolute_time`, with what it reads from the counter. -/
def hrtAbsoluteTime (count : UInt32) (b : Timebase) : UInt64 × Timebase :=
  let baseTime := if count < b.lastCount then b.baseTime + hrtCounterPeriod else b.baseTime
  (hrtCounterScale (baseTime + count.toUInt64), { baseTime := baseTime, lastCount := count })

/-- What the next deadline will be. -/
def nextDeadline (now : UInt64) (next : Option UInt64) : UInt64 :=
  match next with
  | some deadline =>
      if deadline ≤ now + hrtIntervalMin then now + hrtIntervalMin
      else if deadline < now + hrtIntervalMax then deadline
      else now + hrtIntervalMax
  | none => now + hrtIntervalMax

/-- `hrt_call_reschedule`, with the deadline at the head of the callout queue: the compare value
that it programs. -/
def hrtCallReschedule (count : UInt32) (next : Option UInt64) (b : Timebase) :
    UInt16 × Timebase :=
  let (now, b) := b.hrtAbsoluteTime count
  ((nextDeadline now next &&& 0xffff).toUInt16, b)

end Timebase

/-! ### The system -/

/-- The timer: the true time of the last call, the timebase, and the compare register with the time
at which it was written. -/
structure Clock where
  time : Nat
  timebase : Timebase
  compare : Option (Nat × UInt16)

namespace Clock

/-- A call at a true time. The compare interrupt is served when it reschedules; others reschedule
when they enter a callout at the head of the queue. -/
inductive Event
  | absoluteTime (time : Nat)
  | reschedule (time : Nat) (next : Option UInt64)

/-- The true time of a call. -/
def Event.time : Event → Nat
  | .absoluteTime time | .reschedule time _ => time

/-- The timer after a call. -/
def next (s : Clock) : Event → Clock
  | .absoluteTime time =>
      { s with time := time, timebase := (s.timebase.hrtAbsoluteTime (rCNT time)).2 }
  | .reschedule time next =>
      let (value, timebase) := s.timebase.hrtCallReschedule (rCNT time) next
      { time := time, timebase := timebase, compare := some (time, value) }

/-- The next time at which the compare register matches. -/
def Matches (s : Clock) (m : Nat) : Prop :=
  ∃ written value, s.compare = some (written, value) ∧
    IsNextMatch 65536 value.toNat written m

/-- The first call reschedules, and no call comes as late as 65536 - 50000 microseconds after a
match that was not served by then. -/
def Served (s : Clock) (e : Event) : Prop :=
  (s.compare = none → ∃ time next, e = .reschedule time next) ∧
    ∀ m, s.Matches m → e.time < m + (65536 - 50000)

end Clock

/-- The timer as a transition system, with any timebase that counts whole periods. -/
def clock : LTS Clock Clock.Event where
  init s := s.timebase.baseTime.toNat % 65536 = 0 ∧ s.compare = none
  step s e t := s.time ≤ e.time ∧ s.Served e ∧ t = s.next e

/-- What a call of `hrt_absolute_time` returned, and its true time. -/
structure Call where
  time : Nat
  value : UInt64

/-- The call of `hrt_absolute_time` in an event. -/
def Clock.call (s : Clock) (e : Clock.Event) : Call where
  time := e.time
  value := (s.timebase.hrtAbsoluteTime (rCNT e.time)).1

/-- The time is not about to wrap. -/
def InRange (s : Clock) (_ : Clock.Event) : Prop := s.timebase.baseTime.toNat < 2 ^ 64 - 2 ^ 18

/-- A timer with the calls so far. -/
def calls (m : LTS Clock Clock.Event) : LTS (Clock × List Call) Clock.Event :=
  m.observe [] fun calls s e _ => calls ++ [s.call e]

/-! ### One call -/

namespace Timebase

variable {b : Timebase} {time : Nat}

@[simp] theorem toNat_rCNT (time : Nat) : (rCNT time).toNat = time % 65536 := by
  unfold rCNT
  rw [UInt32.toNat_ofNat']
  omega

/-- The base after a call, and the time it returns. -/
theorem hrtAbsoluteTime_spec (b : Timebase) (time : Nat) :
    (b.hrtAbsoluteTime (rCNT time)).2.baseTime.toNat =
        (b.baseTime.toNat + if time % 65536 < b.lastCount.toNat then 65536 else 0) % 2 ^ 64 ∧
      (b.hrtAbsoluteTime (rCNT time)).2.lastCount.toNat = time % 65536 ∧
      (b.hrtAbsoluteTime (rCNT time)).1.toNat =
        ((b.hrtAbsoluteTime (rCNT time)).2.baseTime.toNat + time % 65536) % 2 ^ 64 := by
  unfold hrtAbsoluteTime hrtCounterScale
  refine ⟨?_, toNat_rCNT time, ?_⟩
  · simp only [UInt32.lt_iff_toNat_lt, toNat_rCNT]
    split_ifs
    · rw [UInt64.toNat_add]
      rfl
    · have hlt := UInt64.toNat_lt b.baseTime
      omega
  · dsimp only
    rw [UInt64.toNat_add, UInt32.toNat_toUInt64, toNat_rCNT]

/-- The base counts whole periods. -/
theorem hrtAbsoluteTime_base (hbase : b.baseTime.toNat % 65536 = 0) (time : Nat) :
    (b.hrtAbsoluteTime (rCNT time)).2.baseTime.toNat % 65536 = 0 := by
  rw [(hrtAbsoluteTime_spec b time).1]
  split_ifs <;> omega

/-- **A call is exact** when the last one was less than a period ago. -/
theorem hrtAbsoluteTime_exact {last : Nat} {c : Int}
    (hrange : b.baseTime.toNat < 2 ^ 64 - 2 ^ 18)
    (hcount : b.lastCount.toNat = last % 65536)
    (hlast : (b.baseTime.toNat : Int) + (last % 65536 : Nat) = last + c) (hle : last ≤ time)
    (hlt : time < last + 65536) :
    ((b.hrtAbsoluteTime (rCNT time)).1.toNat : Int) = time + c ∧
      ((b.hrtAbsoluteTime (rCNT time)).2.baseTime.toNat : Int) + (time % 65536 : Nat) =
        time + c := by
  obtain ⟨hbase, -, hvalue⟩ := hrtAbsoluteTime_spec b time
  have helapsed := elapsed_mod hle hlt
  rw [hcount] at hbase
  rw [hvalue, hbase]
  split_ifs at helapsed ⊢ <;> omega

/-- The value that is written to the compare register. -/
theorem toNat_compare (deadline : UInt64) :
    (deadline &&& 0xffff).toUInt16.toNat = deadline.toNat % 65536 := by
  rw [UInt64.toNat_toUInt16, UInt64.toNat_and]
  show (deadline.toNat &&& (2 ^ 16 - 1)) % 2 ^ 16 = _
  rw [Nat.and_two_pow_sub_one_eq_mod]
  omega

/-- A deadline within the next period is the next match of its low 16 bits. -/
theorem isNextMatch_deadline {now deadline : UInt64} (hnow : now.toNat % 65536 = time % 65536)
    (hlater : now.toNat < deadline.toNat) (hsoon : deadline.toNat ≤ now.toNat + 65536) :
    IsNextMatch 65536 (deadline &&& 0xffff).toUInt16.toNat time
      (time + (deadline.toNat - now.toNat)) := by
  have hmatch : IsNextMatch 65536 ((time + (deadline.toNat - now.toNat)) % 65536) time
      (time + (deadline.toNat - now.toNat)) := isNextMatch_of_le (by omega) (by omega)
  have hvalue : deadline.toNat % 65536 = (time + (deadline.toNat - now.toNat)) % 65536 := by
    omega
  rw [toNat_compare, hvalue]
  exact hmatch

/-- The next deadline is within the counter period, and no later than it has to be. -/
theorem nextDeadline_spec {now : UInt64} (hrange : now.toNat + 50000 < 2 ^ 64)
    (next : Option UInt64) :
    now.toNat + 50 ≤ (nextDeadline now next).toNat ∧
      (nextDeadline now next).toNat ≤ now.toNat + 50000 ∧
      ∀ d, next = some d → (nextDeadline now next).toNat ≤ max d.toNat (now.toNat + 50) := by
  have hmin : (now + hrtIntervalMin).toNat = now.toNat + 50 := by
    rw [UInt64.toNat_add]
    show (now.toNat + 50) % 2 ^ 64 = _
    omega
  have hmax : (now + hrtIntervalMax).toNat = now.toNat + 50000 := by
    rw [UInt64.toNat_add]
    show (now.toNat + 50000) % 2 ^ 64 = _
    omega
  cases next with
  | none =>
      refine ⟨?_, Nat.le_of_eq hmax, ?_⟩
      · rw [nextDeadline, hmax]
        omega
      · intro d hd
        cases hd
  | some deadline =>
      have hcases : (nextDeadline now (some deadline)).toNat =
          if deadline.toNat ≤ now.toNat + 50 then now.toNat + 50
          else if deadline.toNat < now.toNat + 50000 then deadline.toNat
          else now.toNat + 50000 := by
        unfold nextDeadline
        simp only [UInt64.le_iff_toNat_le, UInt64.lt_iff_toNat_lt, hmin, hmax]
        split_ifs
        · exact hmin
        · rfl
        · exact hmax
      rw [hcases]
      refine ⟨?_, ?_, ?_⟩
      · split_ifs <;> omega
      · split_ifs <;> omega
      · intro d hd
        cases hd
        split_ifs <;> omega

/-- **What a reschedule programs.** -/
theorem hrtCallReschedule_spec (time : Nat) (next : Option UInt64)
    (hbase : b.baseTime.toNat % 65536 = 0) (hrange : b.baseTime.toNat < 2 ^ 64 - 2 ^ 18) :
    ∃ m, IsNextMatch 65536 (b.hrtCallReschedule (rCNT time) next).1.toNat time m ∧
      time + 50 ≤ m ∧ m ≤ time + 50000 ∧
      ∀ d, next = some d → (b.hrtAbsoluteTime (rCNT time)).1.toNat + (m - time) ≤
        max d.toNat ((b.hrtAbsoluteTime (rCNT time)).1.toNat + 50) := by
  obtain ⟨hbase', -, hvalue⟩ := hrtAbsoluteTime_spec b time
  have hwhole := hrtAbsoluteTime_base hbase time
  have hbound : (b.hrtAbsoluteTime (rCNT time)).1.toNat + 50000 < 2 ^ 64 := by
    rw [hvalue, hbase']
    split_ifs <;> omega
  have hnow : (b.hrtAbsoluteTime (rCNT time)).1.toNat % 65536 = time % 65536 := by
    rw [hvalue]
    omega
  obtain ⟨hmin, hmax, hhead⟩ := nextDeadline_spec hbound next
  have hvalue : (b.hrtCallReschedule (rCNT time) next).1 =
      (nextDeadline (b.hrtAbsoluteTime (rCNT time)).1 next &&& 0xffff).toUInt16 := rfl
  rw [hvalue]
  refine ⟨_, isNextMatch_deadline hnow (by omega) (by omega), by omega, by omega, ?_⟩
  intro d hd
  have hd := hhead d hd
  omega

end Timebase

/-! ### The invariant -/

/-- A timer that was rescheduled: its calls are exact up to a constant, and its next match is not
too far from the last call. -/
structure Synchronized (c : Int) (s : Clock) (calls : List Call) : Prop where
  base : s.timebase.baseTime.toNat % 65536 = 0
  count : s.timebase.lastCount.toNat = s.time % 65536
  last : (s.timebase.baseTime.toNat : Int) + (s.time % 65536 : Nat) = s.time + c
  programmed : ∃ m, s.Matches m ∧ m ≤ s.time + 50000
  exact : ∀ call ∈ calls, (call.value.toNat : Int) = call.time + c
  ordered : calls.Pairwise fun a b => a.time ≤ b.time
  before : ∀ call ∈ calls, call.time ≤ s.time

/-- A timer before the first reschedule, or after it. -/
def Integral (p : Clock × List Call) : Prop :=
  (p.1.timebase.baseTime.toNat % 65536 = 0 ∧ p.1.compare = none ∧ p.2 = []) ∨
    ∃ c, Synchronized c p.1 p.2

/-- The timebase after an event is that after its call. -/
theorem timebase_next (s : Clock) (e : Clock.Event) :
    (s.next e).timebase = (s.timebase.hrtAbsoluteTime (rCNT e.time)).2 ∧
      (s.next e).time = e.time := by
  cases e with
  | absoluteTime time => exact ⟨rfl, rfl⟩
  | reschedule time next => exact ⟨rfl, rfl⟩

/-- The match after a reschedule. -/
theorem matches_reschedule {s : Clock} (hbase : s.timebase.baseTime.toNat % 65536 = 0)
    (hrange : s.timebase.baseTime.toNat < 2 ^ 64 - 2 ^ 18) (time : Nat) (next : Option UInt64) :
    ∃ m, (s.next (.reschedule time next)).Matches m ∧ time + 50 ≤ m ∧ m ≤ time + 50000 ∧
      ∀ d, next = some d → (s.call (.reschedule time next)).value.toNat + (m - time) ≤
        max d.toNat ((s.call (.reschedule time next)).value.toNat + 50) := by
  obtain ⟨m, hmatch, hmin, hmax, hhead⟩ :=
    Timebase.hrtCallReschedule_spec time next hbase hrange
  exact ⟨m, ⟨time, _, rfl, hmatch⟩, hmin, hmax, hhead⟩

/-- The first call. -/
theorem Synchronized.start {s : Clock} {time : Nat} {next : Option UInt64}
    (hbase : s.timebase.baseTime.toNat % 65536 = 0)
    (hrange : s.timebase.baseTime.toNat < 2 ^ 64 - 2 ^ 18) :
    ∃ c, Synchronized c (s.next (.reschedule time next)) [s.call (.reschedule time next)] := by
  obtain ⟨hbase', hcount, hvalue⟩ := Timebase.hrtAbsoluteTime_spec s.timebase time
  obtain ⟨m, hmatch, -, hmax, -⟩ := matches_reschedule hbase hrange time next
  have hwhole := Timebase.hrtAbsoluteTime_base hbase time
  refine ⟨((s.timebase.hrtAbsoluteTime (rCNT time)).2.baseTime.toNat : Int) +
    (time % 65536 : Nat) - time, hwhole, hcount, ?_, ⟨m, hmatch, hmax⟩, ?_, ?_, ?_⟩
  · have htime : (s.next (.reschedule time next)).time = time := rfl
    rw [htime]
    show ((s.timebase.hrtAbsoluteTime (rCNT time)).2.baseTime.toNat : Int) + _ = _
    omega
  · intro call hcall
    rw [List.mem_singleton] at hcall
    subst hcall
    show ((s.timebase.hrtAbsoluteTime (rCNT time)).1.toNat : Int) = (time : Int) + _
    rw [hvalue, hbase']
    split_ifs <;> omega
  · exact List.pairwise_singleton _ _
  · intro call hcall
    rw [List.mem_singleton] at hcall
    subst hcall
    exact Nat.le_refl time

/-- **The step lemma.** The next call comes less than a period after the last. -/
theorem Synchronized.step {c : Int} {s : Clock} {calls : List Call} (hs : Synchronized c s calls)
    {e : Clock.Event} (hle : s.time ≤ e.time) (hserved : s.Served e)
    (hrange : s.timebase.baseTime.toNat < 2 ^ 64 - 2 ^ 18) :
    Synchronized c (s.next e) (calls ++ [s.call e]) := by
  obtain ⟨m, hmatch, hsoon⟩ := hs.programmed
  have hperiod : e.time < s.time + 65536 := by
    have hlt := hserved.2 m hmatch
    omega
  obtain ⟨hvalue, hlast⟩ :=
    Timebase.hrtAbsoluteTime_exact hrange hs.count hs.last hle hperiod
  obtain ⟨htimebase, htime⟩ := timebase_next s e
  refine ⟨?_, ?_, ?_, ?_, ?_, ?_, ?_⟩
  · rw [htimebase]
    exact Timebase.hrtAbsoluteTime_base hs.base e.time
  · rw [htimebase, htime]
    exact Timebase.toNat_rCNT e.time
  · rw [htimebase, htime]
    exact hlast
  · cases e with
    | absoluteTime time => exact ⟨m, hmatch, hsoon.trans (Nat.add_le_add_right hle _)⟩
    | reschedule time next =>
        obtain ⟨m', hmatch', -, hmax, -⟩ := matches_reschedule hs.base hrange time next
        exact ⟨m', hmatch', hmax⟩
  · intro call hcall
    rcases List.mem_append.mp hcall with hcall | hcall
    · exact hs.exact call hcall
    · rw [List.mem_singleton] at hcall
      subst hcall
      exact hvalue
  · rw [List.pairwise_append]
    refine ⟨hs.ordered, List.pairwise_singleton _ _, ?_⟩
    intro a ha b hb
    rw [List.mem_singleton] at hb
    subst hb
    exact (hs.before a ha).trans hle
  · intro call hcall
    rw [htime]
    rcases List.mem_append.mp hcall with hcall | hcall
    · exact (hs.before call hcall).trans hle
    · rw [List.mem_singleton] at hcall
      subst hcall
      exact Nat.le_refl _

theorem integral_of_reachable {p : Clock × List Call}
    (h : (calls (clock.restrict InRange)).Reachable p) : Integral p := by
  refine h.invariant ?_ ?_
  · intro p hinit
    obtain ⟨⟨hbase, hcompare⟩, hcalls⟩ := hinit
    exact .inl ⟨hbase, hcompare, hcalls⟩
  · intro p e q hp hstep
    obtain ⟨⟨hrange, hle, hserved, hnext⟩, hcalls⟩ := hstep
    have hrange : p.1.timebase.baseTime.toNat < 2 ^ 64 - 2 ^ 18 := hrange
    right
    rw [hnext, hcalls]
    rcases hp with ⟨hbase, hcompare, hempty⟩ | ⟨c, hs⟩
    · obtain ⟨time, next, rfl⟩ := hserved.1 hcompare
      rw [hempty]
      exact Synchronized.start hbase hrange
    · exact ⟨c, hs.step hle hserved hrange⟩

/-- **Timebase integrity.** As long as the time is not about to wrap, `hrt_absolute_time` differs
from the true time by a constant and does not go back, and every reschedule programs a match that
comes in 50 to 50000 microseconds, and not later than it has to. -/
theorem timebase_integrity {p : Clock × List Call}
    (h : (calls (clock.restrict InRange)).Reachable p) :
    (∃ c : Int, ∀ call ∈ p.2, (call.value.toNat : Int) = call.time + c) ∧
      p.2.Pairwise (fun a b => a.value ≤ b.value) ∧
      ∀ time next q, (calls (clock.restrict InRange)).step p (.reschedule time next) q →
        ∃ m, q.1.Matches m ∧ time + 50 ≤ m ∧ m ≤ time + 50000 ∧
          ∀ d, next = some d → (p.1.call (.reschedule time next)).value.toNat + (m - time) ≤
            max d.toNat ((p.1.call (.reschedule time next)).value.toNat + 50) := by
  have hp := integral_of_reachable h
  have hbase : p.1.timebase.baseTime.toNat % 65536 = 0 := by
    rcases hp with ⟨hbase, -⟩ | ⟨c, hs⟩
    · exact hbase
    · exact hs.base
  have hcalls : ∃ c : Int, (∀ call ∈ p.2, (call.value.toNat : Int) = call.time + c) ∧
      p.2.Pairwise fun a b => a.time ≤ b.time := by
    rcases hp with ⟨-, -, hempty⟩ | ⟨c, hs⟩
    · refine ⟨0, ?_, ?_⟩
      · intro call hcall
        rw [hempty] at hcall
        cases hcall
      · rw [hempty]
        exact List.Pairwise.nil
    · exact ⟨c, hs.exact, hs.ordered⟩
  obtain ⟨c, hexact, hordered⟩ := hcalls
  refine ⟨⟨c, hexact⟩, ?_, ?_⟩
  · refine hordered.imp_of_mem ?_
    intro a b ha hb hle
    have ha := hexact a ha
    have hb := hexact b hb
    rw [UInt64.le_iff_toNat_le]
    omega
  · intro time next q hstep
    obtain ⟨⟨hrange, -, -, hnext⟩, -⟩ := hstep
    rw [hnext]
    exact matches_reschedule hbase hrange time next

/-! ### Runs -/

/-- The timer when it is initialised. -/
def hrtInit : Clock where
  time := 0
  timebase := { baseTime := 0, lastCount := 0 }
  compare := none

theorem Clock.Matches.unique {s : Clock} {m m' : Nat} (h : s.Matches m) (h' : s.Matches m') :
    m = m' := by
  obtain ⟨written, value, hcompare, hmatch⟩ := h
  obtain ⟨written', value', hcompare', hmatch'⟩ := h'
  rw [hcompare] at hcompare'
  cases hcompare'
  exact hmatch.unique hmatch'

theorem Clock.served_of_matches {s : Clock} {m : Nat} {e : Clock.Event} (h : s.Matches m)
    (hlt : e.time < m + (65536 - 50000)) : s.Served e := by
  constructor
  · intro hnone
    obtain ⟨written, value, hcompare, -⟩ := h
    rw [hnone] at hcompare
    cases hcompare
  · intro m' h'
    rw [← h.unique h']
    exact hlt

theorem hrtInit_served (time : Nat) (next : Option UInt64) :
    hrtInit.Served (.reschedule time next) := by
  constructor
  · intro _
    exact ⟨time, next, rfl⟩
  · intro m hmatch
    obtain ⟨_, _, hcompare, -⟩ := hmatch
    cases hcompare

/-- The counter wraps between the second call and the third. -/
theorem timebase_integrity_wrapped : ∃ p, (calls (clock.restrict InRange)).Reachable p ∧
    p.2.map Call.time = [60000, 65000, 70000] ∧ p.2.Pairwise (fun a b => a.value ≤ b.value) := by
  have hsoon : ∃ m, (hrtInit.next (.reschedule 60000 none)).Matches m ∧ 60050 ≤ m := by
    obtain ⟨m, hmatch, hmin, -⟩ :=
      matches_reschedule (s := hrtInit) (by decide) (by decide) 60000 none
    exact ⟨m, hmatch, hmin⟩
  obtain ⟨m, hmatch, hmin⟩ := hsoon
  have hserved {s : Clock} {e : Clock.Event} (hs : s.Matches m) (he : e.time ≤ 70000) :
      s.Served e := Clock.served_of_matches hs (by omega)
  have hreach : (calls (clock.restrict InRange)).Reachable _ :=
    ⟨(hrtInit, []), [.reschedule 60000 none, .absoluteTime 65000, .reschedule 70000 (some 70010)],
      ⟨⟨rfl, rfl⟩, rfl⟩,
      .cons (t := (_, _)) ⟨⟨by unfold InRange; decide, Nat.zero_le _, hrtInit_served _ _, rfl⟩, rfl⟩
      (.cons (t := (_, _)) ⟨⟨by unfold InRange; decide +kernel, by decide,
        hserved hmatch (by decide), rfl⟩, rfl⟩
      (.cons (t := (_, _)) ⟨⟨by unfold InRange; decide +kernel, by decide,
        hserved hmatch (by decide), rfl⟩, rfl⟩
      (.nil _)))⟩
  exact ⟨_, hreach, rfl, (timebase_integrity hreach).2.1⟩

/-- A timer that is rescheduled whenever the compare register matches, at time `t`. -/
structure Ticked (t : Nat) (p : Clock × List Call) : Prop where
  time : p.1.time = t
  base : p.1.timebase.baseTime.toNat = (t - t % 65536) % 2 ^ 64
  count : p.1.timebase.lastCount.toNat = t % 65536
  programmed : p.1.Matches (t + 50000)
  called : ∃ call, p.2.getLast? = some call ∧ call.value.toNat = t % 2 ^ 64

theorem ticked_next (last : Nat) {s : Clock} (log : List Call)
    (hbase : s.timebase.baseTime.toNat = (last - last % 65536) % 2 ^ 64)
    (hcount : s.timebase.lastCount.toNat = last % 65536) :
    Ticked (last + 50000) (s.next (.reschedule (last + 50000) none),
      log ++ [s.call (.reschedule (last + 50000) none)]) := by
  generalize htime : last + 50000 = time
  obtain ⟨hbase', hcount', hvalue⟩ := Timebase.hrtAbsoluteTime_spec s.timebase time
  have helapsed := elapsed_mod (m := 65536) (t := last) (u := time) (by omega) (by omega)
  have hcorrected : (s.timebase.hrtAbsoluteTime (rCNT time)).2.baseTime.toNat =
      (time - time % 65536) % 2 ^ 64 := by
    rw [hbase', hcount, hbase]
    split_ifs at helapsed ⊢ <;> omega
  have hnow : (s.timebase.hrtAbsoluteTime (rCNT time)).1.toNat = time % 2 ^ 64 := by
    rw [hvalue, hcorrected]
    omega
  have hprogrammed : (s.timebase.hrtCallReschedule (rCNT time) none).1.toNat =
      (time + 50000) % 65536 := by
    show (((s.timebase.hrtAbsoluteTime (rCNT time)).1 + hrtIntervalMax) &&& 0xffff).toUInt16.toNat
      = _
    rw [Timebase.toNat_compare, UInt64.toNat_add, hnow]
    show (time % 2 ^ 64 + 50000) % 2 ^ 64 % 65536 = _
    omega
  have hmatch : IsNextMatch 65536 (s.timebase.hrtCallReschedule (rCNT time) none).1.toNat time
      (time + 50000) := by
    rw [hprogrammed]
    exact isNextMatch_of_le (by omega) (by omega)
  exact ⟨rfl, hcorrected, hcount', ⟨time, _, rfl, hmatch⟩, ⟨_, List.getLast?_concat .., hnow⟩⟩

/-- The next match is served at once. -/
theorem Ticked.step {t : Nat} {p : Clock × List Call} (h : Ticked t p) :
    (calls clock).step p (.reschedule (t + 50000) none)
        (p.1.next (.reschedule (t + 50000) none),
          p.2 ++ [p.1.call (.reschedule (t + 50000) none)]) ∧
      Ticked (t + 50000) (p.1.next (.reschedule (t + 50000) none),
        p.2 ++ [p.1.call (.reschedule (t + 50000) none)]) := by
  have hserved : p.1.Served (.reschedule (t + 50000) none) :=
    Clock.served_of_matches h.programmed (Nat.lt_add_of_pos_right (by decide))
  have hle : p.1.time ≤ (Clock.Event.reschedule (t + 50000) none).time := by
    rw [h.time]
    exact Nat.le_add_right _ _
  exact ⟨⟨⟨hle, hserved, rfl⟩, rfl⟩, ticked_next t p.2 h.base h.count⟩

/-- The timer can run for any time. -/
theorem ticked (n : Nat) : ∃ p, (calls clock).Reachable p ∧ Ticked (50000 * n + 50000) p := by
  induction n with
  | zero =>
      have hnext := ticked_next 0 (s := hrtInit) [] rfl rfl
      refine ⟨_, ⟨(hrtInit, []), [.reschedule (0 + 50000) none], ⟨⟨rfl, rfl⟩, rfl⟩, ?_⟩, hnext⟩
      exact .cons ⟨⟨Nat.zero_le _, hrtInit_served _ _, rfl⟩, rfl⟩ (.nil _)
  | succ n ih =>
      obtain ⟨p, hreach, hticked⟩ := ih
      obtain ⟨hstep, hnext⟩ := hticked.step
      refine ⟨_, hreach.step hstep, ?_⟩
      rw [Nat.mul_succ]
      exact hnext

/-- After 2^64 microseconds the time goes back. -/
theorem time_goes_back : ¬ ∀ p : Clock × List Call, (calls clock).Reachable p →
    p.2.Pairwise fun a b => a.value ≤ b.value := by
  intro hall
  obtain ⟨p, hreach, hticked⟩ := ticked 368934881474190
  obtain ⟨a, ha, hvalue⟩ := hticked.called
  obtain ⟨hstep, hnext⟩ := hticked.step
  obtain ⟨b, hb, hvalue'⟩ := hnext.called
  have hpairs := hall _ (hreach.step hstep)
  obtain rfl := Option.some.inj ((List.getLast?_concat ..).symm.trans hb)
  have hback := (List.pairwise_append.mp hpairs).2.2 a (List.mem_of_getLast? ha) _
    (List.mem_singleton_self _)
  rw [UInt64.le_iff_toNat_le, hvalue, hvalue'] at hback
  exact absurd hback (by decide)

end Px4Firmware.Hrt
