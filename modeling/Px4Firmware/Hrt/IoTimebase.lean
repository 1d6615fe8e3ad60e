import Px4Firmware.Hrt.Timebase

/-!
# Px4Firmware.Hrt.IoTimebase

**The timebase of the IO board** (`px4io/src/up_hrt.c`). The base is corrected with interrupts
disabled, as on the FMU; but it is read once more for the result, when they are enabled again. A
timer interrupt in between that finds that the counter has wrapped moves the base on, and the call
returns a time that is a period too late.

`io_time_exact_iff` says that this is all that goes wrong before the 64 bits run out.
-/

namespace Px4Firmware.Hrt

open Px4Firmware.Lib

/-! ### The code -/

namespace Timebase

/-- `hrt_absolute_time` of the IO board up to `irqrestore`, with what it reads from the counter. -/
def ioCorrect (count : UInt32) (b : Timebase) : Timebase where
  baseTime := if count < b.lastCount then b.baseTime + hrtCounterPeriod else b.baseTime
  lastCount := count

/-- What it returns, from the base as it is then. -/
def ioReturn (count : UInt32) (b : Timebase) : UInt64 :=
  hrtCounterScale (b.baseTime + count.toUInt64)

/-- A call that is not interrupted does what one on the FMU does. -/
theorem ioReturn_ioCorrect (count : UInt32) (b : Timebase) :
    ((b.ioCorrect count).ioReturn count, b.ioCorrect count) = b.hrtAbsoluteTime count := rfl

/-- The calls of `hrt_tim_isr`, in `hrt_call_invoke` and in `hrt_call_reschedule`, at their true
times. They are not interrupted. -/
def hrtTimIsr : List Nat → Timebase → List Call × Timebase
  | [], b => ([], b)
  | time :: times, b =>
      let b := b.ioCorrect (rCNT time)
      let (calls, b') := hrtTimIsr times b
      (⟨time, b.ioReturn (rCNT time)⟩ :: calls, b')

end Timebase

/-! ### The system -/

/-- The timer of the IO board: a time at which its counter was zero, before the first call; the true
time of the last reading of the counter; and that of the call of the thread that has enabled
interrupts and not returned yet. -/
structure IoClock where
  epoch : Nat
  time : Nat
  timebase : Timebase
  pending : Option Nat

namespace IoClock

/-- The timer before the first call, which comes in the given period of the counter. -/
def start (period : Nat) : IoClock where
  epoch := 65536 * period
  time := 65536 * period
  timebase := { baseTime := 0, lastCount := 0 }
  pending := none

/-- A call of the thread runs up to `irqrestore`; it returns; a timer interrupt is served. -/
inductive Event
  | irqrestore (time : Nat)
  | ret
  | timIsr (times : List Nat)

/-- Each reading of the counter comes less than a period after the one before. -/
def Within : Nat → List Nat → Prop
  | _, [] => True
  | last, time :: times => last ≤ time ∧ time < last + 65536 ∧ Within time times

/-- What can happen. Interrupts are served whether or not a call of the thread is pending. -/
def Allowed (s : IoClock) : Event → Prop
  | .irqrestore time => s.pending = none ∧ Within s.time [time]
  | .ret => s.pending.isSome
  | .timIsr times => Within s.time times

/-- The timer after an event. -/
def next (s : IoClock) : Event → IoClock
  | .irqrestore time =>
      { s with time := time, timebase := s.timebase.ioCorrect (rCNT time), pending := some time }
  | .ret => { s with pending := none }
  | .timIsr times =>
      { s with time := times.getLastD s.time, timebase := (s.timebase.hrtTimIsr times).2 }

/-- The calls that return. -/
def returned (s : IoClock) : Event → List Call
  | .irqrestore _ => []
  | .ret => s.pending.toList.map fun time => ⟨time, s.timebase.ioReturn (rCNT time)⟩
  | .timIsr times => (s.timebase.hrtTimIsr times).1

end IoClock

/-- The timer of the IO board with the calls that have returned. -/
def ioClock : LTS (IoClock × List Call) IoClock.Event :=
  LTS.observe
    { init := fun s => ∃ period, s = IoClock.start period
      step := fun s e t => s.Allowed e ∧ t = s.next e }
    [] fun calls s e _ => calls ++ s.returned e

/-- The law: every call has returned the true time at which it read the counter, since the epoch. A
call that begins when another has returned reads the counter later, and returns no less. -/
structure ExactTime (_ : IoClock × List Call) (_ : IoClock.Event) (q : IoClock × List Call) :
    Prop where
  exact : ∀ call ∈ q.2, call.value.toNat + q.1.epoch = call.time
  ordered : ∀ a ∈ q.2, ∀ b ∈ q.2, a.time ≤ b.time → a.value ≤ b.value

/-- The condition: what is returned fits into 64 bits; and a call of the thread returns in the same
period of the counter as the last reading, so that no interrupt has moved the base on under it. -/
def Undisturbed (p : IoClock × List Call) : IoClock.Event → Prop
  | .irqrestore _ => True
  | .ret => ∀ time, p.1.pending = some time →
      time / 65536 = p.1.time / 65536 ∧ time < p.1.epoch + 2 ^ 64
  | .timIsr times => ∀ time ∈ times, time < p.1.epoch + 2 ^ 64

/-! ### The invariant -/

/-- The base counts the periods from the epoch to the last reading. -/
structure Counts (epoch last : Nat) (b : Timebase) : Prop where
  whole : epoch % 65536 = 0
  le : epoch ≤ last
  base : b.baseTime.toNat = (last - last % 65536 - epoch) % 2 ^ 64
  count : b.lastCount.toNat = last % 65536

variable {epoch last time : Nat} {b : Timebase}

/-- **A reading**, less than a period after the last. -/
theorem Counts.ioCorrect (h : Counts epoch last b) (hle : last ≤ time)
    (hlt : time < last + 65536) : Counts epoch time (b.ioCorrect (rCNT time)) := by
  obtain ⟨hwhole, hepoch, hbase, hcount⟩ := h
  obtain ⟨hcorrected, hlast, -⟩ := Timebase.hrtAbsoluteTime_spec b time
  have helapsed := elapsed_mod hle hlt
  rw [hcount, hbase] at hcorrected
  refine ⟨hwhole, hepoch.trans hle, hcorrected.trans ?_, hlast⟩
  split_ifs at helapsed ⊢ <;> omega

/-- What a call returns whose reading came before the last. -/
theorem Counts.toNat_ioReturn (h : Counts epoch last b) (time : Nat) :
    (b.ioReturn (rCNT time)).toNat =
      (last - last % 65536 - epoch + time % 65536) % 2 ^ 64 := by
  rw [Timebase.ioReturn, hrtCounterScale, UInt64.toNat_add, UInt32.toNat_toUInt64,
    Timebase.toNat_rCNT, h.base, Nat.mod_add_mod]

/-- A call that returns at once is exact if the time fits. -/
theorem Counts.exact_iff (h : Counts epoch last b) :
    (b.ioReturn (rCNT last)).toNat + epoch = last ↔ last < epoch + 2 ^ 64 := by
  obtain ⟨hwhole, hle, -, -⟩ := id h
  rw [h.toNat_ioReturn]
  omega

/-- A call that returns later is exact if its reading and the last one are in the same period. -/
theorem Counts.exact_iff_of_le (h : Counts epoch last b) (hepoch : epoch ≤ time)
    (hle : time ≤ last) (hfits : last < epoch + 2 ^ 64) :
    (b.ioReturn (rCNT time)).toNat + epoch = time ↔ time / 65536 = last / 65536 := by
  have hwhole := h.whole
  rw [h.toNat_ioReturn]
  omega

/-- **An interrupt.** Its calls are exact if their times fit. -/
theorem Counts.hrtTimIsr (h : Counts epoch last b) {times : List Nat}
    (hwithin : IoClock.Within last times) :
    Counts epoch (times.getLastD last) (b.hrtTimIsr times).2 ∧
      last ≤ times.getLastD last ∧
      ((∀ call ∈ (b.hrtTimIsr times).1, call.value.toNat + epoch = call.time) ↔
        ∀ time ∈ times, time < epoch + 2 ^ 64) := by
  induction times generalizing last b with
  | nil => exact ⟨h, Nat.le_refl _, by simp [Timebase.hrtTimIsr]⟩
  | cons time times ih =>
      obtain ⟨hle, hlt, hrest⟩ := hwithin
      have hread := h.ioCorrect hle hlt
      obtain ⟨hcounts, hlast, hexact⟩ := ih hread hrest
      rw [List.getLastD_cons]
      refine ⟨hcounts, hle.trans hlast, ?_⟩
      simp only [Timebase.hrtTimIsr, List.forall_mem_cons, hexact, hread.exact_iff]

/-- The invariant. While a call of the thread is pending, the last reading is its own, or one of an
interrupt whose time fits. -/
structure IoCounts (p : IoClock × List Call) : Prop where
  counts : Counts p.1.epoch p.1.time p.1.timebase
  pending : ∀ time, p.1.pending = some time → p.1.epoch ≤ time ∧ time ≤ p.1.time ∧
    (time = p.1.time ∨ p.1.time < p.1.epoch + 2 ^ 64)
  exact : ∀ call ∈ p.2, call.value.toNat + p.1.epoch = call.time

theorem ioCounts_start (period : Nat) : IoCounts (IoClock.start period, []) where
  counts := ⟨Nat.mul_mod_right .., Nat.le_refl _, by simp [IoClock.start],
    (Nat.mul_mod_right ..).symm⟩
  pending _ h := by cases h
  exact _ h := by cases h

/-- The calls that return in a careful step are exact, and in no other. -/
theorem IoCounts.returned_iff {p : IoClock × List Call} {e : IoClock.Event} (h : IoCounts p)
    (hallowed : p.1.Allowed e) :
    (∀ call ∈ p.1.returned e, call.value.toNat + p.1.epoch = call.time) ↔ Undisturbed p e := by
  cases e with
  | irqrestore time => exact ⟨fun _ => trivial, fun _ call hcall => by cases hcall⟩
  | timIsr times => exact (h.counts.hrtTimIsr hallowed).2.2
  | ret =>
      obtain ⟨time, hpending⟩ := Option.isSome_iff_exists.1 hallowed
      obtain ⟨hepoch, hle, hlast⟩ := h.pending time hpending
      simp only [IoClock.returned, Undisturbed, hpending, Option.toList_some, List.map_cons,
        List.map_nil, List.forall_mem_singleton, Option.some.injEq, forall_eq']
      -- No interrupt has read the counter since, or some has.
      rcases hlast with rfl | hfits
      · rw [h.counts.exact_iff, eq_self, true_and]
      · rw [h.counts.exact_iff_of_le hepoch hle hfits, iff_self_and]
        intro _
        exact Nat.lt_of_le_of_lt hle hfits

/-- **A careful step** keeps the invariant. -/
theorem IoCounts.step {p q : IoClock × List Call} {e : IoClock.Event} (h : IoCounts p)
    (hcareful : Undisturbed p e) (hstep : ioClock.step p e q) : IoCounts q := by
  obtain ⟨s, calls⟩ := p
  obtain ⟨t, calls'⟩ := q
  obtain ⟨⟨hallowed, hnext⟩, hcalls⟩ := hstep
  obtain rfl : t = s.next e := hnext
  obtain rfl : calls' = calls ++ s.returned e := hcalls
  have hreturned := (h.returned_iff hallowed).2 hcareful
  have hexact : ∀ call ∈ calls ++ s.returned e, call.value.toNat + s.epoch = call.time :=
    fun call hcall => (List.mem_append.1 hcall).elim (h.exact call) (hreturned call)
  cases e with
  | irqrestore time =>
      obtain ⟨-, hle, hlt, -⟩ := hallowed
      refine ⟨h.counts.ioCorrect hle hlt, fun time' hpending => ?_, hexact⟩
      cases hpending
      exact ⟨h.counts.le.trans hle, Nat.le_refl _, .inl rfl⟩
  | ret => exact ⟨h.counts, fun time hpending => (by cases hpending), hexact⟩
  | timIsr times =>
      obtain ⟨hcounts, hlast, -⟩ := h.counts.hrtTimIsr hallowed
      refine ⟨hcounts, fun time hpending => ?_, hexact⟩
      obtain ⟨hepoch, hle, hfits⟩ := h.pending time hpending
      refine ⟨hepoch, hle.trans hlast, ?_⟩
      -- An interrupt that makes no call reads nothing.
      rcases List.eq_nil_or_concat times with rfl | ⟨times, time', rfl⟩
      · exact hfits
      · right
        have htime : (times.concat time').getLastD s.time = time' := by
          rw [List.concat_eq_append, List.getLastD_concat]
        have hlt : time' < s.epoch + 2 ^ 64 := hcareful time' (by simp)
        rw [← htime] at hlt
        exact hlt

/-- **A step** obeys the law if it is careful, and only then. -/
theorem IoCounts.exactTime_iff {p q : IoClock × List Call} {e : IoClock.Event} (h : IoCounts p)
    (hstep : ioClock.step p e q) : ExactTime p e q ↔ Undisturbed p e := by
  constructor
  · intro hexact
    obtain ⟨⟨hallowed, hnext⟩, hcalls⟩ := hstep
    have hepoch : q.1.epoch = p.1.epoch := by
      rw [hnext]
      cases e <;> rfl
    refine (h.returned_iff hallowed).1 fun call hcall => ?_
    rw [← hepoch]
    refine hexact.exact call ?_
    rw [hcalls]
    exact List.mem_append_right _ hcall
  · intro hcareful
    have hq := h.step hcareful hstep
    refine ⟨hq.exact, fun a ha b hb hle => ?_⟩
    have ha := hq.exact a ha
    have hb := hq.exact b hb
    rw [UInt64.le_iff_toNat_le]
    omega

theorem ioCounts_of_reachable {p : IoClock × List Call}
    (h : (ioClock.restrict Undisturbed).Reachable p) : IoCounts p := by
  refine h.invariant ?_ fun p e q hp hstep => hp.step hstep.1 hstep.2
  rintro ⟨s, calls⟩ ⟨⟨period, rfl⟩, rfl⟩
  exact ioCounts_start period

theorem ioClock_init (period : Nat) : ioClock.init (IoClock.start period, []) :=
  ⟨⟨period, rfl⟩, rfl⟩

/-- **The time of the IO board under preemption.** The runs in which every call returns the true
time of its own reading, and no result is less than one before, are those in which no interrupt
moves the base on under a call of the thread, and the time fits into 64 bits. -/
theorem io_time_exact_iff (period : Nat) (events : List IoClock.Event)
    (p : IoClock × List Call) :
    (ioClock.obeying ExactTime).Run (IoClock.start period, []) events p ↔
      (ioClock.restrict Undisturbed).Run (IoClock.start period, []) events p :=
  LTS.run_obeying_iff
    (fun _ _ _ hreach hstep => (ioCounts_of_reachable hreach).exactTime_iff hstep)
    (ioClock_init period)

/-! ### Runs -/

/-- A call of the thread reads the counter before it wraps, an interrupt reads it after; and the
thread calls once more. -/
def preempted : List IoClock.Event :=
  [.irqrestore 65530, .timIsr [65540], .ret, .irqrestore 65550, .ret]

/-- The call that was preempted returns a time that is a period too late, and the next one returns
less. -/
theorem preempted_call_late :
    ∃ p, ioClock.Run (IoClock.start 0, []) preempted p ∧
      p.2 = [⟨65540, 65540⟩, ⟨65530, 131066⟩, ⟨65550, 65550⟩] ∧
      (¬∃ c : Int, ∀ call ∈ p.2, (call.value.toNat : Int) = call.time + c) ∧
      ¬(ioClock.obeying ExactTime).Run (IoClock.start 0, []) preempted p := by
  have hrun : ioClock.Run (IoClock.start 0, []) preempted _ :=
    .cons (t := (_, _)) ⟨⟨⟨rfl, by decide, by decide, trivial⟩, rfl⟩, rfl⟩
    (.cons (t := (_, _)) ⟨⟨⟨by decide, by decide, trivial⟩, rfl⟩, rfl⟩
    (.cons (t := (_, _)) ⟨⟨rfl, rfl⟩, rfl⟩
    (.cons (t := (_, _)) ⟨⟨⟨rfl, by decide, by decide, trivial⟩, rfl⟩, rfl⟩
    (.cons (t := (_, _)) ⟨⟨rfl, rfl⟩, rfl⟩ (.nil _)))))
  refine ⟨_, hrun, rfl, fun hc => ?_, fun hlaw => ?_⟩
  · obtain ⟨c, hc⟩ := hc
    have hfirst : (65540 : Int) = 65540 + c := hc ⟨65540, 65540⟩ (.head _)
    have hlate : (131066 : Int) = 65530 + c := hc ⟨65530, 131066⟩ (.tail _ (.head _))
    omega
  · have hsnoc : (ioClock.obeying ExactTime).Run (IoClock.start 0, [])
      (preempted.dropLast ++ [.ret]) _ := hlaw
    obtain ⟨q, -, -, hexact⟩ := hsnoc.exists_of_snoc
    have hlate : 131066 + 0 = 65530 := hexact.exact ⟨65530, 131066⟩ (.tail _ (.head _))
    omega

end Px4Firmware.Hrt
