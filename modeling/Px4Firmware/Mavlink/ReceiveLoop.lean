import Mathlib.Data.Nat.Find
import Mathlib.Tactic.ByContra

/-!
# Px4Firmware.Mavlink.ReceiveLoop

**The bytes that are parsed.** The receive thread of the MAVLink app polls the UART and then reads
byte by byte until a read is not successful. It looks at the result of a read only after it has
passed the byte variable to `mavlink_parse_char`, so that the read which ends a round passes on the
byte of an earlier read, or what was in the variable at the start.

`parsed_eq_delivered_iff` says under which schedules the parser nevertheless gets the bytes that
were received, each once: those in which the thread never leaves the inner loop, or never enters it.
-/

namespace Px4Firmware.Mavlink

/-- What `read` of one byte returns: 1 with a byte, 0, or -1. -/
inductive ReadResult
  | byte (ch : UInt8)
  | empty
  | error
deriving DecidableEq

namespace ReadResult

def nread : ReadResult → Int
  | byte _ => 1
  | empty => 0
  | error => -1

/-- The byte that is delivered. -/
def byte? : ReadResult → Option UInt8
  | byte ch => some ch
  | _ => none

/-- The byte variable after the read, which is left alone when there is no byte. -/
def store (ch : UInt8) : ReadResult → UInt8
  | byte ch => ch
  | _ => ch

end ReadResult

/-- What the thread sees: what the byte variable holds before anything is stored in it, whether
`thread_should_exit` is set each time it is tested, and the results of the calls of `poll` and of
`read`, one after the other. -/
structure Schedule where
  ch : UInt8
  threadShouldExit : Nat → Bool
  poll : Nat → Int
  read : Nat → ReadResult

namespace Schedule

/-- The bytes that the first reads deliver. -/
def delivered (s : Schedule) : Nat → List UInt8
  | 0 => []
  | n + 1 => s.delivered n ++ (s.read n).byte?.toList

end Schedule

/-! ### The thread -/

/-- Where the thread is: before the test of `thread_should_exit`, in the inner loop, or at its
end. -/
inductive Place
  | test
  | inner
  | returned
deriving DecidableEq

/-- The receive thread: its byte variable, how often it has polled and read, and the bytes that it
has passed to `mavlink_parse_char`. -/
structure Receiver where
  place : Place
  ch : UInt8
  polls : Nat
  reads : Nat
  parsed : List UInt8

namespace Schedule

variable (s : Schedule)

/-- The thread when it starts. -/
def start : Receiver where
  place := .test
  ch := s.ch
  polls := 0
  reads := 0
  parsed := []

/-- `receiveloop`: one round of the outer loop up to the inner one, or one of the inner loop. -/
def receiveloop (r : Receiver) : Receiver :=
  match r.place with
  | .test =>
      if s.threadShouldExit r.polls then
        { r with place := .returned }
      else
        { r with
          place := if 0 < s.poll r.polls then .inner else .test
          polls := r.polls + 1 }
  | .inner =>
      let nread := s.read r.reads
      let ch := nread.store r.ch
      { r with
        -- the result is tested after the byte has been parsed
        place := if 0 < nread.nread then .inner else .test
        ch := ch
        reads := r.reads + 1
        parsed := r.parsed ++ [ch] }
  | .returned => r

/-- The thread after some steps. -/
def run : Nat → Receiver
  | 0 => s.start
  | n + 1 => s.receiveloop (run n)

/-- The law: at any time the parser has got the bytes delivered so far, in their order. -/
def ParsesDelivered : Prop := ∀ n, (s.run n).parsed = s.delivered (s.run n).reads

/-- No call of `poll` before the thread is to exit reports data. -/
def NeverReady : Prop := ∀ k, (∀ i ≤ k, s.threadShouldExit i = false) → s.poll k ≤ 0

/-- The condition: there is never anything to read, or always. -/
def Uninterrupted : Prop := s.NeverReady ∨ ∀ i, (s.read i).byte? ≠ none

/-! ### The law for some steps -/

theorem nread_pos_iff (result : ReadResult) : 0 < result.nread ↔ result.byte? ≠ none := by
  cases result <;> simp [ReadResult.nread, ReadResult.byte?]

theorem length_delivered_le (n : Nat) : (s.delivered n).length ≤ n := by
  induction n with
  | zero => exact Nat.le_refl 0
  | succ n ih =>
      have hone : (s.read n).byte?.toList.length ≤ 1 := by cases (s.read n).byte? <;> simp
      rw [delivered, List.length_append]
      omega

/-- Fewer bytes than reads are delivered if one of the reads delivers none. -/
theorem length_delivered_lt {i n : Nat} (hi : i < n) (hnone : (s.read i).byte? = none) :
    (s.delivered n).length < n := by
  induction n with
  | zero => exact absurd hi (Nat.not_lt_zero i)
  | succ n ih =>
      rw [delivered, List.length_append]
      rcases Nat.lt_succ_iff_lt_or_eq.mp hi with hlt | rfl
      · have hone : (s.read n).byte?.toList.length ≤ 1 := by cases (s.read n).byte? <;> simp
        have := ih hlt
        omega
      · have hle := s.length_delivered_le i
        rw [hnone]
        simp only [Option.toList_none, List.length_nil]
        omega

/-- A byte is parsed for each read. -/
theorem length_parsed (n : Nat) : (s.run n).parsed.length = (s.run n).reads := by
  induction n with
  | zero => rfl
  | succ n ih =>
      cases hplace : (s.run n).place with
      | test =>
          simp only [run, receiveloop, hplace]
          split <;> exact ih
      | inner => simp [run, receiveloop, hplace, ih]
      | returned => simpa only [run, receiveloop, hplace] using ih

/-- As long as every read delivers a byte, these are the bytes delivered. -/
theorem parsed_eq_delivered {n : Nat} (h : ∀ i < (s.run n).reads, (s.read i).byte? ≠ none) :
    (s.run n).parsed = s.delivered (s.run n).reads := by
  induction n with
  | zero => rfl
  | succ n ih =>
      cases hplace : (s.run n).place with
      | test =>
          have hsame : (s.run (n + 1)).parsed = (s.run n).parsed ∧
              (s.run (n + 1)).reads = (s.run n).reads := by
            simp only [run, receiveloop, hplace]
            split <;> exact ⟨rfl, rfl⟩
          rw [hsame.2] at h
          rw [hsame.1, hsame.2, ih h]
      | returned =>
          simp only [run, receiveloop, hplace] at h ⊢
          exact ih h
      | inner =>
          simp only [run, receiveloop, hplace] at h ⊢
          have hlast := h (s.run n).reads (Nat.lt_succ_self _)
          rw [delivered, ih fun i hi => h i (Nat.lt_succ_of_lt hi)]
          cases hread : s.read (s.run n).reads with
          | byte ch => rfl
          | empty => simp [hread, ReadResult.byte?] at hlast
          | error => simp [hread, ReadResult.byte?] at hlast

/-! ### Where the thread gets to -/

/-- While there is nothing to read, nothing is read. -/
theorem reads_of_neverReady (h : s.NeverReady) (n : Nat) :
    (s.run n).reads = 0 ∧ (s.run n).place ≠ .inner ∧
      ((s.run n).place = .test → ∀ i < (s.run n).polls, s.threadShouldExit i = false) := by
  induction n with
  | zero => exact ⟨rfl, by simp [run, start], fun _ i hi => absurd hi (Nat.not_lt_zero i)⟩
  | succ n ih =>
      obtain ⟨hreads, hinner, hexit⟩ := ih
      cases hplace : (s.run n).place with
      | inner => exact absurd hplace hinner
      | returned => simp [run, receiveloop, hplace, hreads]
      | test =>
          simp only [run, receiveloop, hplace]
          split
          · simp [hreads]
          · next hstay =>
              have hbefore : ∀ i ≤ (s.run n).polls, s.threadShouldExit i = false := by
                intro i hi
                rcases Nat.lt_or_eq_of_le hi with hlt | rfl
                · exact hexit hplace i hlt
                · exact Bool.eq_false_iff.mpr hstay
              rw [if_neg (Int.not_lt.mpr (h _ hbefore))]
              refine ⟨hreads, by simp, fun _ i hi => ?_⟩
              exact hbefore i (Nat.le_of_lt_succ hi)

/-- The thread polls until there is something to read. -/
theorem run_of_not_ready {k : Nat} (hexit : ∀ i < k, s.threadShouldExit i = false)
    (hpoll : ∀ i < k, s.poll i ≤ 0) :
    (s.run k).place = .test ∧ (s.run k).polls = k ∧ (s.run k).reads = 0 := by
  induction k with
  | zero => exact ⟨rfl, rfl, rfl⟩
  | succ k ih =>
      obtain ⟨hplace, hpolls, hreads⟩ := ih (fun i hi => hexit i (Nat.lt_succ_of_lt hi))
        fun i hi => hpoll i (Nat.lt_succ_of_lt hi)
      simp only [run, receiveloop, hplace, hpolls, hexit k (Nat.lt_succ_self k),
        Int.not_lt.mpr (hpoll k (Nat.lt_succ_self k)), if_false, Bool.false_eq_true]
      exact ⟨trivial, trivial, hreads⟩

/-- In the inner loop it reads until a read is not successful. -/
theorem run_of_reads {n j : Nat} (hplace : (s.run n).place = .inner) (hreads : (s.run n).reads = 0)
    (hbytes : ∀ i < j, (s.read i).byte? ≠ none) :
    (s.run (n + j)).place = .inner ∧ (s.run (n + j)).reads = j := by
  induction j with
  | zero => exact ⟨hplace, hreads⟩
  | succ j ih =>
      obtain ⟨hinner, hj⟩ := ih fun i hi => hbytes i (Nat.lt_succ_of_lt hi)
      have hpos := (nread_pos_iff _).mpr (hbytes j (Nat.lt_succ_self j))
      rw [← Nat.add_assoc]
      simp only [run, receiveloop, hinner, hj, hpos, if_true]
      exact ⟨trivial, trivial⟩

/-- If the thread enters the inner loop and a read is not successful, the law fails there. -/
theorem not_parsesDelivered {k j : Nat} (hexit : ∀ i ≤ k, s.threadShouldExit i = false)
    (hbefore : ∀ i < k, s.poll i ≤ 0) (hready : 0 < s.poll k)
    (hbytes : ∀ i < j, (s.read i).byte? ≠ none) (hnone : (s.read j).byte? = none) :
    ¬ s.ParsesDelivered := by
  intro hlaw
  obtain ⟨htest, hpolls, hzero⟩ :=
    s.run_of_not_ready (fun i hi => hexit i (Nat.le_of_lt hi)) hbefore
  have henter : (s.run (k + 1)).place = .inner ∧ (s.run (k + 1)).reads = 0 := by
    simp only [run, receiveloop, htest, hpolls, hexit k (Nat.le_refl k), hready, if_true,
      Bool.false_eq_true, if_false]
    exact ⟨trivial, hzero⟩
  obtain ⟨hinner, hj⟩ := s.run_of_reads henter.1 henter.2 hbytes
  have hreads : (s.run (k + 1 + j + 1)).reads = j + 1 := by
    simp only [run, receiveloop, hinner, hj]
  -- one byte was parsed for each read, and the last read has delivered none
  have hlength := congrArg List.length (hlaw (k + 1 + j + 1))
  rw [s.length_parsed, hreads] at hlength
  have := s.length_delivered_lt (Nat.lt_add_one j) hnone
  omega

/-- **The bytes parsed are the bytes delivered** exactly under the schedules in which the thread
never has to leave the inner loop. -/
theorem parsed_eq_delivered_iff : s.ParsesDelivered ↔ s.Uninterrupted := by
  constructor
  · intro hlaw
    by_contra hinterrupted
    obtain ⟨hready, hfails⟩ := not_or.mp hinterrupted
    simp only [NeverReady, not_forall, Int.not_le] at hready
    have hsome : ∃ k, 0 < s.poll k := by
      obtain ⟨k, -, hk⟩ := hready
      exact ⟨k, hk⟩
    simp only [not_forall, not_not] at hfails
    -- the first poll that reports data comes before the thread is to exit
    obtain ⟨k, hexit, hk⟩ := hready
    have hfirst := Nat.find_min' hsome hk
    refine s.not_parsesDelivered (k := Nat.find hsome) (j := Nat.find hfails) ?_ ?_ ?_ ?_ ?_ hlaw
    · exact fun i hi => hexit i (Nat.le_trans hi hfirst)
    · exact fun i hi => Int.not_lt.mp (Nat.find_min hsome hi)
    · exact Nat.find_spec hsome
    · exact fun i hi => Nat.find_min hfails hi
    · exact Nat.find_spec hfails
  · intro h n
    rcases h with hnever | hbytes
    · refine s.parsed_eq_delivered fun i hi => ?_
      rw [(s.reads_of_neverReady hnever n).1] at hi
      exact absurd hi (Nat.not_lt_zero i)
    · exact s.parsed_eq_delivered fun i _ => hbytes i

end Schedule

/-- One byte is received, and the next read finds nothing. -/
def oneByte : Schedule where
  ch := 0
  threadShouldExit _ := false
  poll k := if k = 0 then 1 else 0
  read i := if i = 0 then .byte 0xfe else .empty

/-- The byte is parsed twice. -/
theorem oneByte_parsed_twice : ¬ ∀ s : Schedule, s.ParsesDelivered := by
  intro hlaw
  exact absurd (hlaw oneByte 3) (by decide)

end Px4Firmware.Mavlink
