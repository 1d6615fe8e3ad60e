import Px4Firmware.Drivers.L3gd20
import Px4Firmware.Lib.Transition

/-!
# Px4Firmware.Drivers.GyroRace

**Reading gyro reports while they are measured.** `read` is careful to avoid racing with `measure`,
says its comment. In the runs in which it is (`L3gd20.Careful`), every place of the ring that is
accessed is one of it, the reads return whole reports in the order in which they were measured, and
only those are lost for which the ring had no room (`reads_of_careful`).

Both sides advance `_oldest_report`. If an interrupt drops the oldest report while `read` copies it,
`read` then takes away the next one, which nobody has got. If interrupts drop two between the load
and the store of the increment, the store brings the index back to a place that has been written
again, and the ring seems to be empty. And while the index is at the end of the ring, before it
wraps around, an interrupt that has to drop a report does not see it.

The ring always holds the measurements `head + 1` to `total`, where `head` is the last one that has
been read or dropped.
-/

namespace Px4Firmware.Drivers

open Lib

namespace L3gd20

/-- The interrupt, a call of `read`, and the next load, store or copy of it. -/
inductive Event
  | interrupt
  | call (count : Nat) (buffer : Nat → Nat → Nat)
  | exec

section

variable (numReports words : Nat)

/-- An event. `read` is called by one task at a time. -/
inductive Next (s : L3gd20) : Event → L3gd20 → Prop
  | interrupt : Next s .interrupt (s.measure numReports)
  | call {count : Nat} {buffer : Nat → Nat → Nat} (hidle : s.reader = .idle) :
      Next s (.call count buffer) (s.call count buffer)
  | exec (hreads : s.reader ≠ .idle) : Next s .exec (s.exec numReports words)

/-- The driver from its start on. -/
def system : LTS L3gd20 Event where
  init s := ∃ reports buffer, s = .init reports buffer
  step := Next numReports words

/-! ### The law -/

/-- The places of the ring that an event accesses. -/
def accesses (s : L3gd20) : Event → List Nat
  | .interrupt => s.measureAccesses
  | .call _ _ => []
  | .exec => s.execAccesses words

/-- The reads have returned whole reports of the measurements `ms`, in their order. -/
structure Returns (s : L3gd20) (ms : List Nat) : Prop where
  whole : s.returned = ms.map (List.replicate words)
  ordered : ms.Pairwise (· < ·)
  measured : ∀ m ∈ ms, 0 < m ∧ m ≤ s.total

/-- A measurement for which the ring has had room since has been returned, waits in the ring, or is
with the read that runs. -/
def Kept (s : L3gd20) (ms : List Nat) : Prop :=
  ∀ m, 0 < m → m ≤ s.total → s.total < m + (numReports - 1) →
    m ∈ ms ∨ m ∈ s.waiting numReports ∨ m ∈ s.hand

/-- The accesses are to the ring; the reports are returned in their order, and none is lost but by
an overflow. -/
def Law (s : L3gd20) (event : Event) (t : L3gd20) : Prop :=
  (∀ i ∈ s.accesses words event, i < numReports) ∧
    ∃ ms, t.Returns words ms ∧ t.Kept numReports ms

/-- A read copies one report. While it does, at most one report is dropped; when the incremented
index is stored, none has been dropped since the place to copy from was loaded, or one since the
load of the index, up to whole rounds. While the index is at the end of the ring, there is room. -/
def Careful (s : L3gd20) : Event → Prop
  | .interrupt => s.oldestReport = numReports → s.nextReport + 1 ≠ numReports
  | .call _ _ => True
  | .exec =>
      match s.reader with
      | .compare _ copied oldest => oldest ≠ s.nextReport → copied = 0
      | .copy _ _ _ k => k < words → s.dropped ≤ s.droppedAtAddress + 1
      | .store _ _ _ =>
          s.dropped = s.droppedAtAddress ∨ (s.dropped - s.droppedAtLoad) % numReports = 1
      | _ => True

end

/-! ### The ring -/

section

variable {numReports words head : Nat} {s : L3gd20}

/-- Two numbers that go to the same place are the same, or a round apart. -/
theorem eq_add_of_mod_eq {a b n : Nat} (hlt : b < a) (hle : a ≤ b + n) (hmod : a % n = b % n) :
    a = b + n := by
  have hdvd : n ∣ a - b := Nat.dvd_of_mod_eq_zero (Nat.sub_mod_eq_zero_of_mod_eq hmod)
  have hge : n ≤ a - b := Nat.le_of_dvd (by omega) hdvd
  omega

/-- The distance from one place to another, around the ring. -/
theorem distance_mod {a b n : Nat} (hle : b ≤ a) (hlt : a < b + n) :
    (a % n + (n - b % n)) % n = a - b := by
  have hpos : 0 < n := by omega
  have hb := Nat.div_add_mod b n
  have hmod := Nat.mod_lt b hpos
  have hsum : a + (n - b % n) = (a - b) + n * (b / n + 1) := by
    rw [Nat.mul_succ]
    omega
  rw [Nat.mod_add_mod, hsum, Nat.add_mul_mod_self_left, Nat.mod_eq_of_lt (by omega)]

theorem increment_mod {n : Nat} (hn : 0 < n) (a : Nat) : increment (a % n) n = (a + 1) % n := by
  have hlt : a % n < n := Nat.mod_lt a hn
  rw [increment, ← Nat.mod_add_mod]
  split
  · rename_i hlast
    have hend : a % n + 1 = n := by omega
    rw [hend, Nat.mod_self]
  · rename_i hnot
    exact (Nat.mod_eq_of_lt (Nat.lt_of_not_le hnot)).symm

/-- The ring holds the measurements `head + 1` to `total`. The index of the oldest one may be at the
end of the ring. -/
structure Ring (numReports : Nat) (s : L3gd20) (head : Nat) : Prop where
  next : s.nextReport = s.total % numReports
  reports : ∀ m, 0 < m → m ≤ s.total → s.total < m + numReports →
    s.reports ((m - 1) % numReports) = m
  head_le : head ≤ s.total
  room : s.total < head + numReports
  oldest : s.oldestReport % numReports = head % numReports
  oldest_le : s.oldestReport ≤ numReports

/-- What waits in the ring. -/
theorem Ring.waiting_eq (h : s.Ring numReports head) :
    s.waiting numReports = (List.range (s.total - head)).map fun i => head + 1 + i := by
  have hroom := h.room
  have hle := h.head_le
  have hcount : (s.nextReport + (numReports - s.oldestReport % numReports)) % numReports
      = s.total - head := by
    rw [h.next, h.oldest]
    exact distance_mod hle hroom
  rw [waiting, hcount]
  refine List.map_congr_left fun i hi => ?_
  have hi' : i < s.total - head := List.mem_range.mp hi
  have hplace : (s.oldestReport + i) % numReports = (head + 1 + i - 1) % numReports := by
    rw [Nat.add_mod, h.oldest, ← Nat.add_mod]
    congr 1
    omega
  rw [hplace]
  exact h.reports (head + 1 + i) (by omega) (by omega) (by omega)

theorem Ring.mem_waiting (h : s.Ring numReports head) {m : Nat} :
    m ∈ s.waiting numReports ↔ head < m ∧ m ≤ s.total := by
  rw [h.waiting_eq, List.mem_map]
  simp only [List.mem_range]
  constructor
  · rintro ⟨i, hi, rfl⟩
    omega
  · intro hm
    exact ⟨m - head - 1, by omega, by omega⟩

/-- What does not touch the reports moves the head of the ring with the index of the oldest one. -/
theorem Ring.move (h : s.Ring numReports head) {t : L3gd20} {head' : Nat}
    (hnext : t.nextReport = s.nextReport) (hreports : t.reports = s.reports)
    (htotal : t.total = s.total) (hmore : head ≤ head') (hle : head' ≤ s.total)
    (holdest : t.oldestReport % numReports = head' % numReports)
    (hend : t.oldestReport ≤ numReports) : t.Ring numReports head' where
  next := by rw [hnext, htotal, h.next]
  reports := by
    rw [hreports, htotal]
    exact h.reports
  head_le := by rwa [htotal]
  room := by
    have hroom := h.room
    omega
  oldest := holdest
  oldest_le := hend

/-- The ring does not change with the rest. -/
theorem Ring.keep (h : s.Ring numReports head) {t : L3gd20} (hnext : t.nextReport = s.nextReport)
    (holdest : t.oldestReport = s.oldestReport) (hreports : t.reports = s.reports)
    (htotal : t.total = s.total) : t.Ring numReports head :=
  h.move hnext hreports htotal (Nat.le_refl head) h.head_le (by rw [holdest, h.oldest])
    (by rw [holdest]; exact h.oldest_le)

theorem Ring.oldest_eq (h : s.Ring numReports head) (hlt : s.oldestReport < numReports) :
    s.oldestReport = head % numReports := by
  rw [← h.oldest, Nat.mod_eq_of_lt hlt]

/-- The oldest report is at its place, if there is one. -/
theorem Ring.reports_oldest (h : s.Ring numReports head) (hlt : s.oldestReport < numReports)
    (hmore : head < s.total) : s.reports s.oldestReport = head + 1 := by
  have hroom := h.room
  rw [h.oldest_eq hlt]
  exact h.reports (head + 1) (by omega) hmore (by omega)

/-- An interrupt meets a full ring when the index of the next report comes to the oldest one. -/
theorem Ring.full_iff (h : s.Ring numReports head) (hn : 2 ≤ numReports)
    (hroom : s.oldestReport = numReports → s.nextReport + 1 ≠ numReports) :
    increment s.nextReport numReports = s.oldestReport ↔ s.total + 1 = head + numReports := by
  have hle := h.head_le
  have hlt := h.room
  have hpos : 0 < numReports := by omega
  have hnext : increment s.nextReport numReports = (s.total + 1) % numReports := by
    rw [h.next, increment_mod hpos]
  have hmod : (s.total + 1) % numReports < numReports := Nat.mod_lt _ hpos
  constructor
  · intro hsame
    have hoff : s.oldestReport < numReports := by omega
    rw [hnext, h.oldest_eq hoff] at hsame
    exact eq_add_of_mod_eq (by omega) (by omega) hsame
  · intro hfull
    rcases Nat.lt_or_eq_of_le h.oldest_le with hoff | hend
    · rw [hnext, h.oldest_eq hoff, hfull, Nat.add_mod_right]
    · -- The index is at the end of the ring, and the next one would be as well.
      have hzero : head % numReports = 0 := by rw [← h.oldest, hend, Nat.mod_self]
      have hwrap : (s.total % numReports + 1) % numReports = 0 := by
        rw [Nat.mod_add_mod, hfull, Nat.add_mod_right, hzero]
      have hlast : s.nextReport + 1 = numReports := by
        rw [h.next]
        have hplace : s.total % numReports < numReports := Nat.mod_lt _ hpos
        rcases Nat.lt_or_eq_of_le (Nat.succ_le_of_lt hplace) with hmore | hend
        · rw [Nat.mod_eq_of_lt hmore] at hwrap
          cases hwrap
        · exact hend
      exact absurd hlast (hroom hend)

/-- An interrupt when the ring is full. -/
theorem measure_of_full (hfull : increment s.nextReport numReports = s.oldestReport) :
    s.measure numReports = { s with
      reports := fun i => if i = s.nextReport then s.total + 1 else s.reports i
      total := s.total + 1
      nextReport := increment s.nextReport numReports
      oldestReport := increment s.oldestReport numReports
      dropped := s.dropped + 1 } := by
  rw [measure]
  exact if_pos hfull

/-- An interrupt when there is room. -/
theorem measure_of_room (hroom : increment s.nextReport numReports ≠ s.oldestReport) :
    s.measure numReports = { s with
      reports := fun i => if i = s.nextReport then s.total + 1 else s.reports i
      total := s.total + 1
      nextReport := increment s.nextReport numReports } := by
  rw [measure]
  exact if_neg hroom

/-- The new report is at its place, and so are the others of the last round. -/
theorem Ring.reports_measure (h : s.Ring numReports head) {m : Nat} (hm : 0 < m)
    (hle : m ≤ s.total + 1) (hlt : s.total + 1 < m + numReports) :
    (if (m - 1) % numReports = s.nextReport then s.total + 1
      else s.reports ((m - 1) % numReports)) = m := by
  rcases Nat.lt_or_eq_of_le hle with hold | hnew
  · have hne : (m - 1) % numReports ≠ s.nextReport := by
      intro hsame
      rw [h.next] at hsame
      have hround := eq_add_of_mod_eq (by omega) (by omega) hsame.symm
      omega
    rw [if_neg hne]
    exact h.reports m hm (by omega) (by omega)
  · have hplace : (m - 1) % numReports = s.nextReport := by
      rw [h.next, hnew, Nat.add_sub_cancel]
    rw [if_pos hplace, hnew]

/-- An interrupt puts a report into the ring and drops the oldest one if there is no room. -/
theorem Ring.measure (h : s.Ring numReports head) (hn : 2 ≤ numReports)
    (hroom : s.oldestReport = numReports → s.nextReport + 1 ≠ numReports) :
    ∃ head', (s.measure numReports).Ring numReports head' ∧
      head' = max head (s.total + 1 - (numReports - 1)) ∧
      (s.measure numReports).dropped + head = s.dropped + head' ∧
      (s.oldestReport < numReports → (s.measure numReports).oldestReport < numReports) ∧
      (s.oldestReport = numReports → (s.measure numReports).oldestReport = numReports) := by
  have hle := h.head_le
  have hlt := h.room
  have hpos : 0 < numReports := by omega
  have hnext : increment s.nextReport numReports = (s.total + 1) % numReports := by
    rw [h.next, increment_mod hpos]
  by_cases hfull : s.total + 1 = head + numReports
  · have hsame := (h.full_iff hn hroom).mpr hfull
    have hoff : s.oldestReport < numReports := by
      rw [← hsame, hnext]
      exact Nat.mod_lt _ hpos
    have holdest : increment s.oldestReport numReports = (head + 1) % numReports := by
      rw [h.oldest_eq hoff, increment_mod hpos]
    have hplace : (head + 1) % numReports < numReports := Nat.mod_lt _ hpos
    rw [measure_of_full hsame]
    refine ⟨head + 1, ?_, by omega, Nat.add_right_comm s.dropped 1 head, fun _ => ?_,
      fun hend => ?_⟩
    · exact {
        next := hnext
        reports := fun m hm hle hlt => h.reports_measure hm hle hlt
        head_le := by show head + 1 ≤ s.total + 1; omega
        room := by show s.total + 1 < head + 1 + numReports; omega
        oldest := by
          show increment s.oldestReport numReports % numReports = _
          rw [holdest, Nat.mod_mod]
        oldest_le := by
          show increment s.oldestReport numReports ≤ numReports
          omega }
    · show increment s.oldestReport numReports < numReports
      omega
    · omega
  · have hdiffer := mt (h.full_iff hn hroom).mp hfull
    rw [measure_of_room hdiffer]
    refine ⟨head, ?_, by omega, rfl, id, id⟩
    exact {
      next := hnext
      reports := fun m hm hle hlt => h.reports_measure hm hle hlt
      head_le := by show head ≤ s.total + 1; omega
      room := by show s.total + 1 < head + numReports; omega
      oldest := h.oldest
      oldest_le := h.oldest_le }

end

/-! ### The invariant -/

section

variable (numReports words : Nat)

/-- What the read has copied: nothing, or one report, which is newer than all that have been
returned. -/
def Copied (s : L3gd20) (ms : List Nat) (taken copied : Nat) : Prop :=
  (copied = 0 ∧ s.hand = []) ∨
    ∃ m, copied = 1 ∧ s.hand = [m] ∧ s.place words 0 = List.replicate words m ∧ 0 < m ∧
      m ≤ taken ∧ ∀ n ∈ ms, n < m

/-- The read copies the report after those that have been taken. Whatever has been dropped since
the place was loaded is the difference to the head of the ring. -/
structure Copies (s : L3gd20) (taken head : Nat) : Prop where
  hand : s.hand = [taken + 1]
  measured : taken < s.total
  dropped : s.dropped + taken = s.droppedAtAddress + head
  oldest : s.oldestReport < numReports

/-- What is known at each point of a read. An index that has been loaded is that of an earlier head
of the ring. -/
def Reads (s : L3gd20) (ms : List Nat) (taken head : Nat) : Prop :=
  match s.reader with
  | .idle => s.hand = [] ∧ s.oldestReport < numReports
  | .loop _ copied => s.Copied words ms taken copied ∧ s.oldestReport < numReports
  | .compare _ copied oldest =>
      s.Copied words ms taken copied ∧ s.oldestReport < numReports ∧
        ∃ h, oldest = h % numReports ∧ taken ≤ h ∧ h ≤ s.total
  | .address _ copied =>
      copied = 0 ∧ s.hand = [] ∧ s.oldestReport < numReports ∧ taken < s.total
  | .copy _ copied index k =>
      copied = 0 ∧ s.Copies numReports taken head ∧ index = taken % numReports ∧
        ∀ j < k, j < words → s.buffer 0 j = taken + 1
  | .store _ copied loaded =>
      copied = 0 ∧ s.Copies numReports taken head ∧
        s.place words 0 = List.replicate words (taken + 1) ∧
        ∃ h, loaded = h % numReports ∧ taken ≤ h ∧ h ≤ head ∧
          s.dropped + h = s.droppedAtLoad + head
  | .wrap _ copied => s.Copied words ms taken copied
  | .reset _ copied => s.Copied words ms taken copied ∧ s.oldestReport = numReports

/-- The ring holds what has been neither taken nor dropped. -/
structure Inv (s : L3gd20) (ms : List Nat) (taken head : Nat) : Prop where
  ring : s.Ring numReports head
  head_eq : head = max taken (s.total - (numReports - 1))
  returns : s.Returns words ms
  ms_le : ∀ m ∈ ms, m ≤ taken
  kept : ∀ m, 0 < m → m ≤ taken → s.total < m + (numReports - 1) → m ∈ ms ∨ m ∈ s.hand
  reads : s.Reads numReports words ms taken head

end

section

variable {numReports words taken head : Nat} {s : L3gd20} {ms : List Nat}

/-- What has been returned stays so. -/
theorem Returns.keep (h : s.Returns words ms) {t : L3gd20} (hreturned : t.returned = s.returned)
    (hle : s.total ≤ t.total) : t.Returns words ms where
  whole := hreturned.trans h.whole
  ordered := h.ordered
  measured := fun m hm => ⟨(h.measured m hm).1, Nat.le_trans (h.measured m hm).2 hle⟩

/-- What the ring has had room for is not lost. -/
theorem Inv.kept_all (h : s.Inv numReports words ms taken head) : s.Kept numReports ms := by
  intro m hm hle hroom
  by_cases hwaits : head < m
  · exact .inr (.inl (h.ring.mem_waiting.mpr ⟨hwaits, hle⟩))
  · have htaken : m ≤ taken := by
      have hhead := h.head_eq
      omega
    rcases h.kept m hm htaken hroom with hms | hhand
    · exact .inl hms
    · exact .inr (.inr hhand)

theorem Inv.init (hn : 2 ≤ numReports) (reports : Nat → Nat) (buffer : Nat → Nat → Nat) :
    (init reports buffer).Inv numReports words [] 0 0 where
  ring := {
    next := (Nat.zero_mod _).symm
    reports := fun m hm hle _ => absurd hle (Nat.not_le_of_lt hm)
    head_le := Nat.le_refl 0
    room := by show 0 < 0 + numReports; omega
    oldest := rfl
    oldest_le := Nat.zero_le _ }
  head_eq := by simp [L3gd20.init]
  returns := ⟨rfl, .nil, fun m hm => absurd hm List.not_mem_nil⟩
  ms_le := fun m hm => absurd hm List.not_mem_nil
  kept := fun m hm hle _ => absurd hle (Nat.not_le_of_lt hm)
  reads := ⟨rfl, by show 0 < numReports; omega⟩

/-! ### Interrupts -/

@[simp] theorem measure_reader : (s.measure numReports).reader = s.reader := by
  rw [measure]
  split <;> rfl

@[simp] theorem measure_total : (s.measure numReports).total = s.total + 1 := by
  rw [measure]
  split <;> rfl

@[simp] theorem measure_hand : (s.measure numReports).hand = s.hand := by
  rw [measure]
  split <;> rfl

@[simp] theorem measure_buffer : (s.measure numReports).buffer = s.buffer := by
  rw [measure]
  split <;> rfl

@[simp] theorem measure_returned : (s.measure numReports).returned = s.returned := by
  rw [measure]
  split <;> rfl

@[simp] theorem measure_droppedAtAddress :
    (s.measure numReports).droppedAtAddress = s.droppedAtAddress := by
  rw [measure]
  split <;> rfl

@[simp] theorem measure_droppedAtLoad :
    (s.measure numReports).droppedAtLoad = s.droppedAtLoad := by
  rw [measure]
  split <;> rfl

/-- An interrupt does not touch what a read has. -/
theorem Copied.measure {copied : Nat} (h : s.Copied words ms taken copied) :
    (s.measure numReports).Copied words ms taken copied := by
  simpa [Copied, place] using h

/-- Whatever an interrupt drops is counted. -/
theorem Copies.measure {head' : Nat} (h : s.Copies numReports taken head)
    (hdropped : (s.measure numReports).dropped + head = s.dropped + head')
    (hoff : s.oldestReport < numReports → (s.measure numReports).oldestReport < numReports) :
    (s.measure numReports).Copies numReports taken head' := by
  have hdropped' := h.dropped
  have hmeasured := h.measured
  exact {
    hand := measure_hand.trans h.hand
    measured := by rw [measure_total]; omega
    dropped := by rw [measure_droppedAtAddress]; omega
    oldest := hoff h.oldest }

/-- What is known at a point of a read stays known. -/
theorem Reads.measure {head' : Nat} (h : s.Reads numReports words ms taken head)
    (hmore : head ≤ head')
    (hdropped : (s.measure numReports).dropped + head = s.dropped + head')
    (hoff : s.oldestReport < numReports → (s.measure numReports).oldestReport < numReports)
    (hend : s.oldestReport = numReports → (s.measure numReports).oldestReport = numReports) :
    (s.measure numReports).Reads numReports words ms taken head' := by
  simp only [Reads] at h ⊢
  rw [measure_reader]
  cases hreader : s.reader with
  | idle =>
      rw [hreader] at h
      exact ⟨measure_hand.trans h.1, hoff h.2⟩
  | loop count copied =>
      rw [hreader] at h
      exact ⟨h.1.measure, hoff h.2⟩
  | compare count copied oldest =>
      rw [hreader] at h
      obtain ⟨hcopied, holdest, k, hk, hge, hle⟩ := h
      exact ⟨hcopied.measure, hoff holdest, k, hk, hge, by rw [measure_total]; omega⟩
  | address count copied =>
      rw [hreader] at h
      obtain ⟨hcopied, hhand, holdest, hlt⟩ := h
      exact ⟨hcopied, measure_hand.trans hhand, hoff holdest, by rw [measure_total]; omega⟩
  | copy count copied index k =>
      rw [hreader] at h
      obtain ⟨hcopied, hcopies, hindex, hwords⟩ := h
      exact ⟨hcopied, hcopies.measure hdropped hoff, hindex, by rwa [measure_buffer]⟩
  | store count copied loaded =>
      rw [hreader] at h
      obtain ⟨hcopied, hcopies, hplace, k, hk, hge, hle, hload⟩ := h
      refine ⟨hcopied, hcopies.measure hdropped hoff, by simpa [place] using hplace, k, hk, hge,
        by omega, ?_⟩
      -- The index that has been loaded is behind by what has been dropped since.
      rw [measure_droppedAtLoad]
      omega
  | wrap count copied =>
      rw [hreader] at h
      exact h.measure
  | reset count copied =>
      rw [hreader] at h
      exact ⟨h.1.measure, hend h.2⟩

/-- **Interrupts** keep the invariant while there is room at the end of the ring. -/
theorem Inv.measure (hn : 2 ≤ numReports) (h : s.Inv numReports words ms taken head)
    (hcareful : s.Careful numReports words .interrupt) :
    ∃ head', (s.measure numReports).Inv numReports words ms taken head' := by
  obtain ⟨head', hring, hhead', hdropped, hoff, hend⟩ := h.ring.measure hn hcareful
  have hhead := h.head_eq
  have hmore : head ≤ head' := by omega
  refine ⟨head', hring, ?_, h.returns.keep measure_returned (by simp), h.ms_le,
    fun m hm hle hroom => ?_, h.reads.measure hmore hdropped hoff hend⟩
  · rw [measure_total]
    omega
  · rw [measure_total] at hroom
    rw [measure_hand]
    exact h.kept m hm hle (by omega)

/-! ### The steps of a read -/

/-- A step that leaves the ring alone. -/
theorem Inv.goOn (h : s.Inv numReports words ms taken head) {reader : Reader}
    {buffer : Nat → Nat → Nat} {droppedAtAddress droppedAtLoad : Nat}
    (hreads : Reads numReports words { s with
      reader := reader
      buffer := buffer
      droppedAtAddress := droppedAtAddress
      droppedAtLoad := droppedAtLoad } ms taken head) :
    Inv numReports words { s with
      reader := reader
      buffer := buffer
      droppedAtAddress := droppedAtAddress
      droppedAtLoad := droppedAtLoad } ms taken head where
  ring := h.ring.keep rfl rfl rfl rfl
  head_eq := h.head_eq
  returns := h.returns.keep rfl (Nat.le_refl _)
  ms_le := h.ms_le
  kept := h.kept
  reads := hreads

/-- The end of a read: what it has copied is returned. -/
theorem Inv.return (h : s.Inv numReports words ms taken head) {copied : Nat}
    (hreader : s.reader = .loop 0 copied) :
    ∃ ms', (s.exec numReports words).Inv numReports words ms' taken head := by
  have hreads := h.reads
  simp only [Reads, hreader] at hreads
  obtain ⟨hcopied, holdest⟩ := hreads
  have htaken : taken ≤ s.total := by
    have hhead := h.head_eq
    have hle := h.ring.head_le
    omega
  have hexec : s.exec numReports words = { s with
      reader := .idle
      returned := s.returned ++ (List.range copied).map (s.place words)
      hand := [] } := by
    simp only [exec, hreader]
  rw [hexec]
  rcases hcopied with ⟨rfl, hhand⟩ | ⟨m, rfl, hhand, hplace, hpos, hmle, hnewer⟩
  · refine ⟨ms, h.ring.keep rfl rfl rfl rfl, h.head_eq,
      ⟨?_, h.returns.ordered, h.returns.measured⟩, h.ms_le,
      fun m hm hle hroom => ?_, rfl, holdest⟩
    · show s.returned ++ [] = _
      rw [List.append_nil, h.returns.whole]
    · rw [← hhand]
      exact h.kept m hm hle hroom
  · refine ⟨ms ++ [m], h.ring.keep rfl rfl rfl rfl, h.head_eq,
      ⟨?_, ?_, fun n hn => ?_⟩, fun n hn => ?_,
      fun n hn hle hroom => ?_, rfl, holdest⟩
    · show s.returned ++ [s.place words 0] = _
      rw [h.returns.whole, hplace, List.map_append]
      rfl
    · refine List.pairwise_append.mpr ⟨h.returns.ordered, List.pairwise_singleton _ _, ?_⟩
      intro n hn k hk
      rw [List.mem_singleton.mp hk]
      exact hnewer n hn
    · rcases List.mem_append.mp hn with hold | hnew
      · exact h.returns.measured n hold
      · rw [List.mem_singleton.mp hnew]
        exact ⟨hpos, Nat.le_trans hmle htaken⟩
    · rcases List.mem_append.mp hn with hold | hnew
      · exact h.ms_le n hold
      · rw [List.mem_singleton.mp hnew]
        exact hmle
    · left
      rw [List.mem_append, ← hhand]
      exact h.kept n hn hle hroom

/-- The head of the loop: the index that is loaded is that of the head of the ring. -/
theorem Inv.loop (h : s.Inv numReports words ms taken head) {count copied : Nat}
    (hreader : s.reader = .loop (count + 1) copied) :
    (s.exec numReports words).Inv numReports words ms taken head := by
  have hreads := h.reads
  simp only [Reads, hreader] at hreads
  have hhead := h.head_eq
  have hexec : s.exec numReports words
      = { s with reader := .compare count copied s.oldestReport } := by
    simp only [exec, hreader]
  rw [hexec]
  exact h.goOn ⟨hreads.1, hreads.2, head, h.ring.oldest_eq hreads.2, by omega, h.ring.head_le⟩

/-- The comparison. If the indices differ, there is a report that has not been taken, although
either of them can be an old one. -/
theorem Inv.compare (h : s.Inv numReports words ms taken head) {count copied oldest : Nat}
    (hreader : s.reader = .compare count copied oldest)
    (hcareful : s.Careful numReports words .exec) :
    (s.exec numReports words).Inv numReports words ms taken head := by
  have hreads := h.reads
  simp only [Reads, hreader] at hreads
  simp only [Careful, hreader] at hcareful
  obtain ⟨hcopied, holdest, k, hk, hge, hle⟩ := hreads
  by_cases hdiffer : oldest ≠ s.nextReport
  · have hexec : s.exec numReports words = { s with reader := .address count copied } := by
      simp only [exec, hreader, if_pos hdiffer]
    have hnone : copied = 0 := hcareful hdiffer
    have hhand : s.hand = [] := by
      rcases hcopied with ⟨-, hhand⟩ | ⟨m, hone, -⟩
      · exact hhand
      · omega
    have hmore : k ≠ s.total := by
      rintro rfl
      exact hdiffer (hk.trans h.ring.next.symm)
    rw [hexec]
    exact h.goOn ⟨hnone, hhand, holdest, by show taken < s.total; omega⟩
  · have hexec : s.exec numReports words = { s with reader := .loop count copied } := by
      simp only [exec, hreader, if_neg hdiffer]
    rw [hexec]
    exact h.goOn ⟨hcopied, holdest⟩

/-- The load of the place to copy from: what the ring has dropped before counts as taken now. -/
theorem Inv.address (hn : 2 ≤ numReports) (h : s.Inv numReports words ms taken head)
    {count copied : Nat} (hreader : s.reader = .address count copied) :
    (s.exec numReports words).Inv numReports words ms head head := by
  have hreads := h.reads
  simp only [Reads, hreader] at hreads
  obtain ⟨hnone, hhand, holdest, hlt⟩ := hreads
  have hhead := h.head_eq
  have hmore : head < s.total := by omega
  have hexec : s.exec numReports words = { s with
      reader := .copy count copied s.oldestReport 0
      hand := [head + 1]
      droppedAtAddress := s.dropped } := by
    simp only [exec, hreader, hhand, h.ring.reports_oldest holdest hmore, List.nil_append]
  rw [hexec]
  refine ⟨h.ring.keep rfl rfl rfl rfl, ?_, h.returns.keep rfl (Nat.le_refl _),
    fun m hm => ?_, fun m hm hle hroom => ?_, hnone, ⟨rfl, hmore, rfl, holdest⟩,
    h.ring.oldest_eq holdest, fun j hj => absurd hj (Nat.not_lt_zero j)⟩
  · show head = max head (s.total - (numReports - 1))
    omega
  · have hmle := h.ms_le m hm
    omega
  · left
    have hroom' : s.total < m + (numReports - 1) := hroom
    rcases h.kept m hm (by omega) hroom' with hms | hnothing
    · exact hms
    · rw [hhand] at hnothing
      exact absurd hnothing List.not_mem_nil

/-- A word, or the load of the index to be incremented. -/
theorem Inv.copy (h : s.Inv numReports words ms taken head) {count copied index k : Nat}
    (hreader : s.reader = .copy count copied index k)
    (hcareful : s.Careful numReports words .exec) :
    (s.exec numReports words).Inv numReports words ms taken head := by
  have hreads := h.reads
  simp only [Reads, hreader] at hreads
  simp only [Careful, hreader] at hcareful
  obtain ⟨hnone, hcopies, hindex, hwords⟩ := hreads
  have hdropped := hcopies.dropped
  have hmeasured := hcopies.measured
  have hhead := h.head_eq
  by_cases hk : k < words
  · -- The place has not been written again.
    have hmore := hcareful hk
    have hroom := h.ring.room
    have hplace : s.reports index = taken + 1 := by
      rw [hindex]
      exact h.ring.reports (taken + 1) (by omega) (by omega) (by omega)
    have hexec : s.exec numReports words = { s with
        reader := .copy count copied index (k + 1)
        buffer := fun i j => if i = 0 ∧ j = k then taken + 1 else s.buffer i j } := by
      simp only [exec, hreader, if_pos hk, hplace]
    rw [hexec]
    refine h.goOn ⟨hnone, ⟨hcopies.hand, hmeasured, hdropped, hcopies.oldest⟩, hindex,
      fun j hj hjw => ?_⟩
    show (if 0 = 0 ∧ j = k then taken + 1 else s.buffer 0 j) = taken + 1
    split
    · rfl
    · rename_i hother
      exact hwords j (by omega) hjw
  · have hexec : s.exec numReports words = { s with
        reader := .store count copied s.oldestReport
        droppedAtLoad := s.dropped } := by
      simp only [exec, hreader, if_neg hk]
    have hplace : s.place words 0 = List.replicate words (taken + 1) := by
      refine List.eq_replicate_iff.mpr ⟨by simp [place], fun m hm => ?_⟩
      obtain ⟨j, hj, rfl⟩ := List.mem_map.mp hm
      have hjw : j < words := List.mem_range.mp hj
      exact hwords j (by omega) hjw
    rw [hexec]
    exact h.goOn ⟨hnone, ⟨hcopies.hand, hmeasured, hdropped, hcopies.oldest⟩, hplace, head,
      h.ring.oldest_eq hcopies.oldest, by omega, Nat.le_refl head, rfl⟩

/-- An index that is behind by one goes to the place of the head when it is incremented. -/
theorem succ_mod_of_behind {a b n : Nat} (hlt : a < b) (hbehind : (b - a) % n = 1) :
    (a % n + 1) % n = b % n := by
  have hround := Nat.div_add_mod (b - a) n
  have hsum : b = a + 1 + n * ((b - a) / n) := by omega
  rw [Nat.mod_add_mod, hsum, Nat.add_mul_mod_self_left]

/-- The store of the incremented index takes the report that has been copied. Either nothing has
been dropped since its place was loaded, or it has been dropped itself and the store leaves the
index where it is. -/
theorem Inv.store (hn : 2 ≤ numReports) (h : s.Inv numReports words ms taken head)
    {count copied loaded : Nat} (hreader : s.reader = .store count copied loaded)
    (hcareful : s.Careful numReports words .exec) :
    ∃ head', (s.exec numReports words).Inv numReports words ms (taken + 1) head' := by
  have hreads := h.reads
  simp only [Reads, hreader] at hreads
  simp only [Careful, hreader] at hcareful
  obtain ⟨rfl, hcopies, hplace, k, hk, hge, hle, hload⟩ := hreads
  have hdropped := hcopies.dropped
  have hmeasured := hcopies.measured
  have hhead := h.head_eq
  have htotal := h.ring.head_le
  have hexec : s.exec numReports words = { s with
      reader := .wrap count 1
      oldestReport := loaded + 1 } := by
    simp only [exec, hreader]
  have hloaded : loaded + 1 ≤ numReports := by
    rw [hk]
    exact Nat.mod_lt k (by omega)
  have hnewer : ∀ n ∈ ms, n < taken + 1 := fun n hmem => Nat.lt_succ_of_le (h.ms_le n hmem)
  have hkeep : ∀ head', head ≤ head' → head' = max (taken + 1) (s.total - (numReports - 1)) →
      (loaded + 1) % numReports = head' % numReports →
      (s.exec numReports words).Inv numReports words ms (taken + 1) head' := by
    intro head' hmore hhead' hmod
    rw [hexec]
    refine ⟨h.ring.move rfl rfl rfl hmore (by omega) hmod hloaded, hhead',
      h.returns.keep rfl (Nat.le_refl _),
      fun m hmem => Nat.le_of_lt (hnewer m hmem), fun m hm hle hroom => ?_, ?_⟩
    · rcases Nat.lt_or_eq_of_le hle with hold | hnew
      · exact h.kept m hm (by omega) hroom
      · right
        show m ∈ s.hand
        rw [hcopies.hand, hnew]
        exact List.mem_singleton_self _
    · exact .inr ⟨taken + 1, rfl, hcopies.hand, hplace, by omega, by omega, hnewer⟩
  rcases hcareful with hnone | hone
  · -- The head is still where the report was taken from.
    have hsame : k = taken := by omega
    refine ⟨taken + 1, hkeep (taken + 1) (by omega) (by omega) ?_⟩
    rw [hk, hsame, Nat.mod_add_mod]
  · have hbehind : (head - k) % numReports = 1 := by
      have heq : head - k = s.dropped - s.droppedAtLoad := by omega
      rw [heq, hone]
    have hlt : k < head := by
      rcases Nat.lt_or_eq_of_le hle with hlt | hsame
      · exact hlt
      · rw [hsame, Nat.sub_self, Nat.zero_mod] at hbehind
        cases hbehind
    refine ⟨head, hkeep head (Nat.le_refl head) (by omega) ?_⟩
    rw [hk]
    exact succ_mod_of_behind hlt hbehind

/-- The comparison with the end of the ring. -/
theorem Inv.wrap (h : s.Inv numReports words ms taken head) {count copied : Nat}
    (hreader : s.reader = .wrap count copied) :
    (s.exec numReports words).Inv numReports words ms taken head := by
  have hreads := h.reads
  simp only [Reads, hreader] at hreads
  have hle := h.ring.oldest_le
  by_cases hend : s.oldestReport ≥ numReports
  · have hexec : s.exec numReports words = { s with reader := .reset count copied } := by
      simp only [exec, hreader, if_pos hend]
    rw [hexec]
    exact h.goOn ⟨hreads, Nat.le_antisymm hle hend⟩
  · have hexec : s.exec numReports words = { s with reader := .loop count copied } := by
      simp only [exec, hreader, if_neg hend]
    rw [hexec]
    exact h.goOn ⟨hreads, Nat.lt_of_not_le hend⟩

/-- The index goes from the end of the ring to its start. -/
theorem Inv.reset (hn : 2 ≤ numReports) (h : s.Inv numReports words ms taken head)
    {count copied : Nat} (hreader : s.reader = .reset count copied) :
    (s.exec numReports words).Inv numReports words ms taken head := by
  have hreads := h.reads
  simp only [Reads, hreader] at hreads
  obtain ⟨hcopied, hend⟩ := hreads
  have hexec : s.exec numReports words
      = { s with reader := .loop count copied, oldestReport := 0 } := by
    simp only [exec, hreader]
  have hzero : 0 % numReports = head % numReports := by
    rw [← h.ring.oldest, hend, Nat.mod_self, Nat.zero_mod]
  rw [hexec]
  refine ⟨h.ring.move rfl rfl rfl (Nat.le_refl head) h.ring.head_le hzero (Nat.zero_le _),
    h.head_eq, h.returns.keep rfl (Nat.le_refl _), h.ms_le, h.kept,
    hcopied, ?_⟩
  show 0 < numReports
  omega

/-- A call begins with nothing in hand. -/
theorem Inv.call (h : s.Inv numReports words ms taken head) (hidle : s.reader = .idle)
    (count : Nat) (buffer : Nat → Nat → Nat) :
    (s.call count buffer).Inv numReports words ms taken head := by
  have hreads := h.reads
  simp only [Reads, hidle] at hreads
  obtain ⟨hhand, holdest⟩ := hreads
  rw [L3gd20.call]
  split
  · exact h
  · have hsame : { s with reader := .loop count 0, buffer := buffer, hand := [] }
        = { s with reader := .loop count 0, buffer := buffer } := by
      rw [← hhand]
    rw [hsame]
    exact h.goOn ⟨.inl ⟨rfl, hhand⟩, holdest⟩

/-! ### Runs -/

/-- The next load, store or copy of a careful read keeps the invariant. -/
theorem Inv.exec (hn : 2 ≤ numReports) (h : s.Inv numReports words ms taken head)
    (hcareful : s.Careful numReports words .exec) :
    ∃ ms taken head, (s.exec numReports words).Inv numReports words ms taken head := by
  cases hreader : s.reader with
  | idle =>
      have hexec : s.exec numReports words = s := by simp only [L3gd20.exec, hreader]
      rw [hexec]
      exact ⟨ms, taken, head, h⟩
  | loop count copied =>
      cases count with
      | zero =>
          obtain ⟨ms', hinv⟩ := h.return hreader
          exact ⟨ms', taken, head, hinv⟩
      | succ count => exact ⟨ms, taken, head, h.loop hreader⟩
  | compare count copied oldest => exact ⟨ms, taken, head, h.compare hreader hcareful⟩
  | address count copied => exact ⟨ms, head, head, h.address hn hreader⟩
  | copy count copied index k => exact ⟨ms, taken, head, h.copy hreader hcareful⟩
  | store count copied loaded =>
      obtain ⟨head', hinv⟩ := h.store hn hreader hcareful
      exact ⟨ms, taken + 1, head', hinv⟩
  | wrap count copied => exact ⟨ms, taken, head, h.wrap hreader⟩
  | reset count copied => exact ⟨ms, taken, head, h.reset hn hreader⟩

/-- A careful event keeps the invariant. -/
theorem Inv.next (hn : 2 ≤ numReports) (h : s.Inv numReports words ms taken head) {event : Event}
    {t : L3gd20} (hstep : Next numReports words s event t)
    (hcareful : s.Careful numReports words event) :
    ∃ ms taken head, t.Inv numReports words ms taken head := by
  cases hstep with
  | interrupt =>
      obtain ⟨head', hinv⟩ := h.measure hn hcareful
      exact ⟨ms, taken, head', hinv⟩
  | call hidle => exact ⟨ms, taken, head, h.call hidle _ _⟩
  | exec _ => exact h.exec hn hcareful

/-- The places that an event accesses are in the ring. -/
theorem Inv.accesses (hn : 2 ≤ numReports) (h : s.Inv numReports words ms taken head)
    (event : Event) : ∀ i ∈ s.accesses words event, i < numReports := by
  intro i hi
  have hpos : 0 < numReports := by omega
  cases event with
  | interrupt =>
      rw [List.mem_singleton.mp hi, h.ring.next]
      exact Nat.mod_lt _ hpos
  | call count buffer => cases hi
  | exec =>
      simp only [L3gd20.accesses, execAccesses] at hi
      cases hreader : s.reader with
      | copy count copied index k =>
          have hreads := h.reads
          simp only [Reads, hreader] at hreads
          simp only [hreader] at hi
          split at hi
          · rw [List.mem_singleton.mp hi, hreads.2.2.1]
            exact Nat.mod_lt _ hpos
          · cases hi
      | _ =>
          simp only [hreader] at hi
          cases hi

/-- **Reading while it is measured.** In every run of careful events, each event accesses places of
the ring only, the reads have returned whole reports of different measurements in their order, and
no report has been lost for which the ring has had room. -/
theorem reads_of_careful (hn : 2 ≤ numReports) {reports : Nat → Nat} {buffer : Nat → Nat → Nat}
    {events : List Event} {t : L3gd20}
    (hrun : ((system numReports words).restrict (Careful numReports words)).Run
      (init reports buffer) events t) :
    ((system numReports words).obeying (Law numReports words)).Run (init reports buffer) events t
    := by
  refine hrun.obeying_of_restrict (fun s event t hreach hstep hcareful => ?_)
    (LTS.Reachable.of_init ⟨reports, buffer, rfl⟩)
  have hinv : ∃ ms taken head, s.Inv numReports words ms taken head := by
    refine hreach.invariant (I := fun s => ∃ ms taken head, s.Inv numReports words ms taken head)
      (fun s hs => ?_) fun s event t hs hstep => ?_
    · obtain ⟨reports, buffer, rfl⟩ := hs
      exact ⟨[], 0, 0, .init hn reports buffer⟩
    · obtain ⟨ms, taken, head, hinv⟩ := hs
      exact hinv.next hn hstep.2 hstep.1
  obtain ⟨ms, taken, head, hinv⟩ := hinv
  obtain ⟨ms', taken', head', hinv'⟩ := hinv.next hn hstep hcareful
  exact ⟨hinv.accesses hn event, ms', hinv'.returns, hinv'.kept_all⟩

end

instance (s : L3gd20) (event : Event) : Decidable (s.Careful 3 2 event) := by
  unfold Careful
  split
  · infer_instance
  · infer_instance
  · split <;> infer_instance

/-- Where an event leads, if it can happen. -/
def next (s : L3gd20) : Event → Option L3gd20
  | .interrupt => some (s.measure 3)
  | .call count buffer => if s.reader = .idle then some (s.call count buffer) else none
  | .exec => if s.reader ≠ .idle then some (s.exec 3 2) else none

theorem step_of_next (s : L3gd20) (event : Event) (t : L3gd20) (h : s.next event = some t) :
    (system 3 2).step s event t := by
  cases event with
  | interrupt =>
      cases h
      exact .interrupt
  | call count buffer =>
      obtain ⟨hidle, hcall⟩ := Option.ite_none_right_eq_some.mp h
      cases hcall
      exact .call hidle
  | exec =>
      obtain ⟨hreads, hexec⟩ := Option.ite_none_right_eq_some.mp h
      cases hexec
      exact .exec hreads

/-- A report is read while two more are measured: the second one comes between its two words, and
the third one drops it between the load and the store of the increment. Then the second one is
read. -/
def preempted : List Event :=
  [.interrupt, .call 1 fun _ _ => 0, .exec, .exec, .exec, .exec, .interrupt, .exec, .exec,
    .interrupt, .exec, .exec, .exec, .call 1 fun _ _ => 0, .exec, .exec, .exec, .exec, .exec, .exec,
    .exec, .exec, .exec]

/-- With three places of two words, both reads get whole reports. -/
theorem reads_of_careful_preempted :
    ∃ t, t.returned = [[1, 1], [2, 2]] ∧ t.dropped = 1 ∧
      ((system 3 2).obeying (Law 3 2)).Run (init (fun _ => 0) fun _ _ => 0) preempted t := by
  obtain ⟨t, ht⟩ := Option.isSome_iff_exists.mp
    (show (preempted.foldlM
      (fun (s : L3gd20) event => if s.Careful 3 2 event then s.next event else none)
      (init (fun _ => 0) fun _ _ => 0)).isSome = true by decide +kernel)
  have hresult : ∀ t ∈ preempted.foldlM
      (fun (s : L3gd20) event => if s.Careful 3 2 event then s.next event else none)
      (init (fun _ => 0) fun _ _ => 0), t.returned = [[1, 1], [2, 2]] ∧ t.dropped = 1 := by
    decide +kernel
  obtain ⟨hreturned, hdropped⟩ := hresult t ht
  exact ⟨t, hreturned, hdropped,
    reads_of_careful (by decide) (LTS.Run.restrict_of_foldlM step_of_next ht)⟩

/-- The second report is measured while the first one is copied. The first one is dropped, and
`read` takes the second one away, which nobody gets. -/
theorem second_report_lost :
    ¬ ∀ events t, (system 2 1).Run (init (fun _ => 0) fun _ _ => 0) events t →
      ((system 2 1).obeying (Law 2 1)).Run (init (fun _ => 0) fun _ _ => 0) events t := by
  intro hlaw
  have hrun : (system 2 1).Run (init (fun _ => 0) fun _ _ => 0)
      ([.interrupt, .call 1 fun _ _ => 0, .exec, .exec, .exec, .interrupt, .exec, .exec, .exec,
        .exec] ++ [.exec]) _ :=
    .cons .interrupt (.cons (.call rfl) (.cons (.exec (by decide)) (.cons (.exec (by decide))
      (.cons (.exec (by decide)) (.cons .interrupt (.cons (.exec (by decide))
        (.cons (.exec (by decide)) (.cons (.exec (by decide)) (.cons (.exec (by decide))
          (.cons (.exec (by decide)) (.nil _)))))))))))
  obtain ⟨u, -, -, -, ms, hreturns, hkept⟩ := (hlaw _ _ hrun).exists_of_snoc
  have hnone : ms = [] := List.map_eq_nil_iff.mp hreturns.whole.symm
  rcases hkept 2 (by decide) (by decide) (by decide) with hreturned | hwaits | hhand
  · rw [hnone] at hreturned
    cases hreturned
  · exact absurd hwaits (by decide)
  · exact absurd hhand (by decide)

end L3gd20

end Px4Firmware.Drivers
