import Px4Firmware.Drivers.Ms5611

/-!
# Px4Firmware.Drivers.L3gd20

The reports of the gyro driver (`drivers/l3gd20/l3gd20.cpp`) between the interrupt that measures and
a task that reads: `measure` puts a report into the ring of `_num_reports` places, and `read` takes
reports out of it in single loads, stores and copies of words, between any two of which the
interrupt can come. A `measure` runs as a whole.

A measurement is known by its number. A place of the ring is the number of the measurement that has
written it, and a word of the caller's buffer the number of the one from which it has been copied.
The words of a report that `measure` never sets are the same in all of them and are left out.
-/

namespace Px4Firmware.Drivers

/-- What `read` does next, with the passes of its loop that are left and the reports it has copied:
nothing, as it does not run; the loop's head, where `_oldest_report` is loaded; the comparison of it
with `_next_report`; the load of `_oldest_report` for the place to copy from; a word to be copied
or, when all have been, the load of `_oldest_report` to be incremented; the store of the incremented
value; the comparison with `_num_reports`; the store of zero. -/
inductive Reader
  | idle
  | loop (count copied : Nat)
  | compare (count copied oldest : Nat)
  | address (count copied : Nat)
  | copy (count copied index words : Nat)
  | store (count copied loaded : Nat)
  | wrap (count copied : Nat)
  | reset (count copied : Nat)
  deriving DecidableEq

/-- The driver in automatic mode, and the caller's buffer. The rest is not in the source: what the
reads have returned, the measurements that the current one has begun to copy, the numbers of
measurements and of those that have been dropped because the ring was full, and the latter number
when the place to copy from and the value to increment were loaded last. -/
structure L3gd20 where
  nextReport : Nat
  oldestReport : Nat
  reports : Nat → Nat
  reader : Reader
  buffer : Nat → Nat → Nat
  returned : List (List Nat)
  hand : List Nat
  total : Nat
  dropped : Nat
  droppedAtAddress : Nat
  droppedAtLoad : Nat

namespace L3gd20

/-- A driver that has been started. -/
def init (reports : Nat → Nat) (buffer : Nat → Nat → Nat) : L3gd20 where
  nextReport := 0
  oldestReport := 0
  reports := reports
  reader := .idle
  buffer := buffer
  returned := []
  hand := []
  total := 0
  dropped := 0
  droppedAtAddress := 0
  droppedAtLoad := 0

section

variable (numReports words : Nat)

/-- `measure`. -/
def measure (s : L3gd20) : L3gd20 :=
  let next := increment s.nextReport numReports
  let s := { s with
    reports := fun i => if i = s.nextReport then s.total + 1 else s.reports i
    total := s.total + 1
    nextReport := next }
  -- If we are running up against the oldest report, fix it.
  if s.nextReport = s.oldestReport then
    { s with oldestReport := increment s.oldestReport numReports, dropped := s.dropped + 1 }
  else
    s

/-- `read` is called, with a buffer for `count` reports. -/
def call (count : Nat) (buffer : Nat → Nat → Nat) (s : L3gd20) : L3gd20 :=
  if count < 1 then s else { s with reader := .loop count 0, buffer := buffer, hand := [] }

/-- A report in the caller's buffer. -/
def place (s : L3gd20) (i : Nat) : List Nat := (List.range words).map (s.buffer i)

/-- The next load, store or copy of `read`. -/
def exec (s : L3gd20) : L3gd20 :=
  match s.reader with
  | .idle => s
  | .loop 0 copied =>
      { s with
        reader := .idle
        returned := s.returned ++ (List.range copied).map (s.place words)
        hand := [] }
  | .loop (count + 1) copied => { s with reader := .compare count copied s.oldestReport }
  | .compare count copied oldest =>
      if oldest ≠ s.nextReport then { s with reader := .address count copied }
      else { s with reader := .loop count copied }
  | .address count copied =>
      { s with
        reader := .copy count copied s.oldestReport 0
        hand := s.hand ++ [s.reports s.oldestReport]
        droppedAtAddress := s.dropped }
  | .copy count copied index k =>
      if k < words then
        -- `buffer` stays at its first report.
        { s with
          reader := .copy count copied index (k + 1)
          buffer := fun i j => if i = 0 ∧ j = k then s.reports index else s.buffer i j }
      else
        { s with reader := .store count copied s.oldestReport, droppedAtLoad := s.dropped }
  | .store count copied loaded =>
      { s with reader := .wrap count (copied + 1), oldestReport := loaded + 1 }
  | .wrap count copied =>
      if s.oldestReport ≥ numReports then { s with reader := .reset count copied }
      else { s with reader := .loop count copied }
  | .reset count copied => { s with reader := .loop count copied, oldestReport := 0 }

/-- The places of the ring that an interrupt accesses. -/
def measureAccesses (s : L3gd20) : List Nat := [s.nextReport]

/-- The places of the ring that the next load, store or copy of `read` accesses. -/
def execAccesses (s : L3gd20) : List Nat :=
  match s.reader with
  | .copy _ _ index k => if k < words then [index] else []
  | _ => []

/-- The reports that wait in the ring, from the oldest one on. -/
def waiting (s : L3gd20) : List Nat :=
  (List.range ((s.nextReport + (numReports - s.oldestReport % numReports)) % numReports)).map
    fun i => s.reports ((s.oldestReport + i) % numReports)

end

end L3gd20

end Px4Firmware.Drivers
