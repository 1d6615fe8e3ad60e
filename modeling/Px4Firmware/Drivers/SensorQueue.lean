import Px4Firmware.Drivers.Ms5611
import Px4Firmware.Lib.CFloat
import Px4Firmware.Lib.OpenRing

/-!
# Px4Firmware.Drivers.SensorQueue

**The report queues** of the barometer (`ms5611.cpp`) and of the magnetometer (`hmc5883.cpp`), in
automatic mode. `collect` edits the report in the open slot of a ring and posts it; `read` copies
the oldest reports to the buffer of its caller, each of them to the begin of the buffer.

The law is that of a queue: a read gives the oldest reports in order, and only a full queue loses
one, its oldest. `sensor_queues_fifo_iff` says which runs obey it: those in which no read has more
than one report to copy. What goes wrong in the others is the buffer alone.
-/

namespace Px4Firmware.Drivers

open Px4Firmware.Lib

/-! ### The queue -/

section

variable {α κ : Type}

/-- The members of a driver: `_reports` with its `_num_reports` elements, `_next_report` and
`_oldest_report`, and the others that its `collect` uses. -/
structure Sensor (α κ : Type) where
  ring : OpenRing α
  rest : κ
  deriving DecidableEq

/-- Post a report to the ring, and toss the oldest one if the ring runs up against it. -/
def postReport (ring : OpenRing α) : OpenRing α :=
  let ring := { ring with next := increment ring.next ring.slots.length }
  if ring.next = ring.oldest then
    { ring with oldest := increment ring.oldest ring.slots.length }
  else ring

/-- `memcpy(buffer, _reports + _oldest_report, sizeof(*_reports))`. -/
def copyReport (ring : OpenRing α) (buffer : List α) : List α :=
  match ring.slots[ring.oldest]? with
  | some report => buffer.set 0 report
  | none => buffer

/-- The loop of `read`, with `count` reports to go: how many it copies, and the buffer. -/
def readReports (buffer : List α) (ring : OpenRing α) : Nat → Nat × List α × OpenRing α
  | 0 => (0, buffer, ring)
  | count + 1 =>
      if ring.oldest ≠ ring.next then
        let buffer := copyReport ring buffer
        let ring := { ring with oldest := increment ring.oldest ring.slots.length }
        let (copied, buffer, ring) := readReports buffer ring count
        (copied + 1, buffer, ring)
      else readReports buffer ring count

/-- `read`. The buffer is the list of the reports that have room in it. -/
def readAutomatic (sizeofReport buflen : Nat) (buffer : List α) (s : Sensor α κ) :
    Except Ms5611Error Nat × List α × Sensor α κ :=
  let count := buflen / sizeofReport
  if count < 1 then (.error .enospc, buffer, s)
  else
    let (copied, buffer, ring) := readReports buffer s.ring count
    let ret := copied * sizeofReport
    (if ret ≠ 0 then .ok ret else .error .eagain, buffer, { s with ring })

end

/-! ### The barometer -/

/-- `struct baro_report`. -/
structure BaroReport where
  pressure : CFloat
  altitude : CFloat
  temperature : CFloat
  timestamp : UInt64
  deriving DecidableEq

/-- What a conversion of the barometer comes with: the time, whether the transfer succeeds, and the
compensated values. -/
structure BaroReading where
  now : UInt64
  transferred : Bool
  temperature : CFloat
  pressure : CFloat
  altitude : CFloat

/-- `MS5611::collect`: whether it returns `OK`, and the report it publishes. The other member is
`_measure_phase`. -/
def ms5611Collect (reading : BaroReading) (s : Sensor BaroReport Nat) :
    Bool × Option BaroReport × Sensor BaroReport Nat :=
  let ring := s.ring.edit fun report => { report with timestamp := reading.now }
  if !reading.transferred then (false, none, { s with ring })
  else
    let measurePhase := increment s.rest (ms5611MeasurementRatio + 1)
    if s.rest = 0 then (true, none, ⟨ring, measurePhase⟩)
    else
      let ring := ring.edit fun report =>
        { report with
          temperature := reading.temperature
          pressure := reading.pressure
          altitude := reading.altitude }
      (true, ring.slots[ring.next]?, ⟨postReport ring, measurePhase⟩)

/-! The model of the driver without its reports (`Ms5611`) does the same with its indices. -/

/-- The indices and the phase are the same. -/
structure Agrees (d : Ms5611) (s : Sensor BaroReport Nat) : Prop where
  numReports : d.numReports = s.ring.slots.length
  nextReport : d.nextReport = s.ring.next
  oldestReport : d.oldestReport = s.ring.oldest
  measurePhase : d.measurePhase = s.rest

theorem Agrees.collect {d : Ms5611} {s t : Sensor BaroReport Nat} {reading : BaroReading}
    {published : Option BaroReport} (h : Agrees d s)
    (hcollect : ms5611Collect reading s = (true, published, t)) : Agrees d.collect t := by
  obtain ⟨hnum, hnext, holdest, hphase⟩ := h
  dsimp only [ms5611Collect] at hcollect
  split at hcollect
  · cases hcollect
  · split at hcollect
    · next hzero =>
      cases hcollect
      rw [Ms5611.collect, if_pos (hphase.trans hzero), hphase]
      exact ⟨by simp [hnum], hnext, holdest, rfl⟩
    · next hpressure =>
      cases hcollect
      rw [Ms5611.collect, if_neg (hphase ▸ hpressure)]
      simp only [Ms5611.postReport, postReport, OpenRing.edit, List.length_modify, hnum, hnext,
        holdest, hphase]
      split <;> exact ⟨by simp, rfl, by simp, by simp⟩

theorem Agrees.readReports {d : Ms5611} {ring : OpenRing BaroReport} {phase : Nat}
    (h : Agrees d ⟨ring, phase⟩) (count : Nat) (buffer : List BaroReport) :
    (d.readReports count).1 = (Drivers.readReports buffer ring count).1 * sizeofBaroReport ∧
      Agrees (d.readReports count).2 ⟨(Drivers.readReports buffer ring count).2.2, phase⟩ := by
  induction count generalizing d ring buffer with
  | zero => exact ⟨(Nat.zero_mul _).symm, h⟩
  | succ count ih =>
      obtain ⟨work, cycle, ticks, num, next, oldest, collectPhase, measurePhase, pressure⟩ := d
      obtain ⟨hnum, hnext, holdest, hphase⟩ := h
      dsimp only at hnum hnext holdest hphase
      subst hnum hnext holdest hphase
      rw [Ms5611.readReports, Drivers.readReports]
      split
      · have hpopped : Agrees
            ⟨work, cycle, ticks, _, ring.next, increment ring.oldest ring.slots.length,
              collectPhase, measurePhase, pressure⟩
            ⟨{ ring with oldest := increment ring.oldest ring.slots.length }, measurePhase⟩ :=
          ⟨rfl, rfl, rfl, rfl⟩
        obtain ⟨hcount, hagrees⟩ := ih hpopped (copyReport ring buffer)
        refine ⟨?_, hagrees⟩
        show sizeofBaroReport + _ = _
        rw [hcount, Nat.succ_mul, Nat.add_comm]
      · exact ih ⟨rfl, rfl, rfl, rfl⟩ buffer

/-! ### The magnetometer -/

/-- `struct mag_report`. -/
structure MagReport where
  timestamp : UInt64
  x : CFloat
  y : CFloat
  z : CFloat
  rangeGa : CFloat
  scaling : CFloat
  xRaw : Int
  yRaw : Int
  zRaw : Int
  deriving DecidableEq

/-- `sizeof(struct mag_report)`. -/
def sizeofMagReport : Nat := 40

/-- An axis in `hmc_report`: the high byte and the low byte. -/
structure AxisBytes where
  high : UInt8
  low : UInt8

/-- The 16-bit value of an axis. -/
def AxisBytes.value (bytes : AxisBytes) : Int :=
  (bytes.high.toNat * 256 + bytes.low.toNat : Int).bmod 65536

/-- What a measurement of the magnetometer comes with: the time, whether the transfer succeeds, the
bytes in `hmc_report`, and the scaled values. -/
structure MagReading where
  now : UInt64
  transferred : Bool
  xBytes : AxisBytes
  zBytes : AxisBytes
  yBytes : AxisBytes
  x : CFloat
  y : CFloat
  z : CFloat

/-- A value is out of range. -/
def MagReading.outOfRange (reading : MagReading) : Bool :=
  decide (2048 < reading.xBytes.value.natAbs) || decide (2048 < reading.yBytes.value.natAbs) ||
    decide (2048 < reading.zBytes.value.natAbs)

/-- `HMC5883::collect`: whether it returns `OK`, and the report it publishes. With a value out of
range it returns the `OK` of the transfer. -/
def hmc5883Collect (reading : MagReading) (s : Sensor MagReport Unit) :
    Bool × Option MagReport × Sensor MagReport Unit :=
  let ring := s.ring.edit fun report => { report with timestamp := reading.now }
  if !reading.transferred then (false, none, { s with ring })
  else if reading.outOfRange then (true, none, { s with ring })
  else
    let ring := ring.edit fun report =>
      { report with
        xRaw := reading.yBytes.value
        yRaw := if reading.xBytes.value = -32768 then 32767 else -reading.xBytes.value
        zRaw := reading.zBytes.value
        x := reading.x
        y := reading.y
        z := reading.z }
    (true, ring.slots[ring.next]?, { s with ring := postReport ring })

/-! ### The drivers as transition systems -/

/-- A collection that returns `OK`, with what it publishes, or a read, with what it returns. -/
inductive QueueEvent (ι α : Type)
  | collect (reading : ι) (published : Option α)
  | read (buflen : Nat) (ret : Except Ms5611Error Nat)

/-- What makes a driver: the size of a report, and its `collect`. -/
structure SensorDriver (ι α κ : Type) where
  sizeofReport : Nat
  collect : ι → Sensor α κ → Bool × Option α × Sensor α κ

/-- The MS5611. -/
def ms5611Driver : SensorDriver BaroReading BaroReport Nat := ⟨sizeofBaroReport, ms5611Collect⟩

/-- The HMC5883. -/
def hmc5883Driver : SensorDriver MagReading MagReport Unit := ⟨sizeofMagReport, hmc5883Collect⟩

section

variable {ι α κ : Type}

/-- What a driver can do in automatic mode. -/
def SensorDriver.step (d : SensorDriver ι α κ) (s : Sensor α κ) : QueueEvent ι α → Sensor α κ → Prop
  | .collect reading published, t => d.collect reading s = (true, published, t)
  | .read buflen ret, t => ∃ buffer buffer' : List α,
      buffer.length = buflen / d.sizeofReport ∧
        readAutomatic d.sizeofReport buflen buffer s = (ret, buffer', t)

/-- How many reports a read returns. -/
def reportsReturned (sizeofReport : Nat) : Except Ms5611Error Nat → Nat
  | .ok ret => ret / sizeofReport
  | .error _ => 0

/-- An account of the reports: all of them in the order they were posted, how many of them have been
read or tossed, and the numbers of those that were read. -/
structure Account (α : Type) where
  posted : List α
  gone : Nat
  delivered : List Nat

/-- Before the first report. -/
def Account.start : Account α := ⟨[], 0, []⟩

/-- The account after an event. -/
def Account.next (sizeofReport : Nat) (account : Account α) (s : Sensor α κ) (e : QueueEvent ι α)
    (t : Sensor α κ) : Account α :=
  match e with
  | .collect _ published =>
      { account with
        posted := account.posted ++ published.toList
        gone := if t.ring.oldest = s.ring.oldest then account.gone else account.gone + 1 }
  | .read _ ret =>
      { account with
        gone := account.gone + reportsReturned sizeofReport ret
        delivered := account.delivered ++
          List.range' account.gone (reportsReturned sizeofReport ret) }

/-- The indices are zero after `start`. There are at least two slots, with anything in them. -/
def ringStart (first second : α) (others : List α) : OpenRing α := ⟨first :: second :: others, 0, 0⟩

/-- A driver with its account, from a state on. -/
def SensorDriver.queue (d : SensorDriver ι α κ) (start : Sensor α κ) :
    LTS (Sensor α κ × Account α) (QueueEvent ι α) :=
  LTS.observe ⟨fun s => s = start, d.step⟩ .start (Account.next d.sizeofReport)

/-! ### The law -/

/-- The law of a step. -/
structure FirstInFirstOut (d : SensorDriver ι α κ) (p : Sensor α κ × Account α)
    (e : QueueEvent ι α) (q : Sensor α κ × Account α) : Prop where
  /-- A read puts the oldest reports in the buffer, in order, whatever the buffer had before. -/
  inOrder : ∀ buflen ret buffer, e = .read buflen ret → buffer.length = buflen / d.sizeofReport →
    ∀ i, i < reportsReturned d.sizeofReport ret → ∃ report,
      p.2.posted[p.2.gone + i]? = some report ∧
        (readAutomatic d.sizeofReport buflen buffer p.1).2.1[i]? = some report
  /-- No report is read twice. -/
  once : q.2.delivered.Nodup
  /-- A collection loses the oldest report, and only when the queue is full. -/
  lost : ∀ reading published, e = .collect reading published → q.2.gone ≠ p.2.gone →
    p.1.ring.queued + 1 = p.1.ring.slots.length ∧ q.2.gone = p.2.gone + 1
  /-- What is queued is what has been posted and is not gone. -/
  queued : q.2.gone + q.1.ring.queued = q.2.posted.length
  /-- A slot stays open. -/
  bound : q.1.ring.queued + 1 ≤ q.1.ring.slots.length
  /-- The indices stay in the ring. -/
  indices : q.1.ring.next < q.1.ring.slots.length ∧ q.1.ring.oldest < q.1.ring.slots.length

/-- The condition on a step: a read has at most one report to copy. -/
def CopiesOne (d : SensorDriver ι α κ) (p : Sensor α κ × Account α) : QueueEvent ι α → Prop
  | .read buflen _ => min (buflen / d.sizeofReport) p.1.ring.queued ≤ 1
  | .collect _ _ => True

end

/-! ### Reads -/

section

variable {ι α κ : Type}

theorem readReports_spec {ring : OpenRing α} {l : List α} (h : ring.Holds l) (count : Nat)
    (buffer : List α) :
    ∃ ring', readReports buffer ring count =
        (min count l.length, (l.take count).foldl (fun buffer report => buffer.set 0 report) buffer,
          ring') ∧
      ring'.Holds (l.drop count) ∧ ring'.slots = ring.slots := by
  induction count generalizing ring l buffer with
  | zero => exact ⟨ring, by simp [readReports], h, rfl⟩
  | succ count ih =>
      cases l with
      | nil =>
          obtain ⟨ring', hread, hholds, hslots⟩ := ih h buffer
          rw [List.take_nil, List.drop_nil, List.length_nil, Nat.min_zero] at *
          refine ⟨ring', ?_, hholds, hslots⟩
          rw [readReports, if_neg (not_not_intro h.eq_next), hread]
      | cons x l =>
          obtain ⟨hne, holdest, hpop⟩ := h.pop
          obtain ⟨ring', hread, hholds, hslots⟩ := ih hpop (buffer.set 0 x)
          refine ⟨ring', ?_, hholds, hslots⟩
          have hcopy : copyReport ring buffer = buffer.set 0 x := by
            rw [copyReport, holdest]
          have hring : { ring with oldest := increment ring.oldest ring.slots.length } = ring.pop :=
            rfl
          rw [readReports, if_pos hne, hcopy, hring]
          simp [hread, Nat.succ_min_succ]

theorem readAutomatic_spec {sizeofReport : Nat} (hpos : 0 < sizeofReport) {s : Sensor α κ}
    {l : List α} (h : s.ring.Holds l) (buflen : Nat) (buffer : List α) :
    reportsReturned sizeofReport (readAutomatic sizeofReport buflen buffer s).1 =
        min (buflen / sizeofReport) l.length ∧
      (readAutomatic sizeofReport buflen buffer s).2.1 =
        (l.take (buflen / sizeofReport)).foldl (fun buffer report => buffer.set 0 report) buffer ∧
      (readAutomatic sizeofReport buflen buffer s).2.2.ring.Holds
        (l.drop (buflen / sizeofReport)) ∧
      (readAutomatic sizeofReport buflen buffer s).2.2.ring.slots = s.ring.slots := by
  unfold readAutomatic
  by_cases hcount : buflen / sizeofReport < 1
  · have hzero : buflen / sizeofReport = 0 := Nat.lt_one_iff.mp hcount
    simp [hzero, reportsReturned, h]
  · obtain ⟨ring', hread, hholds, hslots⟩ := readReports_spec h (buflen / sizeofReport) buffer
    simp only [if_neg hcount, hread]
    refine ⟨?_, trivial, hholds, hslots⟩
    split
    · exact Nat.mul_div_cancel _ hpos
    · next hnone =>
      obtain hzero | hzero := Nat.mul_eq_zero.mp (Decidable.not_not.mp hnone)
      · exact hzero.symm
      · omega

/-- Copies to the begin of a buffer leave the rest as it is. -/
theorem foldl_set_zero_getElem? (l buffer : List α) (i : Nat) :
    (l.foldl (fun buffer report => buffer.set 0 report) buffer)[i + 1]? = buffer[i + 1]? := by
  induction l generalizing buffer with
  | nil => rfl
  | cons x l ih =>
      rw [List.foldl_cons, ih, List.getElem?_set_ne (by omega)]

/-- **What a read does to the buffer**: the reports are there in order, whatever it had before, when
there is at most one of them. -/
theorem copies_in_order_iff (hother : ∀ x : α, ∃ y, y ≠ x) (l : List α) (count : Nat) :
    (∀ buffer : List α, buffer.length = count → ∀ i, i < min count l.length →
      ∃ report, l[i]? = some report ∧
        ((l.take count).foldl (fun buffer report => buffer.set 0 report) buffer)[i]? =
          some report) ↔ min count l.length ≤ 1 := by
  constructor
  · intro horder
    refine Nat.le_of_not_lt fun hmore => ?_
    obtain ⟨hcount, hlength⟩ := Nat.lt_min.mp hmore
    obtain ⟨y, hy⟩ := hother (l[1])
    obtain ⟨report, hreport, hcopied⟩ := horder (List.replicate count y) (by simp) 1 hmore
    rw [foldl_set_zero_getElem?, List.getElem?_replicate, if_pos (by omega)] at hcopied
    rw [List.getElem?_eq_getElem hlength] at hreport
    exact hy (Option.some_inj.mp (hcopied.trans hreport.symm))
  · rintro hone buffer hbuffer i hi
    obtain ⟨hcount, hlength⟩ := Nat.lt_min.mp hi
    obtain rfl : i = 0 := by omega
    cases l with
    | nil => cases hlength
    | cons x l =>
        refine ⟨x, rfl, ?_⟩
        have htake : (x :: l).take count = [x] := by
          rw [List.length_cons] at hone
          obtain hcount' | hl : count = 1 ∨ l.length = 0 := by omega
          · rw [hcount']
            rfl
          · rw [List.length_eq_zero_iff.mp hl]
            exact List.take_of_length_le hcount
        rw [htake, List.foldl_cons, List.foldl_nil, List.getElem?_set_self (by omega)]

end

/-! ### Steps -/

section

variable {ι α κ : Type} {d : SensorDriver ι α κ}

/-- A driver whose `collect` edits the open slot, and posts it when it publishes it. -/
structure SensorDriver.Posts (d : SensorDriver ι α κ) : Prop where
  size_pos : 0 < d.sizeofReport
  collect : ∀ reading s published t, d.collect reading s = (true, published, t) → ∃ f,
    (published = none ∧ t.ring = s.ring.edit f) ∨
      published = (s.ring.edit f).slots[s.ring.next]? ∧ t.ring = (s.ring.edit f).post

/-- What holds of a driver and its account. -/
structure Tracks (p : Sensor α κ × Account α) : Prop where
  slots : 2 ≤ p.1.ring.slots.length
  holds : p.1.ring.Holds (p.2.posted.drop p.2.gone)
  gone_le : p.2.gone ≤ p.2.posted.length
  nodup : p.2.delivered.Nodup
  delivered_lt : ∀ number ∈ p.2.delivered, number < p.2.gone

theorem Tracks.queued {p : Sensor α κ × Account α} (h : Tracks p) :
    p.2.gone + p.1.ring.queued = p.2.posted.length := by
  rw [h.holds.queued_eq, List.length_drop]
  have := h.gone_le
  omega

/-- A collection keeps what holds, and loses a report only when the queue is full. -/
theorem Tracks.collect (hd : d.Posts) {s t : Sensor α κ} {account : Account α}
    (h : Tracks (s, account)) {reading : ι} {published : Option α}
    (hstep : d.collect reading s = (true, published, t)) :
    Tracks (t, account.next d.sizeofReport s (.collect reading published) t) ∧
      ((account.next d.sizeofReport s (.collect reading published) t).gone ≠ account.gone →
        s.ring.queued + 1 = s.ring.slots.length ∧
          (account.next d.sizeofReport s (.collect reading published) t).gone =
            account.gone + 1) := by
  have hslots : 2 ≤ s.ring.slots.length := h.slots
  have hgone : account.gone ≤ account.posted.length := h.gone_le
  obtain ⟨f, ⟨rfl, ht⟩ | ⟨rfl, ht⟩⟩ := hd.collect _ _ _ _ hstep
  · have holdest : t.ring.oldest = s.ring.oldest := by rw [ht]; rfl
    simp only [Account.next, holdest, Option.toList_none, List.append_nil, if_true]
    refine ⟨⟨?_, ?_, hgone, h.nodup, h.delivered_lt⟩, fun hlost => absurd rfl hlost⟩
    · simpa [ht] using hslots
    · rw [ht]
      exact h.holds.edit f
  · have hedit : (s.ring.edit f).Holds (account.posted.drop account.gone) := h.holds.edit f
    have hlt := hedit.next_lt
    obtain ⟨x, hx⟩ : ∃ x, (s.ring.edit f).slots[s.ring.next]? = some x :=
      ⟨_, List.getElem?_eq_getElem hlt⟩
    have hlength : (account.posted.drop account.gone).length =
        account.posted.length - account.gone := List.length_drop
    have hbound : (account.posted.drop account.gone).length < s.ring.slots.length :=
      h.holds.length_lt
    have hqueued : s.ring.queued = (account.posted.drop account.gone).length :=
      h.holds.queued_eq
    have hslotsNext : t.ring.slots.length = s.ring.slots.length := by simp [ht]
    rw [hx]
    by_cases hroom : account.posted.length - account.gone + 1 < s.ring.slots.length
    · obtain ⟨hholds, holdest⟩ := hedit.post_of_room hx (by simpa using hroom)
      replace holdest : t.ring.oldest = s.ring.oldest := by rw [ht, holdest]; rfl
      simp only [Account.next, holdest, Option.toList_some, if_true]
      refine ⟨⟨hslotsNext ▸ hslots, ?_, ?_, h.nodup, h.delivered_lt⟩, fun hlost => absurd rfl hlost⟩
      · rw [ht, List.drop_append_of_le_length hgone]
        exact hholds
      · simp
        omega
    · obtain ⟨hholds, holdest⟩ := hedit.post_of_full hx (by simp; omega) (by omega)
      replace holdest : t.ring.oldest ≠ s.ring.oldest := by rw [ht]; exact holdest
      simp only [Account.next, if_neg holdest, Option.toList_some]
      refine ⟨⟨hslotsNext ▸ hslots, ?_, ?_, h.nodup, fun number hnumber => ?_⟩, fun _ => ?_⟩
      · have hle : account.gone + 1 ≤ account.posted.length := by omega
        rw [ht, List.drop_append_of_le_length hle, ← List.tail_drop]
        exact hholds
      · simp
        omega
      · exact Nat.lt_succ_of_lt (h.delivered_lt number hnumber)
      · exact ⟨by omega, trivial⟩

/-- A read keeps what holds, and the reports are in the buffer in order when there is at most
one. -/
theorem Tracks.read (hd : d.Posts) (hother : ∀ x : α, ∃ y, y ≠ x) {s t : Sensor α κ}
    {account : Account α} (h : Tracks (s, account)) {buflen : Nat} {ret : Except Ms5611Error Nat}
    (hstep : d.step s (.read buflen ret) t) :
    Tracks (t, account.next d.sizeofReport s (.read buflen ret : QueueEvent ι α) t) ∧
      ((∀ buffer : List α, buffer.length = buflen / d.sizeofReport →
        ∀ i, i < reportsReturned d.sizeofReport ret → ∃ report,
          account.posted[account.gone + i]? = some report ∧
            (readAutomatic d.sizeofReport buflen buffer s).2.1[i]? = some report) ↔
        min (buflen / d.sizeofReport) s.ring.queued ≤ 1) := by
  obtain ⟨buffer, buffer', hbuffer, hread⟩ := hstep
  have hslots : 2 ≤ s.ring.slots.length := h.slots
  have hgone : account.gone ≤ account.posted.length := h.gone_le
  have hholds : s.ring.Holds (account.posted.drop account.gone) := h.holds
  have hspec := readAutomatic_spec hd.size_pos hholds buflen
  have hcount : reportsReturned d.sizeofReport ret =
      min (buflen / d.sizeofReport) (account.posted.drop account.gone).length := by
    rw [← (hspec buffer).1, hread]
  have hnext : t.ring.Holds
      ((account.posted.drop account.gone).drop (buflen / d.sizeofReport)) := by
    have hdropped := (hspec buffer).2.2.1
    rwa [hread] at hdropped
  have hslotsNext : t.ring.slots = s.ring.slots := by
    rw [← (hspec buffer).2.2.2, hread]
  constructor
  · refine ⟨?_, ?_, ?_, ?_, fun number hnumber => ?_⟩
    · show 2 ≤ t.ring.slots.length
      rw [hslotsNext]
      exact hslots
    · show t.ring.Holds (account.posted.drop (account.gone + reportsReturned d.sizeofReport ret))
      rw [hcount, ← List.drop_drop]
      by_cases hall : buflen / d.sizeofReport ≤ (account.posted.drop account.gone).length
      · rwa [Nat.min_eq_left hall]
      · rw [List.drop_of_length_le (by omega)] at hnext
        rwa [Nat.min_eq_right (by omega), List.drop_length]
    · show account.gone + reportsReturned d.sizeofReport ret ≤ account.posted.length
      rw [hcount, List.length_drop]
      omega
    · refine List.nodup_append.mpr ⟨h.nodup, List.nodup_range', fun a ha b hb => ?_⟩
      have hlow : a < account.gone := h.delivered_lt a ha
      have hhigh := (List.mem_range'_1.mp hb).1
      omega
    · obtain hbefore | hnew := List.mem_append.mp hnumber
      · exact Nat.lt_add_right _ (h.delivered_lt number hbefore)
      · exact (List.mem_range'_1.mp hnew).2
  · have hqueued : s.ring.queued = (account.posted.drop account.gone).length := hholds.queued_eq
    rw [hqueued, ← copies_in_order_iff hother, hcount]
    refine forall_congr' fun other => forall_congr' fun _ => forall_congr' fun i =>
      forall_congr' fun _ => ?_
    rw [(hspec other).2.1, List.getElem?_drop]

/-- The parts of the law that every step obeys. -/
theorem Tracks.law {p q : Sensor α κ × Account α} {e : QueueEvent ι α} (h : Tracks q)
    (inOrder : ∀ buflen ret buffer, e = .read buflen ret → buffer.length = buflen / d.sizeofReport →
      ∀ i, i < reportsReturned d.sizeofReport ret → ∃ report,
        p.2.posted[p.2.gone + i]? = some report ∧
          (readAutomatic d.sizeofReport buflen buffer p.1).2.1[i]? = some report)
    (lost : ∀ reading published, e = .collect reading published → q.2.gone ≠ p.2.gone →
      p.1.ring.queued + 1 = p.1.ring.slots.length ∧ q.2.gone = p.2.gone + 1) :
    FirstInFirstOut d p e q where
  inOrder := inOrder
  once := h.nodup
  lost := lost
  queued := h.queued
  bound := by
    rw [h.holds.queued_eq]
    exact h.holds.length_lt
  indices := ⟨h.holds.next_lt, h.holds.oldest_lt⟩

/-- **One step.** -/
theorem queue_step (hd : d.Posts) (hother : ∀ x : α, ∃ y, y ≠ x) {start : Sensor α κ}
    {p q : Sensor α κ × Account α} {e : QueueEvent ι α} (hstep : (d.queue start).step p e q)
    (h : Tracks p) : Tracks q ∧ (FirstInFirstOut d p e q ↔ CopiesOne d p e) := by
  obtain ⟨s, account⟩ := p
  obtain ⟨t, account'⟩ := q
  obtain ⟨hdriver, haccount⟩ := hstep
  obtain rfl : account' = account.next d.sizeofReport s e t := haccount
  cases e with
  | collect reading published =>
      obtain ⟨htracks, hlost⟩ := h.collect hd hdriver
      refine ⟨htracks, iff_of_true (htracks.law ?_ fun _ _ _ => hlost) trivial⟩
      intro buflen ret buffer habsurd
      cases habsurd
  | read buflen ret =>
      obtain ⟨htracks, horder⟩ := h.read hd hother hdriver
      refine ⟨htracks, ?_⟩
      rw [CopiesOne, ← horder]
      constructor
      · exact fun hlaw buffer hbuffer => hlaw.inOrder buflen ret buffer rfl hbuffer
      · intro hbuffers
        refine htracks.law (fun buflen' ret' buffer heq => ?_) fun reading published habsurd => ?_
        · cases heq
          exact hbuffers buffer
        · cases habsurd

theorem tracks_start (first second : α) (others : List α) (rest : κ) :
    Tracks (⟨ringStart first second others, rest⟩, .start) where
  slots := Nat.le_add_left 2 _
  holds := OpenRing.holds_nil (Nat.succ_pos _) rfl
  gone_le := Nat.le_refl 0
  nodup := List.nodup_nil
  delivered_lt number hnumber := by cases hnumber

/-- The runs of a driver that obey the law. -/
theorem fifo_iff (hd : d.Posts) (hother : ∀ x : α, ∃ y, y ≠ x) (first second : α)
    (others : List α) (rest : κ) (events : List (QueueEvent ι α)) (q : Sensor α κ × Account α) :
    ((d.queue ⟨ringStart first second others, rest⟩).obeying (FirstInFirstOut d)).Run
        (⟨ringStart first second others, rest⟩, .start) events q ↔
      ((d.queue ⟨ringStart first second others, rest⟩).restrict (CopiesOne d)).Run
        (⟨ringStart first second others, rest⟩, .start) events q := by
  have hinit : (d.queue ⟨ringStart first second others, rest⟩).init
      (⟨ringStart first second others, rest⟩, .start) := ⟨rfl, rfl⟩
  refine LTS.run_obeying_iff (fun p e q hreach hstep => (queue_step hd hother hstep ?_).2) hinit
  refine hreach.invariant (I := Tracks) ?_ ?_
  · rintro ⟨s, account⟩ ⟨rfl, rfl⟩
    exact tracks_start first second others rest
  · exact fun p e q h hrestricted => (queue_step hd hother hrestricted.2 h).1

end

/-- Two edits of the open slot are one. -/
theorem posted_of_edits {α : Type} (f g : α → α) (ring : OpenRing α) :
    ((ring.edit f).edit g).slots[ring.next]? = (ring.edit (g ∘ f)).slots[ring.next]? ∧
      postReport ((ring.edit f).edit g) = (ring.edit (g ∘ f)).post := by
  rw [OpenRing.edit_edit]
  exact ⟨rfl, rfl⟩

theorem ms5611Driver_posts : ms5611Driver.Posts where
  size_pos := by decide
  collect reading s published t h := by
    replace h : ms5611Collect reading s = (true, published, t) := h
    dsimp only [ms5611Collect] at h
    split at h
    · cases h
    · split at h
      · cases h
        exact ⟨_, .inl ⟨rfl, rfl⟩⟩
      · cases h
        exact ⟨_, .inr (posted_of_edits _ _ s.ring)⟩

theorem hmc5883Driver_posts : hmc5883Driver.Posts where
  size_pos := by decide
  collect reading s published t h := by
    replace h : hmc5883Collect reading s = (true, published, t) := h
    dsimp only [hmc5883Collect] at h
    split at h
    · cases h
    · split at h
      · cases h
        exact ⟨_, .inl ⟨rfl, rfl⟩⟩
      · cases h
        exact ⟨_, .inr (posted_of_edits _ _ s.ring)⟩

/-- A report with another time is another report. -/
theorem exists_ne_baroReport (report : BaroReport) : ∃ other, other ≠ report :=
  ⟨{ report with timestamp := report.timestamp + 1 }, fun heq => by
    have htime : report.timestamp + 1 = report.timestamp := congrArg BaroReport.timestamp heq
    simp at htime⟩

theorem exists_ne_magReport (report : MagReport) : ∃ other, other ≠ report :=
  ⟨{ report with timestamp := report.timestamp + 1 }, fun heq => by
    have htime : report.timestamp + 1 = report.timestamp := congrArg MagReport.timestamp heq
    simp at htime⟩

/-! ### The runs -/

/-- The barometer after `start`. -/
def ms5611Start (first second : BaroReport) (others : List BaroReport) : Sensor BaroReport Nat :=
  ⟨ringStart first second others, 0⟩

/-- The magnetometer after `start`. -/
def hmc5883Start (first second : MagReport) (others : List MagReport) : Sensor MagReport Unit :=
  ⟨ringStart first second others, ()⟩

/-- **The runs of the two drivers that obey the law** are those in which no read has more than one
report to copy. -/
theorem sensor_queues_fifo_iff (first second : BaroReport) (others : List BaroReport)
    (events : List (QueueEvent BaroReading BaroReport))
    (q : Sensor BaroReport Nat × Account BaroReport) (first' second' : MagReport)
    (others' : List MagReport) (events' : List (QueueEvent MagReading MagReport))
    (q' : Sensor MagReport Unit × Account MagReport) :
    (((ms5611Driver.queue (ms5611Start first second others)).obeying
          (FirstInFirstOut ms5611Driver)).Run (ms5611Start first second others, .start) events q ↔
        ((ms5611Driver.queue (ms5611Start first second others)).restrict
          (CopiesOne ms5611Driver)).Run (ms5611Start first second others, .start) events q) ∧
    (((hmc5883Driver.queue (hmc5883Start first' second' others')).obeying
          (FirstInFirstOut hmc5883Driver)).Run
            (hmc5883Start first' second' others', .start) events' q' ↔
        ((hmc5883Driver.queue (hmc5883Start first' second' others')).restrict
          (CopiesOne hmc5883Driver)).Run
            (hmc5883Start first' second' others', .start) events' q') :=
  ⟨fifo_iff ms5611Driver_posts exists_ne_baroReport first second others _ events q,
    fifo_iff hmc5883Driver_posts exists_ne_magReport first' second' others' _ events' q'⟩

/-! ### Two reports at once -/

/-- What a collection leaves. -/
theorem queue_collect {ι α κ : Type} {d : SensorDriver ι α κ} {start : Sensor α κ}
    {p q : Sensor α κ × Account α} {reading : ι} {published : Option α}
    (h : (d.queue start).step p (.collect reading published) q) :
    q = ((d.collect reading p.1).2.2, p.2.next d.sizeofReport p.1 (.collect reading published)
      (d.collect reading p.1).2.2) := by
  obtain ⟨hdriver, haccount⟩ := h
  replace hdriver : d.collect reading p.1 = (true, published, q.1) := hdriver
  rw [hdriver]
  exact Prod.ext rfl haccount

/-- A step of a collection. -/
theorem queue_of_collect {ι α κ : Type} {d : SensorDriver ι α κ} {start s t : Sensor α κ}
    {account account' : Account α} {reading : ι} {published : Option α}
    (h : d.collect reading s = (true, published, t))
    (haccount : account' = account.next d.sizeofReport s (.collect reading published) t) :
    (d.queue start).step (s, account) (.collect reading published) (t, account') := ⟨h, haccount⟩

/-- A step of a read. -/
theorem queue_of_read {ι α κ : Type} {d : SensorDriver ι α κ} {start s t : Sensor α κ}
    {account account' : Account α} {buflen : Nat} {ret : Except Ms5611Error Nat}
    (buffer buffer' : List α) (hbuffer : buffer.length = buflen / d.sizeofReport)
    (h : readAutomatic d.sizeofReport buflen buffer s = (ret, buffer', t))
    (haccount : account' = account.next d.sizeofReport s (.read buflen ret : QueueEvent ι α) t) :
    (d.queue start).step (s, account) (.read buflen ret) (t, account') :=
  ⟨⟨buffer, buffer', hbuffer, h⟩, haccount⟩

/-- A conversion at the microsecond `now`. -/
def baroReadingAt (now : UInt64) : BaroReading := ⟨now, true, .finite 0, .finite 0, .finite 0⟩

/-- A report of such a conversion. -/
def baroReportAt (now : UInt64) : BaroReport := ⟨.finite 0, .finite 0, .finite 0, now⟩

/-- A measurement at the microsecond `now`. -/
def magReadingAt (now : UInt64) : MagReading :=
  ⟨now, true, ⟨0, 0⟩, ⟨0, 0⟩, ⟨0, 0⟩, .finite 0, .finite 0, .finite 0⟩

/-- A report of such a measurement. -/
def magReportAt (now : UInt64) : MagReport :=
  ⟨now, .finite 0, .finite 0, .finite 0, .finite 0, .finite 0, 0, 0, 0⟩

/-- With room for two reports, a read of two puts the second one where the first one should be. -/
theorem sensor_queues_not_fifo :
    (¬∀ first second others events q,
      (ms5611Driver.queue (ms5611Start first second others)).Run
          (ms5611Start first second others, .start) events q →
        ((ms5611Driver.queue (ms5611Start first second others)).obeying
          (FirstInFirstOut ms5611Driver)).Run (ms5611Start first second others, .start) events q) ∧
    ¬∀ first second others events q,
      (hmc5883Driver.queue (hmc5883Start first second others)).Run
          (hmc5883Start first second others, .start) events q →
        ((hmc5883Driver.queue (hmc5883Start first second others)).obeying
          (FirstInFirstOut hmc5883Driver)).Run (hmc5883Start first second others, .start)
            events q := by
  constructor
  · intro hlaw
    let report := baroReportAt
    have hrun : (ms5611Driver.queue (ms5611Start (report 0) (report 0) [report 0])).Run
        (ms5611Start (report 0) (report 0) [report 0], .start)
        [.collect (baroReadingAt 1) none, .collect (baroReadingAt 2) (some (report 2)),
          .collect (baroReadingAt 3) (some (report 3)), .read 48 (.ok 48)]
        (⟨⟨[report 2, report 3, report 0], 2, 2⟩, 3⟩, ⟨[report 2, report 3], 2, [0, 1]⟩) :=
      .cons (t := (⟨⟨[report 1, report 0, report 0], 0, 0⟩, 1⟩, .start)) (queue_of_collect rfl rfl)
        (.cons (t := (⟨⟨[report 2, report 0, report 0], 1, 0⟩, 2⟩, ⟨[report 2], 0, []⟩))
          (queue_of_collect rfl rfl)
        (.cons (t := (⟨⟨[report 2, report 3, report 0], 2, 0⟩, 3⟩, ⟨[report 2, report 3], 0, []⟩))
          (queue_of_collect rfl rfl)
        (.cons (queue_of_read [report 0, report 0] [report 3, report 0] (by decide) rfl rfl)
          (.nil _))))
    cases hlaw _ _ _ _ _ hrun with
    | cons hfirst hrest =>
        cases queue_collect hfirst.1
        cases hrest with
        | cons hsecond hrest =>
            cases queue_collect hsecond.1
            cases hrest with
            | cons hthird hrest =>
                cases queue_collect hthird.1
                cases hrest with
                | cons hread _ =>
                    obtain ⟨first, hposted, hcopied⟩ :=
                      hread.2.inOrder 48 _ [report 0, report 0] rfl (by decide) 0 (by decide)
                    exact absurd (hposted.trans hcopied.symm) (by decide)
  · intro hlaw
    let report := magReportAt
    have hrun : (hmc5883Driver.queue (hmc5883Start (report 0) (report 0) [report 0])).Run
        (hmc5883Start (report 0) (report 0) [report 0], .start)
        [.collect (magReadingAt 1) (some (report 1)), .collect (magReadingAt 2) (some (report 2)),
          .read 80 (.ok 80)]
        (⟨⟨[report 1, report 2, report 0], 2, 2⟩, ()⟩, ⟨[report 1, report 2], 2, [0, 1]⟩) :=
      .cons (t := (⟨⟨[report 1, report 0, report 0], 1, 0⟩, ()⟩, ⟨[report 1], 0, []⟩))
          (queue_of_collect (by decide +kernel) rfl)
        (.cons (t := (⟨⟨[report 1, report 2, report 0], 2, 0⟩, ()⟩, ⟨[report 1, report 2], 0, []⟩))
          (queue_of_collect (by decide +kernel) rfl)
        (.cons (queue_of_read [report 0, report 0] [report 2, report 0] (by decide) rfl rfl)
          (.nil _)))
    cases hlaw _ _ _ _ _ hrun with
    | cons hfirst hrest =>
        cases queue_collect hfirst.1
        cases hrest with
        | cons hsecond hrest =>
            cases queue_collect hsecond.1
            cases hrest with
            | cons hread _ =>
                obtain ⟨first, hposted, hcopied⟩ :=
                  hread.2.inOrder 80 _ [report 0, report 0] rfl (by decide) 0 (by decide)
                exact absurd (hposted.trans hcopied.symm) (by decide)

end Px4Firmware.Drivers
