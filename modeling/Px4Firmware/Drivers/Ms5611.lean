import Px4Firmware.Lib.Transition

/-!
# Px4Firmware.Drivers.Ms5611

The barometer driver (`ms5611.cpp`): polling by a work item that queues itself, and its ioctls.

A cycle waits for the bus twice, so other calls come in between: it is modelled in parts, from one
wait to the next. What the worker thread does between two cycles, and what the bus answers, is left
to the events. The contents of the reports are left out.
-/

namespace Px4Firmware.Drivers

open Px4Firmware.Lib

/-! ### The work queue -/

/-- The `struct work_s` of the driver: whether it has a worker, and the delays with which it is in
the queue. An item that is queued while it is in the queue breaks the links of the queue; here it is
in the queue twice. -/
structure Work where
  worker : Bool
  queued : List UInt32

/-- `work_queue`. -/
def Work.workQueue (delay : UInt32) (work : Work) : Work where
  worker := true
  queued := work.queued ++ [delay]

/-- `work_cancel`. -/
def Work.workCancel (work : Work) : Work :=
  if work.worker then { worker := false, queued := work.queued.tail } else work

/-! ### The driver -/

/-- Where the worker thread is in `cycle`. -/
inductive Cycle
  | idle
  | called
  | collecting
  | measuring
  deriving DecidableEq

/-- `class MS5611`. -/
structure Ms5611 where
  work : Work
  cycle : Cycle
  measureTicks : UInt32
  numReports : Nat
  nextReport : Nat
  oldestReport : Nat
  collectPhase : Bool
  measurePhase : Nat
  mslPressure : UInt32

/-- The errors of the driver. -/
inductive Ms5611Error
  | einval
  | enomem
  | enospc
  | eagain
  | eio
  | enotty

/-- `INCREMENT`. -/
def increment (x lim : Nat) : Nat := if lim ≤ x + 1 then 0 else x + 1

/-- `USEC2TICK`: a tick is a millisecond. -/
def usec2tick (usec : UInt32) : UInt32 := (usec + 500) / 1000

/-- `MS5611_CONVERSION_INTERVAL`. -/
def ms5611ConversionInterval : UInt32 := 10000

/-- `MS5611_MEASUREMENT_RATIO`. -/
def ms5611MeasurementRatio : Nat := 3

/-- `sizeof(struct baro_report)`. -/
def sizeofBaroReport : Nat := 24

/-- `SENSOR_POLLRATE_MANUAL`. -/
def sensorPollrateManual : UInt32 := 1000000

/-- `SENSOR_POLLRATE_EXTERNAL`. -/
def sensorPollrateExternal : UInt32 := 1000001

/-- `SENSOR_POLLRATE_MAX`. -/
def sensorPollrateMax : UInt32 := 1000002

/-- `SENSOR_POLLRATE_DEFAULT`. -/
def sensorPollrateDefault : UInt32 := 1000003

/-- The transfers of a manual measurement: do they succeed? -/
structure Transfers where
  measureTemperature : Bool
  collectTemperature : Bool
  measurePressure : Bool
  collectPressure : Bool

namespace Ms5611

/-- After `MS5611::init`. -/
def init : Ms5611 where
  work := { worker := false, queued := [] }
  cycle := .idle
  measureTicks := 0
  numReports := 2
  nextReport := 0
  oldestReport := 0
  collectPhase := false
  measurePhase := 0
  mslPressure := 101325

/-- `MS5611::start`. -/
def start (d : Ms5611) : Ms5611 :=
  { d with
    collectPhase := false
    measurePhase := 0
    oldestReport := 0
    nextReport := 0
    work := d.work.workQueue 1 }

/-- `MS5611::stop`. -/
def stop (d : Ms5611) : Ms5611 := { d with work := d.work.workCancel }

/-- Post a report to the ring. -/
def postReport (d : Ms5611) : Ms5611 :=
  let d := { d with nextReport := increment d.nextReport d.numReports }
  if d.nextReport = d.oldestReport then
    { d with oldestReport := increment d.oldestReport d.numReports }
  else d

/-- `MS5611::collect`, when its transfer succeeds. -/
def collect (d : Ms5611) : Ms5611 :=
  let d := if d.measurePhase = 0 then d else d.postReport
  { d with measurePhase := increment d.measurePhase (ms5611MeasurementRatio + 1) }

/-! ### `MS5611::read` -/

/-- The loop of `read`, with `count` reports to go: how many bytes are copied. -/
def readReports (d : Ms5611) : Nat → Nat × Ms5611
  | 0 => (0, d)
  | count + 1 =>
      if d.oldestReport ≠ d.nextReport then
        let d := { d with oldestReport := increment d.oldestReport d.numReports }
        let (ret, d) := d.readReports count
        (sizeofBaroReport + ret, d)
      else d.readReports count

/-- The manual measurement of `read`. -/
def readManual (transfers : Transfers) (d : Ms5611) : Except Ms5611Error Nat × Ms5611 :=
  let d := { d with measurePhase := 0, oldestReport := 0, nextReport := 0 }
  if !transfers.measureTemperature then (.error .eio, d)
  else if !transfers.collectTemperature then (.error .eio, d)
  else
    let d := d.collect
    if !transfers.measurePressure then (.error .eio, d)
    else if !transfers.collectPressure then (.error .eio, d)
    else (.ok sizeofBaroReport, d.collect)

/-- `MS5611::read`. -/
def read (buflen : Nat) (transfers : Transfers) (d : Ms5611) : Except Ms5611Error Nat × Ms5611 :=
  let count := buflen / sizeofBaroReport
  if count < 1 then (.error .enospc, d)
  else if 0 < d.measureTicks then
    let (ret, d) := d.readReports count
    (if ret ≠ 0 then .ok ret else .error .eagain, d)
  else d.readManual transfers

/-! ### `MS5611::ioctl` -/

/-- Set the interval, and start polling if it is not on. -/
def setMeasureTicks (ticks : UInt32) (d : Ms5611) : Ms5611 :=
  let wantStart := d.measureTicks = 0
  let d := { d with measureTicks := ticks }
  if wantStart then d.start else d

/-- `SENSORIOCSPOLLRATE`. -/
def setPollrate (arg : UInt32) (d : Ms5611) : Except Ms5611Error UInt32 × Ms5611 :=
  if arg = sensorPollrateManual then
    (.ok 0, { d.stop with measureTicks := 0 })
  else if arg = sensorPollrateExternal ∨ arg = 0 then
    (.error .einval, d)
  else if arg = sensorPollrateMax ∨ arg = sensorPollrateDefault then
    (.ok 0, d.setMeasureTicks (usec2tick ms5611ConversionInterval))
  else
    let ticks := usec2tick (1000000 / arg)
    if ticks < usec2tick ms5611ConversionInterval then (.error .einval, d)
    else (.ok 0, d.setMeasureTicks ticks)

/-- `SENSORIOCSQUEUEDEPTH`. `allocated` tells whether there is memory for the new buffer. -/
def setQueuedepth (arg : UInt32) (allocated : Bool) (d : Ms5611) :
    Except Ms5611Error UInt32 × Ms5611 :=
  let arg := arg + 1
  if arg < 2 ∨ 100 < arg then (.error .einval, d)
  else if !allocated then (.error .enomem, d)
  else (.ok 0, { d.stop with numReports := arg.toNat }.start)

/-- The commands of `ioctl`, with their arguments. -/
inductive Command
  | setPollrate (arg : UInt32)
  | getPollrate
  | setQueuedepth (arg : UInt32) (allocated : Bool)
  | getQueuedepth
  | reset
  | setMslPressure (arg : UInt32)
  | getMslPressure
  | getPriv
  | other

/-- `MS5611::ioctl`, with `CDev::ioctl` for the last two commands. -/
def ioctl (d : Ms5611) : Command → Except Ms5611Error UInt32 × Ms5611
  | .setPollrate arg => d.setPollrate arg
  | .getPollrate =>
      (.ok (if d.measureTicks = 0 then sensorPollrateManual else 1000 / d.measureTicks), d)
  | .setQueuedepth arg allocated => d.setQueuedepth arg allocated
  | .getQueuedepth => (.ok (UInt32.ofNat d.numReports - 1), d)
  | .reset => (.error .einval, d)
  | .setMslPressure arg =>
      if arg < 80000 ∨ 120000 < arg then (.error .einval, d)
      else (.ok 0, { d with mslPressure := arg })
  | .getMslPressure => (.ok d.mslPressure, d)
  | .getPriv => (.ok 0, d)
  | .other => (.error .enotty, d)

/-! ### `MS5611::cycle` -/

/-- `work_process` takes the item from the queue and calls its worker. -/
def workProcess (d : Ms5611) : Ms5611 :=
  { d with
    work := { worker := false, queued := d.work.queued.tail }
    cycle := .called }

/-- The begin of `cycle`, up to its first transfer. -/
def cycleCalled (d : Ms5611) : Ms5611 :=
  { d with cycle := if d.collectPhase then .collecting else .measuring }

/-- After the transfer of `collect`. -/
def cycleCollected (ok : Bool) (d : Ms5611) : Ms5611 :=
  if !ok then { d.start with cycle := .idle }
  else
    let d := { d.collect with collectPhase := false }
    -- Is there a gap between collection and measurement?
    if d.measurePhase ≠ 0 ∧ usec2tick ms5611ConversionInterval < d.measureTicks then
      { d with
        work := d.work.workQueue (d.measureTicks - usec2tick ms5611ConversionInterval)
        cycle := .idle }
    else { d with cycle := .measuring }

/-- After the transfer of `measure`, whose failure is only logged. -/
def cycleMeasured (d : Ms5611) : Ms5611 :=
  { d with
    collectPhase := true
    work := d.work.workQueue (usec2tick ms5611ConversionInterval)
    cycle := .idle }

/-! ### The driver as a transition system -/

/-- A call of the driver, or a part of a cycle. -/
inductive Event
  | read (buflen : Nat) (transfers : Transfers)
  | ioctl (command : Command)
  | workProcess
  | called
  | collected (ok : Bool)
  | measured (ok : Bool)

/-- The next state. There is one worker thread, which takes an item when it is in no cycle. -/
def next (d : Ms5611) : Event → Option Ms5611
  | .read buflen transfers => some (d.read buflen transfers).2
  | .ioctl command => some (d.ioctl command).2
  | .workProcess => if d.cycle = .idle ∧ d.work.queued ≠ [] then some d.workProcess else none
  | .called => if d.cycle = .called then some d.cycleCalled else none
  | .collected ok => if d.cycle = .collecting then some (d.cycleCollected ok) else none
  | .measured _ => if d.cycle = .measuring then some d.cycleMeasured else none

end Ms5611

/-- The driver. -/
def ms5611 : LTS Ms5611 Ms5611.Event where
  init d := d = .init
  step d e d' := d.next e = some d'

end Px4Firmware.Drivers
