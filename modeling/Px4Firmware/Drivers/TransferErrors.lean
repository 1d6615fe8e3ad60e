import Px4Firmware.Drivers.I2cBus
import Px4Firmware.Drivers.SensorQueue

/-!
# Px4Firmware.Drivers.TransferErrors

**Errors of transfers and of measurements** in the drivers of the barometer (`ms5611.cpp`) and of
the magnetometer (`hmc5883.cpp`).

`MS5611::read_prom` leaves its loop when a transfer fails, and then judges the calibration words by
their CRC all the same: those it has read, and behind them what was there before. `HMC5883::collect`
leaves with the result of its transfer when a value is out of range, and that is `OK`: a manual read
then returns whatever is in the first slot.

`errors_surface_iff` says when the errors do surface in both.
-/

namespace Px4Firmware.Drivers

open Px4Firmware.Lib

/-! ### The calibration words of the barometer -/

/-- `_prom.c`. -/
abbrev Prom8 := Vector UInt16 8

/-- A shift of `n_rem`. -/
def crcShift (rem : UInt16) : UInt16 :=
  if rem &&& 0x8000 ≠ 0 then (rem <<< 1) ^^^ 0x3000 else rem <<< 1

/-- A round of the loop of `crc4`, for the byte with the number `cnt`. -/
def crcByte (prom : Prom8) (rem : UInt16) (cnt : Fin 16) : UInt16 :=
  let word := prom.get ⟨cnt / 2, by omega⟩
  let rem := rem ^^^ if cnt.val % 2 = 1 then word &&& 0x00ff else word >>> 8
  (List.range 8).foldl (fun rem _ => crcShift rem) rem

/-- `MS5611::crc4`. The CRC is in the last four bits; its byte counts as zero. -/
def crc4 (prom : Prom8) : Bool :=
  let crcRead := prom.get 7
  let rem := (List.finRange 16).foldl (crcByte (prom.set 7 (crcRead &&& 0xff00))) 0
  decide ((crcRead &&& (0x000f : UInt16)) = ((rem >>> (12 : UInt16)) &&& (0x000f : UInt16)))

/-- A word in a transfer: the device sends the high byte first. -/
def promWord (bytes : Bytes) : UInt16 :=
  UInt16.ofNat (bytes 0).toNat <<< 8 ||| UInt16.ofNat (bytes 1).toNat

/-- The loop of `read_prom`, with `count` words to go, at the word `i`. -/
def readPromFrom (retries : Nat) : Nat → Nat → Prom8 → Bus → Prom8 × Bus
  | 0, _, prom, bus => (prom, bus)
  | count + 1, i, prom, bus =>
      match bus.transfer retries with
      | (some bytes, bus) =>
          readPromFrom retries count (i + 1) (prom.setIfInBounds i (promWord bytes)) bus
      -- `break`: what follows is the CRC of the words as they are.
      | (none, bus) => (prom, bus)

/-- `MS5611::read_prom`. -/
def readProm (retries : Nat) (prom : Prom8) (bus : Bus) : Except Ms5611Error Unit × Prom8 × Bus :=
  let (prom, bus) := readPromFrom retries 8 0 prom bus
  (if crc4 prom then .ok () else .error .eio, prom, bus)

/-- The words that transfers one after the other bring. -/
def wordsRead (retries : Nat) (bus : Bus) : List UInt16 := (bus.received retries 8).map promWord

/-- The law: it returns `OK` only if all eight words were read, and these have the right CRC. -/
def PromErrorsSurface (retries : Nat) (prom : Prom8) (bus : Bus) : Prop :=
  (readProm retries prom bus).1 = .ok () →
    ∃ words : Prom8, words.toList = wordsRead retries bus ∧ crc4 words = true

/-- Words, and behind them those of the memory. -/
def wordsOver (words : List UInt16) (prom : Prom8) : Prom8 :=
  .ofFn fun i => words.getD i (prom.get i)

/-- The condition: all eight words are read, or the CRC does not happen to match when those that
are missing are the ones from before. -/
def PromSafe (retries : Nat) (prom : Prom8) (bus : Bus) : Prop :=
  (wordsRead retries bus).length < 8 → crc4 (wordsOver (wordsRead retries bus) prom) = false

/-- What the loop leaves at a place. -/
theorem get_readPromFrom (retries count i : Nat) (prom : Prom8) (bus : Bus) (k : Fin 8)
    (hi : i + count ≤ 8) :
    (readPromFrom retries count i prom bus).1.get k =
      if i ≤ k.val then ((bus.received retries count).map promWord).getD (k.val - i) (prom.get k)
      else prom.get k := by
  induction count generalizing i prom bus with
  | zero => simp [readPromFrom, Bus.received]
  | succ count ih =>
      rcases h : bus.transfer retries with ⟨_ | bytes, bus'⟩
      · simp only [readPromFrom, h, Bus.received_of_none h]
        simp
      · simp only [readPromFrom, h, Bus.received_of_some h, List.map_cons]
        rw [ih (i + 1) _ bus' (by omega)]
        by_cases heq : k.val = i
        · have hset : (prom.setIfInBounds i (promWord bytes)).get k = promWord bytes := by
            subst heq
            exact Vector.getElem_setIfInBounds_self k.isLt
          rw [if_neg (by omega), if_pos (Nat.le_of_eq heq.symm), hset, heq, Nat.sub_self]
          rfl
        · have hset : (prom.setIfInBounds i (promWord bytes)).get k = prom.get k :=
            Vector.getElem_setIfInBounds_ne k.isLt (Ne.symm heq)
          rw [hset]
          by_cases hle : i + 1 ≤ k.val
          · rw [if_pos hle, if_pos (by omega), show k.val - i = (k.val - (i + 1)) + 1 by omega]
            rfl
          · rw [if_neg hle, if_neg (by omega)]

theorem readProm_prom (retries : Nat) (prom : Prom8) (bus : Bus) :
    (readProm retries prom bus).2.1 = wordsOver (wordsRead retries bus) prom := by
  refine Vector.ext fun k hk => ?_
  have hget := get_readPromFrom retries 8 0 prom bus ⟨k, hk⟩ (by omega)
  rw [if_pos (Nat.zero_le _)] at hget
  have hover := Vector.getElem_ofFn (f := fun i : Fin 8 =>
    (wordsRead retries bus).getD i (prom.get i)) hk
  exact hget.trans hover.symm

/-- **The calibration words.** -/
theorem promErrorsSurface_iff (retries : Nat) (prom : Prom8) (bus : Bus) :
    PromErrorsSurface retries prom bus ↔ PromSafe retries prom bus := by
  have hresult : (readProm retries prom bus).1 = .ok () ↔
      crc4 (wordsOver (wordsRead retries bus) prom) = true := by
    rw [← readProm_prom]
    simp only [readProm]
    split <;> simp_all
  have hle : (wordsRead retries bus).length ≤ 8 := by
    rw [wordsRead, List.length_map]
    exact bus.length_received_le retries 8
  rw [PromErrorsSurface, PromSafe, hresult]
  constructor
  · intro hlaw hshort
    by_contra hmatch
    obtain ⟨words, hwords, -⟩ := hlaw (by simpa using hmatch)
    rw [← hwords, Vector.length_toList] at hshort
    exact absurd hshort (by decide)
  · intro hsafe hcrc
    have hlength : (wordsRead retries bus).length = 8 := by
      by_contra hne
      rw [hsafe (by omega)] at hcrc
      cases hcrc
    refine ⟨_, ?_, hcrc⟩
    -- All of the memory has been overwritten.
    refine List.ext_getElem (by rw [Vector.length_toList, hlength]) fun i hi hi' => ?_
    have hi8 : i < 8 := by rwa [hlength] at hi'
    have hover := Vector.getElem_ofFn (f := fun i : Fin 8 =>
      (wordsRead retries bus).getD i (prom.get i)) hi8
    rw [Vector.getElem_toList]
    refine hover.trans ?_
    rw [List.getD_eq_getElem?_getD, List.getElem?_eq_getElem hi']
    rfl

/-! ### A manual read of the magnetometer -/

/-- What a collection gets from its transfer. The bytes are those of `x`, `z` and `y`; what they are
scaled to is given. -/
def magReading (scaled : Int → Int → Int → CFloat × CFloat × CFloat) (now : UInt64)
    (answer : Option Bytes) : MagReading :=
  let bytes := answer.getD fun _ => 0
  let x : AxisBytes := ⟨bytes 0, bytes 1⟩
  let z : AxisBytes := ⟨bytes 2, bytes 3⟩
  let y : AxisBytes := ⟨bytes 4, bytes 5⟩
  let values := scaled x.value y.value z.value
  { now := now
    transferred := answer.isSome
    xBytes := x
    zBytes := z
    yBytes := y
    x := values.1
    y := values.2.1
    z := values.2.2 }

/-- The `memcpy` of a manual read: the first slot. -/
def copyFirst (reports buffer : List MagReport) : List MagReport :=
  match reports[0]? with
  | some report => buffer.set 0 report
  | none => buffer

/-- `HMC5883::read`. The first transfer starts a measurement, the second one collects it. -/
def hmc5883Read (scaled : Int → Int → Int → CFloat × CFloat × CFloat) (retries : Nat)
    (now : UInt64) (measureTicks : UInt32) (buflen : Nat) (buffer : List MagReport)
    (s : Sensor MagReport Unit) (bus : Bus) :
    Except Ms5611Error Nat × List MagReport × Sensor MagReport Unit × Bus :=
  if 0 < measureTicks then
    let (ret, buffer, s) := readAutomatic sizeofMagReport buflen buffer s
    (ret, buffer, s, bus)
  else if buflen / sizeofMagReport < 1 then (.error .enospc, buffer, s, bus)
  else
    let s := { s with ring := { s.ring with oldest := 0, next := 0 } }
    match bus.transfer retries with
    | (none, bus) => (.error .eio, buffer, s, bus)
    | (some _, bus) =>
        let (answer, bus) := bus.transfer retries
        let (ok, _, s) := hmc5883Collect (magReading scaled now answer) s
        -- A measurement out of range is `ok`, too.
        if !ok then (.error .eio, buffer, s, bus)
        else (.ok sizeofMagReport, copyFirst s.ring.slots buffer, s, bus)

/-- A report has the values of a measurement. -/
structure Reports (reading : MagReading) (report : MagReport) : Prop where
  timestamp : report.timestamp = reading.now
  x : report.x = reading.x
  y : report.y = reading.y
  z : report.z = reading.z
  xRaw : report.xRaw = reading.yBytes.value
  yRaw : report.yRaw = if reading.xBytes.value = -32768 then 32767 else -reading.xBytes.value
  zRaw : report.zRaw = reading.zBytes.value

/-- The law: a manual read that returns a report has started a measurement, has collected it, and
has found it in range. Otherwise it returns an error. -/
def ReadErrorsSurface (scaled : Int → Int → Int → CFloat × CFloat × CFloat) (retries : Nat)
    (now : UInt64) (buflen : Nat) (buffer : List MagReport) (s : Sensor MagReport Unit)
    (bus : Bus) : Prop :=
  ∀ ret, (hmc5883Read scaled retries now 0 buflen buffer s bus).1 = .ok ret →
    ret = sizeofMagReport ∧ ∃ command data report,
      bus.received retries 2 = [command, data] ∧
      (magReading scaled now (some data)).outOfRange = false ∧
      (hmc5883Read scaled retries now 0 buflen buffer s bus).2.1[0]? = some report ∧
      Reports (magReading scaled now (some data)) report

/-- The condition: there is no room for a report, or a transfer fails, or the values are in
range. -/
def ReadSafe (scaled : Int → Int → Int → CFloat × CFloat × CFloat) (retries : Nat) (now : UInt64)
    (buflen : Nat) (bus : Bus) : Prop :=
  1 ≤ buflen / sizeofMagReport → ∀ command data, bus.received retries 2 = [command, data] →
    (magReading scaled now (some data)).outOfRange = false

section

variable {scaled : Int → Int → Int → CFloat × CFloat × CFloat} {retries : Nat} {now : UInt64}
  {buflen : Nat} {buffer : List MagReport} {s : Sensor MagReport Unit} {bus : Bus}

/-- A collection whose transfer succeeds returns `OK`, whatever it has received. -/
theorem hmc5883Collect_ok {reading : MagReading} (h : reading.transferred = true)
    (s : Sensor MagReport Unit) : (hmc5883Collect reading s).1 = true := by
  simp only [hmc5883Collect, h]
  cases reading.outOfRange <;> rfl

@[simp] theorem slots_postReport {α : Type} (ring : OpenRing α) :
    (postReport ring).slots = ring.slots := by
  simp only [postReport]
  split <;> rfl

/-- Values in range are in the first slot of a ring that is empty. -/
theorem hmc5883Collect_slot {reading : MagReading} (h : reading.transferred = true)
    (hrange : reading.outOfRange = false) (report : MagReport) (reports : List MagReport) :
    ∃ report', (hmc5883Collect reading ⟨⟨report :: reports, 0, 0⟩, ()⟩).2.2.ring.slots[0]? =
      some report' ∧ Reports reading report' := by
  refine ⟨{ report with
    timestamp := reading.now
    xRaw := reading.yBytes.value
    yRaw := if reading.xBytes.value = -32768 then 32767 else -reading.xBytes.value
    zRaw := reading.zBytes.value
    x := reading.x
    y := reading.y
    z := reading.z }, ?_, ?_⟩
  · simp [hmc5883Collect, h, hrange, OpenRing.edit, slots_postReport]
  · constructor <;> dsimp only

/-- Two transfers that succeed. -/
theorem received_two {command data : Bytes} (h : bus.received retries 2 = [command, data]) :
    ∃ bus₁ bus₂, bus.transfer retries = (some command, bus₁) ∧
      bus₁.transfer retries = (some data, bus₂) := by
  match hfirst : bus.transfer retries with
  | (none, bus₁) =>
      rw [Bus.received_of_none hfirst] at h
      cases h
  | (some bytes, bus₁) =>
      rw [Bus.received_of_some hfirst] at h
      match hsecond : bus₁.transfer retries with
      | (none, bus₂) =>
          rw [Bus.received_of_none hsecond] at h
          cases h
      | (some bytes', bus₂) =>
          rw [Bus.received_of_some hsecond] at h
          cases h
          exact ⟨bus₁, bus₂, rfl, hsecond⟩

/-- The read, when both transfers succeed. -/
theorem hmc5883Read_of_received (buffer : List MagReport) (s : Sensor MagReport Unit)
    {command data : Bytes} {reading : MagReading} (hroom : 1 ≤ buflen / sizeofMagReport)
    (h : bus.received retries 2 = [command, data])
    (hreading : magReading scaled now (some data) = reading) :
    let empty := { s with ring := { s.ring with oldest := 0, next := 0 } }
    (hmc5883Read scaled retries now 0 buflen buffer s bus).1 = .ok sizeofMagReport ∧
      (hmc5883Read scaled retries now 0 buflen buffer s bus).2.1 =
        copyFirst (hmc5883Collect reading empty).2.2.ring.slots buffer := by
  obtain ⟨bus₁, bus₂, hfirst, hsecond⟩ := received_two h
  have htransferred : reading.transferred = true := by rw [← hreading]; rfl
  have hok := hmc5883Collect_ok htransferred
    { s with ring := { s.ring with oldest := 0, next := 0 } }
  have hsmall : ¬buflen / sizeofMagReport < 1 := by omega
  rw [hmc5883Read, if_neg (by decide), if_neg hsmall]
  simp only [hfirst, hsecond, hreading, hok, Bool.not_true, Bool.false_eq_true, if_false]
  exact ⟨trivial, trivial⟩

/-- The read, when one of them fails. -/
theorem hmc5883Read_of_failed (hfailed : ∀ command data, bus.received retries 2 ≠ [command, data])
    (ret : Nat) : (hmc5883Read scaled retries now 0 buflen buffer s bus).1 ≠ .ok ret := by
  rw [hmc5883Read, if_neg (by decide)]
  split
  · intro habsurd
    cases habsurd
  · match hfirst : bus.transfer retries with
    | (none, bus₁) =>
        intro habsurd
        cases habsurd
    | (some bytes, bus₁) =>
        match hsecond : bus₁.transfer retries with
        | (none, bus₂) =>
            intro habsurd
            simp only [hsecond] at habsurd
            cases habsurd
        | (some bytes', bus₂) =>
            refine absurd ?_ (hfailed bytes bytes')
            rw [Bus.received_of_some hfirst, Bus.received_of_some hsecond]
            rfl

/-- **A manual read.** -/
theorem readErrorsSurface_iff (scaled : Int → Int → Int → CFloat × CFloat × CFloat) (retries : Nat)
    (now : UInt64) (buflen : Nat) (first : MagReport) (others : List MagReport)
    (report : MagReport) (reports : List MagReport) (oldest next : Nat) (bus : Bus) :
    ReadErrorsSurface scaled retries now buflen (first :: others)
        ⟨⟨report :: reports, oldest, next⟩, ()⟩ bus ↔
      ReadSafe scaled retries now buflen bus := by
  constructor
  · intro hlaw hroom command data hreceived
    obtain ⟨hret, -⟩ := hmc5883Read_of_received (first :: others)
      ⟨⟨report :: reports, oldest, next⟩, ()⟩ hroom hreceived rfl
    obtain ⟨-, command', data', -, hreceived', hrange, -⟩ := hlaw _ hret
    rw [hreceived] at hreceived'
    cases hreceived'
    exact hrange
  · intro hsafe ret hret
    by_cases hroom : 1 ≤ buflen / sizeofMagReport
    · by_cases hall : ∃ command data, bus.received retries 2 = [command, data]
      · obtain ⟨command, data, hreceived⟩ := hall
        obtain ⟨reading, hreading⟩ : ∃ reading, magReading scaled now (some data) = reading :=
          ⟨_, rfl⟩
        have htransferred : reading.transferred = true := by rw [← hreading]; rfl
        have hrange := hsafe hroom command data hreceived
        obtain ⟨hok, hbuffer⟩ := hmc5883Read_of_received (first :: others)
          ⟨⟨report :: reports, oldest, next⟩, ()⟩ hroom hreceived hreading
        rw [hreading] at hrange
        obtain ⟨report', hslot, hreports⟩ :=
          hmc5883Collect_slot htransferred hrange report reports
        rw [hok] at hret
        cases hret
        refine ⟨rfl, command, data, report', hreceived, ?_, ?_, ?_⟩
        · rw [hreading, hrange]
        · rw [hbuffer, copyFirst, hslot]
          rfl
        · rw [hreading]
          exact hreports
      · exact absurd hret (hmc5883Read_of_failed
          (fun command data heq => hall ⟨command, data, heq⟩) ret)
    · rw [hmc5883Read, if_neg (by decide), if_pos (by omega)] at hret
      cases hret

end

/-! ### Both -/

/-- **Errors surface.** `OK` from `read_prom` means eight words with the right CRC exactly when the
words that are missing do not happen to be completed by those from before. A manual read returns a
measurement it has taken and checked exactly when no measurement is out of range. -/
theorem errors_surface_iff (promRetries : Nat) (prom : Prom8) (promBus : Bus)
    (scaled : Int → Int → Int → CFloat × CFloat × CFloat) (retries : Nat) (now : UInt64)
    (buflen : Nat) (first : MagReport) (others : List MagReport) (report : MagReport)
    (reports : List MagReport) (oldest next : Nat) (bus : Bus) :
    (PromErrorsSurface promRetries prom promBus ↔ PromSafe promRetries prom promBus) ∧
      (ReadErrorsSurface scaled retries now buflen (first :: others)
          ⟨⟨report :: reports, oldest, next⟩, ()⟩ bus ↔
        ReadSafe scaled retries now buflen bus) :=
  ⟨promErrorsSurface_iff promRetries prom promBus,
    readErrorsSurface_iff scaled retries now buflen first others report reports oldest next bus⟩

/-- Words of zeros have the right CRC: on a bus on which nothing works, `read_prom` returns `OK`.
And a read whose measurement is out of range returns a report. -/
theorem errors_swallowed :
    ¬PromErrorsSurface 10 (Vector.replicate 8 0) ⟨fun _ => none, 0⟩ ∧
      ∀ first report : MagReport,
        ¬ReadErrorsSurface (fun _ _ _ => (.finite 0, .finite 0, .finite 0)) 1 0 40 [first]
          ⟨⟨[report, report], 0, 0⟩, ()⟩ ⟨fun _ => some fun i => if i = 0 then 0x7f else 0, 0⟩ := by
  constructor
  · rw [promErrorsSurface_iff, PromSafe]
    intro hsafe
    exact absurd (hsafe (by decide)) (by decide +kernel)
  · intro first report
    rw [readErrorsSurface_iff, ReadSafe]
    intro hsafe
    exact absurd (hsafe (by decide) _ _ rfl) (by decide)

end Px4Firmware.Drivers
