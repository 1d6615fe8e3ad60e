import Px4Firmware.Px4io.Failsafe
import Px4Firmware.Px4io.Fidelity

/-!
# Px4Firmware.Px4io.Validation

**Validation of the frames** between the FMU and the IO board. A receiver is a function of a frame
and its state that gives the next state, or a fault: an assertion that fails, or an access outside
of an array. `Receiver.Validates` is what is asked of both of them, for any frame.

The handler of reports on the FMU side is given in full here, with what `_rc` does with the channels
(`PX4IO_RC::set_channels`); `rxCallback_driver` connects it to the driver without `_rc`. The handler
of commands is given with its copy loop, and `commsReceive_eq` connects it to `commsHandleFrame`.

Both check the length. Neither checks the magic number, and the count of a report, which is a byte
of the frame, goes into an assertion: `validates_iff` says which frames are handled as they should
be. The frames that the two sides make themselves are among them (`command_valid`, `report_valid`).
-/

namespace Px4Firmware.Px4io

open Px4Firmware.Lib

/-! ### Receivers -/

/-- What goes wrong in a receiver: an `ASSERT` fails, or an index is outside of an array. -/
inductive Fault
  | assertion
  | access
  deriving DecidableEq

/-- A receiver: the state after a frame. -/
abbrev Receiver (σ : Type) := List UInt8 → σ → Except Fault σ

/-- In any state, the receiver survives the frame, and one that is not as expected changes
nothing. -/
def Receiver.Validates {σ : Type} (receive : Receiver σ) (expected : List UInt8 → Prop)
    (frame : List UInt8) : Prop :=
  ∀ s, (∃ t, receive frame s = .ok t) ∧ (¬ expected frame → receive frame s = .ok s)

/-- One round of a loop that copies an array. -/
def copyElement {α β : Type} {n m : Nat} (convert : α → β) (source : Vector α n)
    (target : Vector β m) (i : Nat) : Except Fault (Vector β m) :=
  if h : i < n ∧ i < m then .ok (target.set i (convert source[i])) else .error .access

/-- Copy as many elements of an array. -/
def copyElements {α β : Type} {n m : Nat} (convert : α → β) (source : Vector α n) (count : Nat)
    (target : Vector β m) : Except Fault (Vector β m) :=
  (List.range count).foldlM (copyElement convert source) target

/-! ### The receiver of commands -/

/-- A frame that is a command. -/
def ExpectedCommand (frame : List UInt8) : Prop :=
  frame.length = sizeofCommand ∧ wordAt frame 0 = f2iMagic

/-- `comms_handle_frame`, with the accesses of its loops. -/
def commsReceive : Receiver SysState := fun buffer s =>
  match toCommand buffer with
  | none => .ok s
  | some cmd => do
      let fmuChannelData ← copyElements id cmd.servoCommand outputChannels s.fmuChannelData
      let s := { s with
        fmuChannelData := fmuChannelData
        armOk := cmd.armOk
        mixerUseFmu := true
        fmuDataReceived := true }
      let s := if !s.armOk && s.armed then { s with armed := false } else s
      let relays ← copyElements id cmd.relayState relayChannels s.relays
      .ok { s with relays := relays }

/-! ### The receiver of reports -/

/-- `I2F_MAGIC`. -/
def i2fMagic : UInt16 := 0x7570

/-- `RC_INPUT_MAX_CHANNELS`. -/
abbrev rcInputMaxChannels : Nat := 16

/-- `struct px4io_report`. -/
structure Report where
  i2fMagic : UInt16
  rcChannel : Vector UInt16 inputChannels
  armed : Bool
  channelCount : UInt8

/-- The frame as a report. -/
def toReport (buffer : List UInt8) : Report where
  i2fMagic := wordAt buffer 0
  rcChannel := .ofFn fun i => wordAt buffer (2 + 2 * i)
  armed := boolAt buffer (2 + 2 * inputChannels)
  channelCount := buffer.getD (2 + 2 * inputChannels + 1) 0

/-- A frame that is a report. -/
def ExpectedReport (frame : List UInt8) : Prop :=
  frame.length = sizeofReport ∧ (toReport frame).i2fMagic = i2fMagic

/-- `struct rc_input_values`. -/
structure RcInputValues where
  channelCount : UInt32
  values : Vector UInt8 rcInputMaxChannels
  deriving DecidableEq

/-- `class PX4IO_RC`, and what it has published under `input_rc`. -/
structure Px4ioRc where
  publication : Int
  input : RcInputValues
  published : List RcInputValues
  deriving DecidableEq

/-- A servo position as a value from 0 to 100. -/
def toPercent (data : UInt16) : UInt8 :=
  if data < 1000 then 0 else if 2000 < data then 100 else ((data - 1000) / 10).toUInt8

/-- `PX4IO_RC::set_channels`. -/
def setChannels (count : Nat) (data : Vector UInt16 inputChannels) (rc : Px4ioRc) :
    Except Fault Px4ioRc :=
  if ¬ count ≤ inputChannels then
    .error .assertion
  else do
    let values ← copyElements toPercent data count rc.input.values
    let input : RcInputValues := { channelCount := UInt32.ofNat count, values := values }
    let published := if rc.publication ≠ -1 then rc.published ++ [input] else rc.published
    .ok { rc with input := input, published := published }

/-- `class PX4IO` with its `_rc`, which is null if there was no memory for it. -/
structure RcDriver where
  driver : Driver
  rc : Option Px4ioRc

/-- `PX4IO::rx_callback`. -/
def rxCallback : Receiver RcDriver := fun buffer p =>
  if buffer.length ≠ sizeofReport then
    .ok p
  else
    let rep := toReport buffer
    let driver := { p.driver with armed := rep.armed, sendNeeded := true }
    match p.rc with
    | none => .ok { driver := driver, rc := none }
    | some rc => do
        let rc ← setChannels rep.channelCount.toNat rep.rcChannel rc
        .ok { driver := driver, rc := some rc }

/-! ### The loops stay inside of the arrays -/

/-- **A copy loop** whose count fits into both arrays copies the elements. -/
theorem copyElements_eq {α β : Type} {n m : Nat} (convert : α → β) (source : Vector α n)
    {count : Nat} (target : Vector β m) (hn : count ≤ n) (hm : count ≤ m) :
    copyElements convert source count target = .ok (.ofFn fun i =>
      if h : i.val < count then convert (source.get ⟨i, Nat.lt_of_lt_of_le h hn⟩)
      else target.get i) := by
  induction count with
  | zero =>
      refine congrArg Except.ok (Vector.ext fun i hi => ?_)
      rw [Vector.getElem_ofFn]
      rfl
  | succ count ih =>
      have hlast : count < n ∧ count < m := ⟨hn, hm⟩
      unfold copyElements at ih ⊢
      rw [List.range_succ, List.foldlM_append, ih (Nat.le_of_lt hn) (Nat.le_of_lt hm)]
      show (List.foldlM (copyElement convert source) _ [count] : Except Fault _) = _
      rw [List.foldlM_cons]
      unfold copyElement
      rw [dif_pos hlast]
      refine congrArg Except.ok (Vector.ext fun i hi => ?_)
      rw [Vector.getElem_set, Vector.getElem_ofFn, Vector.getElem_ofFn]
      by_cases hi' : count = i
      · subst hi'
        rw [if_pos rfl, dif_pos (Nat.lt_succ_self count)]
        rfl
      · rw [if_neg hi']
        by_cases hlt : i < count
        · rw [dif_pos hlt, dif_pos (Nat.lt_succ_of_lt hlt)]
        · have hlt' : ¬ i < count + 1 := by omega
          rw [dif_neg hlt, dif_neg hlt']

/-- All elements. -/
theorem copyElements_all {α : Type} {n : Nat} (source target : Vector α n) :
    copyElements id source n target = .ok source := by
  rw [copyElements_eq id source target (Nat.le_refl n) (Nat.le_refl n)]
  refine congrArg Except.ok (Vector.ext fun i hi => ?_)
  rw [Vector.getElem_ofFn, dif_pos hi]
  rfl

/-- The handler of commands never fails, and is the function `commsHandleFrame`. -/
theorem commsReceive_eq (buffer : List UInt8) (s : SysState) :
    commsReceive buffer s = .ok (commsHandleFrame buffer s) := by
  unfold commsReceive commsHandleFrame
  cases toCommand buffer with
  | none => rfl
  | some cmd =>
      dsimp only
      rw [copyElements_all]
      dsimp only [bind, Except.bind]
      rw [copyElements_all]

/-- What `set_channels` does with a count that fits. -/
theorem setChannels_eq {count : Nat} (h : count ≤ inputChannels)
    (data : Vector UInt16 inputChannels) (rc : Px4ioRc) :
    ∃ rc', setChannels count data rc = .ok rc' := by
  unfold setChannels
  have hvalues := copyElements_eq toPercent data rc.input.values h (Nat.le_trans h (by decide))
  rw [if_neg (not_not_intro h), hvalues]
  exact ⟨_, rfl⟩

theorem setChannels_fault {count : Nat} (h : inputChannels < count)
    (data : Vector UInt16 inputChannels) (rc : Px4ioRc) :
    setChannels count data rc = .error .assertion :=
  if_pos (Nat.not_le_of_lt h)

/-- A report changes the driver in the same way whatever `_rc` does. -/
theorem rxCallback_driver {buffer : List UInt8} {p p' : RcDriver}
    (h : rxCallback buffer p = .ok p') : p'.driver = p.driver.rxCallback buffer := by
  unfold rxCallback at h
  unfold Driver.rxCallback
  by_cases hlength : buffer.length ≠ sizeofReport
  · rw [if_pos hlength] at h ⊢
    cases h
    rfl
  · rw [if_neg hlength] at h ⊢
    cases hrc : p.rc with
    | none =>
        rw [hrc] at h
        cases h
        rfl
    | some rc =>
        rw [hrc] at h
        dsimp only at h
        let rep := toReport buffer
        cases hset : setChannels rep.channelCount.toNat rep.rcChannel rc with
        | error fault =>
            rw [hset] at h
            cases h
        | ok rc' =>
            rw [hset] at h
            cases h
            rfl

/-! ### Which frames are handled as they should be -/

/-- A command frame changes the state of a module after a reset. -/
theorem commsHandleFrame_reset {frame : List UInt8} (h : frame.length = sizeofCommand) :
    commsHandleFrame frame reset ≠ reset := by
  intro heq
  have huse := congrArg SysState.mixerUseFmu heq
  unfold commsHandleFrame toCommand at huse
  rw [if_pos h] at huse
  dsimp only at huse
  split at huse <;> cases huse

theorem commsReceive_validates_iff (frame : List UInt8) :
    Receiver.Validates commsReceive ExpectedCommand frame ↔
      (frame.length = sizeofCommand → wordAt frame 0 = f2iMagic) := by
  constructor
  · intro h hlength
    by_contra hmagic
    have hreset := (h reset).2 fun hexpected => hmagic hexpected.2
    rw [commsReceive_eq] at hreset
    exact commsHandleFrame_reset hlength (Except.ok.inj hreset)
  · intro hmagic s
    refine ⟨⟨_, commsReceive_eq frame s⟩, fun hunexpected => ?_⟩
    have hlength : frame.length ≠ sizeofCommand :=
      fun hlength => hunexpected ⟨hlength, hmagic hlength⟩
    unfold commsReceive toCommand
    rw [if_neg hlength]

/-- A driver that waits for its first report, with and without `_rc`. -/
def waiting (rc : Option Px4ioRc) : RcDriver where
  driver := .new ⟨0, .replicate outputChannels 0, .replicate relayChannels 0, 0⟩
  rc := rc

/-- `PX4IO_RC::PX4IO_RC`. -/
def Px4ioRc.new : Px4ioRc where
  publication := -1
  input := { channelCount := 0, values := .replicate rcInputMaxChannels 0 }
  published := []

theorem rxCallback_validates_iff (frame : List UInt8) :
    Receiver.Validates rxCallback ExpectedReport frame ↔
      (frame.length = sizeofReport → (toReport frame).i2fMagic = i2fMagic ∧
        (toReport frame).channelCount.toNat ≤ inputChannels) := by
  constructor
  · intro h hlength
    constructor
    · by_contra hmagic
      have hwaiting := (h (waiting none)).2 fun hexpected => hmagic hexpected.2
      unfold rxCallback at hwaiting
      rw [if_neg (not_not_intro hlength)] at hwaiting
      have hsend := congrArg (fun p => p.driver.sendNeeded) (Except.ok.inj hwaiting)
      cases hsend
    · obtain ⟨t, ht⟩ := (h (waiting (some .new))).1
      by_contra hcount
      unfold rxCallback at ht
      rw [if_neg (not_not_intro hlength)] at ht
      simp only [waiting] at ht
      rw [setChannels_fault (Nat.lt_of_not_le hcount)] at ht
      cases ht
  · intro h p
    by_cases hlength : frame.length = sizeofReport
    · obtain ⟨hmagic, hcount⟩ := h hlength
      refine ⟨?_, fun hunexpected => absurd ⟨hlength, hmagic⟩ hunexpected⟩
      unfold rxCallback
      rw [if_neg (not_not_intro hlength)]
      cases p.rc with
      | none => exact ⟨_, rfl⟩
      | some rc =>
          obtain ⟨rc', hset⟩ := setChannels_eq hcount (toReport frame).rcChannel rc
          dsimp only
          rw [hset]
          exact ⟨_, rfl⟩
    · have hok : rxCallback frame p = .ok p := by
        unfold rxCallback
        exact if_pos hlength
      exact ⟨⟨p, hok⟩, fun _ => hok⟩

/-- **Validation.** A frame is handled as it should be, in every state, by the IO board exactly when
it carries the magic number if it has the length of a command, and by the FMU exactly when it
carries the magic number, and a count that fits, if it has the length of a report. -/
theorem validates_iff (frame : List UInt8) :
    (Receiver.Validates commsReceive ExpectedCommand frame ↔
      (frame.length = sizeofCommand → wordAt frame 0 = f2iMagic)) ∧
    (Receiver.Validates rxCallback ExpectedReport frame ↔
      (frame.length = sizeofReport → (toReport frame).i2fMagic = i2fMagic ∧
        (toReport frame).channelCount.toNat ≤ inputChannels)) :=
  ⟨commsReceive_validates_iff frame, rxCallback_validates_iff frame⟩

/-- A command without the magic number, and a report with thirteen channels. -/
theorem not_validates :
    ¬ Receiver.Validates commsReceive ExpectedCommand (List.replicate sizeofCommand 0) ∧
      ¬ Receiver.Validates rxCallback ExpectedReport
        ([0x70, 0x75] ++ List.replicate 25 0 ++ [13]) := by
  constructor
  · rw [commsReceive_validates_iff]
    exact fun h => absurd (h rfl) (by decide)
  · rw [rxCallback_validates_iff]
    exact fun h => absurd (h rfl).2 (by decide)

/-! ### The frames that the two sides send -/

theorem wordAt_wordBytes (w : UInt16) (rest : List UInt8) : wordAt (wordBytes w ++ rest) 0 = w := by
  rw [wordAt, List.drop_zero, List.take_left' (wordBytes_length w), ofDigits_wordBytes]

/-- The commands of the driver. -/
theorem command_valid {c : NextCommand} (h : c.f2iMagic = f2iMagic) :
    ExpectedCommand c.bytes ∧ Receiver.Validates commsReceive ExpectedCommand c.bytes := by
  have hmagic : wordAt c.bytes 0 = f2iMagic := (wordAt_wordBytes _ _).trans h
  exact ⟨⟨bytes_length c, hmagic⟩, (commsReceive_validates_iff _).2 fun _ => hmagic⟩

/-- The bytes of a report. -/
def Report.bytes (r : Report) : List UInt8 :=
  wordBytes r.i2fMagic ++ (r.rcChannel.toList.flatMap wordBytes ++
    [if r.armed then 1 else 0, r.channelCount])

theorem rcBytes_length (r : Report) :
    (r.rcChannel.toList.flatMap wordBytes).length = 2 * inputChannels := by
  rw [length_flatMap_of_length wordBytes_length, Vector.length_toList]

theorem reportBytes_length (r : Report) : r.bytes.length = sizeofReport := by
  have hwords := rcBytes_length r
  simp only [Report.bytes, List.length_append, hwords, wordBytes_length, List.length_cons,
    List.length_nil]
  rfl

/-- **A report is received as it was sent.** -/
theorem toReport_bytes (r : Report) : toReport r.bytes = r := by
  have hwords := rcBytes_length r
  have hmagic : wordAt r.bytes 0 = r.i2fMagic := wordAt_wordBytes _ _
  have hchannels : Vector.ofFn (fun i : Fin inputChannels => wordAt r.bytes (2 + 2 * i)) =
      r.rcChannel := by
    refine Vector.ext fun i hi => ?_
    have hi' : i < r.rcChannel.toList.length := by rwa [Vector.length_toList]
    have htake := take_drop_flatMap wordBytes_length hi' [if r.armed then 1 else 0, r.channelCount]
    have hdrop : r.bytes.drop (2 + 2 * i) = (r.rcChannel.toList.flatMap wordBytes ++
        [if r.armed then 1 else 0, r.channelCount]).drop (2 * i) := by
      rw [← List.drop_drop, Report.bytes, List.drop_left' (wordBytes_length _)]
    rw [Vector.getElem_ofFn, wordAt, hdrop, htake, ofDigits_wordBytes]
    exact Vector.getElem_toList hi'
  have hlast : r.bytes.drop (2 + 2 * inputChannels) =
      [if r.armed then 1 else 0, r.channelCount] := by
    rw [← List.drop_drop, Report.bytes, List.drop_left' (wordBytes_length _),
      List.drop_left' hwords]
  have hbytes : ∀ i : Nat, r.bytes[2 + 2 * inputChannels + i]? =
      [if r.armed then 1 else 0, r.channelCount][i]? := by
    intro i
    rw [← List.getElem?_drop, hlast]
  have harmed : boolAt r.bytes (2 + 2 * inputChannels) = r.armed := by
    have hbyte := hbytes 0
    rw [Nat.add_zero] at hbyte
    rw [boolAt, List.getD_eq_getElem?_getD, hbyte]
    cases r.armed <;> rfl
  have hcount : r.bytes.getD (2 + 2 * inputChannels + 1) 0 = r.channelCount := by
    rw [List.getD_eq_getElem?_getD, hbytes 1]
    rfl
  unfold toReport
  rw [hmagic, hchannels, harmed, hcount]

/-- The reports of the IO board. -/
theorem report_valid {r : Report} (hmagic : r.i2fMagic = i2fMagic)
    (hcount : r.channelCount.toNat ≤ inputChannels) :
    ExpectedReport r.bytes ∧ Receiver.Validates rxCallback ExpectedReport r.bytes := by
  refine ⟨⟨reportBytes_length r, ?_⟩, (rxCallback_validates_iff _).2 fun _ => ?_⟩
  · rw [toReport_bytes]
    exact hmagic
  · rw [toReport_bytes]
    exact ⟨hmagic, hcount⟩

/-- `comms_check`: populate the report. -/
def populateReport (s : SysState) (report : Report) : Report :=
  { report with
    rcChannel := .ofFn fun i =>
      if h : i < s.rcChannelData.length then s.rcChannelData[i] else report.rcChannel.get i
    channelCount := UInt8.ofNat s.rcChannelData.length
    armed := s.armed }

theorem mixerGetRcInput_le {s : SysState} (h : s.rcChannelData.length ≤ inputChannels) :
    (mixerGetRcInput s).rcChannelData.length ≤ inputChannels := by
  have hpending : ((s.inputQueue.head?.map RcMessage.channels).getD []).length ≤ inputChannels := by
    cases s.inputQueue with
    | nil => exact Nat.zero_le _
    | cons message queue => exact message.fits
  unfold mixerGetRcInput
  dsimp only
  split_ifs
  · exact hpending
  · exact Nat.zero_le _
  · exact h
  · exact h

/-- A module has no more channels than fit into a report. -/
theorem rcChannels_le {io : Io} (h : px4io.Reachable io) :
    io.state.rcChannelData.length ≤ inputChannels := by
  refine h.invariant (I := fun io => io.state.rcChannelData.length ≤ inputChannels) ?_ ?_
  · intro io hinit
    rw [hinit.1]
    exact Nat.zero_le _
  · intro io e io' hle hstep
    cases e with
    | frame buffer =>
        obtain ⟨-, rfl | ⟨cmd, -, rfl⟩⟩ := step_frame hstep
        · exact hle
        · exact hle
    | statement =>
        obtain ⟨statement, rest, -, rfl⟩ := step_statement hstep
        cases statement <;> exact hle
    | button pressed =>
        cases hstep
        have hpart := (safetyCheckButton_parts pressed io.state).2
        simp only [SysState.rcPart, Prod.mk.injEq] at hpart
        rw [hpart.1]
        exact hle
    | mixer =>
        cases hstep
        have hpart := mixerTick_rcPart io.state
        simp only [SysState.rcPart, Prod.mk.injEq] at hpart
        rw [hpart.1]
        exact mixerGetRcInput_le hle
    | rcInput message =>
        cases hstep
        exact hle

/-- **The reports of the IO board**, in any state that it reaches, are received by the FMU. -/
theorem populateReport_valid {io : Io} (h : px4io.Reachable io) {report : Report}
    (hmagic : report.i2fMagic = i2fMagic) :
    Receiver.Validates rxCallback ExpectedReport (populateReport io.state report).bytes := by
  have hle := rcChannels_le h
  refine (report_valid (r := populateReport io.state report) hmagic ?_).2
  show (UInt8.ofNat io.state.rcChannelData.length).toNat ≤ inputChannels
  rw [UInt8.toNat_ofNat']
  exact Nat.le_trans (Nat.mod_le _ _) hle

end Px4Firmware.Px4io
