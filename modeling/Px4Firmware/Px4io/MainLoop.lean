import Px4Firmware.Px4io.Recovery
import Px4Firmware.Px4io.Validation

/-!
# Px4Firmware.Px4io.MainLoop

**The main loop of the IO board** (`comms_check`, `px4io/comms.c`), statement by statement. It sends
a report to the FMU when one is due, and then handles the frames that have come; the button and the
mixer may run between any two statements of both.

The report copies the values of the RC input one by one, so the whole array is here, with the
elements behind `rc_channels`: the array may be replaced while it is being copied.
-/

namespace Px4Firmware.Px4io

open Px4Firmware.Lib

/-! ### The report -/

/-- `FMU_MIN_REPORT_INTERVAL`. -/
def fmuMinReportInterval : UInt64 := 5000

/-- `FMU_MAX_REPORT_INTERVAL`. -/
def fmuMaxReportInterval : UInt64 := 100000

/-- A statement of `comms_check` up to the report that it sends. The test of its loop and the body
are two statements. -/
inductive ReportStatement
  | testDue (now : UInt64)
  | clearDue (now : UInt64)
  | testChannels (i : Nat)
  | copyChannel (i : Nat)
  | setChannelCount
  | setArmed
  | send
  deriving DecidableEq

/-- The module with its main loop: the whole array `rc_channel_data`, of which the state has the
first `rc_channels` elements, the static variables of `comms_check`, and what is left of it. -/
structure MainLoop where
  io : Io
  rcArray : Vector UInt16 inputChannels
  report : Report
  lastReportTime : UInt64
  reporting : List ReportStatement

/-- The statements that populate the report and send it. -/
def populate (now : UInt64) : List ReportStatement :=
  [.clearDue now, .testChannels 0, .setChannelCount, .setArmed, .send]

/-- Execute one statement: the module, and the statements that it adds before the others. The index
of a copy is below the number of channels, so it is in both arrays. -/
def ReportStatement.exec (m : MainLoop) : ReportStatement → MainLoop × List ReportStatement
  | testDue now =>
      let delta := now - m.lastReportTime
      (m, if fmuMinReportInterval < delta &&
            (m.io.state.fmuReportDue || decide (fmuMaxReportInterval < delta)) then populate now
          else [])
  | clearDue now =>
      ({ m with
          io := { m.io with state := { m.io.state with fmuReportDue := false } }
          lastReportTime := now }, [])
  | testChannels i =>
      (m, if i < m.io.state.rcChannelData.length then [copyChannel i, testChannels (i + 1)] else [])
  | copyChannel i =>
      ({ m with report := { m.report with
          rcChannel := .ofFn fun j =>
            if j.val = i then m.rcArray.get j else m.report.rcChannel.get j } }, [])
  | setChannelCount =>
      ({ m with report := { m.report with
          channelCount := UInt8.ofNat m.io.state.rcChannelData.length } }, [])
  | setArmed => ({ m with report := { m.report with armed := m.io.state.armed } }, [])
  | send => (m, [])

namespace MainLoop

/-- What can happen next: the main loop calls `comms_check`, which executes a statement for the
report; or what can happen to the module otherwise. -/
inductive Event
  | check (now : UInt64)
  | report
  | io (e : Px4io.Event)

/-- The array after an event. A message overwrites the elements it has. -/
def rcArrayAfter (m : MainLoop) : Px4io.Event → Vector UInt16 inputChannels
  | .mixer => .ofFn fun i => m.io.state.pending.getD i (m.rcArray.get i)
  | _ => m.rcArray

/-- Is the main loop ready for this? It receives no bytes before the report has been sent. -/
def Ready (m : MainLoop) : Px4io.Event → Bool
  | .frame _ => m.reporting.isEmpty
  | _ => true

/-- The next state. -/
def next (m : MainLoop) : Event → Option MainLoop
  | .check now =>
      -- The call before has handled its frames to the end.
      if m.reporting.isEmpty && m.io.rest.isEmpty then
        some { m with reporting := [.testDue now] }
      else none
  | .report =>
      match m.reporting with
      | [] => none
      | statement :: rest =>
          let (m', more) := statement.exec m
          some { m' with reporting := more ++ rest }
  | .io e =>
      if m.Ready e then
        (m.io.next e).map fun io => { m with io := io, rcArray := m.rcArrayAfter e }
      else none

end MainLoop

/-- What has come in: the commands of the frames, and the messages that the mixer has taken. -/
structure Traffic where
  commands : List Command
  messages : List (List UInt16)

/-- Watch the frames and the messages. -/
def Traffic.watch (traffic : Traffic) (m : MainLoop) (e : MainLoop.Event) (_ : MainLoop) :
    Traffic :=
  match e with
  | .io (.frame buffer) =>
      { traffic with commands := traffic.commands ++ (toCommand buffer).toList }
  | .io .mixer =>
      if m.io.state.pending ≠ [] then
        { traffic with messages := traffic.messages ++ [m.io.state.pending] }
      else traffic
  | _ => traffic

/-- The module with its main loop as a transition system, with what comes in. -/
def mainLoop : LTS (MainLoop × Traffic) MainLoop.Event :=
  LTS.observe
    { init := fun m => px4io.init m.io ∧ m.reporting = []
      step := fun m e m' => m.next e = some m' }
    ⟨[], []⟩ Traffic.watch

/-! ### Steps -/

/-- `comms_check` begins. -/
theorem next_check {m m' : MainLoop} {now : UInt64} (h : m.next (.check now) = some m') :
    m' = { m with reporting := [.testDue now] } := by
  unfold MainLoop.next at h
  dsimp only at h
  split at h
  · exact (Option.some.inj h).symm
  · cases h

/-- `comms_check` goes on when there are statements left. -/
theorem next_report {m m' : MainLoop} (h : m.next .report = some m') :
    ∃ statement rest, m.reporting = statement :: rest ∧
      m' = { (statement.exec m).1 with reporting := (statement.exec m).2 ++ rest } := by
  unfold MainLoop.next at h
  dsimp only at h
  split at h
  next => cases h
  next statement rest hreporting =>
    exact ⟨statement, rest, hreporting, (Option.some.inj h).symm⟩

/-- What happens to the module otherwise. -/
theorem next_io {m m' : MainLoop} {e : Event} (h : m.next (.io e) = some m') :
    ∃ io, px4io.step m.io e io ∧ m' = { m with io := io, rcArray := m.rcArrayAfter e } := by
  unfold MainLoop.next at h
  dsimp only at h
  split at h
  next =>
    obtain ⟨io, hio, hm'⟩ := Option.map_eq_some_iff.1 h
    exact ⟨io, hio, hm'.symm⟩
  next => cases h

/-- Nothing but the mixer changes the values of the RC input. -/
theorem step_rcChannelData {io io' : Io} {e : Event} (h : px4io.step io e io') (he : e ≠ .mixer) :
    io'.state.rcChannelData = io.state.rcChannelData := by
  cases e with
  | frame buffer =>
      obtain ⟨-, rfl | ⟨cmd, -, rfl⟩⟩ := step_frame h
      · rfl
      · rfl
  | statement =>
      obtain ⟨statement, rest, -, rfl⟩ := step_statement h
      cases statement <;> rfl
  | button pressed =>
      cases h
      exact congrArg Prod.fst (safetyCheckButton_parts pressed io.state).2
  | mixer => exact absurd rfl he
  | rcInput message =>
      cases h
      rfl

/-- The statements of the report leave alone what the mixer and the frames look at. -/
theorem exec_keeps (statement : ReportStatement) (m : MainLoop) :
    (statement.exec m).1.io.rest = m.io.rest ∧ (statement.exec m).1.io.command = m.io.command ∧
      (statement.exec m).1.rcArray = m.rcArray ∧
      (statement.exec m).1.io.state.rcPart = m.io.state.rcPart ∧
      (statement.exec m).1.io.state.fmuPart = m.io.state.fmuPart := by
  cases statement <;> exact ⟨rfl, rfl, rfl, rfl, rfl⟩

/-- What has come in is not forgotten. -/
theorem Traffic.subset_watch (traffic : Traffic) (m : MainLoop) (e : MainLoop.Event)
    (m' : MainLoop) : traffic.messages ⊆ (traffic.watch m e m').messages := by
  unfold Traffic.watch
  split
  · exact List.Subset.refl _
  · split
    · exact List.subset_append_left _ _
    · exact List.Subset.refl _
  · exact List.Subset.refl _

/-! ### A report that is not interrupted -/

/-- The statements of the report, one after the other. -/
def MainLoop.Continues (m m' : MainLoop) : Prop :=
  ∃ n, (List.replicate n MainLoop.Event.report).foldlM MainLoop.next m = some m'

theorem MainLoop.Continues.trans {m m' m'' : MainLoop} (h : m.Continues m')
    (h' : m'.Continues m'') : m.Continues m'' := by
  obtain ⟨n, hn⟩ := h
  obtain ⟨n', hn'⟩ := h'
  refine ⟨n + n', ?_⟩
  rw [← List.replicate_append_replicate, List.foldlM_append, hn]
  exact hn'

/-- One statement. -/
theorem continues_statement {m m' : MainLoop} {statement : ReportStatement}
    {rest more : List ReportStatement} (h : m.reporting = statement :: rest)
    (hexec : statement.exec m = (m', more)) :
    m.Continues { m' with reporting := more ++ rest } := by
  refine ⟨1, ?_⟩
  simp only [List.replicate_one, List.foldlM_cons, MainLoop.next, h, hexec]
  rfl

/-- The module with these channels in its report, and these statements left. -/
def MainLoop.copied (m : MainLoop) (rcChannel : Vector UInt16 inputChannels)
    (reporting : List ReportStatement) : MainLoop :=
  { m with report := { m.report with rcChannel := rcChannel }, reporting := reporting }

/-- The loop copies the channels that are left. -/
theorem continues_channels (m : MainLoop) (rest : List ReportStatement) (left : Nat) {i : Nat}
    (hleft : i + left = m.io.state.rcChannelData.length)
    (rcChannel : Vector UInt16 inputChannels) :
    (m.copied rcChannel (.testChannels i :: rest)).Continues
      (m.copied (.ofFn fun j =>
        if i ≤ j.val ∧ j.val < m.io.state.rcChannelData.length then m.rcArray.get j
        else rcChannel.get j) rest) := by
  induction left generalizing i rcChannel with
  | zero =>
      -- The loop ends.
      have htest : (ReportStatement.testChannels i).exec
          (m.copied rcChannel (.testChannels i :: rest)) = (_, []) :=
        Prod.ext rfl (if_neg (by dsimp only [MainLoop.copied]; omega))
      have hsame : (Vector.ofFn fun j : Fin inputChannels =>
          if i ≤ j.val ∧ j.val < m.io.state.rcChannelData.length then m.rcArray.get j
          else rcChannel.get j) = rcChannel := by
        refine Vector.ext fun j hj => ?_
        rw [Vector.getElem_ofFn, if_neg (by dsimp only; omega)]
        rfl
      rw [hsame]
      exact continues_statement rfl htest
  | succ left ih =>
      have htest : (ReportStatement.testChannels i).exec
          (m.copied rcChannel (.testChannels i :: rest)) =
            (_, [.copyChannel i, .testChannels (i + 1)]) :=
        Prod.ext rfl (if_pos (by dsimp only [MainLoop.copied]; omega))
      refine (continues_statement rfl htest).trans ((continues_statement rfl rfl).trans ?_)
      -- This channel, and then the others.
      have hrest := ih (i := i + 1) (by omega)
        (.ofFn fun j => if j.val = i then m.rcArray.get j else rcChannel.get j)
      have hsame : (Vector.ofFn fun j : Fin inputChannels =>
          if i + 1 ≤ j.val ∧ j.val < m.io.state.rcChannelData.length then m.rcArray.get j
          else (Vector.ofFn fun k : Fin inputChannels =>
            if k.val = i then m.rcArray.get k else rcChannel.get k).get j) =
          .ofFn fun j : Fin inputChannels =>
            if i ≤ j.val ∧ j.val < m.io.state.rcChannelData.length then m.rcArray.get j
            else rcChannel.get j := by
        refine Vector.ext fun j hj => ?_
        have hcopied : (Vector.ofFn fun k : Fin inputChannels =>
            if k.val = i then m.rcArray.get k else rcChannel.get k).get ⟨j, hj⟩ =
              if j = i then m.rcArray.get ⟨j, hj⟩ else rcChannel.get ⟨j, hj⟩ :=
          Vector.getElem_ofFn hj
        rw [Vector.getElem_ofFn, Vector.getElem_ofFn, hcopied]
        dsimp only
        split_ifs <;> first | rfl | omega
      rw [← hsame]
      exact hrest

/-- **A report that is not interrupted** is populated as `populateReport` says. -/
theorem uninterrupted_report {m : MainLoop} {now : UInt64}
    (hreporting : m.reporting = populate now)
    (harray : ∀ (i : Nat) value, m.io.state.rcChannelData[i]? = some value →
      m.rcArray[i]? = some value) :
    ∃ m', m.Continues m' ∧ m'.reporting = [.send] ∧
      m'.report = populateReport m.io.state m.report := by
  let m₁ : MainLoop := ((ReportStatement.clearDue now).exec m).1
  let rcChannel : Vector UInt16 inputChannels := .ofFn fun j =>
    if 0 ≤ j.val ∧ j.val < m.io.state.rcChannelData.length then m.rcArray.get j
    else m.report.rcChannel.get j
  let m₂ := m₁.copied rcChannel [.setChannelCount, .setArmed, .send]
  let m₃ := { (ReportStatement.setChannelCount.exec m₂).1 with reporting := [.setArmed, .send] }
  have hclear : m.Continues { m₁ with
      reporting := [.testChannels 0, .setChannelCount, .setArmed, .send] } :=
    continues_statement hreporting rfl
  have hcopy := continues_channels m₁ [.setChannelCount, .setArmed, .send]
    m.io.state.rcChannelData.length (Nat.zero_add _) m.report.rcChannel
  have hcount : m₂.Continues m₃ :=
    continues_statement (show m₂.reporting = .setChannelCount :: [.setArmed, .send] from rfl) rfl
  have harmed := continues_statement (show m₃.reporting = .setArmed :: [.send] from rfl) rfl
  refine ⟨_, hclear.trans (hcopy.trans (hcount.trans harmed)), rfl, ?_⟩
  have hchannels : rcChannel = (populateReport m.io.state m.report).rcChannel := by
    refine Vector.ext fun j hj => ?_
    simp only [rcChannel, populateReport, Vector.getElem_ofFn, Nat.zero_le, true_and]
    by_cases hlt : j < m.io.state.rcChannelData.length
    · have hvalue := harray j _ (List.getElem?_eq_getElem hlt)
      rw [Vector.getElem?_eq_getElem hj] at hvalue
      rw [if_pos hlt, dif_pos hlt]
      exact Option.some.inj hvalue
    · rw [if_neg hlt, dif_neg hlt]
  show { m.report with
    rcChannel := rcChannel
    armed := m.io.state.armed
    channelCount := UInt8.ofNat m.io.state.rcChannelData.length } = _
  rw [hchannels]
  rfl

/-! ### A tick -/

/-- What a tick does to the values of the RC input. -/
theorem mixerTick_rcChannelData (s : SysState) :
    (mixerTick s).2.rcChannelData = (mixerGetRcInput s).rcChannelData :=
  congrArg Prod.fst (mixerTick_rcPart s)

/-- A tick without a message keeps the values, or drops them all. -/
theorem mixerGetRcInput_silent {s : SysState} (h : s.pending = []) :
    (mixerGetRcInput s).rcChannelData = [] ∨
      (mixerGetRcInput s).rcChannelData = s.rcChannelData := by
  by_cases hdrops : s.mixerInputDrops < mixerInputDropLimit
  · have hdata := congrArg Prod.fst (mixerGetRcInput_counted h hdrops)
    by_cases hlimit : s.mixerInputDrops + 1 = mixerInputDropLimit
    · rw [if_pos hlimit] at hdata
      exact .inl hdata
    · rw [if_neg hlimit] at hdata
      exact .inr hdata
  · right
    unfold mixerGetRcInput
    dsimp only
    rw [show (s.inputQueue.head?.map RcMessage.channels).getD [] = s.pending from rfl,
      if_neg (not_not_intro h), if_neg hdrops]

/-- A message fits into the array. -/
theorem pending_length_le (s : SysState) : s.pending.length ≤ inputChannels := by
  unfold SysState.pending
  cases s.inputQueue.head? with
  | none => exact Nat.zero_le _
  | some message => exact message.fits

/-- A tick that does not have the FMU in control uses no values of the FMU. -/
theorem mixerUseFmu_of_fmu {s : SysState} {values : Vector UInt16 outputChannels}
    (h : (mixerTick s).1 = .fmu values) : s.mixerUseFmu = true := by
  by_contra hunused
  have hpart := mixerGetRcInput_fmuPart s
  simp only [SysState.fmuPart, Prod.mk.injEq] at hpart
  rw [mixerTick_eq] at h
  unfold selectInput at h
  rw [if_neg (by rw [hpart.2.1]; exact hunused)] at h
  split at h <;> cases h

/-- The mixers after a tick that uses values of the FMU. -/
theorem mixerTick_mixers {s : SysState} {values : Vector UInt16 outputChannels}
    (h : (mixerTick s).1 = .fmu values) : (mixerTick s).2.mixers = values := by
  have hinput : (selectInput (mixerGetRcInput s)).1 = .fmu values := by
    rw [← h, mixerTick_eq]
  have hmixers : (mixerTick s).2.mixers = (tickled s).mixers := by
    rw [mixerTick_eq]
    unfold armServos
    dsimp only
    split_ifs <;> rfl
  rw [hmixers, tickled]
  dsimp only
  rw [hinput, if_pos (by simp [ControlInput.values])]
  exact Vector.ext fun i hi => by simp [servoValues, ControlInput.values]

end Px4Firmware.Px4io
