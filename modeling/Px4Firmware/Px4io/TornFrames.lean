import Px4Firmware.Px4io.MainLoop

/-!
# Px4Firmware.Px4io.TornFrames

**Frames and reports in one piece.** The main loop copies the channel values of a frame one by one,
and those of the RC input into its report one by one; the mixer reads the ones and replaces the
others, and may run between any two statements of the main loop.

Nothing keeps it from running in the middle of a copy (`tick_in_copy_tears`). `frames_not_torn`
says that this is all there is to it: where no tick uses the values of the FMU while a frame is
being fetched, and none replaces the values of the RC input while they are being copied, neither the
servos nor the reports ever mix the values of two frames or of two messages.
-/

namespace Px4Firmware.Px4io

open Px4Firmware.Lib

/-! ### The law -/

/-- The channel values of a report are those of a message, or there are none. -/
def Report.Whole (report : Report) (messages : List (List UInt16)) : Prop :=
  report.channelCount = 0 ∨ ∃ message ∈ messages,
    message.length = report.channelCount.toNat ∧
      ∀ (i : Nat) value, message[i]? = some value → report.rcChannel[i]? = some value

/-- The law: a tick that uses the values of the FMU applies those of one frame; and a report that is
sent has the number of channels and the values of one message, or no channels. -/
structure NotTorn (p : MainLoop × Traffic) (e : MainLoop.Event) (q : MainLoop × Traffic) :
    Prop where
  servos : e = .io .mixer → ∀ values, (mixerTick p.1.io.state).1 = .fmu values →
    ∃ cmd ∈ p.2.commands, values = cmd.servoCommand ∧
      q.1.io.state.mixers = cmd.servoCommand ∧
      ∃ calls, q.1.io.state.output = p.1.io.state.output ++ calls ∧
        ∀ i value, .servoSet i value ∈ calls ↔
          p.1.io.state.armed = true ∧ value = cmd.servoCommand.get i
  report : e = .report → p.1.reporting.head? = some .send → p.1.report.Whole p.2.messages

/-- A channel value has been copied into the report, or the loop has ended, and the number of
channels has not been. -/
def copying : List ReportStatement → Bool
  | .testChannels i :: _ | .copyChannel i :: _ => 0 < i
  | .setChannelCount :: _ => true
  | _ => false

/-- The condition, for a tick of the mixer: if it uses the values of the FMU, all of the frame that
is being handled has been fetched, or nothing has; and if a report is being populated, it leaves the
values of the RC input as they are, or drops them all. -/
def Careful (p : MainLoop × Traffic) : MainLoop.Event → Prop
  | .io .mixer =>
      (p.1.io.state.mixerUseFmu = true →
        fetches p.1.io.rest = [] ∨ ∀ i, i ∈ fetches p.1.io.rest) ∧
      (copying p.1.reporting = true →
        (mixerGetRcInput p.1.io.state).rcChannelData = [] ∨
          (mixerGetRcInput p.1.io.state).rcChannelData = p.1.io.state.rcChannelData)
  | _ => True

instance decidableCareful (p : MainLoop × Traffic) : (e : MainLoop.Event) → Decidable (Careful p e)
  | .io .mixer => inferInstanceAs (Decidable (_ ∧ _))
  | .io (.frame _) => inferInstanceAs (Decidable True)
  | .io .statement => inferInstanceAs (Decidable True)
  | .io (.button _) => inferInstanceAs (Decidable True)
  | .io (.rcInput _) => inferInstanceAs (Decidable True)
  | .check _ => inferInstanceAs (Decidable True)
  | .report => inferInstanceAs (Decidable True)

/-! ### The frames -/

/-- The invariant of the frames: what has been fetched is that of the command; while nothing has
been fetched, and the FMU is in control, all is that of an earlier one. The FMU gets the control
when all has been fetched. -/
structure Fetched (io : Io) (commands : List Command) : Prop where
  nodup : (fetches io.rest).Nodup
  ordered : io.rest.Pairwise fun a b => a = .setMixerUseFmu → ∀ i, b ≠ .fetchServo i
  current : commands ≠ [] → io.command ∈ commands ∧ ∀ i ∉ fetches io.rest,
    io.state.fmuChannelData.get i = io.command.servoCommand.get i
  none : commands = [] → io.rest = [] ∧ io.state.mixerUseFmu = false
  earlier : io.state.mixerUseFmu = true → (∀ i, i ∈ fetches io.rest) →
    ∃ cmd ∈ commands, io.state.fmuChannelData = cmd.servoCommand

theorem ordered_frame : frameStatements.Pairwise fun a b =>
    a = .setMixerUseFmu → ∀ i, b ≠ .fetchServo i := by decide

/-- A step that leaves the values of the FMU alone, and does not give it the control. -/
theorem Fetched.congr {io : Io} {commands : List Command} (h : Fetched io commands) {s : SysState}
    (hdata : s.fmuChannelData = io.state.fmuChannelData)
    (huse : s.mixerUseFmu = true → io.state.mixerUseFmu = true) :
    Fetched { io with state := s } commands where
  nodup := h.nodup
  ordered := h.ordered
  current hsome := by
    rw [hdata]
    exact h.current hsome
  none hnone := by
    obtain ⟨hrest, hunused⟩ := h.none hnone
    refine ⟨hrest, Bool.eq_false_iff.2 fun hused => ?_⟩
    rw [huse hused] at hunused
    cases hunused
  earlier hused hall := by
    rw [hdata]
    exact h.earlier (huse hused) hall

/-- A frame arrives. -/
theorem Fetched.frame {io : Io} {commands : List Command} (h : Fetched io commands)
    (hidle : io.rest = []) (cmd : Command) :
    Fetched { io with command := cmd, rest := frameStatements } (commands ++ [cmd]) where
  nodup := nodup_fetches_frame
  ordered := ordered_frame
  current _ := ⟨List.mem_append_right _ (List.mem_singleton_self cmd),
    fun i hi => absurd (fetches_frame i) hi⟩
  none hnone := absurd hnone (List.append_ne_nil_of_right_ne_nil _ (List.cons_ne_nil _ _))
  earlier hused _ := by
    have hsome : commands ≠ [] := fun hnone => by
      rw [(h.none hnone).2] at hused
      cases hused
    obtain ⟨hmem, hcurrent⟩ := h.current hsome
    refine ⟨io.command, List.mem_append_left _ hmem, Vector.ext fun i hi => ?_⟩
    refine hcurrent ⟨i, hi⟩ ?_
    rw [hidle]
    exact List.not_mem_nil

/-- Statements that do not set the flag may come in front. -/
theorem ordered_append {more rest : List Statement} (hmore : .setMixerUseFmu ∉ more)
    (hrest : rest.Pairwise fun a b => a = .setMixerUseFmu → ∀ i, b ≠ .fetchServo i) :
    (more ++ rest).Pairwise fun a b => a = .setMixerUseFmu → ∀ i, b ≠ .fetchServo i := by
  have hother : ∀ a ∈ more, a ≠ .setMixerUseFmu := by
    rintro a ha rfl
    exact hmore ha
  exact List.pairwise_append.2
    ⟨List.pairwise_of_forall_mem_list fun a ha _ _ hset => absurd hset (hother a ha), hrest,
      fun a ha _ _ hset => absurd hset (hother a ha)⟩

/-- **A statement** of the handler. -/
theorem Fetched.exec {io : Io} {commands : List Command} (h : Fetched io commands)
    {statement : Statement} {rest : List Statement} (hrest : io.rest = statement :: rest) :
    Fetched { io with
      state := (statement.exec io.command io.state).1
      rest := (statement.exec io.command io.state).2 ++ rest } commands := by
  have hfetches := fetches_exec io.command io.state statement rest
  have hdata := exec_fmuChannelData io.command io.state statement
  have hsome : commands ≠ [] := fun hnone => by
    rw [(h.none hnone).1] at hrest
    cases hrest
  have hsub : ∀ i, i ∈ fetches io.rest ↔ statement = .fetchServo i ∨ i ∈ fetches rest := by
    intro i
    rw [mem_fetches, mem_fetches, hrest, List.mem_cons, eq_comm]
  obtain ⟨hnodup, hother⟩ := nodup_fetches_cons (hrest ▸ h.nodup)
  obtain ⟨hfirst, hordered⟩ := List.pairwise_cons.1 (hrest ▸ h.ordered)
  obtain ⟨hmem, hcurrent⟩ := h.current hsome
  refine ⟨?_, ?_, fun _ => ⟨hmem, fun i hi => ?_⟩, fun hnone => absurd hnone hsome,
    fun hused hall => ?_⟩
  · rw [hfetches]
    exact hnodup
  · exact ordered_append (exec_adds_no_flag io.command io.state statement) hordered
  · dsimp only at hi ⊢
    rw [hfetches] at hi
    rw [hdata]
    split
    next => rfl
    next hnot => exact hcurrent i fun hfetch => ((hsub i).1 hfetch).elim hnot hi
  · dsimp only at hused hall ⊢
    rw [hfetches] at hall
    rw [exec_mixerUseFmu] at hused
    split at hused
    next hset =>
      -- The flag comes after the fetches.
      exact absurd rfl (hfirst (.fetchServo 0) (mem_fetches.1 (hall 0)) hset 0)
    next =>
      obtain ⟨cmd, hcmd, hequal⟩ := h.earlier hused fun i => (hsub i).2 (.inr (hall i))
      refine ⟨cmd, hcmd, Vector.ext fun i hi => ?_⟩
      have hi : (statement.exec io.command io.state).1.fmuChannelData.get ⟨i, hi⟩ = _ :=
        hdata ⟨i, hi⟩
      rw [if_neg (hother _ (hall _)), hequal] at hi
      exact hi

/-- **The values of a tick** that is careful. -/
theorem Fetched.values {io : Io} {commands : List Command} (h : Fetched io commands)
    (hused : io.state.mixerUseFmu = true)
    (hcareful : fetches io.rest = [] ∨ ∀ i, i ∈ fetches io.rest) :
    ∃ cmd ∈ commands, io.state.fmuChannelData = cmd.servoCommand := by
  rcases hcareful with hall | hnone
  · have hsome : commands ≠ [] := fun hnone => by
      rw [(h.none hnone).2] at hused
      cases hused
    obtain ⟨hmem, hcurrent⟩ := h.current hsome
    refine ⟨io.command, hmem, Vector.ext fun i hi => hcurrent ⟨i, hi⟩ ?_⟩
    rw [hall]
    exact List.not_mem_nil
  · exact h.earlier hused hnone

/-! ### The report -/

/-- The first values in the report are those of the RC input now, as far as it has so many. -/
def Agrees (m : MainLoop) (k : Nat) : Prop :=
  ∀ i < k, ∀ value, m.io.state.rcChannelData[i]? = some value →
    m.report.rcChannel[i]? = some value

/-- What must hold when these statements of `comms_check` are left. -/
def Populated (m : MainLoop) (messages : List (List UInt16)) : List ReportStatement → Prop
  | [] => True
  | .testDue _ :: rest => rest = []
  | .clearDue _ :: rest => rest = [.testChannels 0, .setChannelCount, .setArmed, .send]
  | .testChannels i :: rest => rest = [.setChannelCount, .setArmed, .send] ∧ Agrees m i
  | .copyChannel i :: rest =>
      rest = [.testChannels (i + 1), .setChannelCount, .setArmed, .send] ∧ Agrees m i
  | .setChannelCount :: rest => rest = [.setArmed, .send] ∧ ∀ i, Agrees m i
  | .setArmed :: rest => rest = [.send] ∧ m.report.Whole messages
  | .send :: rest => rest = [] ∧ m.report.Whole messages

/-- The invariant of the RC input: its values are those of a message, and in the array. -/
structure Received (m : MainLoop) (messages : List (List UInt16)) : Prop where
  message : m.io.state.rcChannelData = [] ∨ m.io.state.rcChannelData ∈ messages
  array : ∀ (i : Nat) value, m.io.state.rcChannelData[i]? = some value →
    m.rcArray[i]? = some value

/-- A step that leaves the report alone, and the values of the RC input as they are if some have
been copied, or drops them all. -/
theorem Agrees.mono {m m' : MainLoop} {k : Nat} (h : Agrees m k) (hreport : m'.report = m.report)
    (hdata : 0 < k → m'.io.state.rcChannelData = [] ∨
      m'.io.state.rcChannelData = m.io.state.rcChannelData) : Agrees m' k := by
  intro i hi value hvalue
  rcases hdata (Nat.zero_lt_of_lt hi) with hnone | hsame
  · rw [hnone] at hvalue
    cases hvalue
  · rw [hsame] at hvalue
    rw [hreport]
    exact h i hi value hvalue

theorem Report.Whole.mono {report : Report} {messages messages' : List (List UInt16)}
    (h : report.Whole messages) (hsub : messages ⊆ messages') : report.Whole messages' := by
  rcases h with hzero | ⟨message, hmem, hwhole⟩
  · exact .inl hzero
  · exact .inr ⟨message, hsub hmem, hwhole⟩

theorem Populated.mono {m m' : MainLoop} {messages messages' : List (List UInt16)}
    {statements : List ReportStatement} (h : Populated m messages statements)
    (hreport : m'.report = m.report) (hsub : messages ⊆ messages')
    (hdata : copying statements = true → m'.io.state.rcChannelData = [] ∨
      m'.io.state.rcChannelData = m.io.state.rcChannelData) :
    Populated m' messages' statements := by
  match statements with
  | [] => exact h
  | statement :: rest =>
      cases statement with
      | testDue now => exact h
      | clearDue now => exact h
      | testChannels i => exact ⟨h.1, h.2.mono hreport fun hi => hdata (decide_eq_true hi)⟩
      | copyChannel i => exact ⟨h.1, h.2.mono hreport fun hi => hdata (decide_eq_true hi)⟩
      | setChannelCount => exact ⟨h.1, fun i => (h.2 i).mono hreport fun _ => hdata rfl⟩
      | setArmed =>
          refine ⟨h.1, ?_⟩
          rw [hreport]
          exact h.2.mono hsub
      | send =>
          refine ⟨h.1, ?_⟩
          rw [hreport]
          exact h.2.mono hsub

/-- There is room for the values of the RC input. -/
theorem Received.length_le {m : MainLoop} {messages : List (List UInt16)}
    (h : Received m messages) : m.io.state.rcChannelData.length ≤ inputChannels := by
  by_contra hlong
  have hlast := List.getElem?_eq_getElem (Nat.lt_of_not_le hlong)
  have harray := h.array inputChannels _ hlast
  rw [Vector.getElem?_eq_none (Nat.le_refl _)] at harray
  cases harray

/-- A channel is copied. -/
theorem Agrees.copy {m : MainLoop} {messages : List (List UInt16)} {i : Nat}
    (hreceived : Received m messages) (h : Agrees m i) :
    Agrees (ReportStatement.exec m (.copyChannel i)).1 (i + 1) := by
  intro j hj value hvalue
  have harray := hreceived.array j value hvalue
  obtain ⟨hlt, hget⟩ := Vector.getElem?_eq_some_iff.1 harray
  simp only [ReportStatement.exec, Vector.getElem?_ofFn, dif_pos hlt]
  split
  next => exact congrArg some hget
  next hne =>
    have hold := h j (by omega) value hvalue
    rwa [Vector.getElem?_eq_getElem hlt] at hold

/-- All channels have been copied, and the number is set. -/
theorem Received.whole {m : MainLoop} {messages : List (List UInt16)}
    (hreceived : Received m messages) (h : ∀ i, Agrees m i) :
    (ReportStatement.exec m .setChannelCount).1.report.Whole messages := by
  rcases hreceived.message with hnone | hmem
  · left
    simp [ReportStatement.exec, hnone]
  · right
    have hle : m.io.state.rcChannelData.length ≤ 12 := hreceived.length_le
    refine ⟨_, hmem, ?_, fun i value => h (i + 1) i (Nat.lt_succ_self i) value⟩
    -- The number of channels fits into a byte.
    simp only [ReportStatement.exec, UInt8.toNat_ofNat']
    omega

/-- **A statement** of the report. -/
theorem Populated.exec {m : MainLoop} {messages : List (List UInt16)}
    {statement : ReportStatement} {rest : List ReportStatement} (hreceived : Received m messages)
    (h : Populated m messages (statement :: rest)) :
    Populated (statement.exec m).1 messages ((statement.exec m).2 ++ rest) := by
  cases statement with
  | testDue now =>
      obtain rfl : rest = [] := h
      simp only [ReportStatement.exec]
      split
      · exact rfl
      · exact trivial
  | clearDue now =>
      obtain rfl : rest = _ := h
      exact ⟨rfl, fun i hi => absurd hi (Nat.not_lt_zero i)⟩
  | testChannels i =>
      obtain ⟨rfl, hagrees⟩ := h
      simp only [ReportStatement.exec]
      split
      next => exact ⟨rfl, hagrees⟩
      next hend =>
        refine ⟨rfl, fun k j _ value hvalue => hagrees j ?_ value hvalue⟩
        have hj := (List.getElem?_eq_some_iff.1 hvalue).1
        omega
  | copyChannel i =>
      obtain ⟨rfl, hagrees⟩ := h
      exact ⟨rfl, hagrees.copy hreceived⟩
  | setChannelCount =>
      obtain ⟨rfl, hagrees⟩ := h
      exact ⟨rfl, hreceived.whole hagrees⟩
  | setArmed =>
      obtain ⟨rfl, hwhole⟩ := h
      exact ⟨rfl, hwhole⟩
  | send =>
      obtain ⟨rfl, -⟩ := h
      exact trivial

/-- **A tick** leaves the values of one message. -/
theorem Received.mixer {m : MainLoop} {traffic : Traffic} (h : Received m traffic.messages)
    (m' : MainLoop) : Received
      { m with
        io := { m.io with state := (mixerTick m.io.state).2 }
        rcArray := m.rcArrayAfter .mixer }
      (traffic.watch m (.io .mixer) m').messages := by
  by_cases hpending : m.io.state.pending = []
  · have harray : m.rcArrayAfter .mixer = m.rcArray :=
      Vector.ext fun i hi => by simp [MainLoop.rcArrayAfter, hpending, Vector.get]
    have htraffic : traffic.watch m (.io .mixer) m' = traffic := if_neg (not_not_intro hpending)
    rw [htraffic, harray]
    rcases mixerGetRcInput_silent hpending with hnone | hsame
    · rw [← mixerTick_rcChannelData] at hnone
      refine ⟨.inl hnone, fun i value hvalue => ?_⟩
      rw [hnone] at hvalue
      cases hvalue
    · rw [← mixerTick_rcChannelData] at hsame
      refine ⟨hsame ▸ h.message, fun i value hvalue => ?_⟩
      rw [hsame] at hvalue
      exact h.array i value hvalue
  · have hdata := congrArg Prod.fst (mixerGetRcInput_taken hpending)
    rw [show (mixerGetRcInput m.io.state).rcPart.1 = _ from
      (mixerTick_rcChannelData m.io.state).symm] at hdata
    have htraffic : traffic.watch m (.io .mixer) m' =
        { traffic with messages := traffic.messages ++ [m.io.state.pending] } := if_pos hpending
    rw [htraffic]
    refine ⟨.inr ?_, fun i value hvalue => ?_⟩
    · rw [show (mixerTick m.io.state).2.rcChannelData = _ from hdata]
      exact List.mem_append_right _ (List.mem_singleton_self _)
    · rw [show (mixerTick m.io.state).2.rcChannelData = _ from hdata] at hvalue
      have hlt := (List.getElem?_eq_some_iff.1 hvalue).1
      have hle := pending_length_le m.io.state
      simp only [MainLoop.rcArrayAfter, Vector.getElem?_ofFn,
        dif_pos (Nat.lt_of_lt_of_le hlt hle), List.getD_eq_getElem?_getD, hvalue, Option.getD_some]

/-! ### Over a run -/

/-- The invariant. -/
structure WholeInv (p : MainLoop × Traffic) : Prop where
  frames : Fetched p.1.io p.2.commands
  received : Received p.1 p.2.messages
  populated : Populated p.1 p.2.messages p.1.reporting

/-- **The frames**, when something happens to the module. -/
theorem Fetched.step {m : MainLoop} {traffic : Traffic} {io : Io} {e : Event}
    (h : Fetched m.io traffic.commands) (m' : MainLoop) (hstep : px4io.step m.io e io) :
    Fetched io (traffic.watch m (.io e) m').commands := by
  cases e with
  | frame buffer =>
      obtain ⟨hidle, -⟩ := step_frame hstep
      simp only [px4io, Io.next, hidle] at hstep
      cases hcmd : toCommand buffer with
      | none =>
          rw [hcmd] at hstep
          cases hstep
          simpa [Traffic.watch, hcmd] using h
      | some cmd =>
          rw [hcmd] at hstep
          cases hstep
          simpa [Traffic.watch, hcmd] using h.frame hidle cmd
  | statement =>
      obtain ⟨statement, rest, hrest, rfl⟩ := step_statement hstep
      exact h.exec hrest
  | button pressed =>
      cases hstep
      have hpart := (safetyCheckButton_parts pressed m.io.state).1
      simp only [SysState.fmuPart, Prod.mk.injEq] at hpart
      exact h.congr hpart.1 fun hused => hpart.2.1 ▸ hused
  | mixer =>
      cases hstep
      obtain ⟨hdata, huse⟩ := mixerTick_keeps m.io.state
      have hcommands : (traffic.watch m (.io .mixer) m').commands = traffic.commands := by
        unfold Traffic.watch
        dsimp only
        split <;> rfl
      rw [hcommands]
      refine h.congr hdata fun hused => ?_
      rw [huse, Bool.and_eq_true] at hused
      exact hused.1
  | rcInput message =>
      cases hstep
      exact h.congr rfl id

/-- **The RC input**, when something happens to the module. -/
theorem Received.step {m : MainLoop} {traffic : Traffic} {io : Io} {e : Event}
    (h : Received m traffic.messages) (m' : MainLoop) (hstep : px4io.step m.io e io) :
    Received { m with io := io, rcArray := m.rcArrayAfter e }
      (traffic.watch m (.io e) m').messages := by
  by_cases hmixer : e = .mixer
  · subst hmixer
    cases hstep
    exact h.mixer m'
  -- Only the mixer writes to the array.
  · have hdata := step_rcChannelData hstep hmixer
    have harray : m.rcArrayAfter e = m.rcArray := by
      cases e with
      | mixer => exact absurd rfl hmixer
      | _ => rfl
    refine ⟨?_, ?_⟩
    · dsimp only
      rw [hdata]
      exact h.message.imp_right fun hmem => traffic.subset_watch m (.io e) m' hmem
    · dsimp only
      rw [hdata, harray]
      exact h.array

/-- **The report**, when something happens to the module that is careful. -/
theorem Populated.step {m : MainLoop} {traffic : Traffic} {io : Io} {e : Event}
    (h : Populated m traffic.messages m.reporting) (m' : MainLoop)
    (hcareful : e = .mixer → copying m.reporting = true →
      (mixerGetRcInput m.io.state).rcChannelData = [] ∨
        (mixerGetRcInput m.io.state).rcChannelData = m.io.state.rcChannelData)
    (hstep : px4io.step m.io e io) :
    Populated { m with io := io, rcArray := m.rcArrayAfter e }
      (traffic.watch m (.io e) m').messages m.reporting := by
  refine h.mono rfl (traffic.subset_watch m (.io e) m') fun hcopying => ?_
  by_cases hmixer : e = .mixer
  · subst hmixer
    cases hstep
    dsimp only
    rw [mixerTick_rcChannelData]
    exact hcareful rfl hcopying
  · exact .inr (step_rcChannelData hstep hmixer)

/-- A statement of `comms_check` keeps the invariant. -/
theorem WholeInv.report_step {m m' : MainLoop} {traffic : Traffic} (h : WholeInv (m, traffic))
    (hnext : m.next .report = some m') : WholeInv (m', traffic) := by
  obtain ⟨hframes, hreceived, hpopulated⟩ := h
  obtain ⟨statement, rest, hreporting, rfl⟩ := next_report hnext
  obtain ⟨hrest, hcommand, harray, hrc, hfmu⟩ := exec_keeps statement m
  simp only [SysState.rcPart, SysState.fmuPart, Prod.mk.injEq] at hrc hfmu
  dsimp only at hreporting hpopulated
  rw [hreporting] at hpopulated
  refine ⟨?_, ⟨?_, ?_⟩, ?_⟩
  · have hkept := hframes.congr hfmu.1 fun hused => hfmu.2.1 ▸ hused
    dsimp only at hkept ⊢
    rw [← hrest, ← hcommand] at hkept
    exact hkept
  · dsimp only
    rw [hrc.1]
    exact hreceived.message
  · dsimp only
    rw [hrc.1, harray]
    exact hreceived.array
  · have hnow := hpopulated.exec hreceived
    exact hnow.mono rfl (List.Subset.refl _) fun _ => .inr rfl

/-- **A careful step** keeps the invariant. -/
theorem WholeInv.step {p q : MainLoop × Traffic} {e : MainLoop.Event} (h : WholeInv p)
    (hcareful : Careful p e) (hstep : mainLoop.step p e q) : WholeInv q := by
  obtain ⟨m, traffic⟩ := p
  obtain ⟨m', traffic'⟩ := q
  obtain ⟨hnext, hwatch⟩ := hstep
  dsimp only at hnext hwatch
  subst hwatch
  cases e with
  | check now =>
      obtain rfl := next_check hnext
      exact ⟨h.frames, ⟨h.received.message, h.received.array⟩, rfl⟩
  | report => exact h.report_step hnext
  | io e =>
      obtain ⟨io, hio, rfl⟩ := next_io hnext
      refine ⟨h.frames.step m hio, h.received.step m hio, h.populated.step m ?_ hio⟩
      rintro rfl hcopying
      exact hcareful.2 hcopying

/-- **A careful step** obeys the law. -/
theorem WholeInv.notTorn {p q : MainLoop × Traffic} {e : MainLoop.Event} (h : WholeInv p)
    (hcareful : Careful p e) (hstep : mainLoop.step p e q) : NotTorn p e q := by
  refine ⟨fun hmixer values hvalues => ?_, fun hreport hsend => ?_⟩
  · subst hmixer
    have hused := mixerUseFmu_of_fmu hvalues
    have hdata : values = p.1.io.state.fmuChannelData := by
      rw [mixerTick_input hused] at hvalues
      exact (ControlInput.fmu.inj hvalues).symm
    obtain ⟨cmd, hcmd, hequal⟩ := h.frames.values hused (hcareful.1 hused)
    rw [← hdata] at hequal
    obtain ⟨io, hio, hm'⟩ := next_io hstep.1
    cases hio
    rw [hm']
    refine ⟨cmd, hcmd, hequal, (mixerTick_mixers hvalues).trans hequal, ?_⟩
    obtain ⟨-, calls, houtput, hcalls⟩ := mixerTick_servos p.1.io.state
    refine ⟨calls, houtput, fun i value => ?_⟩
    rw [hcalls, hvalues, ← hequal]
    simp [ControlInput.values, Vector.get]
  · have hpopulated := h.populated
    cases hreporting : p.1.reporting with
    | nil =>
        rw [hreporting] at hsend
        cases hsend
    | cons statement rest =>
        rw [hreporting] at hsend hpopulated
        obtain rfl : statement = .send := Option.some.inj hsend
        exact hpopulated.2

theorem wholeInv_of_reachable {p : MainLoop × Traffic}
    (h : (mainLoop.restrict Careful).Reachable p) : WholeInv p := by
  refine h.invariant ?_ fun p e q hp hstep => hp.step hstep.1 hstep.2
  rintro ⟨m, traffic⟩ ⟨⟨⟨hstate, hrest⟩, hreporting⟩, rfl⟩
  refine ⟨⟨?_, ?_, fun hsome => absurd rfl hsome, fun _ => ⟨hrest, ?_⟩, fun hused => ?_⟩,
    ⟨.inl ?_, fun i value hvalue => ?_⟩, ?_⟩
  · rw [hrest]
    exact List.nodup_nil
  · rw [hrest]
    exact List.Pairwise.nil
  · rw [hstate]
    rfl
  · rw [hstate] at hused
    cases hused
  · rw [hstate]
    rfl
  · rw [hstate] at hvalue
    cases hvalue
  · rw [hreporting]
    trivial

/-- **No torn frames.** In a run in which no tick of the mixer uses the values of the FMU in the
middle of a frame, and none replaces the values of the RC input in the middle of a report, every
tick that uses the values of the FMU applies those of one frame, and every report that is sent has
those of one message, or none. -/
theorem frames_not_torn {p q : MainLoop × Traffic} {events : List MainLoop.Event}
    (hinit : mainLoop.init p) (hrun : (mainLoop.restrict Careful).Run p events q) :
    (mainLoop.obeying NotTorn).Run p events q :=
  hrun.obeying_of_restrict
    (fun _ _ _ hreach hstep hcareful => (wholeInv_of_reachable hreach).notTorn hcareful hstep)
    (LTS.Reachable.of_init hinit)

/-! ### Runs -/

/-- The next state, with what comes in. -/
def nextTraffic (p : MainLoop × Traffic) (e : MainLoop.Event) : Option (MainLoop × Traffic) :=
  (p.1.next e).map fun m => (m, p.2.watch p.1 e m)

theorem step_of_nextTraffic (p : MainLoop × Traffic) (e : MainLoop.Event)
    (q : MainLoop × Traffic) (h : nextTraffic p e = some q) : mainLoop.step p e q := by
  obtain ⟨m, hm, rfl⟩ := Option.map_eq_some_iff.1 h
  exact ⟨hm, rfl⟩

/-- The module after a reset. -/
def startMain : MainLoop × Traffic :=
  ({ io := startHandled.1
     rcArray := .replicate inputChannels 0
     report :=
      { i2fMagic := i2fMagic
        rcChannel := .replicate inputChannels 0
        armed := false
        channelCount := 0 }
     lastReportTime := 0
     reporting := [] },
    { commands := [], messages := [] })

theorem startMain_init : mainLoop.init startMain := ⟨⟨⟨rfl, rfl⟩, rfl⟩, rfl⟩

/-- A message with two channels, which the mixer takes. -/
def twoChannels (first second : UInt16) : List MainLoop.Event :=
  [.io (.rcInput ⟨[first, second], Nat.le_of_ble_eq_true rfl⟩), .io .mixer]

/-- A frame, a message and a report, with the mixer in between. -/
def wholeTraffic : List MainLoop.Event :=
  (wholeFrame 7).map .io ++ twoChannels 1500 1600 ++ [.check 200000] ++
    List.replicate 10 .report ++ [.io .mixer]

/-- It is a run of ticks that come before a frame or a report or behind. -/
theorem frames_not_torn_whole :
    ∃ q, (mainLoop.obeying NotTorn).Run startMain wholeTraffic q ∧
      q.1.report.channelCount = 2 := by
  have hends : (wholeTraffic.foldlM
      (fun p e => if Careful p e then nextTraffic p e else none) startMain).any
        (fun q => q.1.report.channelCount = 2) = true := by decide +kernel
  obtain ⟨q, hq, hcount⟩ := (Option.any_eq_true _ _).1 hends
  exact ⟨q, frames_not_torn startMain_init (LTS.Run.restrict_of_foldlM step_of_nextTraffic hq),
    of_decide_eq_true hcount⟩

/-- A run of which the last step does not obey the law. -/
theorem exists_torn {before : List MainLoop.Event} {e : MainLoop.Event} {p : MainLoop × Traffic}
    (hp : before.foldlM nextTraffic startMain = some p) (hnext : (nextTraffic p e).isSome)
    (hlaw : ∀ q, ¬NotTorn p e q) :
    ∃ q, mainLoop.Run startMain (before ++ [e]) q ∧
      ¬(mainLoop.obeying NotTorn).Run startMain (before ++ [e]) q := by
  obtain ⟨q, hq⟩ := Option.isSome_iff_exists.1 hnext
  have hbefore : mainLoop.Run startMain before p := .of_foldlM step_of_nextTraffic hp
  refine ⟨q, hbefore.snoc (step_of_nextTraffic p e q hq), fun hrun => ?_⟩
  obtain ⟨p', hrun', hstep⟩ := hrun.exists_of_snoc
  have hunique : p' = p := by
    refine LTS.Run.unique ?_ hrun'.of_obeying hbefore
    intro s e t t' ht ht'
    have hsame : t.1 = t'.1 := Option.some.inj (ht.1.symm.trans ht'.1)
    exact Prod.ext hsame (by rw [ht.2, ht'.2, hsame])
  rw [hunique] at hstep
  exact hlaw q hstep.2

/-- A frame, and the first value of another one. -/
def frameInPart : List MainLoop.Event :=
  (wholeFrame 7).map .io ++ [.io (.frame (List.replicate sizeofCommand 9)), .io .statement]

/-- The values of both. -/
def tornValues : Vector UInt16 outputChannels :=
  .ofFn fun i => if i.val = 0 then 0x0909 else 0x0707

/-- A message, the first of its values in a report, another message, and the rest of the report. -/
def reportInPart : List MainLoop.Event :=
  twoChannels 1500 1600 ++ [.check 200000] ++ List.replicate 4 .report ++
    twoChannels 1100 1200 ++ List.replicate 5 .report

/-- A tick in the middle of a frame sets the servos to values of two frames, and one in the middle
of a report has it sent with values of two messages. -/
theorem tick_in_copy_tears :
    (∃ q, mainLoop.Run startMain (frameInPart ++ [.io .mixer]) q ∧
      ¬(mainLoop.obeying NotTorn).Run startMain (frameInPart ++ [.io .mixer]) q) ∧
    ∃ q, mainLoop.Run startMain (reportInPart ++ [.report]) q ∧
      ¬(mainLoop.obeying NotTorn).Run startMain (reportInPart ++ [.report]) q := by
  constructor
  · have hends : (frameInPart.foldlM nextTraffic startMain).any (fun p =>
        (nextTraffic p (.io .mixer)).isSome ∧ (mixerTick p.1.io.state).1 = .fmu tornValues ∧
          ∀ cmd ∈ p.2.commands, tornValues ≠ cmd.servoCommand) = true := by decide +kernel
    obtain ⟨p, hp, htorn⟩ := (Option.any_eq_true _ _).1 hends
    obtain ⟨hnext, hinput, hnone⟩ := of_decide_eq_true htorn
    refine exists_torn hp hnext fun q hlaw => ?_
    obtain ⟨cmd, hcmd, hequal, -⟩ := hlaw.servos rfl _ hinput
    exact hnone cmd hcmd hequal
  · have hends : (reportInPart.foldlM nextTraffic startMain).any (fun p =>
        (nextTraffic p .report).isSome ∧ p.1.reporting = [.send] ∧
          p.1.report.rcChannel[0] = 1500 ∧ p.1.report.rcChannel[1] = 1200 ∧
          p.1.report.channelCount = 2 ∧ p.2.messages = [[1500, 1600], [1100, 1200]]) = true := by
      decide +kernel
    obtain ⟨p, hp, htorn⟩ := (Option.any_eq_true _ _).1 hends
    obtain ⟨hnext, hsend, hfirst, hsecond, hcount, hmessages⟩ := of_decide_eq_true htorn
    refine exists_torn hp hnext fun q hlaw => ?_
    rcases hlaw.report rfl (by rw [hsend]; rfl) with hzero | ⟨message, hmem, -, hvalues⟩
    · rw [hcount] at hzero
      cases hzero
    · simp only [hmessages, List.mem_cons, List.not_mem_nil, or_false] at hmem
      rcases hmem with rfl | rfl
      · have hvalue := hvalues 1 1600 rfl
        rw [Vector.getElem?_eq_getElem (by decide), hsecond] at hvalue
        cases hvalue
      · have hvalue := hvalues 0 1100 rfl
        rw [Vector.getElem?_eq_getElem (by decide), hfirst] at hvalue
        cases hvalue

end Px4Firmware.Px4io
