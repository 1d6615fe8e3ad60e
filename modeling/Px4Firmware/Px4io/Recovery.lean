import Px4Firmware.Px4io.Failsafe

/-!
# Px4Firmware.Px4io.Recovery

**Recovery of the FMU control.** A frame that has been handled is used by the next tick of the
mixer, although the handler and the mixer are not synchronised. The handler sets `mixer_use_fmu`
and then `fmu_data_received`; the mixer counts the ticks without data and clears `mixer_use_fmu`
at the limit, and the count is only reset by a tick that finds data.

So a tick that comes when the handler has set the first flag, and there is no data (yet, or any
more), and the count is at its limit, takes the FMU control back from a frame that goes on to be
handled to its end. Without such a tick (`Clears`) the next tick uses the frame
(`recovery_kept`); with it the frame is lost (`recovery_lost`).
-/

namespace Px4Firmware.Px4io

open Px4Firmware.Lib

/-! ### The law -/

/-- The channels that the rest of a handler still fetches. -/
def fetches (rest : List Statement) : List (Fin outputChannels) :=
  rest.filterMap fun
    | .fetchServo i => some i
    | _ => none

/-- The frames, as seen from outside: the command of the latest frame that has been handled to its
end, and whether that was since the last tick. -/
structure Handled where
  latest : Option Command
  fresh : Bool

/-- Watch the handler and the mixer. -/
def Handled.watch (handled : Handled) (_ : Io) (e : Event) (io' : Io) : Handled :=
  match e with
  | .statement => if io'.rest = [] then ⟨some io'.command, true⟩ else handled
  | .mixer => { handled with fresh := false }
  | _ => handled

/-- The module, with the frames that it has handled. -/
def px4ioHandled : LTS (Io × Handled) Event :=
  px4io.observe ⟨none, false⟩ Handled.watch

/-- An input that consists of the channel values of this frame or of a later one, which is being
handled. It is all of the one or all of the other unless the later one is being fetched. -/
def UsesFrame (io : Io) (cmd : Command) (input : ControlInput) : Prop :=
  ∃ values, input = .fmu values ∧
    (∀ i, values.get i = if i ∈ fetches io.rest then cmd.servoCommand.get i
      else io.command.servoCommand.get i) ∧
    (fetches io.rest = [] → values = io.command.servoCommand) ∧
    ((∀ i, i ∈ fetches io.rest) → values = cmd.servoCommand) ∧
    (io.rest = [] → io.command = cmd)

/-- The tick that clears `mixer_use_fmu` behind the back of the handler, which has set it. -/
def Clears (io : Io) : Prop :=
  io.rest ≠ [] ∧ .setMixerUseFmu ∉ io.rest ∧ io.state.fmuDataReceived = false ∧
    fmuInputDropLimit ≤ io.state.fmuInputDrops + 1

instance decidableClears (io : Io) : Decidable (Clears io) :=
  inferInstanceAs (Decidable (_ ∧ _ ∧ _ ∧ _))

/-- Any event but such a tick. -/
def NotCleared (p : Io × Handled) : Event → Prop
  | .mixer => ¬ Clears p.1
  | _ => True

instance decidableNotCleared (p : Io × Handled) : (e : Event) → Decidable (NotCleared p e)
  | .mixer => inferInstanceAs (Decidable (¬ Clears p.1))
  | .frame _ => inferInstanceAs (Decidable True)
  | .statement => inferInstanceAs (Decidable True)
  | .button _ => inferInstanceAs (Decidable True)
  | .rcInput _ => inferInstanceAs (Decidable True)

/-- The first tick after a frame has been handled uses that frame or a later one. -/
def Recovers (p : Io × Handled) : Prop :=
  p.2.fresh = true → ∃ cmd, p.2.latest = some cmd ∧ UsesFrame p.1 cmd (mixerTick p.1.state).1

/-! ### A statement of the handler -/

theorem mem_fetches {rest : List Statement} {i : Fin outputChannels} :
    i ∈ fetches rest ↔ .fetchServo i ∈ rest := by
  unfold fetches
  rw [List.mem_filterMap]
  constructor
  · intro ⟨statement, hmem, hfetch⟩
    cases statement with
    | fetchServo j =>
        cases hfetch
        exact hmem
    | _ => cases hfetch
  · exact fun hmem => ⟨_, hmem, rfl⟩

/-- A fetch that comes once does not come again. -/
theorem nodup_fetches_cons {statement : Statement} {rest : List Statement}
    (h : (fetches (statement :: rest)).Nodup) :
    (fetches rest).Nodup ∧ ∀ i ∈ fetches rest, statement ≠ .fetchServo i := by
  cases statement with
  | fetchServo j =>
      obtain ⟨hj, hrest⟩ := List.nodup_cons.1 (show (j :: fetches rest).Nodup from h)
      refine ⟨hrest, fun i hi heq => hj ?_⟩
      cases heq
      exact hi
  | _ => exact ⟨h, fun i _ heq => by cases heq⟩

theorem fetches_frame (i : Fin outputChannels) : i ∈ fetches frameStatements := by
  revert i
  decide

theorem nodup_fetches_frame : (fetches frameStatements).Nodup := by decide

/-- A statement adds no fetch. -/
theorem fetches_exec (cmd : Command) (s : SysState) (statement : Statement)
    (rest : List Statement) :
    fetches ((statement.exec cmd s).2 ++ rest) = fetches rest := by
  have hmore : fetches (statement.exec cmd s).2 = [] := by
    cases statement with
    | testArmOk => cases hok : s.armOk <;> simp [Statement.exec, fetches, hok]
    | testArmed => cases harmed : s.armed <;> simp [Statement.exec, fetches, harmed]
    | _ => rfl
  unfold fetches at hmore ⊢
  rw [List.filterMap_append, hmore, List.nil_append]

theorem Handled.watch_statement (handled : Handled) (io io' : Io) :
    handled.watch io .statement io' =
      if io'.rest = [] then ⟨some io'.command, true⟩ else handled := rfl

/-- What a statement does to the flag that the mixer looks at. -/
theorem exec_mixerUseFmu (cmd : Command) (s : SysState) (statement : Statement) :
    (statement.exec cmd s).1.mixerUseFmu =
      if statement = .setMixerUseFmu then true else s.mixerUseFmu := by
  cases statement <;> rfl

theorem exec_adds_no_flag (cmd : Command) (s : SysState) (statement : Statement) :
    .setMixerUseFmu ∉ (statement.exec cmd s).2 := by
  cases statement with
  | testArmOk => cases hok : s.armOk <;> simp [Statement.exec, hok]
  | testArmed => cases harmed : s.armed <;> simp [Statement.exec, harmed]
  | _ => simp [Statement.exec]

/-- What a statement does to the channel values. -/
theorem exec_fmuChannelData (cmd : Command) (s : SysState) (statement : Statement)
    (i : Fin outputChannels) :
    (statement.exec cmd s).1.fmuChannelData.get i =
      if statement = .fetchServo i then cmd.servoCommand.get i else s.fmuChannelData.get i := by
  cases statement with
  | fetchServo j =>
      by_cases hij : j = i
      · subst hij
        rw [if_pos rfl]
        exact Vector.getElem_set_self j.isLt
      · have hval : (j : Nat) ≠ i := fun h => hij (Fin.ext h)
        rw [if_neg fun h => hij (Statement.fetchServo.inj h)]
        exact Vector.getElem_set_ne j.isLt i.isLt hval
  | _ => rfl

/-! ### A tick of the mixer -/

/-- A tick with the FMU in control uses the channel values of the FMU. -/
theorem mixerTick_input {s : SysState} (huse : s.mixerUseFmu = true) :
    (mixerTick s).1 = .fmu s.fmuChannelData := by
  have hpart := mixerGetRcInput_fmuPart s
  simp only [SysState.fmuPart, Prod.mk.injEq] at hpart
  rw [mixerTick_eq]
  unfold selectInput
  rw [if_pos (hpart.2.1.trans huse), ← hpart.1]
  dsimp only
  split_ifs <;> rfl

/-- A tick keeps the channel values, and the FMU in control unless the count is at its limit. -/
theorem mixerTick_keeps (s : SysState) :
    (mixerTick s).2.fmuChannelData = s.fmuChannelData ∧
      (mixerTick s).2.mixerUseFmu = (s.mixerUseFmu &&
        (s.fmuDataReceived || decide (s.fmuInputDrops + 1 < fmuInputDropLimit))) := by
  have hrc := mixerGetRcInput_fmuPart s
  have htick := mixerTick_fmuPart s
  simp only [SysState.fmuPart, Prod.mk.injEq] at hrc htick
  obtain ⟨hdata, huse, hreceived, hdrops⟩ := hrc
  rw [htick.1, htick.2.1, ← hdata, ← huse, ← hreceived, ← hdrops]
  cases hcontrol : (mixerGetRcInput s).mixerUseFmu with
  | false =>
      rw [selectInput_unused hcontrol]
      exact ⟨rfl, hcontrol⟩
  | true =>
      cases hdata : (mixerGetRcInput s).fmuDataReceived with
      | true =>
          rw [selectInput_received hcontrol hdata]
          exact ⟨rfl, hcontrol⟩
      | false =>
          rw [selectInput_missed hcontrol hdata]
          exact ⟨rfl, by simp⟩

/-! ### Over a run -/

/-- What holds in every state that a run without clearing ticks reaches: what has been fetched is
there, what has not is still that of the latest frame that was handled, and the FMU is in control
from the statement that says so until the first tick after the frame at least. -/
structure RecoveryInv (io : Io) (handled : Handled) : Prop where
  nodup : (fetches io.rest).Nodup
  fetched : (handled.latest = none ∧ io.rest = []) ∨ ∀ i ∉ fetches io.rest,
    io.state.fmuChannelData.get i = io.command.servoCommand.get i
  earlier : ∀ cmd ∈ handled.latest, ∀ i ∈ fetches io.rest,
    io.state.fmuChannelData.get i = cmd.servoCommand.get i
  idle : ∀ cmd ∈ handled.latest, io.rest = [] → io.command = cmd
  control : io.rest ≠ [] → .setMixerUseFmu ∉ io.rest → io.state.mixerUseFmu = true
  fresh : handled.fresh = true → io.state.mixerUseFmu = true ∧ handled.latest ≠ none

/-- A step of another context, which leaves the channel values alone. -/
theorem RecoveryInv.congr {io : Io} {handled : Handled} (h : RecoveryInv io handled)
    {s : SysState} {fresh : Bool} (hdata : s.fmuChannelData = io.state.fmuChannelData)
    (hcontrol : io.rest ≠ [] → .setMixerUseFmu ∉ io.rest → s.mixerUseFmu = true)
    (hfresh : fresh = true → s.mixerUseFmu = true ∧ handled.latest ≠ none) :
    RecoveryInv { io with state := s } { handled with fresh := fresh } := by
  refine ⟨h.nodup, ?_, ?_, h.idle, hcontrol, hfresh⟩
  · dsimp only
    rw [hdata]
    exact h.fetched
  · dsimp only
    rw [hdata]
    exact h.earlier

/-- A frame arrives: everything is still to be fetched. -/
theorem RecoveryInv.frame {io : Io} {handled : Handled} (h : RecoveryInv io handled)
    (hidle : io.rest = []) (cmd : Command) :
    RecoveryInv { io with command := cmd, rest := frameStatements } handled := by
  refine ⟨nodup_fetches_frame, .inr ?_, ?_, ?_, ?_, h.fresh⟩
  · intro i hi
    exact absurd (fetches_frame i) hi
  · intro earlier hearlier i _
    rcases h.fetched with ⟨hnone, -⟩ | hfetched
    · rw [hnone] at hearlier
      cases hearlier
    · rw [← h.idle earlier hearlier hidle]
      refine hfetched i ?_
      rw [hidle]
      exact List.not_mem_nil
  · intro _ _ hrest
    cases hrest
  · intro _ hflag
    exact absurd (show .setMixerUseFmu ∈ frameStatements by decide) hflag

/-- **A statement** of the handler. -/
theorem RecoveryInv.exec {io : Io} {handled : Handled} (h : RecoveryInv io handled)
    {statement : Statement} {rest : List Statement} (hrest : io.rest = statement :: rest)
    {io' : Io} (hio' : io' = { io with
      state := (statement.exec io.command io.state).1
      rest := (statement.exec io.command io.state).2 ++ rest }) :
    RecoveryInv io' (handled.watch io .statement io') := by
  have hfetches : fetches io'.rest = fetches rest := by
    rw [hio']
    exact fetches_exec io.command io.state statement rest
  have hdata : ∀ i, io'.state.fmuChannelData.get i =
      if statement = .fetchServo i then io.command.servoCommand.get i
        else io.state.fmuChannelData.get i := by
    rw [hio']
    exact exec_fmuChannelData io.command io.state statement
  have huse : io'.state.mixerUseFmu =
      if statement = .setMixerUseFmu then true else io.state.mixerUseFmu := by
    rw [hio']
    exact exec_mixerUseFmu io.command io.state statement
  have hcommand : io'.command = io.command := by rw [hio']
  -- Once the flag is not among the statements that are left, it is set.
  have hcontrol : .setMixerUseFmu ∉ io'.rest → io'.state.mixerUseFmu = true := by
    intro hflag
    rw [huse]
    by_cases hset : statement = .setMixerUseFmu
    · rw [if_pos hset]
    · rw [if_neg hset]
      refine h.control (by rw [hrest]; exact List.cons_ne_nil _ _) ?_
      rw [hrest]
      intro hmem
      rcases List.mem_cons.1 hmem with hmem | hmem
      · exact hset hmem.symm
      · rw [hio'] at hflag
        exact hflag (List.mem_append_right _ hmem)
  have hsub : ∀ i, i ∈ fetches io.rest ↔ statement = .fetchServo i ∨ i ∈ fetches rest := by
    intro i
    rw [mem_fetches, mem_fetches, hrest, List.mem_cons, eq_comm]
  have hnodup : (fetches rest).Nodup ∧ ∀ i ∈ fetches rest, statement ≠ .fetchServo i := by
    have hall := h.nodup
    rw [hrest] at hall
    exact nodup_fetches_cons hall
  refine ⟨?_, .inr ?_, ?_, ?_, fun _ => hcontrol, ?_⟩
  · rw [hfetches]
    exact hnodup.1
  · intro i hi
    rw [hfetches] at hi
    rw [hdata, hcommand]
    split
    next => rfl
    next hother =>
      rcases h.fetched with ⟨-, hidle⟩ | hfetched
      · rw [hidle] at hrest
        cases hrest
      · refine hfetched i fun hmem => ?_
        rcases (hsub i).1 hmem with hmem | hmem
        · exact hother hmem
        · exact hi hmem
  · intro cmd hcmd i hi
    rw [hfetches] at hi
    rw [hdata, if_neg (hnodup.2 i hi)]
    rw [Handled.watch_statement] at hcmd
    split at hcmd
    next hend =>
      rw [← hfetches, hend] at hi
      exact absurd hi List.not_mem_nil
    next => exact h.earlier cmd hcmd i ((hsub i).2 (.inr hi))
  · intro cmd hcmd hend
    rw [Handled.watch_statement, if_pos hend] at hcmd
    cases hcmd
    rfl
  · rw [Handled.watch_statement]
    split
    next hend =>
      intro _
      refine ⟨hcontrol ?_, by simp⟩
      rw [hend]
      exact List.not_mem_nil
    next =>
      intro hfresh
      obtain ⟨hset, hlatest⟩ := h.fresh hfresh
      refine ⟨?_, hlatest⟩
      rw [huse]
      split
      · rfl
      · exact hset

/-- **The step lemma.** -/
theorem RecoveryInv.step {p q : Io × Handled} {e : Event} (h : RecoveryInv p.1 p.2)
    (hcareful : NotCleared p e) (hstep : px4ioHandled.step p e q) : RecoveryInv q.1 q.2 := by
  obtain ⟨io, handled⟩ := p
  obtain ⟨io', handled'⟩ := q
  obtain ⟨hnext, hwatch⟩ := hstep
  dsimp only at h hnext hwatch ⊢
  subst hwatch
  cases e with
  | frame buffer =>
      obtain ⟨hidle, rfl | ⟨cmd, -, rfl⟩⟩ := step_frame hnext
      · exact h
      · exact h.frame hidle cmd
  | statement =>
      obtain ⟨statement, rest, hrest, hio'⟩ := step_statement hnext
      exact h.exec hrest hio'
  | button pressed =>
      cases hnext
      have hpart := (safetyCheckButton_parts pressed io.state).1
      simp only [SysState.fmuPart, Prod.mk.injEq] at hpart
      refine h.congr hpart.1 ?_ ?_
      · rw [hpart.2.1]
        exact h.control
      · rw [hpart.2.1]
        exact h.fresh
  | mixer =>
      cases hnext
      obtain ⟨hdata, huse⟩ := mixerTick_keeps io.state
      refine h.congr hdata ?_ ?_
      · intro hrest hflag
        rw [huse, h.control hrest hflag, Bool.true_and, Bool.or_eq_true, decide_eq_true_eq]
        by_contra hclears
        rw [not_or, Bool.not_eq_true, Nat.not_lt] at hclears
        exact hcareful ⟨hrest, hflag, hclears⟩
      · intro hfresh
        cases hfresh
  | rcInput message =>
      cases hnext
      exact h.congr rfl h.control h.fresh

theorem RecoveryInv.reachable {p : Io × Handled}
    (h : (px4ioHandled.restrict NotCleared).Reachable p) : RecoveryInv p.1 p.2 := by
  refine h.invariant (I := fun p => RecoveryInv p.1 p.2) ?_ ?_
  · intro p hinit
    obtain ⟨⟨-, hrest⟩, hhandled⟩ := hinit
    rw [hhandled]
    refine ⟨?_, .inl ⟨rfl, hrest⟩, ?_, ?_, fun hbusy => absurd hrest hbusy, ?_⟩
    · rw [hrest]
      exact List.nodup_nil
    · intro cmd hcmd
      cases hcmd
    · intro cmd hcmd
      cases hcmd
    · intro hfresh
      cases hfresh
  · intro p e q hp hstep
    exact hp.step hstep.1 hstep.2

/-! ### The recovery -/

/-- **The recovery is kept.** In every order of frames, handler statements, button samples and
mixer runs without a tick that clears the flag behind the back of the handler, the first tick after
a frame has been handled uses the channel values of that frame or of a later one. -/
theorem recovery_kept {p : Io × Handled}
    (h : (px4ioHandled.restrict NotCleared).Reachable p) : Recovers p := by
  obtain ⟨io, handled⟩ := p
  have hinv := RecoveryInv.reachable h
  intro hfresh
  obtain ⟨huse, hlatest⟩ := hinv.fresh hfresh
  obtain ⟨cmd, hcmd⟩ := Option.ne_none_iff_exists'.1 hlatest
  have hfetched : ∀ i ∉ fetches io.rest,
      io.state.fmuChannelData.get i = io.command.servoCommand.get i := by
    rcases hinv.fetched with ⟨hnone, -⟩ | hfetched
    · exact absurd hnone hlatest
    · exact hfetched
  refine ⟨cmd, hcmd, io.state.fmuChannelData, mixerTick_input huse, ?_, ?_, ?_, ?_⟩
  · intro i
    split
    next hi => exact hinv.earlier cmd hcmd i hi
    next hi => exact hfetched i hi
  · intro hnone
    refine Vector.ext fun i hi => hfetched ⟨i, hi⟩ ?_
    dsimp only at hnone
    rw [hnone]
    exact List.not_mem_nil
  · intro hall
    exact Vector.ext fun i hi => hinv.earlier cmd hcmd ⟨i, hi⟩ (hall ⟨i, hi⟩)
  · exact hinv.idle cmd hcmd

/-- The statements that are left do not give the control back. -/
theorem lost_of_run {io io' : Io} {n : Nat}
    (hrun : px4io.Run io (List.replicate n .statement) io')
    (huse : io.state.mixerUseFmu = false) (hflag : .setMixerUseFmu ∉ io.rest) :
    io'.state.mixerUseFmu = false := by
  induction n generalizing io with
  | zero =>
      cases hrun
      exact huse
  | succ n ih =>
      cases hrun with
      | cons hstep hrun =>
          obtain ⟨statement, rest, hrest, rfl⟩ := step_statement hstep
          rw [hrest] at hflag
          obtain ⟨hother, hothers⟩ := List.ne_and_not_mem_of_not_mem_cons hflag
          refine ih hrun ?_ ?_
          · dsimp only
            rw [exec_mixerUseFmu, if_neg fun heq => hother heq.symm]
            exact huse
          · intro hmem
            rcases List.mem_append.1 hmem with hmem | hmem
            · exact exec_adds_no_flag _ _ _ hmem
            · exact hothers hmem

/-- **The recovery is lost** by a tick that clears the flag: when the handler has gone on to its
end, the next tick does not use the FMU. -/
theorem recovery_lost {io io' : Io} {n : Nat} (hclears : Clears io)
    (hrun : px4io.Run io (.mixer :: List.replicate n .statement) io')
    (values : Vector UInt16 outputChannels) : (mixerTick io'.state).1 ≠ .fmu values := by
  obtain ⟨-, hflag, hmissed, hlimit⟩ := hclears
  have huse : io'.state.mixerUseFmu = false := by
    cases hrun with
    | cons hstep hrun =>
        cases hstep
        refine lost_of_run hrun ?_ hflag
        dsimp only
        rw [(mixerTick_keeps io.state).2, hmissed, decide_eq_false (Nat.not_lt_of_le hlimit)]
        exact Bool.and_false _
  have hpart := mixerGetRcInput_fmuPart io'.state
  simp only [SysState.fmuPart, Prod.mk.injEq] at hpart
  rw [mixerTick_eq]
  unfold selectInput
  rw [if_neg (by rw [hpart.2.1, huse]; exact Bool.false_ne_true)]
  split <;> simp

/-- The next state, with the frames that have been handled. -/
def nextHandled (p : Io × Handled) (e : Event) : Option (Io × Handled) :=
  (p.1.next e).map fun io => (io, p.2.watch p.1 e io)

theorem step_of_nextHandled (p : Io × Handled) (e : Event) (q : Io × Handled)
    (h : nextHandled p e = some q) : px4ioHandled.step p e q := by
  obtain ⟨io, hio, rfl⟩ := Option.map_eq_some_iff.1 h
  exact ⟨hio, rfl⟩

/-- A module after a reset. -/
def startHandled : Io × Handled :=
  (⟨reset, ⟨.replicate outputChannels 0, .replicate relayChannels false, false⟩, []⟩,
    ⟨none, false⟩)

/-- A frame that is handled without interruption. -/
def wholeFrame (byte : UInt8) : List Event :=
  .frame (List.replicate sizeofCommand byte) :: List.replicate 14 .statement

/-- A frame, and eleven ticks without another. -/
def dropOut : List Event := wholeFrame 7 ++ List.replicate 11 .mixer

/-- After a drop-out the next frame is used. -/
theorem recovery_kept_after :
    ∃ p, (px4ioHandled.restrict NotCleared).Reachable p ∧ p.2.fresh = true ∧ Recovers p := by
  let events : List Event := dropOut ++ wholeFrame 9
  let next := fun p e => if NotCleared p e then nextHandled p e else none
  have hends : (events.foldlM next startHandled).any (fun p => p.2.fresh) = true := by
    decide +kernel
  obtain ⟨p, hp, hfresh⟩ := (Option.any_eq_true _ _).1 hends
  have hreach : (px4ioHandled.restrict NotCleared).Reachable p :=
    ⟨startHandled, events, ⟨⟨rfl, rfl⟩, rfl⟩, LTS.Run.restrict_of_foldlM step_of_nextHandled hp⟩
  exact ⟨p, hreach, hfresh, recovery_kept hreach⟩

/-- After a drop-out, a frame that is interrupted by a tick between the two flags. -/
def interrupted : List Event :=
  dropOut ++ .frame (List.replicate sizeofCommand 9) :: List.replicate 10 .statement ++
    .mixer :: List.replicate 4 .statement

/-- It is not used. -/
theorem recovery_lost_interrupted : ¬ ∀ p, px4ioHandled.Reachable p → Recovers p := by
  intro h
  have hends : (interrupted.foldlM nextHandled startHandled).any (fun p =>
      p.2.fresh && (mixerTick p.1.state).1 == .none) = true := by decide +kernel
  obtain ⟨p, hp, hend⟩ := (Option.any_eq_true _ _).1 hends
  rw [Bool.and_eq_true, beq_iff_eq] at hend
  obtain ⟨hfresh, hnone⟩ := hend
  obtain ⟨cmd, -, values, hvalues, -⟩ :=
    h p ⟨startHandled, interrupted, ⟨⟨rfl, rfl⟩, rfl⟩, .of_foldlM step_of_nextHandled hp⟩ hfresh
  rw [hnone] at hvalues
  cases hvalues

end Px4Firmware.Px4io
