import Mathlib.Tactic.SplitIfs
import Px4Firmware.Lib.Transition
import Px4Firmware.Px4io.State

/-!
# Px4Firmware.Px4io.Interlock

**The arming interlock.** The frame handler is taken apart into its statements, and between any
two of them the button and the mixer may run. The module is never armed without the permission of
the FMU while no frame is being handled, and it is armed by the button alone
(`arming_interlock`).

What holds in the middle of a frame depends on what is left of the handler: the permission may have
been withdrawn already, and the test that disarms is still to come. `Interlock` is this condition,
by recursion over the statements that are left.
-/

namespace Px4Firmware.Px4io

open Px4Firmware.Lib

/-! ### The system -/

/-- The module: its state, the command of the latest frame, and what is left of its handler. -/
structure Io where
  state : SysState
  command : Command
  rest : List Statement

/-- What can happen next: a frame arrives, the handler of the last one executes a statement, the
button is sampled, the mixer runs, or a message comes from the RC input. -/
inductive Event
  | frame (buffer : List UInt8)
  | statement
  | button (pressed : Bool)
  | mixer
  | rcInput (message : RcMessage)

/-- The next state. The main loop handles one frame at a time. -/
def Io.next (io : Io) : Event → Option Io
  | .frame buffer =>
      match io.rest, toCommand buffer with
      | [], some cmd => some { io with command := cmd, rest := frameStatements }
      | [], none => some io
      | _, _ => none
  | .statement =>
      match io.rest with
      | [] => none
      | statement :: rest =>
          let (state, more) := statement.exec io.command io.state
          some { io with state := state, rest := more ++ rest }
  | .button pressed => some { io with state := safetyCheckButton pressed io.state }
  | .mixer => some { io with state := (mixerTick io.state).2 }
  | .rcInput message => some { io with state := io.state.rcInput message }

/-- The module as a transition system. It starts after a reset. -/
def px4io : LTS Io Event where
  init io := io.state = reset ∧ io.rest = []
  step io e io' := io.next e = some io'

/-! ### The handler is its statements -/

theorem next_statement {io : Io} {statement : Statement} {rest : List Statement}
    (h : io.rest = statement :: rest) :
    io.next .statement =
      some { io with
        state := (statement.exec io.command io.state).1
        rest := (statement.exec io.command io.state).2 ++ rest } := by
  unfold Io.next
  rw [h]

/-- A frame comes when no other one is being handled. One of the wrong length changes nothing. -/
theorem step_frame {io io' : Io} {buffer : List UInt8} (h : px4io.step io (.frame buffer) io') :
    io.rest = [] ∧ (io' = io ∨ ∃ cmd, toCommand buffer = some cmd ∧
      io' = { io with command := cmd, rest := frameStatements }) := by
  unfold px4io Io.next at h
  dsimp only at h
  split at h
  next hrest hcmd => exact ⟨hrest, .inr ⟨_, hcmd, (Option.some.inj h).symm⟩⟩
  next hrest _ => exact ⟨hrest, .inl (Option.some.inj h).symm⟩
  next => cases h

/-- The handler goes on when there are statements left. -/
theorem step_statement {io io' : Io} (h : px4io.step io .statement io') :
    ∃ statement rest, io.rest = statement :: rest ∧
      io' = { io with
        state := (statement.exec io.command io.state).1
        rest := (statement.exec io.command io.state).2 ++ rest } := by
  cases hrest : io.rest with
  | nil =>
      unfold px4io Io.next at h
      dsimp only at h
      rw [hrest] at h
      cases h
  | cons statement rest =>
      have hexec := next_statement hrest
      rw [show io.next .statement = some io' from h] at hexec
      exact ⟨statement, rest, rfl, Option.some.inj hexec⟩

/-- Execute statements one after the other. -/
def execAll (cmd : Command) (statements : List Statement) (s : SysState) : SysState :=
  statements.foldl (fun s statement => (statement.exec cmd s).1) s

/-- The handler goes on, and nothing comes in between. -/
def Uninterrupted (io io' : Io) : Prop := ∃ n, px4io.Run io (List.replicate n .statement) io'

theorem Uninterrupted.trans {io io' io'' : Io} (h : Uninterrupted io io')
    (h' : Uninterrupted io' io'') : Uninterrupted io io'' := by
  obtain ⟨n, hrun⟩ := h
  obtain ⟨n', hrun'⟩ := h'
  refine ⟨n + n', ?_⟩
  rw [← List.replicate_append_replicate]
  exact hrun.append hrun'

/-- One statement. -/
theorem uninterrupted_statement (s : SysState) (cmd : Command) (statement : Statement)
    (rest : List Statement) :
    Uninterrupted ⟨s, cmd, statement :: rest⟩
      ⟨(statement.exec cmd s).1, cmd, (statement.exec cmd s).2 ++ rest⟩ :=
  ⟨1, .cons (next_statement rfl) (.nil _)⟩

/-- Statements that add no others are executed one after the other. -/
theorem uninterrupted_statements {cmd : Command} {statements : List Statement}
    (h : ∀ statement ∈ statements, ∀ s, (statement.exec cmd s).2 = []) (s : SysState)
    (rest : List Statement) :
    Uninterrupted ⟨s, cmd, statements ++ rest⟩ ⟨execAll cmd statements s, cmd, rest⟩ := by
  induction statements generalizing s with
  | nil => exact ⟨0, .nil _⟩
  | cons statement statements ih =>
      have hfirst := uninterrupted_statement s cmd statement (statements ++ rest)
      rw [h statement List.mem_cons_self s] at hfirst
      exact hfirst.trans (ih (fun st hst => h st (List.mem_cons_of_mem statement hst)) _)

/-- Setting some elements of a vector. -/
theorem get_foldl_set {α : Type} {n : Nat} (l : List (Fin n)) (v w : Vector α n) (j : Fin n) :
    (j ∈ l → (l.foldl (fun v i => v.set i (w.get i) i.isLt) v).get j = w.get j) ∧
      (j ∉ l → (l.foldl (fun v i => v.set i (w.get i) i.isLt) v).get j = v.get j) := by
  induction l generalizing v with
  | nil => exact ⟨fun h => absurd h List.not_mem_nil, fun _ => rfl⟩
  | cons i l ih =>
      obtain ⟨hin, hout⟩ := ih (v.set i (w.get i) i.isLt)
      rw [List.foldl_cons]
      have hset : j ∉ l →
          (v.set i (w.get i) i.isLt).get j = if i = j then w.get j else v.get j := by
        intro _
        by_cases hij : i = j
        · subst hij
          rw [if_pos rfl]
          exact Vector.getElem_set_self i.isLt
        · have hval : (i : Nat) ≠ j := fun h => hij (Fin.ext h)
          rw [if_neg hij]
          exact Vector.getElem_set_ne i.isLt j.isLt hval
      refine ⟨?_, ?_⟩
      · intro hmem
        by_cases hl : j ∈ l
        · exact hin hl
        · have hij : i = j := ((List.mem_cons.mp hmem).resolve_right hl).symm
          rw [hout hl, hset hl, if_pos hij]
      · intro hmem
        have hl : j ∉ l := fun h => hmem (List.mem_cons_of_mem i h)
        have hij : i ≠ j := fun h => hmem (h ▸ List.mem_cons_self)
        rw [hout hl, hset hl, if_neg hij]

/-- Setting every element of a vector. -/
theorem foldl_set_finRange {α : Type} {n : Nat} (v w : Vector α n) :
    (List.finRange n).foldl (fun v i => v.set i (w.get i) i.isLt) v = w := by
  ext j hj
  exact (get_foldl_set (List.finRange n) v w ⟨j, hj⟩).1 (List.mem_finRange _)

theorem execAll_fetchServo (cmd : Command) (l : List (Fin outputChannels)) (s : SysState) :
    execAll cmd (l.map .fetchServo) s = { s with
      fmuChannelData :=
        l.foldl (fun v (i : Fin outputChannels) => v.set i (cmd.servoCommand.get i) i.isLt)
          s.fmuChannelData } := by
  induction l generalizing s with
  | nil => rfl
  | cons i l ih => exact ih _

theorem execAll_setRelay (cmd : Command) (l : List (Fin relayChannels)) (s : SysState) :
    execAll cmd (l.map .setRelay) s = { s with
      relays := l.foldl (fun v (i : Fin relayChannels) => v.set i (cmd.relayState.get i) i.isLt)
        s.relays } := by
  induction l generalizing s with
  | nil => rfl
  | cons i l ih => exact ih _

/-- The `if` of the handler. -/
theorem uninterrupted_test (s : SysState) (cmd : Command) (rest : List Statement) :
    Uninterrupted ⟨s, cmd, .testArmOk :: rest⟩
      ⟨if !s.armOk && s.armed then { s with armed := false } else s, cmd, rest⟩ := by
  have htest := uninterrupted_statement s cmd .testArmOk rest
  have htest' := uninterrupted_statement s cmd .testArmed rest
  simp only [Statement.exec] at htest htest'
  cases hok : s.armOk with
  | true =>
      rw [hok] at htest
      exact htest
  | false =>
      rw [hok] at htest
      refine htest.trans ?_
      cases harmed : s.armed with
      | false =>
          rw [harmed] at htest'
          exact htest'
      | true =>
          rw [harmed] at htest'
          have hdisarm := uninterrupted_statement s cmd .disarm rest
          simp only [Statement.exec, hok] at hdisarm
          exact htest'.trans hdisarm

/-- **A frame that is not interrupted** is handled as `commsHandleFrame` says. -/
theorem uninterrupted_frame {buffer : List UInt8} {cmd : Command}
    (h : toCommand buffer = some cmd) (s : SysState) :
    Uninterrupted ⟨s, cmd, frameStatements⟩ ⟨commsHandleFrame buffer s, cmd, []⟩ := by
  let relays : List Statement := (List.finRange relayChannels).map .setRelay
  let s₁ : SysState := { s with
    fmuChannelData := cmd.servoCommand
    armOk := cmd.armOk
    mixerUseFmu := true
    fmuDataReceived := true }
  have hfetch : Uninterrupted ⟨s, cmd, frameStatements⟩ ⟨s₁, cmd, .testArmOk :: relays⟩ := by
    have hplain : ∀ statement ∈ (List.finRange outputChannels).map Statement.fetchServo ++
        [.setArmOk, .setMixerUseFmu, .setFmuDataReceived], ∀ s, (statement.exec cmd s).2 = [] := by
      intro statement hmem s
      simp only [List.mem_append, List.mem_map, List.mem_cons, List.not_mem_nil, or_false] at hmem
      rcases hmem with ⟨i, -, rfl⟩ | rfl | rfl | rfl <;> rfl
    have hrun := uninterrupted_statements hplain s (.testArmOk :: relays)
    have hfirst := execAll_fetchServo cmd (List.finRange outputChannels) s
    rw [foldl_set_finRange] at hfirst
    unfold execAll at hrun hfirst
    rw [List.foldl_append, hfirst] at hrun
    exact hrun
  have hrelays : ∀ t : SysState,
      Uninterrupted ⟨t, cmd, relays⟩ ⟨{ t with relays := cmd.relayState }, cmd, []⟩ := by
    intro t
    have hplain : ∀ statement ∈ relays, ∀ s, (statement.exec cmd s).2 = [] := by
      intro statement hmem s
      obtain ⟨i, -, rfl⟩ := List.mem_map.mp hmem
      rfl
    have hrun := uninterrupted_statements hplain t []
    rw [List.append_nil, execAll_setRelay, foldl_set_finRange] at hrun
    exact hrun
  have hall := hfetch.trans ((uninterrupted_test s₁ cmd relays).trans (hrelays _))
  unfold commsHandleFrame
  rw [h]
  exact hall

/-! ### What each context keeps -/

/-- The button changes neither the permission nor, unless it completes a run, the arming. -/
theorem safetyCheckButton_spec (pressed : Bool) (s : SysState) :
    (safetyCheckButton pressed s).armOk = s.armOk ∧
      (safetyCheckButton pressed s).armed =
        (if (pressed && s.armOk) = true ∧ s.armCounter = armCounterThreshold then !s.armed
          else s.armed) ∧
      (safetyCheckButton pressed s).armCounter =
        (if (pressed && s.armOk) = true then
          if s.armCounter ≤ armCounterThreshold then s.armCounter + 1 else s.armCounter
        else 0) := by
  -- The LED, which is set last, is none of these.
  change (debounceButton pressed s).armOk = _ ∧ (debounceButton pressed s).armed = _ ∧
    (debounceButton pressed s).armCounter = _
  unfold debounceButton
  by_cases hsample : (pressed && s.armOk) = true
  · rw [if_pos hsample, if_pos hsample]
    rcases Nat.lt_trichotomy s.armCounter armCounterThreshold with hlt | heq | hgt
    · rw [if_pos hlt, if_neg (fun h => absurd h.2 (Nat.ne_of_lt hlt)), if_pos (Nat.le_of_lt hlt)]
      exact ⟨rfl, rfl, rfl⟩
    · rw [if_neg (Nat.not_lt_of_le (Nat.le_of_eq heq.symm)), if_pos heq, if_pos ⟨hsample, heq⟩,
        if_pos (Nat.le_of_eq heq)]
      exact ⟨rfl, rfl, rfl⟩
    · rw [if_neg (Nat.lt_asymm hgt), if_neg (Nat.ne_of_gt hgt),
        if_neg (fun h => absurd h.2 (Nat.ne_of_gt hgt)), if_neg (Nat.not_le_of_lt hgt)]
      exact ⟨rfl, rfl, rfl⟩
  · rw [if_neg hsample, if_neg hsample, if_neg fun h => hsample h.1]
    exact ⟨rfl, rfl, rfl⟩

/-- What the interlock looks at. -/
def SysState.arming (s : SysState) : Bool × Bool × Nat := (s.armed, s.armOk, s.armCounter)

theorem mixerGetRcInput_arming (s : SysState) : (mixerGetRcInput s).arming = s.arming := by
  unfold mixerGetRcInput
  dsimp only
  split_ifs <;> rfl

theorem selectInput_arming (s : SysState) : (selectInput s).2.arming = s.arming := by
  unfold selectInput
  dsimp only
  split_ifs <;> rfl

theorem tickleMixer_arming (inputs : List UInt16) (s : SysState) (i : Fin outputChannels) :
    (tickleMixer inputs s i).arming = s.arming := by
  unfold tickleMixer mixerUpdate
  dsimp only
  split_ifs <;> rfl

theorem foldl_tickleMixer_arming (inputs : List UInt16) (l : List (Fin outputChannels))
    (s : SysState) : (l.foldl (tickleMixer inputs) s).arming = s.arming := by
  induction l generalizing s with
  | nil => rfl
  | cons i l ih => exact (ih _).trans (tickleMixer_arming inputs s i)

theorem armServos_arming (controlled : Bool) (s : SysState) :
    (armServos controlled s).arming = s.arming := by
  unfold armServos
  dsimp only
  split_ifs <;> rfl

/-- The mixer touches nothing that the interlock looks at. -/
theorem mixerTick_arming (s : SysState) : (mixerTick s).2.arming = s.arming := by
  have hselect : (selectInput (mixerGetRcInput s)).2.arming = s.arming :=
    (selectInput_arming _).trans (mixerGetRcInput_arming s)
  unfold mixerTick
  dsimp only
  rw [armServos_arming]
  split_ifs
  · rw [foldl_tickleMixer_arming, hselect]
  · exact hselect

/-! ### The interlock in the middle of a frame -/

/-- What must hold when these statements of the handler are left, so that no order of the button
and the handler ends in an armed state without permission. -/
def Interlock : List Statement → SysState → Prop
  | [], s => s.armed → s.armOk
  -- A new permission may contradict the arming, whatever the state was before.
  | .setArmOk :: rest, _ => ∀ s, Interlock rest s
  -- The test repairs the arming, and what follows may rely on that.
  | .testArmOk :: rest, _ => ∀ s : SysState, (s.armed → s.armOk) → Interlock rest s
  -- Between the test and the repair the button does nothing, because there is no permission.
  | .testArmed :: rest, s =>
      s.armOk = false ∧ ∀ s : SysState, (s.armed → s.armOk) → Interlock rest s
  | .disarm :: rest, s => s.armOk = false ∧ ∀ s : SysState, (s.armed → s.armOk) → Interlock rest s
  | .fetchServo _ :: rest, s => Interlock rest s
  | .setMixerUseFmu :: rest, s => Interlock rest s
  | .setFmuDataReceived :: rest, s => Interlock rest s
  | .setRelay _ :: rest, s => Interlock rest s

/-- A change of the state that keeps the permission, and arms only with it. -/
theorem Interlock.stable {statements : List Statement} {s t : SysState}
    (h : Interlock statements s) (hok : t.armOk = s.armOk)
    (harmed : t.armed → s.armed ∨ s.armOk) : Interlock statements t := by
  induction statements with
  | nil =>
      intro ht
      rw [hok]
      rcases harmed ht with hs | hs
      · exact h hs
      · exact hs
  | cons statement rest ih =>
      cases statement with
      | setArmOk => exact h
      | testArmOk => exact h
      | testArmed => exact ⟨hok.trans h.1, h.2⟩
      | disarm => exact ⟨hok.trans h.1, h.2⟩
      | fetchServo i => exact ih h
      | setMixerUseFmu => exact ih h
      | setFmuDataReceived => exact ih h
      | setRelay i => exact ih h

theorem interlock_setRelay (l : List (Fin relayChannels)) (s : SysState)
    (h : s.armed → s.armOk) : Interlock (l.map .setRelay) s := by
  induction l with
  | nil => exact h
  | cons i l ih => exact ih

theorem interlock_fetchServo {rest : List Statement} {s : SysState} (h : Interlock rest s)
    (l : List (Fin outputChannels)) : Interlock (l.map .fetchServo ++ rest) s := by
  induction l with
  | nil => exact h
  | cons i l ih => exact ih

/-- The handler can start in any state. -/
theorem interlock_frame (s : SysState) : Interlock frameStatements s := by
  have htest : Interlock
      ([.setArmOk, .setMixerUseFmu, .setFmuDataReceived, .testArmOk] ++
        (List.finRange relayChannels).map .setRelay) s := by
    intro t u hu
    exact interlock_setRelay _ u hu
  unfold frameStatements
  rw [List.append_assoc]
  exact interlock_fetchServo htest _

/-- One statement of the handler. -/
theorem Interlock.exec {statement : Statement} {rest : List Statement} {s : SysState}
    (h : Interlock (statement :: rest) s) (cmd : Command) :
    Interlock ((statement.exec cmd s).2 ++ rest) (statement.exec cmd s).1 := by
  cases statement with
  | fetchServo i => exact Interlock.stable (s := s) h rfl .inl
  | setArmOk => exact h _
  | setMixerUseFmu => exact Interlock.stable (s := s) h rfl .inl
  | setFmuDataReceived => exact Interlock.stable (s := s) h rfl .inl
  | testArmOk =>
      simp only [Statement.exec]
      cases hok : s.armOk with
      | true => exact h s fun _ => hok
      | false => exact ⟨hok, h⟩
  | testArmed =>
      obtain ⟨hok, hrest⟩ := h
      simp only [Statement.exec]
      cases harmed : s.armed with
      | true => exact ⟨hok, hrest⟩
      | false =>
          refine hrest s ?_
          intro harmed'
          rw [harmed] at harmed'
          cases harmed'
  | disarm =>
      refine h.2 _ ?_
      intro harmed
      cases harmed
  | setRelay i => exact Interlock.stable (s := s) h rfl .inl

/-! ### The samples of the button -/

/-- The button samples up to now: how many in a row found the button pressed and the permission
given, and how often the button changed the arming in this run of samples. -/
structure Samples where
  length : Nat
  changes : Nat

/-- Watch the samples. -/
def Samples.watch (samples : Samples) (io : Io) (e : Event) (io' : Io) : Samples :=
  match e with
  | .button pressed =>
      if pressed && io.state.armOk then
        { length := samples.length + 1
          changes := samples.changes + if io'.state.armed = io.state.armed then 0 else 1 }
      else
        { length := 0, changes := 0 }
  | _ => samples

/-- What holds in every reachable state: the counter is the length of the run, up to the limit,
and the run has changed the arming once it is long enough. -/
structure ArmingInv (io : Io) (samples : Samples) : Prop where
  interlock : Interlock io.rest io.state
  counter : io.state.armCounter = min samples.length (armCounterThreshold + 1)
  changes : samples.changes = if armCounterThreshold < samples.length then 1 else 0

/-- A step of the handler or of the mixer: the counter stays. -/
theorem ArmingInv.of_counter {io io' : Io} {samples : Samples} (h : ArmingInv io samples)
    (hinterlock : Interlock io'.rest io'.state)
    (hcounter : io'.state.armCounter = io.state.armCounter) : ArmingInv io' samples :=
  ⟨hinterlock, hcounter.trans h.counter, h.changes⟩

theorem exec_armCounter (cmd : Command) (s : SysState) (statement : Statement) :
    (statement.exec cmd s).1.armCounter = s.armCounter := by
  cases statement <;> rfl

theorem ArmingInv.button {io : Io} {samples : Samples} (h : ArmingInv io samples)
    (pressed : Bool) :
    ArmingInv { io with state := safetyCheckButton pressed io.state }
      (samples.watch io (.button pressed)
        { io with state := safetyCheckButton pressed io.state }) := by
  obtain ⟨hok, harmed, hcounter⟩ := safetyCheckButton_spec pressed io.state
  have hinterlock : Interlock io.rest (safetyCheckButton pressed io.state) := by
    refine h.interlock.stable hok ?_
    intro ht
    by_cases htoggle :
        (pressed && io.state.armOk) = true ∧ io.state.armCounter = armCounterThreshold
    · rw [Bool.and_eq_true] at htoggle
      exact .inr htoggle.1.2
    · rw [harmed, if_neg htoggle] at ht
      exact .inl ht
  have hcount := h.counter
  have hchanges := h.changes
  by_cases hsample : (pressed && io.state.armOk) = true
  · simp only [hsample, if_true, true_and] at harmed hcounter
    -- The sample that makes the run longer than the threshold finds the counter at it.
    have hlength : io.state.armCounter = armCounterThreshold ↔
        samples.length = armCounterThreshold := by omega
    refine ⟨hinterlock, ?_, ?_⟩
    · simp only [Samples.watch, hsample, if_true]
      rw [hcounter]
      split_ifs <;> omega
    · simp only [Samples.watch, hsample, if_true]
      rw [hchanges, harmed]
      by_cases hlast : io.state.armCounter = armCounterThreshold
      · have hlen := hlength.mp hlast
        rw [if_pos hlast, if_neg (by omega), if_neg (by simp), if_pos (by omega)]
      · have hlen : samples.length ≠ armCounterThreshold := fun h => hlast (hlength.mpr h)
        rw [if_neg hlast, if_pos rfl]
        split_ifs <;> omega
  · simp only [hsample] at hcounter
    refine ⟨hinterlock, ?_, ?_⟩
    · simp only [Samples.watch, hsample]
      exact hcounter
    · simp only [Samples.watch, hsample]
      rfl

/-- **The step lemma.** -/
theorem ArmingInv.step {io io' : Io} {samples : Samples} {e : Event} (h : ArmingInv io samples)
    (hnext : px4io.step io e io') : ArmingInv io' (samples.watch io e io') := by
  cases e with
  | frame buffer =>
      obtain ⟨-, rfl | ⟨cmd, -, rfl⟩⟩ := step_frame hnext
      · exact h
      · exact h.of_counter (interlock_frame _) rfl
  | statement =>
      obtain ⟨statement, rest, hrest, rfl⟩ := step_statement hnext
      have hinterlock := h.interlock
      rw [hrest] at hinterlock
      exact h.of_counter (hinterlock.exec io.command) (exec_armCounter _ _ _)
  | button pressed =>
      cases hnext
      exact h.button pressed
  | mixer =>
      cases hnext
      -- A tick leaves the arming, the permission and the counter alone.
      have harming := mixerTick_arming io.state
      unfold SysState.arming at harming
      simp only [Prod.mk.injEq] at harming
      obtain ⟨harmed, hok, hcounter⟩ := harming
      refine h.of_counter (h.interlock.stable hok ?_) hcounter
      intro ht
      rw [harmed] at ht
      exact .inl ht
  | rcInput message =>
      cases hnext
      exact h.of_counter (h.interlock.stable rfl .inl) rfl

theorem ArmingInv.reachable {p : Io × Samples}
    (h : (px4io.observe ⟨0, 0⟩ Samples.watch).Reachable p) : ArmingInv p.1 p.2 := by
  refine h.invariant (I := fun p => ArmingInv p.1 p.2) ?_ ?_
  · intro p hinit
    obtain ⟨⟨hstate, hrest⟩, hsamples⟩ := hinit
    rw [hsamples]
    refine ⟨?_, ?_, rfl⟩
    · rw [hstate, hrest]
      intro harmed
      cases harmed
    · rw [hstate]
      rfl
  · intro p e q hp hstep
    obtain ⟨hnext, hwatch⟩ := hstep
    rw [hwatch]
    exact hp.step hnext

/-! ### The interlock -/

/-- Only the button arms. -/
theorem armed_of_not_button {io io' : Io} {e : Event} (hstep : px4io.step io e io')
    (hbutton : ∀ pressed, e ≠ .button pressed) (hbefore : io.state.armed = false) :
    io'.state.armed = false := by
  cases e with
  | frame buffer =>
      obtain ⟨-, rfl | ⟨cmd, -, rfl⟩⟩ := step_frame hstep
      · exact hbefore
      · exact hbefore
  | statement =>
      obtain ⟨statement, rest, -, rfl⟩ := step_statement hstep
      cases statement with
      | disarm => rfl
      | _ => exact hbefore
  | button pressed => exact absurd rfl (hbutton pressed)
  | mixer =>
      cases hstep
      have harming := mixerTick_arming io.state
      unfold SysState.arming at harming
      simp only [Prod.mk.injEq] at harming
      exact harming.1.trans hbefore
  | rcInput message =>
      cases hstep
      exact hbefore

/-- **Arming is by the button.** A step after which the module is armed, and was not before, is a
sample of the pressed button. -/
theorem ArmingInv.armed {io io' : Io} {samples : Samples} (h : ArmingInv io samples) {e : Event}
    (hstep : px4io.step io e io') (hbefore : io.state.armed = false)
    (hafter : io'.state.armed = true) :
    e = .button true ∧ io.state.armOk = true ∧
      (samples.watch io e io').length = armCounterThreshold + 1 := by
  by_cases hbutton : ∃ pressed, e = .button pressed
  · obtain ⟨pressed, rfl⟩ := hbutton
    cases hstep
    obtain ⟨-, harmed, -⟩ := safetyCheckButton_spec pressed io.state
    by_cases htoggle :
        (pressed && io.state.armOk) = true ∧ io.state.armCounter = armCounterThreshold
    · obtain ⟨hsample, hcount⟩ := htoggle
      have hcounter := h.counter
      have hboth := (Bool.and_eq_true _ _).mp hsample
      refine ⟨by rw [hboth.1], hboth.2, ?_⟩
      simp only [Samples.watch, hsample, if_true]
      omega
    · rw [if_neg htoggle, hbefore] at harmed
      rw [show (safetyCheckButton pressed io.state).armed = true from hafter] at harmed
      cases harmed
  · have hoff := armed_of_not_button hstep (fun pressed heq => hbutton ⟨pressed, heq⟩) hbefore
    rw [hafter] at hoff
    cases hoff

/-- **The arming interlock.** In every order of frames, handler statements, button samples and
mixer runs: when no frame is being handled, armed means permitted; the module gets armed only on
the sample that makes a run of samples, pressed and permitted, longer than the threshold; and the
button changes the arming at most once in such a run. -/
theorem arming_interlock {io : Io} {samples : Samples}
    (h : (px4io.observe ⟨0, 0⟩ Samples.watch).Reachable (io, samples)) :
    (io.rest = [] → io.state.armed → io.state.armOk) ∧
      (∀ e io', px4io.step io e io' → io.state.armed = false → io'.state.armed = true →
        e = .button true ∧ io.state.armOk = true ∧
          (samples.watch io e io').length = armCounterThreshold + 1) ∧
      samples.changes ≤ 1 := by
  have hinv := ArmingInv.reachable h
  refine ⟨?_, ?_, ?_⟩
  · intro hrest
    have hinterlock := hinv.interlock
    rw [hrest] at hinterlock
    exact hinterlock
  · intro e io' hstep hbefore hafter
    exact hinv.armed hstep hbefore hafter
  · have hchanges := hinv.changes
    rw [hchanges]
    split_ifs <;> omega

/-- A frame that gives the permission, and then the button pressed for eleven samples. -/
theorem arming_interlock_held :
    ∃ io samples, (px4io.observe ⟨0, 0⟩ Samples.watch).Reachable (io, samples) ∧
      io.rest = [] ∧ io.state.armed = true ∧ io.state.armOk = true := by
  let start : Io :=
    ⟨reset, ⟨.replicate outputChannels 0, .replicate relayChannels false, true⟩, []⟩
  let events : List Event :=
    .frame (List.replicate 20 0 ++ [1]) :: List.replicate 14 .statement ++
      List.replicate 11 (.button true)
  have hsome : (events.foldlM Io.next start).isSome = true := by decide
  obtain ⟨io, hio⟩ := Option.isSome_iff_exists.mp hsome
  have hend : ∀ io ∈ events.foldlM Io.next start, io.rest = [] ∧ io.state.armed = true := by
    decide
  have hplain : px4io.Run start events io := LTS.Run.of_foldlM (fun _ _ _ h => h) hio
  obtain ⟨samples, hrun⟩ : ∃ samples,
      (px4io.observe ⟨0, 0⟩ Samples.watch).Run (start, ⟨0, 0⟩) events (io, samples) :=
    hplain.observe (Samples.mk 0 0)
  have hreach : (px4io.observe ⟨0, 0⟩ Samples.watch).Reachable (io, samples) :=
    ⟨(start, ⟨0, 0⟩), events, ⟨⟨rfl, rfl⟩, rfl⟩, hrun⟩
  obtain ⟨hrest, harmed⟩ := hend io hio
  exact ⟨io, samples, hreach, hrest, harmed, (arming_interlock hreach).1 hrest harmed⟩

end Px4Firmware.Px4io
