import Mathlib.Algebra.Order.Field.Rat
import Mathlib.Tactic.NormNum
import Mathlib.Tactic.Linarith
import Px4Firmware.Lib.Transition
import Px4Firmware.Mixer.Group
import Px4Firmware.Mixer.Parsing

/-!
# Px4Firmware.Mixer.Checking

**The mixers that the FMU driver installs** (`FMUServo::ioctl`). A simple mixer can be added on its
own, which checks it first (`SimpleMixer::check`), or come from a file, which does not: the loader
has a note that it should. What is added on its own stays where the caller has it: the driver keeps
the pointer, so that a later write to this memory changes a mixer that has been checked.

A simple mixer that passes the check keeps its outputs within the limits of its output scaler, and
these within 1.001 (`outputs_of_check`). So all is well as long as the files list simple mixers that
would pass, in the memory that they are loaded into, and what is written to the information of an
installed mixer would pass as well (`installed_sane_iff`).
-/

namespace Px4Firmware.Mixer

open Px4Firmware.Lib

section

variable {F : Type} [Arithmetic F]

/-! ### The check -/

/-- `Mixer::scale_check`. -/
def scaleCheck (scaler : Scaler F) : Int :=
  if 1.001 < scaler.offset then 1
  else if scaler.offset < -1.001 then 2
  else if scaler.maxOutput < scaler.minOutput then 3
  else if scaler.minOutput < -1.001 then 4
  else if 1.001 < scaler.maxOutput then 5
  else 0

variable (controlCb : UInt8 → UInt8 → Int)

/-- The loop of `SimpleMixer::check`, from the control `i` on. -/
def checkControls (info : SimpleInfo F) : Nat → Nat → Int
  | 0, _ => 0
  | count + 1, i =>
      let c := info.controls i
      if controlCb c.controlGroup c.controlIndex ≠ 0 then -3
      else
        let ret := scaleCheck c.scaler
        if ret ≠ 0 then 10 * i + ret else checkControls info count (i + 1)

/-- `SimpleMixer::check`, with what the callback returns. -/
def SimpleInfo.check (info : SimpleInfo F) : Int :=
  if 32 < info.controlCount then -2
  else
    let ret := scaleCheck info.outputScaler
    if ret ≠ 0 then ret else checkControls controlCb info info.controlCount.toNat 0

/-! ### The driver -/

/-- What `FMUServo::control_callback` returns. -/
def fmuControlResult (_controlGroup _controlIndex : UInt8) : Int := 0

/-- `EINVAL`. -/
def einval : Int := 22

/-- A mixer of the driver. Of its information a simple mixer has the address (`_info`). -/
inductive InstalledMixer (F : Type)
  | null
  | simple (info : Nat)
  | multirotor (m : Multirotor F)

/-- `_mixers`, null or a group, and what the memory holds, at each address, as the information of a
simple mixer. -/
structure MixerState (F : Type) where
  mixers : Option (List (InstalledMixer F))
  memory : Nat → SimpleInfo F

/-- The mixer, with the information that is in memory. -/
def InstalledMixer.mixer (memory : Nat → SimpleInfo F) : InstalledMixer F → AnyMixer F
  | null => .null
  | simple info => .simple (if info = 0 then none else some (memory info))
  | multirotor m => .multirotor m

/-- The blocks that are allocated for the simple mixers of a file, in order: where they are, and
what they hold before they are filled. -/
structure InfoBlocks (F : Type) where
  address : Nat → Nat
  content : Nat → SimpleInfo F
  nonnull : ∀ i, address i ≠ 0
  distinct : Function.Injective address

/-- The mixers that have been loaded, with the blocks from `i` on. -/
def InfoBlocks.install (blocks : InfoBlocks F) : Nat → List (AnyMixer F) → List (InstalledMixer F)
  | _, [] => []
  | i, .null :: rest => .null :: blocks.install i rest
  | i, .simple none :: rest => .simple 0 :: blocks.install i rest
  | i, .simple (some _) :: rest => .simple (blocks.address i) :: blocks.install (i + 1) rest
  | i, .multirotor m :: rest => .multirotor m :: blocks.install i rest

/-- The memory when they have been loaded. -/
def InfoBlocks.fill (blocks : InfoBlocks F) :
    Nat → List (AnyMixer F) → (Nat → SimpleInfo F) → Nat → SimpleInfo F
  | _, [], memory => memory
  | i, .simple (some info) :: rest, memory =>
      blocks.fill (i + 1) rest (Function.update memory (blocks.address i) info)
  | i, _ :: rest, memory => blocks.fill i rest memory

/-- The requests that change the mixers. A simple mixer is added by the address of its information;
a file can be opened or not. -/
inductive MixerRequest (F : Type)
  | reset
  | addSimple (mixinfo : Nat)
  | loadFile (blocks : InfoBlocks F) (file : Option (List UInt8))

/-- `FMUServo::ioctl`, for these requests. The information of a simple mixer is not copied. If it
does not pass the check, its block is freed. -/
def mixerIoctl (s : MixerState F) : MixerRequest F → Int × MixerState F
  | .reset => (0, { s with mixers := none })
  | .addSimple mixinfo =>
      if (s.memory mixinfo).check fmuControlResult ≠ 0 then (-einval, s)
      else (0, { s with mixers := some (s.mixers.getD [] ++ [.simple mixinfo]) })
  | .loadFile blocks file =>
      match loadFromFile blocks.content file [] with
      | some (result, group) =>
          if result ≠ 0 then (-einval, { s with mixers := none })
          else
            (0, { mixers := some (blocks.install 0 group), memory := blocks.fill 0 group s.memory })
      | none => (-einval, { s with mixers := none })

/-- A request, or a program that writes an information: one that it is going to add, one that it has
added before, or where a block has been freed. -/
inductive MixerEvent (F : Type)
  | request (request : MixerRequest F)
  | write (info : Nat) (content : SimpleInfo F)

/-- What it does. -/
def MixerEvent.apply (s : MixerState F) : MixerEvent F → MixerState F
  | .request r => (mixerIoctl s r).2
  | .write info content => { s with memory := Function.update s.memory info content }

/-- The driver, as far as the mixers are concerned. It starts without any. -/
def fmuMixers (F : Type) [Arithmetic F] : LTS (MixerState F) (MixerEvent F) where
  init s := s.mixers = none
  step s e s' := s' = e.apply s

/-- Is this the information of a mixer in the group? -/
def MixerState.Has (s : MixerState F) (info : Nat) : Prop :=
  ∃ group ∈ s.mixers, .simple info ∈ group

/-- Every simple mixer in the group passes the check. -/
def Checked (s : MixerState F) : Prop :=
  ∀ info, s.Has info → (s.memory info).check fmuControlResult = 0

/-- The condition. A file lists only simple mixers that pass the check in the memory that they are
loaded into, and what is written into the information of an installed mixer passes it as well. -/
def WritesChecked (s : MixerState F) : MixerEvent F → Prop
  | .request (.loadFile blocks (some input)) =>
      ∀ lines entries, Yields input lines → Lists lines entries →
        ∀ info, .simple (some info) ∈ entryMixers blocks.content 0 entries →
          info.check fmuControlResult = 0
  | .write info content => s.Has info → content.check fmuControlResult = 0
  | _ => True

/-! ### What the check says -/

variable {controlCb}

theorem scaleCheck_nonneg (scaler : Scaler F) : 0 ≤ scaleCheck scaler := by
  unfold scaleCheck
  split_ifs <;> decide

/-- The loop finds nothing exactly when there is nothing to find. -/
theorem checkControls_eq_zero {info : SimpleInfo F} {count i : Nat} :
    checkControls controlCb info count i = 0 ↔ ∀ j, i ≤ j → j < i + count →
      controlCb (info.controls j).controlGroup (info.controls j).controlIndex = 0 ∧
        scaleCheck (info.controls j).scaler = 0 := by
  induction count generalizing i with
  | zero => exact ⟨fun _ j hge hlt => absurd hlt (by omega), fun _ => rfl⟩
  | succ count ih =>
      have hnonneg := scaleCheck_nonneg (info.controls i).scaler
      unfold checkControls
      dsimp only
      split_ifs with hcallback hscaler
      · refine ⟨fun h => absurd h (by decide), fun h => ?_⟩
        exact absurd (h i (Nat.le_refl i) (by omega)).1 hcallback
      · refine ⟨fun h => absurd h (by omega), fun h => ?_⟩
        exact absurd (h i (Nat.le_refl i) (by omega)).2 hscaler
      · rw [ih]
        constructor
        · intro h j hge hlt
          rcases Nat.lt_or_eq_of_le hge with hgt | rfl
          · exact h j hgt (by omega)
          · exact ⟨not_not.1 hcallback, not_not.1 hscaler⟩
        · exact fun h j hge hlt => h j (by omega) (by omega)

/-- **The check**, as a condition. -/
theorem check_eq_zero {info : SimpleInfo F} :
    info.check controlCb = 0 ↔ info.controlCount ≤ 32 ∧ scaleCheck info.outputScaler = 0 ∧
      ∀ j < info.controlCount.toNat,
        controlCb (info.controls j).controlGroup (info.controls j).controlIndex = 0 ∧
          scaleCheck (info.controls j).scaler = 0 := by
  unfold SimpleInfo.check
  dsimp only
  split_ifs with hcount hscaler
  · exact ⟨fun h => absurd h (by decide), fun h => absurd hcount (UInt8.not_lt.2 h.1)⟩
  · exact ⟨fun h => absurd h hscaler, fun h => absurd h.2.1 hscaler⟩
  · rw [checkControls_eq_zero]
    constructor
    · intro h
      exact ⟨UInt8.not_lt.1 hcount, not_not.1 hscaler,
        fun j hj => h j (Nat.zero_le j) (by omega)⟩
    · exact fun h j _ hj => h.2.2 j (by omega)

end

/-! ### The outputs of a mixer that passes -/

/-- A scaler that passes the check, in exact arithmetic. -/
theorem scaleCheck_eq_zero {scaler : Scaler Rat} (h : scaleCheck scaler = 0) :
    scaler.minOutput ≤ scaler.maxOutput ∧ -1.001 ≤ scaler.minOutput ∧
      scaler.maxOutput ≤ 1.001 := by
  unfold scaleCheck at h
  split_ifs at h with hoffset hoffset' hlimits hmin hmax
  · exact absurd h (by decide)
  · exact absurd h (by decide)
  · exact absurd h (by decide)
  · exact absurd h (by decide)
  · exact absurd h (by decide)
  · exact ⟨not_lt.1 hlimits, not_lt.1 hmin, not_lt.1 hmax⟩

/-- What is scaled is within the limits. -/
theorem scale_mem {scaler : Scaler Rat} (h : scaler.minOutput ≤ scaler.maxOutput) (input : Rat) :
    scaler.minOutput ≤ scale scaler input ∧ scale scaler input ≤ scaler.maxOutput := by
  unfold scale
  dsimp only
  generalize (if input < 0.0 then input * scaler.negativeScale + scaler.offset
    else input * scaler.positiveScale + scaler.offset) = output
  split_ifs with hmax hmin
  · exact ⟨h, le_refl _⟩
  · exact ⟨le_refl _, h⟩
  · exact ⟨not_lt.1 hmin, not_lt.1 hmax⟩

/-- **The outputs** of a simple mixer that passes the check. -/
theorem outputs_of_check {controlCb : UInt8 → UInt8 → Int} {info : SimpleInfo Rat}
    (h : info.check controlCb = 0) (control : UInt8 → UInt8 → Rat) {y : Rat}
    (hy : y ∈ (AnyMixer.simple (some info)).outputs control) :
    (info.outputScaler.minOutput ≤ y ∧ y ≤ info.outputScaler.maxOutput) ∧
      -1.001 ≤ y ∧ y ≤ 1.001 := by
  obtain ⟨hlimits, hmin, hmax⟩ := scaleCheck_eq_zero (check_eq_zero.1 h).2.1
  have hy' : y = scale info.outputScaler (sumControls control info info.controlCount.toNat 0 0.0) :=
    List.mem_singleton.1 hy
  obtain ⟨hge, hle⟩ := scale_mem hlimits
    (sumControls control info info.controlCount.toNat 0 0.0)
  rw [← hy'] at hge hle
  exact ⟨⟨hge, hle⟩, le_trans hmin hge, le_trans hle hmax⟩

/-! ### What is loaded -/

section

variable {F : Type}

/-- The blocks of the mixers that are loaded later are others. -/
theorem InfoBlocks.fill_of_lt (blocks : InfoBlocks F) {i j : Nat} (h : j < i)
    (mixers : List (AnyMixer F)) (memory : Nat → SimpleInfo F) :
    blocks.fill i mixers memory (blocks.address j) = memory (blocks.address j) := by
  induction mixers generalizing i memory with
  | nil => rfl
  | cons mixer rest ih =>
      cases mixer with
      | null => exact ih h memory
      | multirotor m => exact ih h memory
      | simple info =>
          cases info with
          | none => exact ih h memory
          | some info =>
              have hother : blocks.address j ≠ blocks.address i := fun heq =>
                absurd (blocks.distinct heq) (Nat.ne_of_lt h)
              refine (ih (Nat.lt_succ_of_lt h) _).trans ?_
              exact Function.update_of_ne hother _ _

/-- A property of the simple mixers that are loaded is one of what their blocks hold. -/
theorem InfoBlocks.forall_install_iff (blocks : InfoBlocks F) {P : SimpleInfo F → Prop}
    {mixers : List (AnyMixer F)} (hsome : .simple none ∉ mixers) (i : Nat)
    (memory : Nat → SimpleInfo F) :
    (∀ info, .simple info ∈ blocks.install i mixers → P (blocks.fill i mixers memory info)) ↔
      ∀ info, .simple (some info) ∈ mixers → P info := by
  induction mixers generalizing i memory with
  | nil => exact ⟨fun _ _ h => (List.not_mem_nil h).elim, fun _ _ h => (List.not_mem_nil h).elim⟩
  | cons mixer rest ih =>
      rw [List.mem_cons, not_or] at hsome
      replace ih := ih hsome.2
      cases mixer with
      | null => simpa [InfoBlocks.install, InfoBlocks.fill] using ih i memory
      | multirotor m => simpa [InfoBlocks.install, InfoBlocks.fill] using ih i memory
      | simple info =>
          cases info with
          | none => exact absurd rfl hsome.1
          | some info =>
              have hfirst : blocks.fill i (.simple (some info) :: rest) memory (blocks.address i) =
                  info :=
                (blocks.fill_of_lt (Nat.lt_succ_self i) rest _).trans (Function.update_self ..)
              have hrest := ih (i + 1) (Function.update memory (blocks.address i) info)
              constructor
              · intro h info' hinfo
                rcases List.mem_cons.1 hinfo with heq | hinfo
                · cases heq
                  have hP := h (blocks.address i) List.mem_cons_self
                  rwa [hfirst] at hP
                · refine hrest.1 (fun info hinfo => ?_) info' hinfo
                  exact h info (List.mem_cons_of_mem _ hinfo)
              · intro h info' hinfo
                rcases List.mem_cons.1 hinfo with heq | hinfo
                · cases heq
                  rw [hfirst]
                  exact h info List.mem_cons_self
                · refine hrest.2 (fun info hinfo => ?_) info' hinfo
                  exact h info (List.mem_cons_of_mem _ hinfo)

variable [Arithmetic F]

/-- The loader gives every simple mixer its information. -/
theorem simple_none_not_mem {heap : Nat → SimpleInfo F} {lines : List (List UInt8)}
    {entries : List (Entry F)} (h : Lists lines entries) (allocated : Nat) :
    .simple none ∉ entryMixers heap allocated entries := by
  induction h generalizing allocated with
  | nil => exact List.not_mem_nil
  | cons hreads _ ih =>
      rw [entryMixers, List.mem_cons, not_or]
      refine ⟨?_, ih _⟩
      cases hreads with
      | null _ =>
          intro h
          cases h
      | simple _ _ _ _ =>
          intro h
          cases h
      | @multirotor line mixer _ hload =>
          unfold mixerLoadMultirotor at hload
          split at hload
          · obtain ⟨geometry, -, rfl⟩ := Option.map_eq_some_iff.1 hload
            intro h
            cases h
          · cases hload

end

/-! ### Over a run -/

/-- Every simple mixer in the group passes the check, and its outputs are in range for all controls
that are. -/
def Sane (s : MixerState Rat) : Prop :=
  ∀ info, s.Has info →
    (s.memory info).check fmuControlResult = 0 ∧
      ∀ control : UInt8 → UInt8 → Rat, (∀ group index, -1 ≤ control group index ∧
        control group index ≤ 1) →
          ∀ y ∈ ((InstalledMixer.simple info).mixer s.memory).outputs control,
            ((s.memory info).outputScaler.minOutput ≤ y ∧
              y ≤ (s.memory info).outputScaler.maxOutput) ∧ -1.001 ≤ y ∧ y ≤ 1.001

/-- The outputs follow from the check. -/
theorem sane_iff (s : MixerState Rat) : Sane s ↔ Checked s := by
  constructor
  · exact fun h info hinfo => (h info hinfo).1
  · intro h info hinfo
    have hcheck := h info hinfo
    refine ⟨hcheck, fun control _ y hy => ?_⟩
    by_cases hnull : info = 0
    · rw [InstalledMixer.mixer, if_pos hnull] at hy
      exact (List.not_mem_nil hy).elim
    · rw [InstalledMixer.mixer, if_neg hnull] at hy
      exact outputs_of_check hcheck control hy

section

variable {F : Type} [Arithmetic F]

/-- A simple mixer is added when it passes. -/
theorem checked_addSimple {s : MixerState F} (h : Checked s) (mixinfo : Nat) :
    Checked (mixerIoctl s (.addSimple mixinfo)).2 := by
  unfold mixerIoctl
  dsimp only
  split_ifs with hcheck
  · exact h
  · rintro info ⟨group, hgroup, hinfo⟩
    cases hgroup
    rcases List.mem_append.1 hinfo with hinfo | hinfo
    · cases hmixers : s.mixers with
      | none =>
          rw [hmixers] at hinfo
          cases hinfo
      | some group =>
          rw [hmixers] at hinfo
          exact h info ⟨group, hmixers, hinfo⟩
    · cases List.mem_singleton.1 hinfo
      exact not_not.1 hcheck

/-- A file is loaded into a group that is checked exactly when it lists what passes. -/
theorem checked_loadFile (s : MixerState F) (blocks : InfoBlocks F) (file : Option (List UInt8)) :
    Checked (mixerIoctl s (.loadFile blocks file)).2 ↔
      WritesChecked s (.request (.loadFile blocks file)) := by
  have hnone : ∀ memory : Nat → SimpleInfo F, Checked { mixers := none, memory := memory } := by
    rintro memory info ⟨group, hgroup, -⟩
    cases hgroup
  obtain ⟨⟨result, group⟩, hload⟩ :=
    Option.isSome_iff_exists.1 (loadFromFile_isSome blocks.content file [])
  cases file with
  | none =>
      cases hload
      exact ⟨fun _ => trivial, fun _ => hnone _⟩
  | some input =>
      obtain ⟨lines, hlines⟩ := exists_yields input
      have hiff := fun group => loadFromFile_iff blocks.content hlines group
      unfold mixerIoctl WritesChecked
      dsimp only
      rw [hload]
      dsimp only
      split_ifs with hresult
      · refine ⟨fun _ lines' entries hlines' hlists => ?_, fun _ => hnone _⟩
        have hzero := (hiff _).2 ⟨entries, hlines.unique hlines' ▸ hlists, rfl⟩
        rw [hload] at hzero
        cases hzero
        exact absurd rfl hresult
      · obtain rfl := not_not.1 hresult
        obtain ⟨entries, hlists, rfl⟩ := (hiff group).1 hload
        have hsome : .simple none ∉ entryMixers blocks.content 0 entries :=
          simple_none_not_mem hlists 0
        have hinstalled := blocks.forall_install_iff
          (P := fun info => info.check fmuControlResult = 0) hsome 0 s.memory
        constructor
        · intro hchecked lines' entries' hlines' hlists' info hinfo
          have hload' := (hiff _).2 ⟨entries', hlines.unique hlines' ▸ hlists', rfl⟩
          have hsame := (Prod.mk.inj (Option.some.inj (hload.symm.trans hload'))).2
          refine hinstalled.1 (fun info hinfo => ?_) info (hsame ▸ hinfo)
          exact hchecked info ⟨_, rfl, hinfo⟩
        · rintro hlisted info ⟨group, hgroup, hinfo⟩
          cases hgroup
          exact hinstalled.2 (hlisted lines entries hlines hlists) info hinfo

/-- **One event** in a group that is checked: it is checked afterwards exactly when the condition is
met. -/
theorem checked_apply {s : MixerState F} (h : Checked s) (e : MixerEvent F) :
    Checked (e.apply s) ↔ WritesChecked s e := by
  cases e with
  | request request =>
      cases request with
      | reset =>
          refine ⟨fun _ => trivial, ?_⟩
          rintro - info ⟨group, hgroup, -⟩
          cases hgroup
      | addSimple mixinfo => exact ⟨fun _ => trivial, fun _ => checked_addSimple h mixinfo⟩
      | loadFile blocks file => exact checked_loadFile s blocks file
  | write info content =>
      constructor
      · intro hchecked hinfo
        have hnew := hchecked info hinfo
        rwa [show (MixerEvent.apply s (.write info content)).memory info = content from
          Function.update_self ..] at hnew
      · intro hcontent info' hinfo'
        by_cases heq : info' = info
        · subst heq
          rw [show (MixerEvent.apply s (.write info' content)).memory info' = content from
            Function.update_self ..]
          exact hcontent hinfo'
        · rw [show (MixerEvent.apply s (.write info content)).memory info' = s.memory info' from
            Function.update_of_ne heq ..]
          exact h info' hinfo'

end

/-- The driver when it has been started. -/
def startMixers {F : Type} (memory : Nat → SimpleInfo F) : MixerState F :=
  { mixers := none, memory := memory }

/-- A law that says that the group is checked after every step is kept by the runs that meet the
condition. -/
theorem checked_run_iff {F : Type} [Arithmetic F] {memory : Nat → SimpleInfo F}
    {events : List (MixerEvent F)} {s : MixerState F} :
    ((fmuMixers F).obeying fun _ _ s => Checked s).Run (startMixers memory) events s ↔
      ((fmuMixers F).restrict WritesChecked).Run (startMixers memory) events s := by
  refine LTS.run_obeying_iff ?_ rfl
  intro s e s' hreach hstep
  have hchecked : Checked s := by
    refine hreach.invariant ?_ ?_
    · rintro s hinit info ⟨group, hgroup, -⟩
      rw [show s.mixers = none from hinit] at hgroup
      cases hgroup
    · intro s e s' h hstep
      rw [show s' = _ from hstep.2]
      exact (checked_apply h e).2 hstep.1
  rw [show s' = _ from hstep]
  exact checked_apply hchecked e

/-- **Every installed simple mixer is sane** in a run, after every event, exactly when the files
list only simple mixers that pass the check, and only what passes it is written into the information
of a mixer that is installed: for the check, with any arithmetic, and for the check and the range of
the outputs, with fractions. -/
theorem installed_sane_iff {F : Type} [Arithmetic F] (memory : Nat → SimpleInfo F)
    (events : List (MixerEvent F)) (s : MixerState F) (exactMemory : Nat → SimpleInfo Rat)
    (exactEvents : List (MixerEvent Rat)) (exactState : MixerState Rat) :
    (((fmuMixers F).obeying fun _ _ s => Checked s).Run (startMixers memory) events s ↔
      ((fmuMixers F).restrict WritesChecked).Run (startMixers memory) events s) ∧
    (((fmuMixers Rat).obeying fun _ _ s => Sane s).Run (startMixers exactMemory) exactEvents
      exactState ↔
      ((fmuMixers Rat).restrict WritesChecked).Run (startMixers exactMemory) exactEvents
        exactState) := by
  refine ⟨checked_run_iff, ?_⟩
  simp only [sane_iff]
  exact checked_run_iff

/-! ### Mixers that do not pass -/

/-- A simple mixer with one control, whose outputs go to 2: `M: 1`, `O: 10000 10000 0 -20000 20000`
and `S: 0 0 20000 20000 0 -20000 20000`. -/
def wideFile : List UInt8 :=
  "M: 1\nO: 10000 10000 0 -20000 20000\nS: 0 0 20000 20000 0 -20000 20000\n".toList.map
    fun c => UInt8.ofNat c.toNat

/-- Memory that holds the right count. -/
def oneControl : SimpleInfo Rat := { zeroInfo with controlCount := 1 }

/-- Blocks of such memory. -/
def oneControlBlocks : InfoBlocks Rat where
  address i := i + 1
  content _ := oneControl
  nonnull _ := Nat.succ_ne_zero _
  distinct _ _ h := Nat.succ.inj h

/-- The mixer of the file is installed, and gives 2 for the control value 1. -/
theorem not_sane_wideFile : ¬ ∀ (memory : Nat → SimpleInfo Rat) (events : List (MixerEvent Rat))
    (s : MixerState Rat), (fmuMixers Rat).Run (startMixers memory) events s → Sane s := by
  intro h
  let e : MixerEvent Rat := .request (.loadFile oneControlBlocks (some wideFile))
  let s : MixerState Rat := e.apply (startMixers fun _ => zeroInfo)
  have hinstalled : (s.mixers.any fun group => group.any fun
      | .simple info => info == 1
      | _ => false) = true := by decide +kernel
  have houtputs : ((InstalledMixer.simple 1).mixer s.memory).outputs (fun _ _ => 1) = [2] := by
    decide +kernel
  have hhas : s.Has 1 := by
    obtain ⟨group, hgroup, hany⟩ := (Option.any_eq_true _ _).1 hinstalled
    obtain ⟨mixer, hmixer, hsimple⟩ := List.any_eq_true.1 hany
    cases mixer with
    | null => cases hsimple
    | multirotor m => cases hsimple
    | simple info => exact ⟨group, hgroup, eq_of_beq hsimple ▸ hmixer⟩
  have hsane := h _ [e] s (.cons rfl (.nil s)) 1 hhas
  have hrange := (hsane.2 (fun _ _ => 1) (by norm_num) 2 (by rw [houtputs]; simp)).2.2
  norm_num at hrange

end Px4Firmware.Mixer
