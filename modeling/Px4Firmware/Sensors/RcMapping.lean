import Px4Firmware.Lib.Transition
import Px4Firmware.Sensors.RcInput
import Mathlib.Tactic.ByContra

/-!
# Px4Firmware.Sensors.RcMapping

**The mapping of the channels over a run of parameter updates.** An update derives the mapping from
the parameters of the update before it (`parametersUpdate`), and does not look whether a parameter
names a channel. `mapping_follows_iff` says in which runs the mapping follows the parameters all the
same.
-/

namespace Px4Firmware.Sensors

open Px4Firmware.Lib

/-! ### Polls -/

@[simp] theorem function_ppmPoll (frame : PpmFrame) (s : SensorsApp) :
    (ppmPoll frame s).2.rc.function = s.rc.function := by
  simp only [ppmPoll]
  split
  · rfl
  · split <;> rfl

@[simp] theorem parameters_ppmPoll (frame : PpmFrame) (s : SensorsApp) :
    (ppmPoll frame s).2.parameters = s.parameters := by
  simp only [ppmPoll]
  split
  · rfl
  · split <;> rfl

/-- The polls of some frames, one after the other. -/
def pollAll (frames : List PpmFrame) (s : SensorsApp) : SensorsApp :=
  frames.foldl (fun s frame => (ppmPoll frame s).2) s

theorem function_pollAll (frames : List PpmFrame) (s : SensorsApp) :
    (pollAll frames s).rc.function = s.rc.function := by
  induction frames generalizing s with
  | nil => rfl
  | cons frame frames ih => exact (ih _).trans (function_ppmPoll frame s)

/-- Every mapping names an entry of `chan`. -/
def Mapped (s : SensorsApp) : Prop := ∀ f, (s.rc.function f).toNat < 12

/-- No poll reads behind the end of `chan`, whatever frames come. -/
def ReadsInside (s : SensorsApp) : Prop :=
  ∀ frames frame index, (ppmPoll frame (pollAll frames s)).1 ≠ .error index

theorem scaled_of_lt {rc : RcChannels} {f : RcFunction} (h : (rc.function f).toNat < 12) :
    rc.scaled f = .ok (rc.chan ⟨(rc.function f).toNat, h⟩).scaled :=
  dif_pos h

theorem scaled_of_not_lt {rc : RcChannels} {f : RcFunction} (h : ¬(rc.function f).toNat < 12) :
    rc.scaled f = .error (rc.function f) :=
  dif_neg h

/-- The sticks are not read without an error exactly if some mapping names no entry. -/
theorem manualControl_error_iff (p : Parameters) (rc : RcChannels) :
    (∃ index, manualControl p rc = .error index) ↔ ∃ f, ¬(rc.function f).toNat < 12 := by
  constructor
  · rintro ⟨index, hindex⟩
    by_contra hall
    have hscaled f : rc.scaled f = _ := scaled_of_lt (by simpa using not_exists.1 hall f)
    simp only [manualControl, hscaled] at hindex
    cases hindex
  · rintro ⟨f, hf⟩
    have herror := scaled_of_not_lt hf
    simp only [manualControl]
    -- The first of the five reads that fails is what is returned.
    cases hroll : rc.scaled .roll with
    | error index => exact ⟨index, rfl⟩
    | ok roll =>
    cases hpitch : rc.scaled .pitch with
    | error index => exact ⟨index, rfl⟩
    | ok pitch =>
    cases hyaw : rc.scaled .yaw with
    | error index => exact ⟨index, rfl⟩
    | ok yaw =>
    cases hthrottle : rc.scaled .throttle with
    | error index => exact ⟨index, rfl⟩
    | ok throttle =>
    cases hoverride : rc.scaled .override with
    | error index => exact ⟨index, rfl⟩
    | ok override => cases f <;> simp_all

/-- A frame that is accepted. -/
theorem ppmPoll_of_accepted {frame : PpmFrame} {s : SensorsApp}
    (hnew : s.ppmLastValid ≠ frame.lastValidDecode) (hchannels : 4 ≤ frame.decodedChannels) :
    ∃ rc : RcChannels, rc.function = s.rc.function ∧
      (ppmPoll frame s).1 = (manualControl s.parameters rc).map some := by
  rw [ppmPoll, if_neg hnew, if_neg (Nat.not_lt.2 hchannels)]
  refine ⟨_, ?_, rfl⟩
  rfl

theorem readsInside_iff (s : SensorsApp) : ReadsInside s ↔ Mapped s := by
  constructor
  · intro hreads f
    by_contra hf
    -- A new frame with four channels is accepted, and reads every mapping.
    let frame : PpmFrame := ⟨s.ppmLastValid + 1, 4, fun _ => 0⟩
    have hnew : s.ppmLastValid ≠ frame.lastValidDecode := by
      intro heq
      have hself : s.ppmLastValid = s.ppmLastValid + 1 := heq
      exact absurd hself (by simp)
    obtain ⟨rc, hfunction, hpoll⟩ := ppmPoll_of_accepted hnew (Nat.le_refl 4)
    obtain ⟨index, hindex⟩ := (manualControl_error_iff s.parameters rc).2 ⟨f, by rwa [hfunction]⟩
    rw [hindex] at hpoll
    exact hreads [] frame index hpoll
  · intro hmapped frames frame index herror
    -- The frames before have left the mappings alone.
    have hfunction := function_pollAll frames s
    generalize pollAll frames s = s' at hfunction herror
    by_cases hnew : s'.ppmLastValid = frame.lastValidDecode
    · rw [ppmPoll, if_pos hnew] at herror
      cases herror
    · by_cases hchannels : 4 ≤ frame.decodedChannels
      · obtain ⟨rc, hrc, hpoll⟩ := ppmPoll_of_accepted hnew hchannels
        rw [herror] at hpoll
        cases hcontrol : manualControl s'.parameters rc with
        | ok control =>
            rw [hcontrol] at hpoll
            cases hpoll
        | error index' =>
            obtain ⟨f, hf⟩ := (manualControl_error_iff _ _).1 ⟨index', hcontrol⟩
            rw [hrc, hfunction] at hf
            exact hf (hmapped f)
      · rw [ppmPoll, if_neg hnew, if_pos (Nat.not_le.1 hchannels)] at herror
        cases herror

/-! ### Updates -/

/-- The parameters are changed, and then updated. -/
def updates : LTS SensorsApp Parameters where
  init _ := True
  step s store t := t = parametersUpdate store s

/-- A parameter names a channel that exists. -/
def Names (rcMap : Int32) : Prop := 0 ≤ rcMap.toInt - 1 ∧ rcMap.toInt - 1 < 12

instance (rcMap : Int32) : Decidable (Names rcMap) := inferInstanceAs (Decidable (_ ∧ _))

/-- The law: each entry is the parameter minus one, if that names a channel that exists, and no
poll reads behind the end of the channels. -/
def Follows (_ : SensorsApp) (store : Parameters) (t : SensorsApp) : Prop :=
  (∀ f, Names (store.rcMap f) → ((t.rc.function f).toNat : Int) = (store.rcMap f).toInt - 1) ∧
    ReadsInside t

/-- The condition: the parameters of the update before, minus one and in eight bits, name
channels that exist, and those of the parameters of this one, where they name one. -/
def CurrentBefore (s : SensorsApp) (store : Parameters) : Prop :=
  ∀ f, ((s.parameters.rcMap f).toInt - 1) % 256 < 12 ∧
    (Names (store.rcMap f) →
      ((s.parameters.rcMap f).toInt - 1) % 256 = (store.rcMap f).toInt - 1)

theorem toNat_functionEntry (rcMap : Int32) :
    ((functionEntry rcMap).toNat : Int) = (rcMap.toInt - 1) % 256 := by
  rw [functionEntry, UInt8.toNat_ofNat']
  omega

theorem follows_iff (s : SensorsApp) (store : Parameters) :
    Follows s store (parametersUpdate store s) ↔ CurrentBefore s store := by
  have hentry f : (((parametersUpdate store s).rc.function f).toNat : Int) =
      ((s.parameters.rcMap f).toInt - 1) % 256 := toNat_functionEntry _
  rw [Follows, readsInside_iff, Mapped, CurrentBefore]
  constructor
  · rintro ⟨hfollows, hmapped⟩ f
    have hf := hmapped f
    refine ⟨by rw [← hentry f]; omega, fun hnames => ?_⟩
    rw [← hentry f]
    exact hfollows f hnames
  · intro hbefore
    refine ⟨fun f hnames => ?_, fun f => ?_⟩
    · rw [hentry f]
      exact (hbefore f).2 hnames
    · have hf := (hbefore f).1
      rw [← hentry f] at hf
      omega

/-- **The mapping of the channels.** In a run of updates the mapping follows the parameters after
every one exactly if before every one the parameters of the last one are right for it. -/
theorem mapping_follows_iff {s t : SensorsApp} {stores : List Parameters} :
    (updates.obeying Follows).Run s stores t ↔ (updates.restrict CurrentBefore).Run s stores t := by
  refine LTS.run_obeying_iff (fun s store t _ hstep => ?_) trivial
  rw [hstep]
  exact follows_iff s store

/-- The defaults of the parameters of the mapping. -/
def defaultMap : RcFunction → Int32
  | .roll => 1
  | .pitch => 2
  | .throttle => 3
  | .yaw => 4
  | .override => 5

/-- Parameters with a mapping, with the other defaults of the first channel. -/
def withMap (rcMap : RcFunction → Int32) : Parameters :=
  ⟨fun _ => ⟨1000, 1500, 2000, 1, 30⟩, rcMap, 2 / 5, 2 / 5, 3⟩

/-- The application when it starts to poll: the constructor and then the task have updated the
parameters, which have their defaults. -/
def started : SensorsApp :=
  let uninitialised : SensorsApp :=
    ⟨0, ⟨0, fun _ => ⟨0, 0, 0, 0⟩, 0, fun _ => 0⟩, withMap fun _ => 0⟩
  parametersUpdate (withMap defaultMap) (parametersUpdate (withMap defaultMap) uninitialised)

/-- The roll is moved to the sixth channel. After the update it is still on the first one. -/
theorem remapped_one_late :
    let store := withMap fun f => if f = .roll then 6 else defaultMap f
    updates.Run started [store] (parametersUpdate store started) ∧
      (parametersUpdate store started).rc.function .roll = 0 ∧
      ¬(updates.obeying Follows).Run started [store] (parametersUpdate store started) := by
  refine ⟨.cons rfl (.nil _), rfl, fun hrun => ?_⟩
  cases hrun with
  | cons hstep hrest =>
      obtain ⟨heq, hfollows⟩ := hstep
      rw [heq, follows_iff] at hfollows
      exact absurd ((hfollows .roll).2 (by decide)) (by decide)

end Px4Firmware.Sensors
