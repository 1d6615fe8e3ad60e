import Px4Firmware.Mixer.Checking

/-!
# Px4Firmware.Mixer.ControlNames

**The controls that mixers name.** A mixer names a control by its group and its index. The control
callback of the FMU driver takes the index alone, in the copy of the one control topic that the
driver follows, and nobody compares it with the size of the topic; `groups_required` shifts by the
group. So of the names that the check or the loader lets through, those are readable whose group is
the first and whose index exists, and those are marked whose group is less than 32
(`names_iff`).
-/

namespace Px4Firmware.Mixer

open Px4Firmware.Lib

/-! ### The callback -/

/-- `NUM_ACTUATOR_CONTROLS`. -/
abbrev numActuatorControls : Nat := 8

/-- `NUM_ACTUATOR_CONTROL_GROUPS`. -/
abbrev numActuatorControlGroups : Nat := 4

/-- `struct actuator_controls_s`, with elements of any type. -/
abbrev ActuatorControls (α : Type) := Vector α numActuatorControls

/-- `FMUServo::control_callback`, with the copy of the topic: the element, if there is one. -/
def controlCallback {α : Type} (controls : ActuatorControls α)
    (_controlGroup controlIndex : UInt8) : Option α :=
  controls[controlIndex.toNat]?

/-- A control by its name. -/
structure ControlName where
  group : UInt8
  index : UInt8
  deriving DecidableEq

/-- The callback reads an existing element of the topic of the group, whatever the topics hold. The
driver has a copy of `actuator_controls_0`. -/
def ControlName.Readable (name : ControlName) : Prop :=
  ∀ (α : Type) (topics : Vector (ActuatorControls α) numActuatorControlGroups),
    ∃ controls ∈ topics[name.group.toNat]?, ∃ value ∈ controls[name.index.toNat]?,
      controlCallback topics[0] name.group name.index = some value

section

variable {F : Type}

/-! ### The names -/

/-- The controls that a mixer names. -/
def AnyMixer.names : AnyMixer F → List ControlName
  | .null => []
  | .simple none => []
  | .simple (some info) =>
      (List.range info.controlCount.toNat).map fun i =>
        ⟨(info.controls i).controlGroup, (info.controls i).controlIndex⟩
  | .multirotor _ => [⟨0, 0⟩, ⟨0, 1⟩, ⟨0, 2⟩, ⟨0, 3⟩]

/-- `1 << n`. On this processor a shift by 32 or more leaves nothing. -/
def oneShiftedBy (n : UInt8) : UInt32 := if n.toNat < 32 then 1 <<< n.toUInt32 else 0

/-- The loop of `SimpleMixer::groups_required`, from the control `i` on. -/
def requireControls (info : SimpleInfo F) : Nat → Nat → UInt32 → UInt32
  | 0, _, groups => groups
  | count + 1, i, groups =>
      requireControls info count (i + 1) (groups ||| oneShiftedBy (info.controls i).controlGroup)

/-- `Mixer::groups_required`. -/
def AnyMixer.groupsRequired (mixer : AnyMixer F) (groups : UInt32) : UInt32 :=
  match mixer with
  | .null => groups
  | .simple none => groups
  | .simple (some info) => requireControls info info.controlCount.toNat 0 groups
  | .multirotor _ => groups ||| oneShiftedBy 0

/-- `MixerGroup::groups_required`. -/
def groupsRequired (mixers : List (AnyMixer F)) (groups : UInt32) : UInt32 :=
  mixers.foldl (fun groups mixer => mixer.groupsRequired groups) groups

/-- The group with this number is marked. -/
def Marked (groups : UInt32) (group : Nat) : Prop := groups.toNat.testBit group = true

/-- Exactly the groups are marked that the mixers use. -/
def MarksUsed (mixers : List (AnyMixer F)) : Prop :=
  ∀ group : Nat, Marked (groupsRequired mixers 0) group ↔
    ∃ mixer ∈ mixers, ∃ name ∈ mixer.names, name.group.toNat = group

/-! ### What is marked -/

theorem marked_zero (group : Nat) : ¬ Marked 0 group := by
  simp [Marked]

theorem marked_or (groups groups' : UInt32) (group : Nat) :
    Marked (groups ||| groups') group ↔ Marked groups group ∨ Marked groups' group := by
  simp [Marked]

theorem toNat_oneShiftedBy {n : UInt8} (hn : n.toNat < 32) :
    (oneShiftedBy n).toNat = 2 ^ n.toNat := by
  have hpow : 2 ^ n.toNat < 2 ^ 32 := Nat.pow_lt_pow_right (by decide) hn
  unfold oneShiftedBy
  rw [if_pos hn, UInt32.toNat_shiftLeft, UInt8.toNat_toUInt32, Nat.mod_eq_of_lt hn]
  simp only [UInt32.toNat_one, Nat.one_shiftLeft]
  exact Nat.mod_eq_of_lt hpow

/-- A shift marks its group, as far as the mask goes. -/
theorem marked_oneShiftedBy (n : UInt8) (group : Nat) :
    Marked (oneShiftedBy n) group ↔ n.toNat < 32 ∧ n.toNat = group := by
  by_cases hn : n.toNat < 32
  · unfold Marked
    rw [toNat_oneShiftedBy hn, Nat.testBit_two_pow]
    simp [hn]
  · unfold oneShiftedBy
    rw [if_neg hn]
    simp [marked_zero, hn]

/-- The loop adds the groups of the controls from the control `i` on. -/
theorem marked_requireControls (info : SimpleInfo F) (count i : Nat) (groups : UInt32)
    (group : Nat) :
    Marked (requireControls info count i groups) group ↔ Marked groups group ∨
      group < 32 ∧ ∃ j, i ≤ j ∧ j < i + count ∧
        (info.controls j).controlGroup.toNat = group := by
  induction count generalizing i groups with
  | zero =>
      refine (or_iff_left ?_).symm
      rintro ⟨-, j, hge, hlt, -⟩
      omega
  | succ count ih =>
      unfold requireControls
      rw [ih, marked_or, marked_oneShiftedBy, or_assoc]
      refine or_congr_right ?_
      constructor
      · rintro (⟨hlt, rfl⟩ | ⟨hlt, j, hge, hj, hgroup⟩)
        · exact ⟨hlt, i, Nat.le_refl i, by omega, rfl⟩
        · exact ⟨hlt, j, by omega, by omega, hgroup⟩
      · rintro ⟨hlt, j, hge, hj, rfl⟩
        rcases Nat.eq_or_lt_of_le hge with rfl | hgt
        · exact .inl ⟨hlt, rfl⟩
        · exact .inr ⟨hlt, j, hgt, by omega, rfl⟩

/-- **A mixer** marks the groups that it names, as far as the mask goes. -/
theorem marked_mixer (mixer : AnyMixer F) (groups : UInt32) (group : Nat) :
    Marked (mixer.groupsRequired groups) group ↔ Marked groups group ∨
      group < 32 ∧ ∃ name ∈ mixer.names, name.group.toNat = group := by
  rcases mixer with _ | (_ | info) | m
  · simp [AnyMixer.groupsRequired, AnyMixer.names]
  · simp [AnyMixer.groupsRequired, AnyMixer.names]
  · simp [AnyMixer.groupsRequired, AnyMixer.names, marked_requireControls]
  · simp only [AnyMixer.groupsRequired, AnyMixer.names, marked_or, marked_oneShiftedBy]
    refine or_congr_right ?_
    simp only [List.mem_cons, List.not_mem_nil, or_false, exists_eq_or_imp, exists_eq_left,
      or_self]
    constructor
    · rintro ⟨hlt, rfl⟩
      exact ⟨hlt, rfl⟩
    · rintro ⟨hlt, rfl⟩
      exact ⟨hlt, rfl⟩

/-- **A group** marks the groups that its mixers name, as far as the mask goes. -/
theorem marked_groupsRequired (mixers : List (AnyMixer F)) (groups : UInt32) (group : Nat) :
    Marked (groupsRequired mixers groups) group ↔ Marked groups group ∨
      group < 32 ∧ ∃ mixer ∈ mixers, ∃ name ∈ mixer.names, name.group.toNat = group := by
  induction mixers generalizing groups with
  | nil => simp [groupsRequired]
  | cons mixer mixers ih =>
      have hcons : groupsRequired (mixer :: mixers) groups =
          groupsRequired mixers (mixer.groupsRequired groups) := rfl
      rw [hcons, ih, marked_mixer, or_assoc, ← and_or_left]
      simp only [List.mem_cons, exists_eq_or_imp]

/-- The mask is right as long as the groups fit into it. -/
theorem marksUsed_iff (mixers : List (AnyMixer F)) :
    MarksUsed mixers ↔ ∀ mixer ∈ mixers, ∀ name ∈ mixer.names, name.group.toNat < 32 := by
  simp only [MarksUsed, marked_groupsRequired, marked_zero, false_or]
  constructor
  · intro h mixer hmixer name hname
    exact ((h name.group.toNat).2 ⟨mixer, hmixer, name, hname, rfl⟩).1
  · intro h group
    refine and_iff_right_of_imp ?_
    rintro ⟨mixer, hmixer, name, hname, rfl⟩
    exact h mixer hmixer name hname

end

/-! ### What is read -/

/-- The topics of a vehicle whose first group alone is set. -/
def firstGroupSet : Vector (ActuatorControls Bool) numActuatorControlGroups :=
  Vector.ofFn fun group => Vector.replicate _ (decide (group.val = 0))

/-- The callback reads the first topic. -/
theorem readable_iff (name : ControlName) :
    name.Readable ↔ name.group = 0 ∧ name.index.toNat < numActuatorControls := by
  constructor
  · intro h
    obtain ⟨controls, hcontrols, value, hvalue, hread⟩ := h Bool firstGroupSet
    obtain ⟨hgroup, hcontrols⟩ := Vector.getElem?_eq_some_iff.1 hcontrols
    obtain ⟨hindex, hvalue⟩ := Vector.getElem?_eq_some_iff.1 hvalue
    refine ⟨?_, hindex⟩
    have hread' : controlCallback firstGroupSet[0] name.group name.index = some true := by
      simp [controlCallback, firstGroupSet, hindex]
    have htrue : value = true := Option.some.inj (hread.symm.trans hread')
    have hzero : name.group.toNat = 0 := by
      rw [← hcontrols] at hvalue
      simpa [firstGroupSet, htrue] using hvalue
    exact UInt8.toNat_inj.1 hzero
  · rintro ⟨hgroup, hindex⟩ α topics
    exact ⟨topics[0], by simp [hgroup], topics[0][name.index.toNat],
      by simp [hindex], by simp [controlCallback, hindex]⟩

/-- **The names** of any mixers, so also of those that pass the check or come from a file: the
callback reads the right elements exactly when all names are of the first group and have an element,
and the right groups are marked exactly when all are less than 32. -/
theorem names_iff {F : Type} (mixers : List (AnyMixer F)) :
    ((∀ mixer ∈ mixers, ∀ name ∈ mixer.names, name.Readable) ↔
      ∀ mixer ∈ mixers, ∀ name ∈ mixer.names,
        name.group = 0 ∧ name.index.toNat < numActuatorControls) ∧
      (MarksUsed mixers ↔
        ∀ mixer ∈ mixers, ∀ name ∈ mixer.names, name.group.toNat < 32) := by
  refine ⟨?_, marksUsed_iff mixers⟩
  simp only [readable_iff]

/-! ### A control that does not exist -/

/-- A simple mixer of the control 200 of the group 33, which passes. -/
def farControl : SimpleInfo Rat where
  controlCount := 1
  outputScaler := ⟨1, 1, 0, -1, 1⟩
  controls _ := ⟨33, 200, ⟨1, 1, 0, -1, 1⟩⟩

/-- It passes the check, its control cannot be read, and its group is not marked. -/
theorem not_readable_farControl : ¬ ∀ info : SimpleInfo Rat, info.check fmuControlResult = 0 →
    (∀ name ∈ (AnyMixer.simple (some info)).names, name.Readable) ∧
      MarksUsed [.simple (some info)] := by
  intro h
  have hcheck : farControl.check fmuControlResult = 0 := by decide +kernel
  have hreadable := (h farControl hcheck).1 ⟨33, 200⟩ (by simp [AnyMixer.names, farControl])
  exact absurd ((readable_iff _).1 hreadable).1 (by decide)

end Px4Firmware.Mixer
