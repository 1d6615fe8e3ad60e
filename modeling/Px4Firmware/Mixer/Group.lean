import Px4Firmware.Mixer.Basic

/-!
# Px4Firmware.Mixer.Group

**The outputs of a group of mixers.** `AnyMixer.outputs` is what a mixer on its own produces. A
group should write these, one mixer after the other, as far as there is space for them (`InOrder`).

`MultirotorMixer::mix` ignores the space and returns zero. So the mixers after it write over its
outputs, and if there is too little space, it writes out of bounds. `inOrder_iff` says exactly when
a group does what it should: the rotors that are written at all have space, and the mixers without
the multirotor mixers produce the same.
-/

namespace Px4Firmware.Mixer

open Px4Firmware.Lib

section

variable {F : Type} [Arithmetic F] (control : UInt8 → UInt8 → F)

/-! ### The outputs of a mixer on its own -/

/-- What a multirotor mixer produces for each rotor before the outputs are scaled. -/
def Multirotor.rotorOutputs (m : Multirotor F) : List F :=
  (configIndex m.geometry).map fun rotor =>
    control 0 0 * m.rollScale * rotor.rollScale + control 0 1 * m.pitchScale * rotor.pitchScale +
      control 0 2 * m.yawScale * rotor.yawScale + control 0 3

/-- The factor that keeps the largest output in range. -/
def Multirotor.fixupScale (m : Multirotor F) : F :=
  let max := (m.rotorOutputs control).foldl (fun max x => if max < x then x else max) 0.0
  if 1.0 < max then 2.0 / max else 2.0

/-- What a multirotor mixer produces. -/
def Multirotor.outputs (m : Multirotor F) : List F :=
  (m.rotorOutputs control).map fun x =>
    let y := -1.0 + x * m.fixupScale control
    if y < m.deadband then m.deadband else y

/-- What a mixer produces. -/
def AnyMixer.outputs : AnyMixer F → List F
  | .null => [0.0]
  | .simple none => []
  | .simple (some info) =>
      [scale info.outputScaler (sumControls control info info.controlCount.toNat 0 0.0)]
  | .multirotor m => m.outputs control

/-- What the mixers produce that count what they write. -/
def AnyMixer.counted : AnyMixer F → List F
  | .multirotor _ => []
  | mixer => mixer.outputs control

theorem length_outputs (m : Multirotor F) :
    (m.outputs control).length = configRotorCount m.geometry := by
  unfold Multirotor.outputs Multirotor.rotorOutputs
  rw [List.length_map, List.length_map, length_configIndex]

/-! ### Every mixer writes its outputs -/

section

variable {control}

theorem mixPass_eq (roll pitch yaw thrust : F) (rotors : List (Rotor F)) (index : Nat) (max : F)
    (outputs : Buffer F) :
    mixPass roll pitch yaw thrust rotors index max outputs =
      let raw := rotors.map fun rotor =>
        roll * rotor.rollScale + pitch * rotor.pitchScale + yaw * rotor.yawScale + thrust
      (raw.foldl (fun max x => if max < x then x else max) max, outputs.put index raw) := by
  induction rotors generalizing index max outputs with
  | nil => rfl
  | cons rotor rotors ih =>
      unfold mixPass
      exact ih _ _ _

/-- A multirotor mixer writes its outputs and returns zero. -/
theorem multirotorMix_eq (m : Multirotor F) (index space : Nat) (outputs : Buffer F) :
    multirotorMix control m index space outputs = (0, outputs.put index (m.outputs control)) := by
  have hrescale : ∀ fixup i x xs (b : Buffer F), rescale fixup i (b.put i (x :: xs)) =
      b.put i ((-1.0 + x * fixup) :: xs) := by
    intro fixup i x xs b
    unfold rescale
    rw [Buffer.value_put_cons_self, Buffer.write_put_cons]
  have hclip : ∀ i x xs (b : Buffer F), clip m.deadband i (b.put i (x :: xs)) =
      b.put i ((if x < m.deadband then m.deadband else x) :: xs) := by
    intro i x xs b
    unfold clip
    rw [Buffer.value_put_cons_self]
    split
    · exact Buffer.write_put_cons
    · rfl
  have hcount : configRotorCount m.geometry = (m.rotorOutputs control).length := by
    unfold Multirotor.rotorOutputs
    rw [List.length_map, length_configIndex]
  have hloops : ∀ fixup, ((outputs.put index (m.rotorOutputs control)).forRange (rescale fixup)
      (configRotorCount m.geometry) index).forRange (clip m.deadband)
      (configRotorCount m.geometry) index =
        outputs.put index (((m.rotorOutputs control).map fun x => -1.0 + x * fixup).map
          fun y => if y < m.deadband then m.deadband else y) := by
    intro fixup
    rw [hcount, Buffer.forRange_put (hrescale fixup)]
    have hscaled : (m.rotorOutputs control).length =
        ((m.rotorOutputs control).map fun x => -1.0 + x * fixup).length := by
      rw [List.length_map]
    rw [hscaled, Buffer.forRange_put hclip]
  have houtputs : m.outputs control = ((m.rotorOutputs control).map fun x =>
      -1.0 + x * m.fixupScale control).map fun y => if y < m.deadband then m.deadband else y := by
    rw [List.map_map]
    rfl
  unfold multirotorMix
  simp only [mixPass_eq]
  rw [houtputs]
  exact congrArg (Prod.mk 0) (hloops (m.fixupScale control))

/-- A mixer of the other kinds writes its outputs, if there is any space, and returns how many it
has written. -/
theorem mix_eq {mixer : AnyMixer F} (h : ∀ m, mixer ≠ .multirotor m) {index space : Nat}
    (hspace : 0 < space) (outputs : Buffer F) :
    mix control mixer index space outputs =
      ((mixer.counted control).length, outputs.put index (mixer.counted control)) := by
  cases mixer with
  | null => exact if_pos hspace
  | simple info =>
      cases info with
      | none => rfl
      | some info => exact if_neg (Nat.not_lt.mpr hspace)
  | multirotor m => exact absurd rfl (h m)

theorem length_counted_le (mixer : AnyMixer F) : (mixer.counted control).length ≤ 1 := by
  cases mixer with
  | null => exact Nat.le_refl 1
  | simple info =>
      cases info with
      | none => exact Nat.zero_le 1
      | some info => exact Nat.le_refl 1
  | multirotor m => exact Nat.zero_le 1

end

/-! ### The group -/

/-- What the mixers of a list produce that count what they write. -/
def countedOutputs (mixers : List (AnyMixer F)) : List F :=
  mixers.flatMap (AnyMixer.counted control)

/-- The group writes the outputs of its mixers, in order and within the space, and returns how many
it has written. -/
def InOrder (mixers : List (AnyMixer F)) (space : Nat) (memory : Nat → F) : Prop :=
  let (count, outputs) := groupMix control mixers space (Buffer.fresh memory)
  count ≤ space ∧ (∀ i, outputs.written i = true ↔ i < count) ∧
    outputs.firsts count = (mixers.flatMap (AnyMixer.outputs control)).take space

/-- A multirotor mixer that is reached while there is space left, and the index at which it starts
to write. -/
def Reached (space : Nat) (mixers : List (AnyMixer F)) (index : Nat) (m : Multirotor F)
    (start : Nat) : Prop :=
  ∃ before after, mixers = before ++ .multirotor m :: after ∧
    start = index + (countedOutputs control before).length ∧ start < space

/-- The multirotor mixers that are reached have space for their rotors. -/
def Fits (mixers : List (AnyMixer F)) (space : Nat) : Prop :=
  ∀ m start, Reached control space mixers 0 m start →
    start + configRotorCount m.geometry ≤ space

section

variable {control} {space : Nat}

theorem mixFrom_multirotor {m : Multirotor F} {rest : List (AnyMixer F)} {index : Nat}
    {outputs : Buffer F} (hspace : index < space) :
    mixFrom control space (.multirotor m :: rest) index outputs =
      mixFrom control space rest index (outputs.put index (m.outputs control)) := by
  rw [mixFrom, if_pos hspace, mix, multirotorMix_eq]
  rfl

theorem mixFrom_counted {mixer : AnyMixer F} {rest : List (AnyMixer F)} {index : Nat}
    {outputs : Buffer F} (h : ∀ m, mixer ≠ .multirotor m) (hspace : index < space) :
    mixFrom control space (mixer :: rest) index outputs =
      mixFrom control space rest (index + (mixer.counted control).length)
        (outputs.put index (mixer.counted control)) := by
  rw [mixFrom, if_pos hspace, mix_eq h (Nat.sub_pos_of_lt hspace)]

theorem mixFrom_full {mixers : List (AnyMixer F)} {index : Nat} {outputs : Buffer F}
    (hfull : ¬ index < space) :
    mixFrom control space mixers index outputs = (index, outputs) := by
  cases mixers with
  | nil => rfl
  | cons mixer rest => exact if_neg hfull

/-- The outputs up to the index that is returned are those of the mixers that count them. -/
theorem mixFrom_firsts (mixers : List (AnyMixer F)) {index : Nat} (outputs : Buffer F)
    (hindex : index ≤ space) :
    (mixFrom control space mixers index outputs).2.firsts
        (mixFrom control space mixers index outputs).1 =
      (outputs.firsts index ++ countedOutputs control mixers).take space := by
  have hlength : (outputs.firsts index).length ≤ space := by
    rw [Buffer.length_firsts]
    exact hindex
  induction mixers generalizing index outputs with
  | nil =>
      unfold mixFrom countedOutputs
      rw [List.flatMap_nil, List.append_nil, List.take_of_length_le hlength]
  | cons mixer rest ih =>
      by_cases hspace : index < space
      · rcases mixer.multirotor_or with ⟨m, rfl⟩ | hcounted
        · rw [mixFrom_multirotor hspace, ih _ hindex, Buffer.firsts_put_of_le (Nat.le_refl _)]
          · rfl
          · rw [Buffer.length_firsts]
            exact hindex
        · have hnext : index + (mixer.counted control).length ≤ space := by
            have : (mixer.counted control).length ≤ 1 := length_counted_le mixer
            omega
          rw [mixFrom_counted hcounted hspace, ih _ hnext, Buffer.firsts_put, List.append_assoc]
          · rfl
          · rw [Buffer.length_firsts]
            exact hnext
      · rw [mixFrom_full hspace, List.take_append_of_le_length, List.take_of_length_le hlength]
        rw [Buffer.length_firsts]
        exact Nat.not_lt.mp hspace

theorem mixFrom_fst (mixers : List (AnyMixer F)) {index : Nat} (outputs : Buffer F)
    (hindex : index ≤ space) :
    (mixFrom control space mixers index outputs).1 =
      min space (index + (countedOutputs control mixers).length) := by
  have hfirsts := congrArg List.length (@mixFrom_firsts F _ control _ mixers index outputs hindex)
  rw [Buffer.length_firsts, List.length_take, List.length_append, Buffer.length_firsts] at hfirsts
  exact hfirsts

theorem reached_cons {mixer : AnyMixer F} {rest : List (AnyMixer F)} {index start : Nat}
    {m : Multirotor F} :
    Reached control space (mixer :: rest) index m start ↔
      (mixer = .multirotor m ∧ start = index ∧ index < space) ∨
        Reached control space rest (index + (mixer.counted control).length) m start := by
  constructor
  · rintro ⟨before, after, hsplit, hstart, hspace⟩
    cases before with
    | nil =>
        obtain ⟨rfl, -⟩ := List.cons.inj hsplit
        have hindex : start = index := hstart
        exact .inl ⟨rfl, hindex, hindex ▸ hspace⟩
    | cons first before =>
        obtain ⟨rfl, hrest⟩ := List.cons.inj hsplit
        refine .inr ⟨before, after, hrest, ?_, hspace⟩
        unfold countedOutputs at hstart ⊢
        rw [hstart, List.flatMap_cons, List.length_append, Nat.add_assoc]
  · rintro (⟨rfl, rfl, hspace⟩ | ⟨before, after, rfl, hstart, hspace⟩)
    · exact ⟨[], rest, rfl, rfl, hspace⟩
    · refine ⟨mixer :: before, after, rfl, ?_, hspace⟩
      unfold countedOutputs at hstart ⊢
      rw [hstart, List.flatMap_cons, List.length_append, Nat.add_assoc]

/-- What has been written: the outputs that are counted, and those of the multirotor mixers that
are reached. -/
theorem mixFrom_written (mixers : List (AnyMixer F)) {index : Nat} (outputs : Buffer F) {i : Nat}
    (hindex : index ≤ space) :
    (mixFrom control space mixers index outputs).2.written i = true ↔
      outputs.written i = true ∨
      (index ≤ i ∧ i < (mixFrom control space mixers index outputs).1) ∨
      ∃ m start, Reached control space mixers index m start ∧ start ≤ i ∧
        i < start + configRotorCount m.geometry := by
  induction mixers generalizing index outputs with
  | nil =>
      constructor
      · exact .inl
      · rintro (h | ⟨hle, hlt⟩ | ⟨m, start, ⟨before, after, hsplit, -, -⟩, -, -⟩)
        · exact h
        · exact absurd hlt (Nat.not_lt.mpr hle)
        · cases before with
          | nil => cases hsplit
          | cons first before => cases hsplit
  | cons mixer rest ih =>
      simp only [reached_cons, or_and_right, exists_or]
      by_cases hspace : index < space
      · rcases mixer.multirotor_or with ⟨m, rfl⟩ | hcounted
        · have hfirst : (∃ m' start, (AnyMixer.multirotor m = .multirotor m' ∧ start = index ∧
              index < space) ∧ start ≤ i ∧ i < start + configRotorCount m'.geometry) ↔
              index ≤ i ∧ i < index + configRotorCount m.geometry := by
            constructor
            · rintro ⟨_, _, ⟨⟨⟩, rfl, -⟩, h⟩
              exact h
            · intro h
              exact ⟨m, index, ⟨rfl, rfl, hspace⟩, h⟩
          rw [mixFrom_multirotor hspace, ih _ hindex, Buffer.written_put, length_outputs, hfirst,
            or_assoc, or_left_comm]
          exact or_congr_right or_left_comm
        · have hnext : index + (mixer.counted control).length ≤ space := by
            have : (mixer.counted control).length ≤ 1 := length_counted_le mixer
            omega
          have hfirst : ¬ ∃ m' start, (mixer = .multirotor m' ∧ start = index ∧
              index < space) ∧ start ≤ i ∧ i < start + configRotorCount m'.geometry := by
            rintro ⟨m, _, ⟨h, -⟩, -⟩
            exact hcounted m h
          have hle : (mixFrom control space rest _ _).1 = _ :=
            mixFrom_fst rest (outputs.put index (mixer.counted control)) hnext
          rw [mixFrom_counted hcounted hspace, ih _ hnext, Buffer.written_put, or_iff_right hfirst,
            or_comm (b := outputs.written i = true), or_assoc, ← or_assoc (a := index ≤ i ∧ _)]
          refine or_congr_right (or_congr_left ?_)
          omega
      · have hnone : ∀ {rest : List (AnyMixer F)} {index' start : Nat} {m : Multirotor F},
            index ≤ index' → ¬ Reached control space rest index' m start := by
          rintro rest index' start m hle ⟨before, after, -, rfl, hlt⟩
          omega
        rw [mixFrom_full hspace]
        constructor
        · exact .inl
        · rintro (h | ⟨hle, hlt⟩ | ⟨m, start, ⟨-, -, hlt⟩, -⟩ | ⟨m, start, hreached, -⟩)
          · exact h
          · exact absurd hlt (Nat.not_lt.mpr hle)
          · exact absurd hlt hspace
          · exact absurd hreached (hnone (Nat.le_add_right _ _))

/-- The mixers leave what they do not write. -/
theorem mixFrom_value (mixers : List (AnyMixer F)) {index : Nat} (outputs : Buffer F) {i : Nat}
    (h : (mixFrom control space mixers index outputs).2.written i ≠ true) :
    outputs.written i ≠ true ∧
      (mixFrom control space mixers index outputs).2.value i = outputs.value i := by
  induction mixers generalizing index outputs with
  | nil => exact ⟨h, rfl⟩
  | cons mixer rest ih =>
      by_cases hspace : index < space
      · rcases mixer.multirotor_or with ⟨m, rfl⟩ | hcounted
        · rw [mixFrom_multirotor hspace] at h ⊢
          obtain ⟨hput, hvalue⟩ := ih _ h
          obtain ⟨hwritten, hkept⟩ := Buffer.value_put_of_not_written hput
          exact ⟨hwritten, hvalue.trans hkept⟩
        · rw [mixFrom_counted hcounted hspace] at h ⊢
          obtain ⟨hput, hvalue⟩ := ih _ h
          obtain ⟨hwritten, hkept⟩ := Buffer.value_put_of_not_written hput
          exact ⟨hwritten, hvalue.trans hkept⟩
      · rw [mixFrom_full hspace] at h ⊢
        exact ⟨h, rfl⟩

theorem length_countedOutputs_le (mixers : List (AnyMixer F)) :
    (countedOutputs control mixers).length ≤
      (mixers.flatMap (AnyMixer.outputs control)).length := by
  induction mixers with
  | nil => exact Nat.le_refl 0
  | cons mixer rest ih =>
      have hmixer : (mixer.counted control).length ≤ (mixer.outputs control).length := by
        cases mixer with
        | multirotor m => exact Nat.zero_le _
        | null => exact Nat.le_refl _
        | simple info => exact Nat.le_refl _
      unfold countedOutputs at ih ⊢
      rw [List.flatMap_cons, List.flatMap_cons, List.length_append, List.length_append]
      exact Nat.add_le_add hmixer ih

theorem configRotorCount_pos (geometry : Geometry) : 0 < configRotorCount geometry := by
  cases geometry <;> decide

/-- With a multirotor mixer, less is counted than the mixers produce. -/
theorem Reached.length_lt {mixers : List (AnyMixer F)} {index start : Nat} {m : Multirotor F}
    (h : Reached control space mixers index m start) :
    (countedOutputs control mixers).length <
      (mixers.flatMap (AnyMixer.outputs control)).length := by
  obtain ⟨before, after, rfl, -, -⟩ := h
  have hbefore : (countedOutputs control before).length ≤ _ := length_countedOutputs_le before
  have hafter : (countedOutputs control after).length ≤ _ := length_countedOutputs_le after
  have hrotors : 0 < (m.outputs control).length := by
    rw [length_outputs]
    exact configRotorCount_pos m.geometry
  unfold countedOutputs at *
  rw [List.flatMap_append, List.flatMap_append, List.flatMap_cons, List.flatMap_cons]
  simp only [List.length_append]
  show _ + (0 + _) < _ + ((m.outputs control).length + _)
  omega

end

/-- **The group writes the outputs of its mixers, in order and within the space**, and returns how
many it has written, exactly when the multirotor mixers that are reached while there is space left
have space for their rotors, and the outputs would be the same without the multirotor mixers. -/
theorem inOrder_iff (mixers : List (AnyMixer F)) (space : Nat) (memory : Nat → F) :
    InOrder control mixers space memory ↔ Fits control mixers space ∧
      (countedOutputs control mixers).take space =
        (mixers.flatMap (AnyMixer.outputs control)).take space := by
  have hfirsts := @mixFrom_firsts F _ control space mixers 0 (.fresh memory) (Nat.zero_le space)
  have hcount := @mixFrom_fst F _ control space mixers 0 (.fresh memory) (Nat.zero_le space)
  have hwritten := fun i =>
    @mixFrom_written F _ control space mixers 0 (.fresh memory) i (Nat.zero_le space)
  unfold InOrder groupMix
  generalize mixFrom control space mixers 0 (Buffer.fresh memory) = result at *
  obtain ⟨count, outputs⟩ := result
  replace hcount : count = min space (countedOutputs control mixers).length := by
    rw [← Nat.zero_add (countedOutputs control mixers).length]
    exact hcount
  have hnothing : ∀ i, (Buffer.fresh memory).written i ≠ true := fun i => Bool.false_ne_true
  constructor
  · rintro ⟨hle, honly, hout⟩
    refine ⟨fun m start hreached => ?_, hfirsts.symm.trans hout⟩
    have hpos := configRotorCount_pos m.geometry
    have hlast : outputs.written (start + configRotorCount m.geometry - 1) = true :=
      (hwritten _).mpr (.inr (.inr ⟨m, start, hreached, by omega, by omega⟩))
    have := (honly _).mp hlast
    omega
  · rintro ⟨hfits, hsame⟩
    refine ⟨hcount ▸ Nat.min_le_left .., fun i => ⟨fun hi => ?_, fun hi => ?_⟩,
      hfirsts.trans hsame⟩
    · rcases (hwritten i).mp hi with h | h | ⟨m, start, hreached, hstart, hend⟩
      · exact absurd h (hnothing i)
      · exact h.2
      · have hmore := hreached.length_lt
        have hspace := hfits m start hreached
        have hlength := congrArg List.length hsame
        rw [List.length_take, List.length_take] at hlength
        have hfull : count = space := by omega
        omega
    · exact (hwritten i).mpr (.inr (.inl ⟨Nat.zero_le i, hi⟩))

end

/-! ### A group that does not -/

/-- A quadrotor. -/
def quadX : AnyMixer Rat := .multirotor (multirotorMixer .quadX 1.0 1.0 1.0 0.0)

/-- A quadrotor with space for all of its rotors writes four outputs and returns zero. -/
theorem quadX_not_inOrder : ¬ InOrder (fun _ _ => 0.0) [quadX] 4 fun _ => 0.0 := by
  rintro ⟨-, hwritten, -⟩
  exact absurd ((hwritten 0).mp (by decide +kernel)) (by decide +kernel)

end Px4Firmware.Mixer
