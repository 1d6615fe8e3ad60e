import Px4Firmware.Mixer.Parsing

/-!
# Px4Firmware.Mixer.FailedLoad

**What a failed load leaves behind** (`MixerGroup::load_from_file`). Here the file has a descriptor,
and a read can fail. The mixers of the definitions before the first one that cannot be read stay in
the group (`loadMixers_spec`), and the return in the loop comes before the file is closed. So
nothing is left behind exactly when the file cannot be opened, or all of it can be read
(`failed_load_iff`).
-/

namespace Px4Firmware.Mixer

section

variable {F : Type} [Arithmetic F] (heap : Nat → SimpleInfo F)

/-! ### Loading, with a descriptor -/

/-- A file that has been opened: its descriptor, and what is read from it until a read ends, which
can be the end of the file or an error. -/
structure OpenFile where
  fd : Nat
  bytes : List UInt8
  failing : Bool

/-- What `load_from_file` returns, the group, and the descriptors that are open. -/
structure LoadOutcome (F : Type) where
  result : Int
  group : List (AnyMixer F)
  descriptors : List Nat

/-- The loop of `MixerGroup::load_from_file`, for a file that may be failing. -/
def loadMixers (failing : Bool) :
    Nat → List UInt8 → Nat → List (AnyMixer F) → Option (Int × List (AnyMixer F))
  | 0, _, _, _ => none
  | fuel + 1, input, allocated, group =>
      match mixerLoad heap input allocated with
      | .error => some (-1, group)
      | .endOfFile => some (if failing then -1 else 0, group)
      | .mixer mixer input allocated => loadMixers failing fuel input allocated (group ++ [mixer])

/-- `MixerGroup::load_from_file`, where `open` gives the file or fails. -/
def loadFromOpen (file : Option OpenFile) (group : List (AnyMixer F)) (descriptors : List Nat) :
    Option (LoadOutcome F) :=
  match group, file with
  | [], some file => do
      let opened := file.fd :: descriptors
      let (result, group) ← loadMixers heap file.failing (file.bytes.length + 1) file.bytes 0 []
      if result < 0 then
        -- the return in the loop
        return ⟨-1, group, opened⟩
      else
        return ⟨0, group, opened.erase file.fd⟩
  | group, _ => some ⟨-1, group, descriptors⟩

/-- All of the file can be read. -/
def OpenFile.Readable (F : Type) [Arithmetic F] (file : OpenFile) : Prop :=
  file.failing = false ∧ ∃ lines, ∃ entries : List (Entry F), Yields file.bytes lines ∧
    Lists lines entries

/-- The lines start with an entry. -/
def StartsWell (F : Type) [Arithmetic F] (lines : List (List UInt8)) : Prop :=
  ∃ used more, ∃ entry : Entry F, lines = used ++ more ∧ entry.Reads used

/-! ### What is in the group -/

/-- A file that is not failing is loaded as before. -/
theorem loadMixers_false (fuel : Nat) (input : List UInt8) (allocated : Nat)
    (group : List (AnyMixer F)) :
    loadMixers heap false fuel input allocated group =
      loadLoop heap fuel input allocated group := by
  induction fuel generalizing input allocated group with
  | zero => rfl
  | succ fuel ih =>
      rw [loadMixers, loadLoop]
      cases mixerLoad heap input allocated with
      | error => rfl
      | endOfFile => rfl
      | mixer mixer input allocated => exact ih input allocated (group ++ [mixer])

theorem loadLoop_result {fuel allocated : Nat} {input : List UInt8}
    {group group' : List (AnyMixer F)} {result : Int}
    (h : loadLoop heap fuel input allocated group = some (result, group')) :
    result = 0 ∨ result = -1 := by
  induction fuel generalizing input allocated group with
  | zero => cases h
  | succ fuel ih =>
      rw [loadLoop] at h
      split at h
      next =>
        cases h
        exact .inr rfl
      next =>
        cases h
        exact .inl rfl
      next => exact ih h

/-- So `loadFromFile` is what this gives, apart from the descriptors, for such files and an empty
group. -/
theorem loadFromOpen_not_failing {file : OpenFile} (h : file.failing = false)
    (descriptors : List Nat) :
    (loadFromOpen heap (some file) [] descriptors).map (fun outcome =>
        (outcome.result, outcome.group)) = loadFromFile heap (some file.bytes) [] := by
  show ((loadMixers heap file.failing (file.bytes.length + 1) file.bytes 0 []).bind _).map _ =
    loadLoop heap (file.bytes.length + 1) file.bytes 0 []
  rw [h, loadMixers_false]
  cases hload : loadLoop heap (file.bytes.length + 1) file.bytes 0 [] with
  | none => rfl
  | some loaded =>
      obtain ⟨result, group⟩ := loaded
      rcases loadLoop_result heap hload with rfl | rfl
      · rfl
      · rfl

/-- **The loop** loads the entries that the file starts with, and returns zero when these are all
and the file is not failing. -/
theorem loadMixers_spec (failing : Bool) {fuel allocated : Nat} {input : List UInt8}
    {lines : List (List UInt8)} (group : List (AnyMixer F)) (hlines : Yields input lines)
    (hfuel : input.length < fuel) :
    ∃ good bad, ∃ entries : List (Entry F), lines = good ++ bad ∧ Lists good entries ∧
      ¬ StartsWell F bad ∧ loadMixers heap failing fuel input allocated group =
        some (if failing = false ∧ bad = [] then 0 else -1,
          group ++ entryMixers heap allocated entries) := by
  induction fuel generalizing input allocated lines group with
  | zero => exact absurd hfuel (Nat.not_lt_zero _)
  | succ fuel ih =>
      have hstart : StartsWell F lines → ∃ mixer rest allocated',
          mixerLoad heap input allocated = .mixer mixer rest allocated' := by
        rintro ⟨used, more, entry, rfl, hread⟩
        obtain ⟨rest, hload, -⟩ := mixerLoad_complete heap allocated hread hlines
        exact ⟨_, rest, _, hload⟩
      rw [loadMixers]
      cases hload : mixerLoad heap input allocated with
      | error =>
          refine ⟨[], lines, [], rfl, .nil, ?_, ?_⟩
          · intro hwell
            obtain ⟨mixer, rest, allocated', hmixer⟩ := hstart hwell
            rw [hload] at hmixer
            cases hmixer
          · have hne : lines ≠ [] := by
              rintro rfl
              have hend : mixerGetline input [] = none := hlines
              rw [mixerLoad, hend] at hload
              cases hload
            dsimp only
            rw [if_neg fun h => hne h.2]
            exact congrArg (fun g => some (-1, g)) (List.append_nil group).symm
      | endOfFile =>
          obtain rfl : lines = [] := hlines.eq_nil (mixerGetline_of_endOfFile heap hload)
          refine ⟨[], [], [], rfl, .nil, ?_, ?_⟩
          · intro hwell
            obtain ⟨mixer, rest, allocated', hmixer⟩ := hstart hwell
            rw [hload] at hmixer
            cases hmixer
          · dsimp only
            rw [show entryMixers heap allocated ([] : List (Entry F)) = [] from rfl,
              List.append_nil]
            cases failing <;> rfl
      | mixer mixer rest allocated' =>
          obtain ⟨used, more, entry, rfl, hread, rfl, rfl, hmore, hless⟩ :=
            mixerLoad_sound hlines hload
          obtain ⟨good, bad, entries, rfl, hlists, hbad, hrest⟩ :=
            ih (group ++ [entry.mixer (heap allocated)]) hmore (by omega)
          refine ⟨used ++ good, bad, entry :: entries, by rw [List.append_assoc],
            .cons hread hlists, hbad, ?_⟩
          dsimp only
          rw [hrest, List.append_assoc]
          rfl

/-- Lines that list entries list no fewer when they are read from the start. -/
theorem nil_of_lists (heap : Nat → SimpleInfo F) {input : List UInt8}
    {good bad : List (List UInt8)} {entries all : List (Entry F)}
    (hlines : Yields input (good ++ bad)) (hlists : Lists good entries)
    (hbad : ¬ StartsWell F bad) (hall : Lists (good ++ bad) all) : bad = [] := by
  induction hlists generalizing input all with
  | nil =>
      rw [List.nil_append] at hall
      cases hall with
      | nil => rfl
      | @cons used more entry _ hread _ => exact absurd ⟨used, more, entry, rfl, hread⟩ hbad
  | @cons used more entry entries hread _ ih =>
      rw [List.append_assoc] at hlines hall
      obtain ⟨rest, hload, hmore⟩ := mixerLoad_complete heap 0 hread hlines
      generalize hfile : used ++ (more ++ bad) = file at hlines hall
      cases hall with
      | nil =>
          rw [(List.append_eq_nil_iff.1 hfile).1] at hread
          cases hread
      | @cons used' more' entry' _ hread' hall' =>
          -- both are what the loader reads first
          obtain ⟨rest', hload', hmore'⟩ := mixerLoad_complete heap 0 hread' hlines
          obtain ⟨-, rfl, -⟩ := Loaded.mixer.inj (hload.symm.trans hload')
          obtain rfl := hmore.unique hmore'
          exact ih hmore hall'

/-- The lines do not start with an entry exactly when no entry is loaded from them. -/
theorem not_startsWell_iff {good bad : List (List UInt8)} {entries : List (Entry F)}
    (hlists : Lists good entries) (hbad : ¬ StartsWell F bad) :
    ¬ StartsWell F (good ++ bad) ↔ entryMixers heap 0 entries = [] := by
  cases hlists with
  | nil => exact ⟨fun _ => rfl, fun _ => hbad⟩
  | @cons used more entry entries hread hmore =>
      constructor
      · intro h
        exact absurd ⟨used, more ++ bad, entry, List.append_assoc _ _ _, hread⟩ h
      · intro h
        cases h

/-- All of the file can be read exactly when it is not failing and nothing is left. -/
theorem readable_iff_nil (heap : Nat → SimpleInfo F) {file : OpenFile}
    {good bad : List (List UInt8)} {entries : List (Entry F)}
    (hlines : Yields file.bytes (good ++ bad)) (hlists : Lists good entries)
    (hbad : ¬ StartsWell F bad) : file.Readable F ↔ file.failing = false ∧ bad = [] := by
  constructor
  · rintro ⟨hfailing, lines, all, hyields, hall⟩
    obtain rfl := hlines.unique hyields
    exact ⟨hfailing, nil_of_lists heap hlines hlists hbad hall⟩
  · rintro ⟨hfailing, rfl⟩
    rw [List.append_nil] at hlines
    exact ⟨hfailing, good, entries, hlines, hlists⟩

/-! ### What is left behind -/

/-- Nothing is in the group when the load has failed, and no descriptor is left open. -/
def LeavesNothing (descriptors : List Nat) (outcome : LoadOutcome F) : Prop :=
  (outcome.result ≠ 0 → outcome.group = []) ∧ outcome.descriptors = descriptors

/-- **A load leaves nothing behind**, in an empty group, exactly when the file cannot be opened or
all of it can be read. The group alone is empty after a failure exactly when, otherwise, the file
does not even start with a definition. -/
theorem failed_load_iff (file : Option OpenFile) (descriptors : List Nat) :
    ∃ outcome, loadFromOpen heap file [] descriptors = some outcome ∧
      (LeavesNothing descriptors outcome ↔ ∀ f ∈ file, f.Readable F) ∧
      ((outcome.result ≠ 0 → outcome.group = []) ↔ ∀ f ∈ file, f.Readable F ∨
        ∀ lines, Yields f.bytes lines → ¬ StartsWell F lines) := by
  cases file with
  | none =>
      refine ⟨_, rfl, ?_, ?_⟩
      · exact ⟨fun _ f hf => (by cases hf), fun _ => ⟨fun _ => rfl, rfl⟩⟩
      · exact ⟨fun _ f hf => (by cases hf), fun _ _ => rfl⟩
  | some file =>
      obtain ⟨lines, hlines⟩ := exists_yields file.bytes
      obtain ⟨good, bad, entries, rfl, hlists, hbad, hload⟩ :=
        @loadMixers_spec F _ heap file.failing _ 0 _ _ [] hlines (Nat.lt_succ_self _)
      have hreadable := readable_iff_nil heap hlines hlists hbad
      have hgroup := not_startsWell_iff heap hlists hbad
      have honly : (∀ lines, Yields file.bytes lines → ¬ StartsWell F lines) ↔
          ¬ StartsWell F (good ++ bad) :=
        ⟨fun h => h _ hlines, fun h lines hlines' => hlines.unique hlines' ▸ h⟩
      simp only [Option.mem_some_iff, forall_eq']
      rw [hreadable, honly, hgroup]
      have hopen : loadFromOpen heap (some file) [] descriptors =
          some (if file.failing = false ∧ bad = [] then ⟨0, entryMixers heap 0 entries, descriptors⟩
            else ⟨-1, entryMixers heap 0 entries, file.fd :: descriptors⟩) := by
        show (loadMixers heap file.failing (file.bytes.length + 1) file.bytes 0 []).bind _ = _
        rw [hload]
        split
        · simp
        · simp
      refine ⟨_, hopen, ?_⟩
      split
      next hall =>
        refine ⟨⟨fun _ => hall, fun _ => ⟨fun h => absurd rfl h, rfl⟩⟩, ?_⟩
        exact ⟨fun _ => .inl hall, fun _ h => absurd rfl h⟩
      next hall =>
        refine ⟨⟨fun h => absurd h.2 (List.cons_ne_self _ _), fun h => absurd h hall⟩, ?_⟩
        have hfailed : (-1 : Int) ≠ 0 := by decide
        exact ⟨fun h => .inr (h hfailed), fun h _ => h.resolve_left hall⟩

end

/-! ### A file that is read in part -/

/-- A null mixer, and a line that is no definition: `Z:  ` and `Q: 1`. -/
def partFile : List UInt8 := "Z:  \nQ: 1\n".toList.map fun c => UInt8.ofNat c.toNat

/-- The load fails, and leaves the null mixer and the descriptor. -/
theorem not_leavesNothing_partFile : ¬ ∀ (file : Option OpenFile) (descriptors : List Nat)
    (outcome : LoadOutcome Rat),
    loadFromOpen (fun _ => zeroInfo) file [] descriptors = some outcome →
      LeavesNothing descriptors outcome := by
  intro h
  have hload : (loadFromOpen (fun _ => zeroInfo) (some ⟨3, partFile, false⟩) [] []).any
      (fun outcome => outcome.result == -1 && outcome.group.length == 1 &&
        outcome.descriptors == [3]) = true := by decide +kernel
  obtain ⟨outcome, hload, hend⟩ := (Option.any_eq_true _ _).1 hload
  simp only [Bool.and_eq_true, beq_iff_eq] at hend
  have hnothing := h _ _ outcome hload
  rw [hnothing.2] at hend
  exact absurd hend.2 (by decide)

end Px4Firmware.Mixer
