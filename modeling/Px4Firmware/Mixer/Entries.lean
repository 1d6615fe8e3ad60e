import Px4Firmware.Mixer.Load

/-!
# Px4Firmware.Mixer.Entries

**What the lines of any file say.** The format of `Mixer.Format` is what a file should look like; a
file that comes from somewhere else can have any lines (`Yields`). An `Entry` is what a definition
says, and `Entry.Reads` relates it to its lines, by the parsers of single lines and nothing else.

`loadFromFile_iff` says that the loader returns zero exactly when the lines of the file are those of
a list of entries (`Lists`), and what is in the group then.
-/

namespace Px4Firmware.Mixer

/-! ### The lines of a file -/

/-- The lines that `mixer_getline` gives from here to the end of the file. -/
def Yields : List UInt8 → List (List UInt8) → Prop
  | input, [] => mixerGetline input [] = none
  | input, line :: lines => ∃ rest, mixerGetline input [] = some (line, rest) ∧ Yields rest lines

theorem accepted_of_mixerGetline {input acc line rest : List UInt8}
    (h : mixerGetline input acc = some (line, rest)) :
    Accepted line ∧ rest.length < input.length := by
  induction input generalizing acc with
  | nil => cases h
  | cons c input ih =>
      rw [mixerGetline] at h
      have hlonger : ∀ {acc}, mixerGetline input acc = some (line, rest) →
          Accepted line ∧ rest.length < (c :: input).length := fun h =>
        ⟨(ih h).1, Nat.lt_succ_of_lt (ih h).2⟩
      split at h
      · exact hlonger h
      split at h
      · split at h
        · exact hlonger h
        split at h
        · exact hlonger h
        · next hshort hcolon =>
            cases h
            exact ⟨⟨Nat.not_lt.mp hshort, Decidable.not_not.mp hcolon⟩, Nat.lt_succ_self _⟩
      split at h
      · exact hlonger h
      · exact hlonger h

/-- Every file has lines. -/
theorem exists_yields (input : List UInt8) : ∃ lines, Yields input lines := by
  induction hlength : input.length using Nat.strongRecOn generalizing input with
  | _ n ih =>
      cases hget : mixerGetline input [] with
      | none => exact ⟨[], hget⟩
      | some got =>
          obtain ⟨line, rest⟩ := got
          have hless := (accepted_of_mixerGetline hget).2
          obtain ⟨lines, hlines⟩ := ih rest.length (by omega) rest rfl
          exact ⟨line :: lines, rest, hget, hlines⟩

/-- A line that is read is the first one. -/
theorem Yields.of_getline {input line rest : List UInt8} {lines : List (List UInt8)}
    (h : Yields input lines) (hget : mixerGetline input [] = some (line, rest)) :
    ∃ more, lines = line :: more ∧ Yields rest more := by
  cases lines with
  | nil =>
      have hend : mixerGetline input [] = none := h
      rw [hend] at hget
      cases hget
  | cons first more =>
      obtain ⟨rest', hfirst, hmore⟩ := h
      rw [hfirst] at hget
      cases hget
      exact ⟨more, rfl, hmore⟩

/-- A file from which no line can be read has none. -/
theorem Yields.eq_nil {input : List UInt8} {lines : List (List UInt8)} (h : Yields input lines)
    (hend : mixerGetline input [] = none) : lines = [] := by
  cases lines with
  | nil => rfl
  | cons line more =>
      obtain ⟨rest, hget, -⟩ := h
      rw [hend] at hget
      cases hget

/-- The lines of a file are determined. -/
theorem Yields.unique {input : List UInt8} {lines lines' : List (List UInt8)}
    (h : Yields input lines) (h' : Yields input lines') : lines = lines' := by
  induction lines generalizing input lines' with
  | nil => exact (h'.eq_nil h).symm
  | cons line lines ih =>
      obtain ⟨rest, hget, hmore⟩ := h
      obtain ⟨more, rfl, hmore'⟩ := h'.of_getline hget
      rw [ih hmore hmore']

/-- The lines are accepted. -/
theorem Yields.accepted {input : List UInt8} {lines : List (List UInt8)} (h : Yields input lines) :
    ∀ line ∈ lines, Accepted line := by
  induction lines generalizing input with
  | nil => simp
  | cons line lines ih =>
      obtain ⟨rest, hget, hmore⟩ := h
      rw [List.forall_mem_cons]
      exact ⟨(accepted_of_mixerGetline hget).1, ih hmore⟩

variable {F : Type}

/-! ### Memory that is filled -/

/-- The controls from the input `i` on, when these are the next. -/
def withInputs (i : Nat) (inputs : List (Control F)) (mixinfo : SimpleInfo F) : SimpleInfo F :=
  { mixinfo with
    controls := fun j =>
      if j < i then mixinfo.controls j else (inputs[j - i]?).getD (mixinfo.controls j) }

theorem withInputs_nil (i : Nat) (mixinfo : SimpleInfo F) : withInputs i [] mixinfo = mixinfo := by
  have hsame : (fun j => if j < i then mixinfo.controls j else
      (([] : List (Control F))[j - i]?).getD (mixinfo.controls j)) = mixinfo.controls := by
    funext j
    split <;> rfl
  unfold withInputs
  rw [hsame]

theorem withInputs_cons (i : Nat) (control : Control F) (inputs : List (Control F))
    (mixinfo : SimpleInfo F) :
    withInputs (i + 1) inputs { mixinfo with
      controls := fun j => if j = i then control else mixinfo.controls j } =
        withInputs i (control :: inputs) mixinfo := by
  unfold withInputs
  congr 1
  funext j
  dsimp only
  rcases Nat.lt_trichotomy j i with hlt | rfl | hgt
  · rw [if_pos (by omega), if_pos hlt, if_neg (by omega)]
  · simp
  · obtain ⟨k, rfl⟩ := Nat.exists_eq_add_of_lt hgt
    have hindex : i + k + 1 - i = k + 1 := by omega
    have hindex' : i + k + 1 - (i + 1) = k := by omega
    rw [if_neg (by omega), if_neg (by omega), if_neg (by omega), hindex, hindex',
      List.getElem?_cons_succ]

variable [Arithmetic F]

/-! ### Entries -/

/-- What a definition says. -/
inductive Entry (F : Type)
  | null
  | simple (outputScaler : Scaler F) (inputs : List (Control F))
  | multirotor (mixer : AnyMixer F)

/-- The lines of control inputs. -/
inductive ReadsInputs : List (List UInt8) → List (Control F) → Prop
  | nil : ReadsInputs [] []
  | cons {line : List UInt8} {control : Control F} {lines : List (List UInt8)}
      {inputs : List (Control F)} :
      mixerParseControlScaler line = some control → ReadsInputs lines inputs →
        ReadsInputs (line :: lines) (control :: inputs)

/-- The lines say this. -/
inductive Entry.Reads : List (List UInt8) → Entry F → Prop
  | null {line : List UInt8} : line.head? = some 0x5a → Reads [line] .null
  | simple {header output : List UInt8} {lines : List (List UInt8)} {count : UInt32}
      {outputScaler : Scaler F} {inputs : List (Control F)} :
      sscanf simpleFormat header = [.integer count] →
        mixerParseOutputScaler output = some outputScaler → lines.length = count.toNat →
          ReadsInputs lines inputs →
            Reads (header :: output :: lines) (.simple outputScaler inputs)
  | multirotor {line : List UInt8} {mixer : AnyMixer F} :
      line.head? = some 0x52 → mixerLoadMultirotor line = some mixer →
        Reads [line] (.multirotor mixer)

/-- The lines are those of these entries, one after the other. -/
inductive Lists : List (List UInt8) → List (Entry F) → Prop
  | nil : Lists [] []
  | cons {lines more : List (List UInt8)} {entry : Entry F} {entries : List (Entry F)} :
      entry.Reads lines → Lists more entries → Lists (lines ++ more) (entry :: entries)

/-- The information of a simple mixer, in a block of memory. -/
def entryInfo (outputScaler : Scaler F) (inputs : List (Control F)) (block : SimpleInfo F) :
    SimpleInfo F :=
  { block with
    outputScaler := outputScaler
    controls := fun j => (inputs[j]?).getD (block.controls j) }

/-- The mixer that an entry stands for, if this is the next block of memory. -/
def Entry.mixer (block : SimpleInfo F) : Entry F → AnyMixer F
  | .null => .null
  | .simple outputScaler inputs => .simple (some (entryInfo outputScaler inputs block))
  | .multirotor mixer => mixer

/-- The blocks of memory that are allocated for an entry. -/
def Entry.blocks : Entry F → Nat
  | .simple _ _ => 1
  | _ => 0

/-- The mixers that entries stand for. -/
def entryMixers (heap : Nat → SimpleInfo F) : Nat → List (Entry F) → List (AnyMixer F)
  | _, [] => []
  | allocated, entry :: entries =>
      entry.mixer (heap allocated) :: entryMixers heap (allocated + entry.blocks) entries

theorem ReadsInputs.length_eq {lines : List (List UInt8)} {inputs : List (Control F)}
    (h : ReadsInputs lines inputs) : inputs.length = lines.length := by
  induction h with
  | nil => rfl
  | cons _ _ ih => rw [List.length_cons, List.length_cons, ih]

/-! ### One entry -/

/-- What a line starts with that is scanned with a letter. -/
theorem head_of_sscanf {c : UInt8} {fmt : List Directive} {line : List UInt8}
    (hcolon : (line)[1]? = some colon) (hc : c ≠ colon)
    (hscan : sscanf (.literal c :: fmt) line ≠ []) : line.head? = some c := by
  obtain ⟨b, rest, rfl⟩ : ∃ b rest, line = b :: colon :: rest := by
    rcases line with _ | ⟨b, _ | ⟨_, rest⟩⟩
    · cases hcolon
    · cases hcolon
    · cases hcolon
      exact ⟨b, rest, rfl⟩
  by_cases hnul : b = 0
  · subst hnul
    exact absurd rfl hscan
  · have hstring : (b :: colon :: rest).takeWhile (· ≠ 0) =
        b :: colon :: rest.takeWhile (· ≠ 0) := by
      rw [List.takeWhile_cons_of_pos (by simpa using hnul),
        List.takeWhile_cons_of_pos (by decide)]
    rw [sscanf, hstring] at hscan
    by_cases hspace : isspace b = true
    · have hskip : skipSpace (b :: colon :: rest.takeWhile (· ≠ 0)) =
          colon :: rest.takeWhile (· ≠ 0) := by
        rw [skipSpace, List.dropWhile_cons_of_pos hspace,
          List.dropWhile_cons_of_neg (by decide)]
      rw [vsscanf, hskip] at hscan
      · exact absurd (if_neg hc) hscan
      · intros
        contradiction
    · by_cases hsame : c = b
      · rw [hsame]
        rfl
      · exact absurd (vsscanf_literal_of_ne (Bool.not_eq_true _ ▸ hspace) hsame) hscan

/-- The inputs of a simple mixer that have been loaded are what the lines say. -/
theorem loadControls_sound {count i : Nat} {mixinfo mixinfo' : SimpleInfo F}
    {input rest : List UInt8} {lines : List (List UInt8)} (hlines : Yields input lines)
    (h : loadControls count i mixinfo input = some (mixinfo', rest)) :
    ∃ used more inputs, lines = used ++ more ∧ used.length = count ∧ ReadsInputs used inputs ∧
      mixinfo' = withInputs i inputs mixinfo ∧ Yields rest more ∧
      rest.length ≤ input.length := by
  induction count generalizing i mixinfo input lines with
  | zero =>
      cases h
      exact ⟨[], lines, [], rfl, rfl, .nil, (withInputs_nil i _).symm, hlines,
        Nat.le_refl _⟩
  | succ count ih =>
      obtain ⟨⟨buf, next⟩, hget, h⟩ := Option.bind_eq_some_iff.mp h
      obtain ⟨control, hparse, h⟩ := Option.bind_eq_some_iff.mp h
      obtain ⟨lines', rfl, hnext⟩ := hlines.of_getline hget
      obtain ⟨used, more, inputs, rfl, hlength, hread, hinfo, hmore, hle⟩ :=
        ih hnext h
      have hless := (accepted_of_mixerGetline hget).2
      refine ⟨buf :: used, more, control :: inputs, rfl, congrArg (· + 1) hlength,
        .cons hparse hread, ?_, hmore, by omega⟩
      rw [hinfo, withInputs_cons]

/-- The inputs of a simple mixer are loaded from lines that say something. -/
theorem loadControls_complete (i : Nat) (mixinfo : SimpleInfo F) {input : List UInt8}
    {used more : List (List UInt8)} {inputs : List (Control F)} (hread : ReadsInputs used inputs)
    (hlines : Yields input (used ++ more)) :
    ∃ rest, loadControls used.length i mixinfo input = some (withInputs i inputs mixinfo, rest) ∧
      Yields rest more := by
  induction hread generalizing i mixinfo input with
  | nil => exact ⟨input, by rw [withInputs_nil]; rfl, hlines⟩
  | @cons line control _ _ hparse _ ih =>
      obtain ⟨next, hget, hnext⟩ := hlines
      obtain ⟨rest, hload, hmore⟩ := ih (i + 1) { mixinfo with
        controls := fun j => if j = i then control else mixinfo.controls j } hnext
      refine ⟨rest, ?_, hmore⟩
      rw [List.length_cons, loadControls, hget]
      show (mixerParseControlScaler line).bind _ = _
      rw [hparse, ← withInputs_cons]
      exact hload

/-- A mixer that has been loaded is what the lines say. -/
theorem mixerLoad_sound {heap : Nat → SimpleInfo F} {mixer : AnyMixer F} {input rest : List UInt8}
    {allocated allocated' : Nat} {lines : List (List UInt8)} (hlines : Yields input lines)
    (h : mixerLoad heap input allocated = .mixer mixer rest allocated') :
    ∃ used more, ∃ entry : Entry F, lines = used ++ more ∧ entry.Reads used ∧
      mixer = entry.mixer (heap allocated) ∧ allocated' = allocated + entry.blocks ∧
      Yields rest more ∧ rest.length < input.length := by
  rw [mixerLoad] at h
  cases hget : mixerGetline input [] with
  | none =>
      rw [hget] at h
      cases h
  | some got =>
      obtain ⟨buf, next⟩ := got
      obtain ⟨more, rfl, hmore⟩ := hlines.of_getline hget
      have hless := (accepted_of_mixerGetline hget).2
      rw [hget] at h
      dsimp only at h
      split at h
      next hnull =>
        cases h
        exact ⟨[buf], more, .null, rfl, .null hnull, rfl, rfl, hmore, hless⟩
      split at h
      next count hscan =>
        split at h
        next => cases h
        next hsimple =>
          cases h
          obtain ⟨⟨line, after⟩, hline, hsimple⟩ := Option.bind_eq_some_iff.mp hsimple
          obtain ⟨scaler, hparse, hsimple⟩ := Option.bind_eq_some_iff.mp hsimple
          obtain ⟨⟨mixinfo, rest'⟩, hload, hsimple⟩ := Option.bind_eq_some_iff.mp hsimple
          cases hsimple
          obtain ⟨lines', rfl, hafter⟩ := hmore.of_getline hline
          obtain ⟨used, more, inputs, rfl, hlength, hread, rfl, hmore, hle⟩ :=
            loadControls_sound hafter hload
          have hless' := (accepted_of_mixerGetline hline).2
          exact ⟨buf :: line :: used, more, .simple scaler inputs, rfl,
            .simple hscan hparse hlength hread, rfl, rfl, hmore, by omega⟩
      next =>
        split at h
        next hmultirotor =>
          split at h
          next => cases h
          next hload =>
            cases h
            exact ⟨[buf], more, .multirotor _, rfl, .multirotor hmultirotor hload, rfl, rfl, hmore,
              hless⟩
        next => cases h

/-- A simple mixer is loaded from lines that say something. -/
theorem mixerLoadSimple_complete (block : SimpleInfo F) {output : List UInt8} {count : UInt32}
    {scaler : Scaler F} {lines more : List (List UInt8)} {inputs : List (Control F)}
    {input : List UInt8} (hparse : mixerParseOutputScaler output = some scaler)
    (hlength : lines.length = count.toNat) (hinputs : ReadsInputs lines inputs)
    (hlines : Yields input (output :: (lines ++ more))) :
    ∃ rest, mixerLoadSimple block input count =
      some (.simple (some (entryInfo scaler inputs block)), rest) ∧ Yields rest more := by
  obtain ⟨after, hline, hafter⟩ := hlines
  obtain ⟨rest, hload, hmore⟩ :=
    loadControls_complete 0 { block with outputScaler := scaler } hinputs hafter
  refine ⟨rest, ?_, hmore⟩
  rw [mixerLoadSimple, hline, ← hlength]
  show (mixerParseOutputScaler output).bind _ = _
  rw [hparse]
  show (loadControls lines.length 0 _ after).bind _ = _
  rw [hload]
  rfl

/-- A mixer is loaded from lines that say something. -/
theorem mixerLoad_complete (heap : Nat → SimpleInfo F) (allocated : Nat) {input : List UInt8}
    {used more : List (List UInt8)} {entry : Entry F} (hread : entry.Reads used)
    (hlines : Yields input (used ++ more)) :
    ∃ rest, mixerLoad heap input allocated =
      .mixer (entry.mixer (heap allocated)) rest (allocated + entry.blocks) ∧ Yields rest more := by
  cases hread with
  | null hnull =>
      obtain ⟨rest, hget, hmore⟩ := hlines
      refine ⟨rest, ?_, hmore⟩
      rw [mixerLoad, hget]
      exact if_pos hnull
  | @simple header output lines count scaler inputs hscan hparse hlength hinputs =>
      obtain ⟨next, hget, after, hline, hafter⟩ := hlines
      obtain ⟨rest, hload, hmore⟩ :=
        mixerLoadSimple_complete (heap allocated) hparse hlength hinputs ⟨after, hline, hafter⟩
      have hsome : sscanf simpleFormat header ≠ [] := by
        rw [hscan]
        exact List.cons_ne_nil _ _
      have hhead : header.head? = some 0x4d :=
        head_of_sscanf (accepted_of_mixerGetline hget).1.2 (by decide) hsome
      refine ⟨rest, ?_, hmore⟩
      rw [mixerLoad, hget]
      dsimp only
      rw [hhead, if_neg (by decide), hscan]
      dsimp only
      rw [hload]
      rfl
  | @multirotor line mixer hhead hload =>
      obtain ⟨rest, hget, hmore⟩ := hlines
      have hother : sscanf simpleFormat line = [] := by
        refine Classical.byContradiction fun hscan => ?_
        have hsimple := head_of_sscanf (accepted_of_mixerGetline hget).1.2 (by decide) hscan
        rw [hhead] at hsimple
        cases hsimple
      refine ⟨rest, ?_, hmore⟩
      rw [mixerLoad, hget]
      dsimp only
      rw [hhead, if_neg (by decide), hother]
      dsimp only
      rw [if_pos rfl, hload]
      rfl

theorem mixerLoad_shorter (heap : Nat → SimpleInfo F) {mixer : AnyMixer F} {input rest : List UInt8}
    {allocated allocated' : Nat}
    (h : mixerLoad heap input allocated = .mixer mixer rest allocated') :
    rest.length < input.length := by
  obtain ⟨lines, hlines⟩ := exists_yields input
  obtain ⟨_, _, _, _, _, _, _, _, hless⟩ := mixerLoad_sound hlines h
  exact hless

theorem mixerGetline_of_endOfFile (heap : Nat → SimpleInfo F) {input : List UInt8} {allocated : Nat}
    (h : mixerLoad heap input allocated = .endOfFile) : mixerGetline input [] = none := by
  rw [mixerLoad] at h
  cases hget : mixerGetline input [] with
  | none => rfl
  | some got =>
      rw [hget] at h
      dsimp only at h
      split at h
      · cases h
      split at h
      · split at h <;> cases h
      · split at h
        · split at h <;> cases h
        · cases h

/-! ### A whole file -/

/-- The loader returns zero on a file that lists entries. -/
theorem loadLoop_complete (heap : Nat → SimpleInfo F) {lines : List (List UInt8)}
    {entries : List (Entry F)} (hlists : Lists lines entries) {fuel allocated : Nat}
    {input : List UInt8} {group : List (AnyMixer F)} (hlines : Yields input lines)
    (hfuel : input.length < fuel) :
    loadLoop heap fuel input allocated group =
      some (0, group ++ entryMixers heap allocated entries) := by
  induction hlists generalizing fuel allocated input group with
  | nil =>
      obtain ⟨fuel, rfl⟩ := Nat.exists_eq_succ_of_ne_zero (Nat.ne_of_gt (Nat.zero_lt_of_lt hfuel))
      have hend : mixerGetline input [] = none := hlines
      rw [loadLoop, mixerLoad, hend]
      show some (0, group) = some (0, group ++ [])
      rw [List.append_nil]
  | @cons used more entry entries hread _ ih =>
      obtain ⟨fuel, rfl⟩ := Nat.exists_eq_succ_of_ne_zero (Nat.ne_of_gt (Nat.zero_lt_of_lt hfuel))
      obtain ⟨rest, hload, hmore⟩ := mixerLoad_complete heap allocated hread hlines
      have hless := mixerLoad_shorter heap hload
      rw [loadLoop, hload]
      dsimp only
      rw [ih hmore (by omega), List.append_assoc]
      rfl

/-- When it returns zero, the file lists entries. -/
theorem loadLoop_sound (heap : Nat → SimpleInfo F) {fuel allocated : Nat} {input : List UInt8}
    {lines : List (List UInt8)} {group group' : List (AnyMixer F)} (hlines : Yields input lines)
    (h : loadLoop heap fuel input allocated group = some (0, group')) :
    ∃ entries, Lists lines entries ∧ group' = group ++ entryMixers heap allocated entries := by
  induction fuel generalizing allocated input lines group with
  | zero => cases h
  | succ fuel ih =>
      rw [loadLoop] at h
      split at h
      next => cases h
      next hload =>
        cases h
        obtain rfl : lines = [] := hlines.eq_nil (mixerGetline_of_endOfFile heap hload)
        exact ⟨[], .nil, (List.append_nil _).symm⟩
      next mixer rest allocated' hload =>
        obtain ⟨used, more, entry, rfl, hread, rfl, rfl, hmore, -⟩ :=
          mixerLoad_sound hlines hload
        obtain ⟨entries, hlists, rfl⟩ := ih hmore h
        exact ⟨entry :: entries, .cons hread hlists, by rw [List.append_assoc]; rfl⟩

/-- The loop ends before the fuel does. -/
theorem loadLoop_isSome (heap : Nat → SimpleInfo F) {fuel allocated : Nat} {input : List UInt8}
    {group : List (AnyMixer F)} (hfuel : input.length < fuel) :
    (loadLoop heap fuel input allocated group).isSome := by
  induction fuel generalizing input allocated group with
  | zero => exact absurd hfuel (Nat.not_lt_zero _)
  | succ fuel ih =>
      rw [loadLoop]
      split
      · rfl
      · rfl
      · next hload =>
          have hless := mixerLoad_shorter heap hload
          exact ih (by omega)

/-- `load_from_file` always returns. -/
theorem loadFromFile_isSome (heap : Nat → SimpleInfo F) (file : Option (List UInt8))
    (group : List (AnyMixer F)) : (loadFromFile heap file group).isSome := by
  unfold loadFromFile
  split
  · exact loadLoop_isSome heap (Nat.lt_succ_self _)
  · rfl

/-- **A file is loaded** exactly when its lines list entries, and the group consists of their
mixers. -/
theorem loadFromFile_iff (heap : Nat → SimpleInfo F) {input : List UInt8}
    {lines : List (List UInt8)} (hlines : Yields input lines) (group : List (AnyMixer F)) :
    loadFromFile heap (some input) [] = some (0, group) ↔
      ∃ entries, Lists lines entries ∧ group = entryMixers heap 0 entries := by
  constructor
  · intro h
    exact loadLoop_sound heap hlines h
  · intro ⟨entries, hlists, hgroup⟩
    rw [hgroup]
    exact loadLoop_complete heap hlists hlines (Nat.lt_succ_self _)

end Px4Firmware.Mixer
