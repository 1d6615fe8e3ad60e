import Mathlib.Data.List.Forall2
import Px4Firmware.Mixer.Entries
import Px4Firmware.Mixer.Format

/-!
# Px4Firmware.Mixer.Parsing

**The loader and the text format.** A `MixerFile` is a file whose definition lines are those of a
list of definitions. `loads_iff` says exactly when `load_from_file` returns zero with the mixers
that are listed.

It does not always. `mixer_getline` ignores every line of less than four characters, so the
definition `Z:` of a null mixer is not seen. It takes every other line whose second character is a
colon for a definition. And the loader does not set the control count of a simple mixer, which is
what the memory held before.
-/

namespace Px4Firmware.Mixer

/-! ### The lines that are read -/

/-- The lines that `mixer_getline` gives are those that it accepts. -/
theorem yields_lines {lines : List (List UInt8)} (hline : ∀ line ∈ lines, newline ∉ line)
    (hshort : ∀ line ∈ lines, (content line).length < 60) :
    Yields (lines.flatMap (· ++ [newline])) ((lines.map content).filter (Accepted ·)) := by
  induction lines with
  | nil => rfl
  | cons line lines ih =>
      have hget := mixerGetline_append (lines.flatMap (· ++ [newline])) []
        (hline line List.mem_cons_self)
        (by rw [List.length_nil, Nat.zero_add]; exact hshort line List.mem_cons_self)
      have hrest := ih (fun l hl => hline l (List.mem_cons_of_mem _ hl))
        fun l hl => hshort l (List.mem_cons_of_mem _ hl)
      rw [List.nil_append] at hget
      rw [List.flatMap_cons, List.append_assoc, List.singleton_append, List.map_cons]
      by_cases haccepted : Accepted (content line)
      · rw [if_pos haccepted] at hget
        rw [List.filter_cons_of_pos (by simpa using haccepted)]
        exact ⟨_, hget, hrest⟩
      · rw [if_neg haccepted] at hget
        rw [List.filter_cons_of_neg (by simpa using haccepted)]
        cases hreading : (lines.map content).filter (Accepted ·) with
        | nil =>
            rw [hreading] at hrest
            exact hget.trans hrest
        | cons next more =>
            rw [hreading] at hrest
            obtain ⟨rest, hnext, hmore⟩ := hrest
            exact ⟨rest, hget.trans hnext, hmore⟩

section

variable {F : Type} [Arithmetic F]

/-! ### What the loader makes of a line -/

theorem scaled_integer (field : Spaced Integer) :
    (scaled (UInt32.ofInt field.item.val.value) : F) = field.scaled := by
  unfold scaled Spaced.scaled
  rw [toInt_ofInt field.item.property.1 field.item.property.2]

theorem scannedScaler_scaler (s : ScalerText) :
    scannedScaler (UInt32.ofInt s.negativeScale.item.val.value)
      (UInt32.ofInt s.positiveScale.item.val.value) (UInt32.ofInt s.offset.item.val.value)
      (UInt32.ofInt s.lowerLimit.item.val.value) (UInt32.ofInt s.upperLimit.item.val.value) =
        (s.scaler : Scaler F) := by
  unfold scannedScaler ScalerText.scaler
  simp only [scaled_integer]

theorem mixerParseOutputScaler_line (o : OutputText) :
    mixerParseOutputScaler o.line = some (o.scaler.scaler : Scaler F) := by
  have hscan : sscanf outputFormat o.line = o.scaler.fields.map fun field => field.item.assigned :=
    sscanf_line 0x4f o.scaler.fields o.trailing (by decide) (by decide)
  unfold mixerParseOutputScaler
  rw [hscan, ← scannedScaler_scaler]
  rfl

/-- The control that the loader makes of its line. -/
def ControlText.loaded (c : ControlText) : Control F where
  controlGroup := (UInt32.ofInt c.group.item.val.value).toUInt8
  controlIndex := (UInt32.ofInt c.index.item.val.value).toUInt8
  scaler := c.scaler.scaler

theorem mixerParseControlScaler_line (c : ControlText) :
    mixerParseControlScaler c.line = some (c.loaded : Control F) := by
  have hscan : sscanf controlFormat c.line = c.fields.map fun field => field.item.assigned :=
    sscanf_line 0x53 c.fields c.trailing (by decide) (by decide)
  unfold mixerParseControlScaler ControlText.loaded
  rw [hscan, ← scannedScaler_scaler]
  rfl

theorem geometryOf_name (g : Geometry) : geometryOf g.name = some g := by
  cases g <;> decide

/-- The mixer that the loader makes of the line of a multirotor mixer. -/
def MultirotorText.loaded (t : MultirotorText) : AnyMixer F :=
  .multirotor (multirotorMixer t.geometry.item t.rollScale.scaled t.pitchScale.scaled
    t.yawScale.scaled t.deadband.scaled)

theorem mixerLoadMultirotor_line (t : MultirotorText) :
    mixerLoadMultirotor t.line = some (t.loaded : AnyMixer F) := by
  have hscan : sscanf multirotorFormat t.line = t.fields.map fun field => field.item.assigned :=
    sscanf_line 0x52 t.fields t.trailing (by decide) (by decide)
  unfold mixerLoadMultirotor MultirotorText.loaded
  rw [hscan, ← scaled_integer, ← scaled_integer, ← scaled_integer, ← scaled_integer]
  show (geometryOf t.geometry.item.name).map _ = _
  rw [geometryOf_name]
  rfl

theorem sscanf_header (t : SimpleText) :
    sscanf simpleFormat t.header = [.integer (UInt32.ofNat t.inputs.length)] := by
  have hscan : sscanf simpleFormat t.header =
      ([.number t.count] : List Field).map fun field => field.item.assigned :=
    sscanf_line 0x4d [.number t.count] t.trailing (by decide) (by decide)
  rw [hscan, ← ofInt_natCast, ← t.count_eq]
  rfl

/-! ### What the loader makes of a definition -/

/-- The mixer that the loader makes of the lines of a simple mixer, in a block of memory. -/
def SimpleText.loaded (t : SimpleText) (block : SimpleInfo F) : AnyMixer F :=
  .simple (some { block with
    outputScaler := t.output.scaler.scaler
    controls := fun j => ((t.inputs.map ControlText.loaded)[j]?).getD (block.controls j) })

/-- The blocks of memory that are allocated for a definition. -/
def Definition.blocks : Definition → Nat
  | .simple _ => 1
  | _ => 0

variable (heap : Nat → SimpleInfo F)

/-- The mixer that the loader makes of a definition, when some blocks have been allocated. -/
def Definition.loaded (allocated : Nat) : Definition → AnyMixer F
  | .null _ => .null
  | .simple t => t.loaded (heap allocated)
  | .multirotor t => t.loaded

/-- The mixers that the loader makes of definitions. -/
def loadedMixers : Nat → List Definition → List (AnyMixer F)
  | _, [] => []
  | allocated, d :: definitions =>
      d.loaded heap allocated :: loadedMixers (allocated + d.blocks) definitions

theorem head_definitionLine (letter : UInt8) (fields : List Field) (trailing : List Blank) :
    (definitionLine letter fields trailing).head? = some letter := rfl

/-- What a definition says. -/
def Definition.entry : Definition → Entry F
  | .null _ => .null
  | .simple t => .simple t.output.scaler.scaler (t.inputs.map ControlText.loaded)
  | .multirotor t => .multirotor t.loaded

theorem readsInputs_lines (inputs : List ControlText) :
    ReadsInputs (inputs.map ControlText.line)
      (inputs.map ControlText.loaded : List (Control F)) := by
  induction inputs with
  | nil => exact .nil
  | cons control inputs ih => exact .cons (mixerParseControlScaler_line control) ih

/-- The lines of a definition say what it says. -/
theorem reads_lines (d : Definition) : (d.entry : Entry F).Reads d.lines := by
  cases d with
  | null trailing => exact .null (head_definitionLine ..)
  | simple t =>
      have hcount : (UInt32.ofNat t.inputs.length).toNat = t.inputs.length := by
        have hle := t.count_le
        rw [UInt32.toNat_ofNat']
        omega
      refine .simple (sscanf_header t) (mixerParseOutputScaler_line t.output) ?_
        (readsInputs_lines t.inputs)
      rw [List.length_map, hcount]
  | multirotor t => exact .multirotor (head_definitionLine ..) (mixerLoadMultirotor_line t)

theorem lists_lines (definitions : List Definition) :
    Lists (definitions.flatMap Definition.lines)
      (definitions.map Definition.entry : List (Entry F)) := by
  induction definitions with
  | nil => exact .nil
  | cons d definitions ih => exact .cons (reads_lines d) ih

theorem entryMixers_map (definitions : List Definition) (allocated : Nat) :
    entryMixers heap allocated (definitions.map Definition.entry) =
      loadedMixers heap allocated definitions := by
  induction definitions generalizing allocated with
  | nil => rfl
  | cons d definitions ih =>
      rw [List.map_cons, entryMixers, ih]
      cases d <;> rfl

theorem length_loadedMixers {definitions : List Definition} {allocated : Nat} :
    (loadedMixers heap allocated definitions).length = definitions.length := by
  induction definitions generalizing allocated with
  | nil => rfl
  | cons d definitions ih => exact congrArg (· + 1) ih

/-! ### The lines of a file that is loaded -/

def isLetter (c : UInt8) : Bool := 0x41 ≤ c && c ≤ 0x5a || 0x61 ≤ c && c ≤ 0x7a

/-- A line of the form letter-colon. -/
def LetterColon (line : List UInt8) : Prop :=
  line.head?.any isLetter = true ∧ (line)[1]? = some colon

instance : DecidablePred LetterColon := fun line => by
  unfold LetterColon
  infer_instance

theorem letterColon_of_head {c : UInt8} {line : List UInt8} (hc : isLetter c = true)
    (hcolon : (line)[1]? = some colon) (hhead : line.head? = some c) : LetterColon line := by
  refine ⟨?_, hcolon⟩
  rw [hhead]
  exact hc

/-- From one position in the file to a later one only lines of the form letter-colon are read. -/
def ReadsLetters (input rest : List UInt8) : Prop :=
  rest.length < input.length ∧
    ∀ lines, Yields input lines → ∃ used more, lines = used ++ more ∧
      (∀ line ∈ used, LetterColon line) ∧ Yields rest more

/-- A line that is scanned with a letter. -/
theorem letterColon_of_sscanf (c : UInt8) (hc : isLetter c = true) (hne : c ≠ colon)
    {fmt : List Directive} {line : List UInt8} (hcolon : (line)[1]? = some colon)
    (hscan : sscanf (.literal c :: fmt) line ≠ []) : LetterColon line :=
  letterColon_of_head hc hcolon (head_of_sscanf hcolon hne hscan)

theorem ReadsInputs.letterColon {lines : List (List UInt8)} {inputs : List (Control F)}
    (h : ReadsInputs lines inputs) (hcolon : ∀ line ∈ lines, (line)[1]? = some colon) :
    ∀ line ∈ lines, LetterColon line := by
  induction h with
  | nil => simp
  | @cons line control lines inputs hparse _ ih =>
      have hscan : sscanf controlFormat line ≠ [] := by
        intro hscan
        rw [mixerParseControlScaler, hscan] at hparse
        cases hparse
      rw [List.forall_mem_cons] at hcolon ⊢
      exact ⟨letterColon_of_sscanf 0x53 (by decide) (by decide) hcolon.1 hscan, ih hcolon.2⟩

/-- The lines of an entry are of the form letter-colon. -/
theorem Entry.Reads.letterColon {lines : List (List UInt8)} {entry : Entry F}
    (h : entry.Reads lines) (hcolon : ∀ line ∈ lines, (line)[1]? = some colon) :
    ∀ line ∈ lines, LetterColon line := by
  cases h with
  | null hhead =>
      rw [List.forall_mem_singleton] at hcolon ⊢
      exact letterColon_of_head (by decide) hcolon hhead
  | @simple header output lines count scaler inputs hscan hparse hlength hinputs =>
      have hsome : sscanf simpleFormat header ≠ [] := by
        rw [hscan]
        exact List.cons_ne_nil _ _
      have hscan' : sscanf outputFormat output ≠ [] := by
        intro hscan'
        rw [mixerParseOutputScaler, hscan'] at hparse
        cases hparse
      rw [List.forall_mem_cons, List.forall_mem_cons] at hcolon ⊢
      obtain ⟨hheader, houtput, hlines⟩ := hcolon
      exact ⟨letterColon_of_sscanf 0x4d (by decide) (by decide) hheader hsome,
        letterColon_of_sscanf 0x4f (by decide) (by decide) houtput hscan',
        hinputs.letterColon hlines⟩
  | multirotor hhead _ =>
      rw [List.forall_mem_singleton] at hcolon ⊢
      exact letterColon_of_head (by decide) hcolon hhead

theorem ReadsLetters.mixerLoad {mixer : AnyMixer F} {input rest : List UInt8}
    {allocated allocated' : Nat}
    (h : Mixer.mixerLoad heap input allocated = .mixer mixer rest allocated') :
    ReadsLetters input rest := by
  refine ⟨mixerLoad_shorter heap h, fun lines hlines => ?_⟩
  obtain ⟨used, more, entry, hsplit, hread, -, -, hmore, -⟩ := mixerLoad_sound hlines h
  refine ⟨used, more, hsplit, hread.letterColon fun line hline => ?_, hmore⟩
  refine (hlines.accepted line ?_).2
  rw [hsplit]
  exact List.mem_append_left _ hline

/-- When the whole file is loaded, every line that is read is of the form letter-colon. -/
theorem letterColon_of_loadLoop {fuel allocated : Nat} {input : List UInt8}
    {group mixers : List (AnyMixer F)} {lines : List (List UInt8)} (hinput : Yields input lines)
    (h : loadLoop heap fuel input allocated group = some (0, mixers)) :
    ∀ line ∈ lines, LetterColon line := by
  induction fuel generalizing input allocated group lines with
  | zero => cases h
  | succ fuel ih =>
      rw [loadLoop] at h
      split at h
      · cases h
      · next hload =>
          obtain rfl : lines = [] := hinput.eq_nil (mixerGetline_of_endOfFile heap hload)
          simp
      · next mixer rest allocated' hload =>
          obtain ⟨used, more, rfl, hused, hmore⟩ :=
            (ReadsLetters.mixerLoad heap hload).2 lines hinput
          intro line hline
          rcases List.mem_append.mp hline with hline | hline
          · exact hused line hline
          · exact ih hmore h line hline

/-! ### The mixers that are listed -/

/-- The simple mixers of a file, in order. -/
def simples (definitions : List Definition) : List SimpleText :=
  definitions.filterMap fun
    | .simple t => some t
    | _ => none

/-- The controls of a simple mixer that fit the types of the group and the index. -/
def SimpleText.InRange (t : SimpleText) : Prop :=
  ∀ c ∈ t.inputs, c.group.item.val.value < 256 ∧ c.index.item.val.value < 256

theorem toUInt8_unsigned (n : Unsigned) :
    ((UInt32.ofInt n.val.value).toUInt8.toNat : Int) = n.val.value ↔ n.val.value < 256 := by
  have hvalue := toNat_ofInt n.property.1 n.property.2
  have hnonneg := n.property.1
  rw [UInt32.toNat_toUInt8]
  omega

theorem describes_loaded_control (c : ControlText) :
    c.Describes (c.loaded : Control F) ↔
      c.group.item.val.value < 256 ∧ c.index.item.val.value < 256 := by
  unfold ControlText.Describes ControlText.loaded
  dsimp only
  rw [toUInt8_unsigned, toUInt8_unsigned, and_iff_left rfl]

/-- The simple mixer that is loaded is the one that is listed when the memory holds its control
count, and its controls are in range. -/
theorem describes_loaded_simple (t : SimpleText) (block : SimpleInfo F) :
    (Definition.simple t).Describes (t.loaded block) ↔
      block.controlCount.toNat = t.inputs.length ∧ t.InRange := by
  have hcontrol : ∀ i (h : i < t.inputs.length),
      ((t.inputs.map ControlText.loaded)[i]?).getD (block.controls i) =
        (t.inputs[i].loaded : Control F) := by
    intro i h
    rw [List.getElem?_map, List.getElem?_eq_getElem h]
    rfl
  show _ ∧ _ ∧ (∀ i (h : i < t.inputs.length), t.inputs[i].Describes _) ↔ _
  dsimp only
  refine and_congr_right fun _ => ?_
  rw [and_iff_right rfl]
  constructor
  · intro h c hc
    obtain ⟨i, hi, rfl⟩ := List.mem_iff_getElem.mp hc
    have hi' := h i hi
    rw [hcontrol i hi] at hi'
    exact (describes_loaded_control _).mp hi'
  · intro h i hi
    rw [hcontrol i hi]
    exact (describes_loaded_control _).mpr (h _ (List.getElem_mem hi))

theorem forall₂_loadedMixers {definitions : List Definition} {allocated : Nat} :
    List.Forall₂ Definition.Describes definitions (loadedMixers heap allocated definitions) ↔
      (∀ i t, (simples definitions)[i]? = some t →
        (heap (allocated + i)).controlCount.toNat = t.inputs.length) ∧
      ∀ t ∈ simples definitions, t.InRange := by
  induction definitions generalizing allocated with
  | nil =>
      refine ⟨fun _ => ⟨fun i t h => ?_, fun t h => absurd h List.not_mem_nil⟩, fun _ => .nil⟩
      rw [show simples [] = [] from rfl, List.getElem?_nil] at h
      cases h
  | cons d definitions ih =>
      rw [loadedMixers, List.forall₂_cons, ih]
      cases d with
      | null trailing =>
          rw [and_iff_right (by exact trivial)]
          rfl
      | multirotor t =>
          rw [and_iff_right (by exact rfl)]
          rfl
      | simple t =>
          have hsimples : simples (.simple t :: definitions) = t :: simples definitions := rfl
          have hdescribes := describes_loaded_simple t (heap allocated)
          rw [hsimples, List.forall_mem_cons]
          constructor
          · rintro ⟨hfirst, hcounts, hranges⟩
            obtain ⟨hcount, hrange⟩ := hdescribes.mp hfirst
            refine ⟨fun i t' h => ?_, hrange, hranges⟩
            cases i with
            | zero =>
                cases h
                exact hcount
            | succ i =>
                have hi := hcounts i t' h
                rw [Nat.add_assoc, Nat.add_comm _ i] at hi
                exact hi
          · rintro ⟨hcounts, hrange, hranges⟩
            refine ⟨hdescribes.mpr ⟨hcounts 0 t rfl, hrange⟩, fun i t' h => ?_, hranges⟩
            have hi := hcounts (i + 1) t' h
            rw [Nat.add_comm i, ← Nat.add_assoc] at hi
            exact hi

end

/-! ### Files -/

/-- A file with a list of definitions: every line is terminated and shorter than 60 characters, and
the lines of the form letter-colon are those of the definitions. -/
structure MixerFile where
  lines : List (List UInt8)
  definitions : List Definition
  terminated : ∀ line ∈ lines, newline ∉ line
  short : ∀ line ∈ lines, (content line).length < 60
  listed : (lines.map content).filter (LetterColon ·) = definitions.flatMap Definition.lines

def MixerFile.bytes (file : MixerFile) : List UInt8 := file.lines.flatMap (· ++ [newline])

/-- The lines that are read. -/
def MixerFile.reading (file : MixerFile) : List (List UInt8) :=
  (file.lines.map content).filter (Accepted ·)

theorem MixerFile.yields (file : MixerFile) : Yields file.bytes file.reading :=
  yields_lines file.terminated file.short

/-- A definition of which all lines are accepted. -/
def Definition.LongEnough : Definition → Prop
  | .null trailing => 2 ≤ trailing.length
  | _ => True

instance : DecidablePred Definition.LongEnough := fun d =>
  match d with
  | .null trailing => inferInstanceAs (Decidable (2 ≤ trailing.length))
  | .simple _ => .isTrue trivial
  | .multirotor _ => .isTrue trivial

theorem accepted_definitionLine {letter : UInt8} {field : Field} {fields : List Field}
    {trailing : List Blank} : Accepted (definitionLine letter (field :: fields) trailing) := by
  have hblanks := List.length_pos_iff.mpr field.separated
  have htoken := List.length_pos_iff.mpr (token_ne_nil field.item)
  refine ⟨?_, rfl⟩
  unfold definitionLine
  rw [List.flatMap_cons, Field.bytes, List.length_cons, List.length_cons, List.length_append,
    List.length_append, List.length_append, List.length_map]
  omega

/-- The lines of a definition are accepted, or the one line of a null mixer is too short. -/
theorem filter_lines (d : Definition) :
    d.lines.filter (Accepted ·) = if d.LongEnough then d.lines else [] := by
  cases d with
  | null trailing =>
      have haccepted : Accepted (definitionLine 0x5a [] trailing) ↔ 2 ≤ trailing.length := by
        unfold Accepted definitionLine
        rw [List.length_cons, List.length_cons, List.flatMap_nil, List.nil_append, List.length_map]
        exact ⟨fun h => by omega, fun h => ⟨by omega, rfl⟩⟩
      show List.filter _ [definitionLine 0x5a [] trailing] = if 2 ≤ trailing.length then _ else _
      by_cases h : 2 ≤ trailing.length
      · rw [if_pos h, List.filter_cons_of_pos (by simpa using haccepted.mpr h)]
        rfl
      · rw [if_neg h, List.filter_cons_of_neg (by simpa using mt haccepted.mp h)]
        rfl
  | simple t =>
      have hall : ∀ line ∈ t.lines, Accepted line := by
        intro line hline
        rcases List.mem_cons.mp hline with rfl | hline
        · exact accepted_definitionLine
        rcases List.mem_cons.mp hline with rfl | hline
        · exact accepted_definitionLine
        · obtain ⟨c, -, rfl⟩ := List.mem_map.mp hline
          exact accepted_definitionLine
      show t.lines.filter _ = if True then t.lines else []
      rw [if_pos trivial, List.filter_eq_self]
      intro line hline
      exact decide_eq_true (hall line hline)
  | multirotor t =>
      have haccepted : Accepted t.line := accepted_definitionLine
      show [t.line].filter _ = if True then [t.line] else []
      rw [if_pos trivial, List.filter_cons_of_pos (by simpa using haccepted)]
      rfl

/-- The lines of definitions that are accepted are those of the definitions that are long enough. -/
theorem filter_flatMap_lines (definitions : List Definition) :
    (definitions.flatMap Definition.lines).filter (Accepted ·) =
      (definitions.filter (Definition.LongEnough ·)).flatMap Definition.lines := by
  induction definitions with
  | nil => rfl
  | cons d definitions ih =>
      rw [List.flatMap_cons, List.filter_append, ih, filter_lines]
      by_cases h : d.LongEnough
      · rw [if_pos h, List.filter_cons_of_pos (by simpa using h), List.flatMap_cons]
      · rw [if_neg h, List.filter_cons_of_neg (by simpa using h), List.nil_append]

/-- If only lines of the form letter-colon are read, they are those of the definitions that are long
enough. -/
theorem MixerFile.reading_eq (file : MixerFile)
    (hothers : ∀ line ∈ file.lines, Accepted (content line) → LetterColon (content line)) :
    file.reading =
      (file.definitions.filter (Definition.LongEnough ·)).flatMap Definition.lines := by
  rw [← filter_flatMap_lines, ← file.listed, List.filter_filter]
  refine List.filter_congr fun line hline => ?_
  obtain ⟨raw, hraw, rfl⟩ := List.mem_map.mp hline
  have hletter := hothers raw hraw
  by_cases h : Accepted (content raw)
  · simp [h, hletter h]
  · simp [h]

section

variable {F : Type} [Arithmetic F] (heap : Nat → SimpleInfo F)

/-- The loader makes the mixers of the definitions that are long enough. -/
theorem loadFromFile_eq (file : MixerFile)
    (hothers : ∀ line ∈ file.lines, Accepted (content line) → LetterColon (content line)) :
    loadFromFile heap (some file.bytes) [] =
      some (0, loadedMixers heap 0 (file.definitions.filter (Definition.LongEnough ·))) := by
  have hyields := file.yields
  rw [file.reading_eq hothers] at hyields
  have hload := (loadFromFile_iff heap hyields _).2 ⟨_, lists_lines _, rfl⟩
  rw [entryMixers_map] at hload
  exact hload

/-- The file is loaded: the result is zero, and the group consists of the mixers that are listed, in
order. -/
def Loads (file : MixerFile) : Prop :=
  ∃ mixers, loadFromFile heap (some file.bytes) [] = some (0, mixers) ∧
    List.Forall₂ Definition.Describes file.definitions mixers

/-- What it takes to load a file. -/
structure Loadable (file : MixerFile) : Prop where
  /-- There are at least two blanks after the colon of a null mixer. -/
  nulls : ∀ trailing, .null trailing ∈ file.definitions → 2 ≤ trailing.length
  /-- A line of at least four characters whose second one is a colon starts with a letter. -/
  others : ∀ line ∈ file.lines, Accepted (content line) → LetterColon (content line)
  /-- The memory holds the control counts. -/
  counts : ∀ i t, (simples file.definitions)[i]? = some t →
    (heap i).controlCount.toNat = t.inputs.length
  /-- The control groups and indices are less than 256. -/
  controls : ∀ t ∈ simples file.definitions, t.InRange

/-- **A file is loaded exactly when it is loadable.** -/
theorem loads_iff (file : MixerFile) : Loads heap file ↔ Loadable heap file := by
  constructor
  · rintro ⟨mixers, hload, hdescribes⟩
    have hletters := letterColon_of_loadLoop heap file.yields hload
    have hothers : ∀ line ∈ file.lines, Accepted (content line) → LetterColon (content line) :=
      fun line hline haccepted => hletters _ (List.mem_filter.mpr
        ⟨List.mem_map_of_mem hline, decide_eq_true haccepted⟩)
    rw [loadFromFile_eq heap file hothers] at hload
    cases hload
    -- as many mixers as definitions: no definition has been passed over
    have hlength := hdescribes.length_eq
    rw [length_loadedMixers] at hlength
    have hall := List.length_filter_eq_length_iff.mp hlength.symm
    rw [List.filter_eq_self.mpr hall, forall₂_loadedMixers] at hdescribes
    refine ⟨fun trailing h => of_decide_eq_true (hall _ h), hothers, fun i t h => ?_,
      hdescribes.2⟩
    have hcount := hdescribes.1 i t h
    rw [Nat.zero_add] at hcount
    exact hcount
  · rintro ⟨hnulls, hothers, hcounts, hcontrols⟩
    have hall : file.definitions.filter (Definition.LongEnough ·) = file.definitions := by
      rw [List.filter_eq_self]
      intro d hd
      refine decide_eq_true ?_
      cases d with
      | null trailing => exact hnulls trailing hd
      | simple t => trivial
      | multirotor t => trivial
    have hload := loadFromFile_eq heap file hothers
    rw [hall] at hload
    refine ⟨_, hload, (forall₂_loadedMixers heap).mpr ⟨fun i t h => ?_, hcontrols⟩⟩
    rw [Nat.zero_add]
    exact hcounts i t h

end

/-! ### A file that is not loaded -/

/-- The definition of one null mixer, as it is documented. -/
def nullFile : MixerFile where
  lines := [[0x5a, colon]]
  definitions := [.null []]
  terminated := by decide
  short := by decide
  listed := by decide

/-- Memory that holds zeros. -/
def zeroInfo : SimpleInfo Rat where
  controlCount := 0
  outputScaler := ⟨0, 0, 0, 0, 0⟩
  controls := fun _ => ⟨0, 0, ⟨0, 0, 0, 0, 0⟩⟩

/-- The result is zero, but there is no mixer. -/
theorem nullFile_not_loads : ¬ Loads (fun _ => zeroInfo) nullFile := by
  rintro ⟨mixers, hload, hdescribes⟩
  have hempty : loadFromFile (fun _ => zeroInfo) (some nullFile.bytes) [] = some (0, []) := rfl
  rw [hempty] at hload
  cases hload
  cases hdescribes

end Px4Firmware.Mixer
