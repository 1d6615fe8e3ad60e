import Px4Firmware.Mixer.Parsing

/-!
# Px4Firmware.Mixer.Stores

**Where the loader stores what it reads** (`mixer_getline`, `mixer_parse_*` and `mixer_load_*`). A
`Place` is a position in the buffer of a line, in the name of a geometry, in an array of numbers, or
in the block of a simple mixer, and it is inside or not.

`mixer_getline` has a budget for its line. The other two destinations have none: the name of a
geometry is scanned without a width, and the size of a block is computed modulo `2 ^ 32` and the
block is not checked. `stores_inside_iff` says which files have everything stored inside.
-/

namespace Px4Firmware.Mixer

/-! ### Places -/

/-- Where a byte or a field is stored: in a line of 60 characters, in an array of numbers, in a name
of 8 characters, or in a block of some size, which is missing when it has not been allocated. -/
inductive Place
  | line (offset : Nat)
  | number (index size : Nat)
  | name (offset : Nat)
  | field (block : Option Nat) (offset length : Nat)

/-- The place is inside its destination. -/
def Place.Inside : Place → Prop
  | .line offset => offset < 60
  | .number index size => index < size
  | .name offset => offset < 8
  | .field block offset length => block.any (fun size => offset + length ≤ size) = true

instance : DecidablePred Place.Inside := fun place =>
  match place with
  | .line offset => inferInstanceAs (Decidable (offset < 60))
  | .number index size => inferInstanceAs (Decidable (index < size))
  | .name offset => inferInstanceAs (Decidable (offset < 8))
  | .field block offset length =>
      inferInstanceAs (Decidable (block.any (fun size => offset + length ≤ size) = true))

/-- All of the places are inside. -/
def AllInside (places : List Place) : Prop := ∀ place ∈ places, place.Inside

@[simp] theorem allInside_nil : AllInside [] := List.forall_mem_nil _

@[simp] theorem allInside_cons {place : Place} {places : List Place} :
    AllInside (place :: places) ↔ place.Inside ∧ AllInside places := List.forall_mem_cons

@[simp] theorem allInside_append {places more : List Place} :
    AllInside (places ++ more) ↔ AllInside places ∧ AllInside more := List.forall_mem_append

@[simp] theorem inside_field {block : Option Nat} {offset length : Nat} :
    (Place.field block offset length).Inside ↔ ∃ size ∈ block, offset + length ≤ size := by
  cases block <;> simp [Place.Inside]

/-! ### What is stored -/

/-- What `mixer_getline` stores. -/
def getlineStores : List UInt8 → List UInt8 → List Place
  | [], _ => []
  | c :: input, line =>
      if c = carriageReturn then
        getlineStores input line
      else if c = newline then
        if line.length < 4 then
          getlineStores input []
        else if (line)[1]? ≠ some colon then
          getlineStores input []
        else
          -- the line is terminated
          [.line line.length]
      else if line.length < 59 then
        .line line.length :: getlineStores input (line ++ [c])
      else
        getlineStores input line

/-- What is stored of a value: a number, or the characters of a string and a NUL. -/
def assignedStores (target : Nat → Place) : Assigned → List Place
  | .integer _ => [target 0]
  | .string s => (List.range (s.length + 1)).map target

/-- What `sscanf` stores at its arguments. -/
def scanStores (targets : List (Nat → Place)) (assigned : List Assigned) : List Place :=
  (List.zipWith assignedStores targets assigned).flatten

/-- The elements of an array of numbers, as arguments. -/
def elements (size : Nat) : List (Nat → Place) :=
  (List.range size).map fun index _ => .number index size

/-- The five numbers of a scaler, at some offset in a block. -/
def scalerStores (block : Option Nat) (offset : Nat) : List Place :=
  [0, 4, 8, 12, 16].map fun field => .field block (offset + field) 4

section

variable (F : Type) [Arithmetic F]

/-- What `mixer_parse_output_scaler` stores: `s`, and the scaler. -/
def outputStores (block : Option Nat) (buf : List UInt8) : List Place :=
  scanStores (elements 5) (sscanf outputFormat buf) ++
    match (mixerParseOutputScaler buf : Option (Scaler F)) with
    | none => []
    | some _ => scalerStores block 4

/-- What `mixer_parse_control_scaler` stores: `u`, `s`, and the control. The controls start after 24
bytes, and each has 24. -/
def controlStores (block : Option Nat) (i : Nat) (buf : List UInt8) : List Place :=
  scanStores (elements 2 ++ elements 5) (sscanf controlFormat buf) ++
    match (mixerParseControlScaler buf : Option (Control F)) with
    | none => []
    | some _ =>
        .field block (24 + 24 * i) 1 :: .field block (24 + 24 * i + 1) 1 ::
          scalerStores block (24 + 24 * i + 4)

/-- What the loop over the inputs in `mixer_load_simple` stores, from the input `i` on. -/
def controlsStores (block : Option Nat) : Nat → Nat → List UInt8 → List Place
  | 0, _, _ => []
  | inputs + 1, i, input =>
      getlineStores input [] ++
        match mixerGetline input [] with
        | none => []
        | some (buf, input) =>
            controlStores F block i buf ++
              match (mixerParseControlScaler buf : Option (Control F)) with
              | none => []
              | some _ => controlsStores block inputs (i + 1) input

/-- `MIXER_SIMPLE_SIZE`, where a `size_t` has 32 bits. -/
def mixerSimpleSize (inputs : UInt32) : UInt32 := 24 + inputs * 24

/-- Whether the memory has room for a block: it is asked for the blocks of the simple mixers, in
order, with their sizes. -/
abbrev Memory := Nat → UInt32 → Bool

variable (memory : Memory)

/-- The block that `malloc` returns, which `mixer_load_simple` does not check. -/
def mallocBlock (allocated : Nat) (inputs : UInt32) : Option Nat :=
  if memory allocated (mixerSimpleSize inputs) then some (mixerSimpleSize inputs).toNat else none

/-- What `mixer_load_simple` stores. -/
def simpleStores (allocated : Nat) (input : List UInt8) (inputs : UInt32) : List Place :=
  getlineStores input [] ++
    match mixerGetline input [] with
    | none => []
    | some (buf, input) =>
        outputStores F (mallocBlock memory allocated inputs) buf ++
          match (mixerParseOutputScaler buf : Option (Scaler F)) with
          | none => []
          | some _ =>
              controlsStores F (mallocBlock memory allocated inputs) inputs.toNat 0 input

/-- What `mixer_load_multirotor` stores: `geomname`, and `s`. -/
def multirotorStores (buf : List UInt8) : List Place :=
  scanStores (.name :: elements 4) (sscanf multirotorFormat buf)

/-- What `mixer_load` stores. -/
def loadStores (input : List UInt8) (allocated : Nat) : List Place :=
  getlineStores input [] ++
    match mixerGetline input [] with
    | none => []
    | some (buf, input) =>
        if buf.head? = some 0x5a then
          []
        else
          scanStores (elements 1) (sscanf simpleFormat buf) ++
            match sscanf simpleFormat buf with
            | [.integer inputs] => simpleStores F memory allocated input inputs
            | _ =>
                if buf.head? = some 0x52 then
                  multirotorStores buf
                else
                  []

variable {F} (heap : Nat → SimpleInfo F)

/-- What the loop of `MixerGroup::load_from_file` stores through `mixer_load`. -/
def loopStores : Nat → List UInt8 → Nat → List Place
  | 0, _, _ => []
  | fuel + 1, input, allocated =>
      loadStores F memory input allocated ++
        match mixerLoad heap input allocated with
        | .error => []
        | .endOfFile => []
        | .mixer _ input allocated => loopStores fuel input allocated

/-- What is stored when a file is loaded. -/
def fileStores (input : List UInt8) : List Place :=
  loopStores memory heap (input.length + 1) input 0

end

/-! ### The lines of a file -/

/-- The lines that are terminated, when the start of the first one has been seen. -/
def terminatedLines : List UInt8 → List UInt8 → List (List UInt8)
  | [], _ => []
  | c :: input, line =>
      if c = newline then
        line :: terminatedLines input []
      else
        terminatedLines input (line ++ [c])

/-- What there is space for of a line. -/
def budgeted (line : List UInt8) : List UInt8 := (content line).take 59

/-- The lines of a file that count. -/
def fileLines (input : List UInt8) : List (List UInt8) :=
  ((terminatedLines input []).map budgeted).filter (Accepted ·)

/-- The lines that `mixer_getline` gives from here, when it has accumulated the start of one. -/
def YieldsFrom (acc input : List UInt8) : List (List UInt8) → Prop
  | [] => mixerGetline input acc = none
  | line :: lines => ∃ rest, mixerGetline input acc = some (line, rest) ∧ Yields rest lines

theorem YieldsFrom.congr {acc acc' input input' : List UInt8} {lines : List (List UInt8)}
    (h : YieldsFrom acc input lines)
    (hget : mixerGetline input' acc' = mixerGetline input acc) : YieldsFrom acc' input' lines := by
  cases lines with
  | nil => exact hget.trans h
  | cons line lines =>
      obtain ⟨rest, hline, hrest⟩ := h
      exact ⟨rest, hget.trans hline, hrest⟩

theorem YieldsFrom.yields {input : List UInt8} {lines : List (List UInt8)}
    (h : YieldsFrom [] input lines) : Yields input lines := by
  cases lines with
  | nil => exact h
  | cons line lines => exact h

theorem budgeted_return (line : List UInt8) :
    budgeted (line ++ [carriageReturn]) = budgeted line := by
  unfold budgeted content
  rw [List.filter_append, List.filter_cons_of_neg (by decide), List.filter_nil, List.append_nil]

theorem budgeted_append {c : UInt8} (hreturn : c ≠ carriageReturn) (line : List UInt8) :
    budgeted (line ++ [c]) =
      if (budgeted line).length < 59 then budgeted line ++ [c] else budgeted line := by
  have hcontent : content (line ++ [c]) = content line ++ [c] := by
    unfold content
    rw [List.filter_append, List.filter_cons_of_pos (by simpa using hreturn), List.filter_nil]
  unfold budgeted
  rw [hcontent, List.length_take]
  split
  next hspace =>
    rw [List.take_of_length_le (by rw [List.length_append, List.length_singleton]; omega),
      List.take_of_length_le (by omega)]
  next hfull => rw [List.take_append_of_le_length (by omega)]

theorem yieldsFrom_terminatedLines (input line : List UInt8) :
    YieldsFrom (budgeted line) input
      (((terminatedLines input line).map budgeted).filter (Accepted ·)) := by
  induction input generalizing line with
  | nil => rfl
  | cons c input ih =>
      rw [terminatedLines]
      by_cases hnewline : c = newline
      · subst hnewline
        rw [if_pos rfl, List.map_cons]
        have hget : mixerGetline (newline :: input) (budgeted line) =
            if Accepted (budgeted line) then some (budgeted line, input)
            else mixerGetline input [] := by
          have hempty : newline ∉ ([] : List UInt8) := List.not_mem_nil
          have hshort : (budgeted line).length + (content []).length < 60 := by
            have hle := List.length_take_le 59 (content line)
            rw [budgeted, show content [] = [] from rfl, List.length_nil]
            omega
          have h := mixerGetline_append input (budgeted line) hempty hshort
          rw [show content [] = [] from rfl, List.append_nil] at h
          exact h
        by_cases haccepted : Accepted (budgeted line)
        · rw [if_pos haccepted] at hget
          rw [List.filter_cons_of_pos (by simpa using haccepted)]
          exact ⟨input, hget, (ih []).yields⟩
        · rw [if_neg haccepted] at hget
          rw [List.filter_cons_of_neg (by simpa using haccepted)]
          exact (ih []).congr hget
      · rw [if_neg hnewline]
        refine (ih (line ++ [c])).congr ?_
        rw [mixerGetline]
        by_cases hreturn : c = carriageReturn
        · rw [if_pos hreturn, hreturn, budgeted_return]
        · rw [if_neg hreturn, if_neg hnewline, budgeted_append hreturn]
          split
          · rfl
          · rfl

/-- `mixer_getline` gives the lines of the file that count. -/
theorem yields_fileLines (input : List UInt8) : Yields input (fileLines input) :=
  (yieldsFrom_terminatedLines input []).yields

/-! ### What fits -/

/-- The name of the geometry leaves space for the NUL. -/
def NameFits (line : List UInt8) : Prop :=
  ∀ name values, sscanf multirotorFormat line = .string name :: values → name.length ≤ 7

section

variable (F : Type) [Arithmetic F] (memory : Memory)

/-- The line is one of an output scaler. -/
def IsOutput (line : List UInt8) : Prop :=
  (mixerParseOutputScaler line : Option (Scaler F)).isSome

/-- How many lines of control scalers come next. -/
def controlLines (lines : List (List UInt8)) : Nat :=
  (lines.takeWhile fun line => (mixerParseControlScaler line : Option (Control F)).isSome).length

/-- The block of a simple mixer is there, and holds the controls that are declared and listed, if
there is an output scaler. -/
def SimpleFits (allocated : Nat) (count : UInt32) : List (List UInt8) → Prop
  | [] => True
  | output :: lines => IsOutput F output →
      memory allocated (mixerSimpleSize count) = true ∧
        24 + 24 * min count.toNat (controlLines F lines) ≤ (mixerSimpleSize count).toNat

/-- What is stored of the definition that comes next fits. -/
def DefinitionFits (allocated : Nat) : List (List UInt8) → Prop
  | [] => True
  | line :: lines =>
      (line.head? = some 0x52 → NameFits line) ∧
        ∀ count, sscanf simpleFormat line = [.integer count] →
          SimpleFits F memory allocated count lines

/-- The blocks that are allocated for entries. -/
def entryBlocks {F : Type} : List (Entry F) → Nat
  | [] => 0
  | entry :: entries => entry.blocks + entryBlocks entries

/-- What is stored of each definition fits, up to and including the first one that cannot be
read. -/
def LinesFit (allocated : Nat) (lines : List (List UInt8)) : Prop :=
  ∀ good rest, ∀ entries : List (Entry F), lines = good ++ rest → Lists good entries →
    DefinitionFits F memory (allocated + entryBlocks entries) rest

end

/-! ### Lines and numbers -/

/-- A line is stored inside its buffer. -/
theorem getlineStores_inside (input : List UInt8) {line : List UInt8} (hline : line.length < 60) :
    AllInside (getlineStores input line) := by
  induction input generalizing line with
  | nil => exact allInside_nil
  | cons c input ih =>
      have hempty : ([] : List UInt8).length < 60 := by decide
      rw [getlineStores]
      split
      · exact ih hline
      split
      · split
        · exact ih hempty
        split
        · exact ih hempty
        · exact allInside_cons.2 ⟨hline, allInside_nil⟩
      split
      next hspace =>
        refine allInside_cons.2 ⟨hline, ih ?_⟩
        rw [List.length_append, List.length_singleton]
        omega
      next => exact ih hline

/-- Only numbers are assigned for integers. -/
theorem vsscanf_integers (n : Nat) (buf : List UInt8) :
    ∃ values : List UInt32, vsscanf (List.replicate n .integer) buf = values.map .integer := by
  induction n generalizing buf with
  | zero => exact ⟨[], rfl⟩
  | succ n ih =>
      by_cases hbuf : buf = []
      · rw [hbuf]
        exact ⟨[], rfl⟩
      · obtain ⟨values, hvalues⟩ := ih ((skipSpace buf).drop (nextField buf).length)
        refine ⟨strtol (nextField buf) :: values, ?_⟩
        rw [List.replicate_succ, vsscanf_integer hbuf, hvalues, List.map_cons]

/-- A literal is passed over, or the scan ends. -/
theorem vsscanf_literal_cases (c : UInt8) (fmt : List Directive) (buf : List UInt8) :
    vsscanf (.literal c :: fmt) buf = [] ∨
      ∃ buf', vsscanf (.literal c :: fmt) buf = vsscanf fmt buf' := by
  cases buf with
  | nil => exact .inl rfl
  | cons b buf =>
      cases hskip : skipSpace (b :: buf) with
      | nil =>
          refine .inl ?_
          simp [vsscanf, hskip]
      | cons b' buf' =>
          by_cases hsame : c = b'
          · refine .inr ⟨buf', ?_⟩
            simp [vsscanf, hskip, hsame]
          · refine .inl ?_
            simp [vsscanf, hskip, hsame]

/-- A definition line is scanned from somewhere after the colon, or not at all. -/
theorem sscanf_cases (c : UInt8) (fmt : List Directive) (line : List UInt8) :
    sscanf (.literal c :: .literal colon :: fmt) line = [] ∨
      ∃ buf, sscanf (.literal c :: .literal colon :: fmt) line = vsscanf fmt buf := by
  unfold sscanf
  rcases vsscanf_literal_cases c (.literal colon :: fmt) (line.takeWhile (· ≠ 0)) with
    hletter | ⟨buf, hletter⟩
  · exact .inl hletter
  · rw [hletter]
    exact vsscanf_literal_cases colon fmt buf

theorem sscanf_integers (c : UInt8) (n : Nat) (line : List UInt8) :
    ∃ values : List UInt32,
      sscanf (.literal c :: .literal colon :: List.replicate n .integer) line =
        values.map .integer := by
  rcases sscanf_cases c (List.replicate n .integer) line with hscan | ⟨buf, hscan⟩
  · exact ⟨[], hscan⟩
  · rw [hscan]
    exact vsscanf_integers n buf

theorem sscanf_simple (line : List UInt8) :
    ∃ values : List UInt32, sscanf simpleFormat line = values.map .integer :=
  sscanf_integers 0x4d 1 line

theorem sscanf_output (line : List UInt8) :
    ∃ values : List UInt32, sscanf outputFormat line = values.map .integer :=
  sscanf_integers 0x4f 5 line

theorem sscanf_control (line : List UInt8) :
    ∃ values : List UInt32, sscanf controlFormat line = values.map .integer :=
  sscanf_integers 0x53 7 line

/-- A name is scanned, and then numbers. -/
theorem sscanf_multirotor (line : List UInt8) :
    sscanf multirotorFormat line = [] ∨
      ∃ name, ∃ values : List UInt32,
        sscanf multirotorFormat line = .string name :: values.map .integer := by
  rcases sscanf_cases 0x52 (.string :: List.replicate 4 .integer) line with hscan | ⟨buf, hscan⟩
  · exact .inl hscan
  · by_cases hbuf : buf = []
    · rw [hbuf] at hscan
      exact .inl hscan
    · obtain ⟨values, hvalues⟩ := vsscanf_integers 4 ((skipSpace buf).drop (nextField buf).length)
      rw [vsscanf_string hbuf, hvalues] at hscan
      exact .inr ⟨nextField buf, values, hscan⟩

/-- Numbers are stored inside when their arguments are. -/
theorem scanStores_inside {targets : List (Nat → Place)}
    (htargets : ∀ target ∈ targets, (target 0).Inside) (values : List UInt32) :
    AllInside (scanStores targets (values.map .integer)) := by
  induction targets generalizing values with
  | nil => exact allInside_nil
  | cons target targets ih =>
      rw [List.forall_mem_cons] at htargets
      cases values with
      | nil => exact allInside_nil
      | cons value values =>
          exact allInside_cons.2 ⟨htargets.1, ih htargets.2 values⟩

theorem elements_inside (size : Nat) : ∀ target ∈ elements size, (target 0).Inside := by
  intro target htarget
  obtain ⟨index, hindex, rfl⟩ := List.mem_map.1 htarget
  exact List.mem_range.1 hindex

/-! ### Scalers and names -/

theorem scalerStores_inside_iff (block : Option Nat) (offset : Nat) :
    AllInside (scalerStores block offset) ↔ ∃ size ∈ block, offset + 20 ≤ size := by
  have hplaces : AllInside (scalerStores block offset) ↔
      ∀ field ∈ [0, 4, 8, 12, 16], ∃ size ∈ block, offset + field + 4 ≤ size := by
    unfold AllInside scalerStores
    rw [List.forall_mem_map]
    exact forall₂_congr fun field _ => inside_field
  rw [hplaces]
  constructor
  · intro h
    exact h 16 (by decide)
  · rintro ⟨size, hsize, hle⟩ field hfield
    have hlast : field ≤ 16 := by
      revert field
      decide
    exact ⟨size, hsize, by omega⟩

/-- A string and its NUL are stored inside the name when there is space for them. -/
theorem name_inside_iff (length : Nat) :
    AllInside ((List.range (length + 1)).map .name) ↔ length ≤ 7 := by
  unfold AllInside
  rw [List.forall_mem_map]
  constructor
  · intro h
    exact Nat.le_of_lt_succ (h length List.self_mem_range_succ)
  · intro h offset hoffset
    have hlt := List.mem_range.1 hoffset
    show offset < 8
    omega

/-- The name of a geometry is stored inside its buffer when it has at most seven characters. -/
theorem multirotorStores_inside_iff (line : List UInt8) :
    AllInside (multirotorStores line) ↔ NameFits line := by
  unfold multirotorStores NameFits
  rcases sscanf_multirotor line with hscan | ⟨name, values, hscan⟩
  · rw [hscan]
    refine ⟨fun _ name values h => ?_, fun _ => allInside_nil⟩
    cases h
  · have hstores : scanStores (.name :: elements 4) (.string name :: values.map .integer) =
        (List.range (name.length + 1)).map .name ++
          scanStores (elements 4) (values.map .integer) := rfl
    rw [hscan, hstores, allInside_append, name_inside_iff,
      and_iff_left (scanStores_inside (elements_inside 4) values)]
    constructor
    · intro h name' values' heq
      cases heq
      exact h
    · intro h
      exact h name _ rfl

section

variable {F : Type} [Arithmetic F]

theorem outputStores_inside_iff (block : Option Nat) (line : List UInt8) :
    AllInside (outputStores F block line) ↔ (IsOutput F line → ∃ size ∈ block, 24 ≤ size) := by
  obtain ⟨values, hscan⟩ := sscanf_output line
  unfold outputStores IsOutput
  rw [allInside_append, hscan, and_iff_right (scanStores_inside (elements_inside 5) values)]
  cases hparse : (mixerParseOutputScaler line : Option (Scaler F)) with
  | none => exact ⟨fun _ h => (by cases h), fun _ => allInside_nil⟩
  | some scaler => exact (scalerStores_inside_iff block 4).trans ⟨fun h _ => h, fun h => h rfl⟩

theorem controlStores_inside_iff {size i : Nat} {line : List UInt8} :
    AllInside (controlStores F (some size) i line) ↔
      ((mixerParseControlScaler line : Option (Control F)).isSome → 24 + 24 * (i + 1) ≤ size) := by
  obtain ⟨values, hscan⟩ := sscanf_control line
  have htargets : ∀ target ∈ elements 2 ++ elements 5, (target 0).Inside :=
    List.forall_mem_append.2 ⟨elements_inside 2, elements_inside 5⟩
  unfold controlStores
  rw [allInside_append, hscan, and_iff_right (scanStores_inside htargets values)]
  cases hparse : (mixerParseControlScaler line : Option (Control F)) with
  | none => exact ⟨fun _ h => (by cases h), fun _ => allInside_nil⟩
  | some control =>
      dsimp only
      rw [allInside_cons, allInside_cons, inside_field, inside_field, scalerStores_inside_iff]
      simp only [Option.mem_some_iff, exists_eq_left', Option.isSome_some, forall_const]
      omega

/-- **The loop over the inputs** stores inside the block when it holds the controls that are
declared and listed. -/
theorem controlsStores_inside_iff {size count i : Nat} {input : List UInt8}
    {lines : List (List UInt8)} (hlines : Yields input lines) (hi : 24 + 24 * i ≤ size) :
    AllInside (controlsStores F (some size) count i input) ↔
      24 + 24 * (i + min count (controlLines F lines)) ≤ size := by
  induction count generalizing i input lines with
  | zero =>
      rw [Nat.zero_min]
      exact ⟨fun _ => hi, fun _ => allInside_nil⟩
  | succ count ih =>
      rw [controlsStores, allInside_append,
        and_iff_right (getlineStores_inside input (by decide))]
      cases lines with
      | nil =>
          have hend : mixerGetline input [] = none := hlines
          rw [hend]
          exact ⟨fun _ => hi, fun _ => allInside_nil⟩
      | cons line lines =>
          obtain ⟨rest, hget, hrest⟩ := hlines
          rw [hget]
          dsimp only
          rw [allInside_append, controlStores_inside_iff]
          cases hparse : (mixerParseControlScaler line : Option (Control F)) with
          | none =>
              have hnone : controlLines F (line :: lines) = 0 := by
                simp [controlLines, hparse]
              rw [hnone, Nat.min_zero]
              exact ⟨fun _ => hi, fun _ => ⟨fun h => (by cases h), allInside_nil⟩⟩
          | some control =>
              have hnext : controlLines F (line :: lines) = controlLines F lines + 1 := by
                simp [controlLines, hparse]
              dsimp only
              rw [hnext, Option.isSome_some]
              constructor
              · rintro ⟨hcontrol, hothers⟩
                have hall := (ih hrest (hcontrol rfl)).1 hothers
                omega
              · intro h
                have hcontrol : 24 + 24 * (i + 1) ≤ size := by omega
                refine ⟨fun _ => hcontrol, (ih hrest hcontrol).2 ?_⟩
                omega

/-! ### Definitions -/

variable {memory : Memory}

/-- **A simple mixer** is stored inside its block when this fits. -/
theorem simpleStores_inside_iff {allocated : Nat} {input : List UInt8} {count : UInt32}
    {lines : List (List UInt8)} (hlines : Yields input lines) :
    AllInside (simpleStores F memory allocated input count) ↔
      SimpleFits F memory allocated count lines := by
  rw [simpleStores, allInside_append, and_iff_right (getlineStores_inside input (by decide))]
  cases lines with
  | nil =>
      have hend : mixerGetline input [] = none := hlines
      rw [hend]
      exact ⟨fun _ => trivial, fun _ => allInside_nil⟩
  | cons output lines =>
      obtain ⟨rest, hget, hrest⟩ := hlines
      rw [hget]
      dsimp only
      rw [allInside_append, outputStores_inside_iff, SimpleFits]
      cases hparse : (mixerParseOutputScaler output : Option (Scaler F)) with
      | none =>
          have hother : ¬ IsOutput F output := by simp [IsOutput, hparse]
          exact ⟨fun _ h => absurd h hother, fun _ => ⟨fun h => absurd h hother, allInside_nil⟩⟩
      | some scaler =>
          have houtput : IsOutput F output := by simp [IsOutput, hparse]
          simp only [houtput, forall_const]
          cases hmemory : memory allocated (mixerSimpleSize count) with
          | false => simp [mallocBlock, hmemory]
          | true =>
              simp only [mallocBlock, hmemory, if_true, Option.mem_some_iff, exists_eq_left',
                true_and]
              constructor
              · rintro ⟨hscaler, hcontrols⟩
                have hall := (controlsStores_inside_iff hrest (by omega)).1 hcontrols
                omega
              · intro h
                have hscaler : 24 ≤ (mixerSimpleSize count).toNat := by omega
                refine ⟨hscaler, (controlsStores_inside_iff hrest (by omega)).2 ?_⟩
                omega

/-- Only a line with an M is scanned as a simple mixer. -/
theorem head_of_simple {line : List UInt8} {count : UInt32} (haccepted : Accepted line)
    (hscan : sscanf simpleFormat line = [.integer count]) : line.head? = some 0x4d := by
  have hsome : sscanf simpleFormat line ≠ [] := by
    rw [hscan]
    exact List.cons_ne_nil _ _
  exact head_of_sscanf haccepted.2 (by decide) hsome

theorem definitionFits_simple {allocated : Nat} {line : List UInt8} {lines : List (List UInt8)}
    {count : UInt32} (haccepted : Accepted line)
    (hscan : sscanf simpleFormat line = [.integer count]) :
    DefinitionFits F memory allocated (line :: lines) ↔
      SimpleFits F memory allocated count lines := by
  rw [DefinitionFits, head_of_simple haccepted hscan, hscan]
  constructor
  · intro h
    exact h.2 count rfl
  · intro h
    refine ⟨fun h' => ?_, fun count' h' => ?_⟩
    · cases h'
    · cases h'
      exact h

theorem definitionFits_other {allocated : Nat} {line : List UInt8} {lines : List (List UInt8)}
    (hother : ∀ count, sscanf simpleFormat line ≠ [.integer count]) :
    DefinitionFits F memory allocated (line :: lines) ↔
      (line.head? = some 0x52 → NameFits line) := by
  rw [DefinitionFits]
  exact and_iff_left fun count h => absurd h (hother count)

/-- **A definition** is stored inside its destinations when it fits. -/
theorem loadStores_inside_iff {allocated : Nat} {input : List UInt8}
    {lines : List (List UInt8)} (hlines : Yields input lines) :
    AllInside (loadStores F memory input allocated) ↔
      DefinitionFits F memory allocated lines := by
  rw [loadStores, allInside_append, and_iff_right (getlineStores_inside input (by decide))]
  cases lines with
  | nil =>
      have hend : mixerGetline input [] = none := hlines
      rw [hend]
      exact ⟨fun _ => trivial, fun _ => allInside_nil⟩
  | cons line lines =>
      have haccepted := hlines.accepted line List.mem_cons_self
      obtain ⟨rest, hget, hrest⟩ := hlines
      rw [hget]
      dsimp only
      by_cases hnull : line.head? = some 0x5a
      · have hother : ∀ count, sscanf simpleFormat line ≠ [.integer count] := by
          intro count hscan
          have hsimple := head_of_simple haccepted hscan
          rw [hnull] at hsimple
          cases hsimple
        rw [if_pos hnull, definitionFits_other hother, hnull]
        exact ⟨fun _ h => (by cases h), fun _ => allInside_nil⟩
      · obtain ⟨values, hvalues⟩ := sscanf_simple line
        rw [if_neg hnull, allInside_append, hvalues,
          and_iff_right (scanStores_inside (elements_inside 1) values), ← hvalues]
        split
        next count hscan =>
          rw [definitionFits_simple haccepted hscan]
          exact simpleStores_inside_iff hrest
        next hother =>
          rw [definitionFits_other hother]
          split
          next hmultirotor =>
            exact (multirotorStores_inside_iff line).trans ⟨fun h _ => h, fun h => h hmultirotor⟩
          next hmultirotor =>
            exact ⟨fun _ h => absurd h hmultirotor, fun _ => allInside_nil⟩

/-! ### A whole file -/

/-- The lines fit when the definition that comes first does, and what comes after it. -/
theorem linesFit_iff {allocated : Nat} {lines : List (List UInt8)} :
    LinesFit F memory allocated lines ↔ DefinitionFits F memory allocated lines ∧
      ∀ used more, ∀ entry : Entry F, lines = used ++ more → entry.Reads used →
        LinesFit F memory (allocated + entry.blocks) more := by
  constructor
  · intro h
    refine ⟨h [] lines [] rfl .nil, ?_⟩
    intro used more entry hlines hread good rest entries hmore hlists
    have hrest := h (used ++ good) rest (entry :: entries)
      (by rw [hlines, hmore, List.append_assoc]) (.cons hread hlists)
    rw [entryBlocks, ← Nat.add_assoc] at hrest
    exact hrest
  · rintro ⟨hfirst, hothers⟩ good rest entries hlines hlists
    cases hlists with
    | nil =>
        rw [List.nil_append] at hlines
        exact hlines ▸ hfirst
    | @cons used good entry entries hread hlists =>
        rw [List.append_assoc] at hlines
        rw [entryBlocks, ← Nat.add_assoc]
        exact hothers used (good ++ rest) entry hlines hread good rest entries rfl hlists

variable (memory) (heap : Nat → SimpleInfo F)

/-- **The loop** stores everything inside when the lines fit. -/
theorem loopStores_inside_iff {fuel allocated : Nat} {input : List UInt8}
    {lines : List (List UInt8)} (hlines : Yields input lines) (hfuel : input.length < fuel) :
    AllInside (loopStores memory heap fuel input allocated) ↔
      LinesFit F memory allocated lines := by
  induction fuel generalizing input allocated lines with
  | zero => exact absurd hfuel (Nat.not_lt_zero _)
  | succ fuel ih =>
      rw [loopStores, allInside_append, loadStores_inside_iff hlines, linesFit_iff]
      refine and_congr_right fun _ => ?_
      -- an entry that the lines start with is what is loaded
      have hfirst : ∀ used more, ∀ entry : Entry F, lines = used ++ more → entry.Reads used →
          ∃ rest, mixerLoad heap input allocated =
            .mixer (entry.mixer (heap allocated)) rest (allocated + entry.blocks) ∧
              Yields rest more := by
        rintro used more entry rfl hread
        exact mixerLoad_complete heap allocated hread hlines
      cases hload : mixerLoad heap input allocated with
      | error =>
          refine ⟨fun _ used more entry hsplit hread => ?_, fun _ => allInside_nil⟩
          obtain ⟨rest, hmixer, -⟩ := hfirst used more entry hsplit hread
          rw [hload] at hmixer
          cases hmixer
      | endOfFile =>
          refine ⟨fun _ used more entry hsplit hread => ?_, fun _ => allInside_nil⟩
          obtain ⟨rest, hmixer, -⟩ := hfirst used more entry hsplit hread
          rw [hload] at hmixer
          cases hmixer
      | mixer mixer rest allocated' =>
          obtain ⟨used, more, entry, hsplit, hread, -, hallocated, hmore, hless⟩ :=
            mixerLoad_sound hlines hload
          have hrest := @ih allocated' rest more hmore (by omega)
          dsimp only
          rw [hrest]
          constructor
          · intro h used' more' entry' hsplit' hread'
            obtain ⟨rest', hmixer, hmore'⟩ := hfirst used' more' entry' hsplit' hread'
            rw [hload] at hmixer
            obtain ⟨-, rfl, rfl⟩ := Loaded.mixer.inj hmixer
            exact hmore.unique hmore' ▸ h
          · intro h
            rw [hallocated]
            exact h used more entry hsplit hread

/-- **The loader stores everything inside its destinations** exactly when each definition that it
comes to fits: the name of a geometry has at most seven characters, and the block of a simple mixer
is there, and holds the controls that are declared and listed. -/
theorem stores_inside_iff (input : List UInt8) :
    (∀ place ∈ fileStores memory heap input, place.Inside) ↔
      LinesFit F memory 0 (fileLines input) :=
  loopStores_inside_iff memory heap (yields_fileLines input) (Nat.lt_succ_self _)

end

/-! ### A name that is too long -/

/-- A multirotor mixer with a name of nine characters: `R: quadrotor 1 1 1 1`. -/
def longNameFile : List UInt8 :=
  "R: quadrotor 1 1 1 1\n".toList.map fun c => UInt8.ofNat c.toNat

/-- Its last character is stored after the end of `geomname`. -/
theorem longNameFile_not_inside : ¬ ∀ (memory : Memory) (heap : Nat → SimpleInfo Rat)
    (input : List UInt8), ∀ place ∈ fileStores memory heap input, place.Inside := by
  intro h
  have houtside : (fileStores (fun _ _ => true) (fun _ => zeroInfo) longNameFile).all
      (fun place => decide place.Inside) = false := by decide +kernel
  rw [List.all_eq_false] at houtside
  obtain ⟨place, hplace, hnot⟩ := houtside
  exact hnot (decide_eq_true (h _ _ _ place hplace))

end Px4Firmware.Mixer
