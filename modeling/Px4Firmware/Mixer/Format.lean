import Mathlib.Algebra.Ring.Int.Defs
import Mathlib.Data.List.TakeWhile
import Px4Firmware.Mixer.Load

/-!
# Px4Firmware.Mixer.Format

The text format of mixer definitions (`mixer.h`), as a file should have it: what a definition looks
like on its lines, and the mixer it describes. The fields of a line are separated by blanks, and
there can be blanks at its end.

Nothing here comes from the loader. `sscanf_line` says what `sscanf` makes of such a line.
-/

namespace Px4Firmware.Mixer

/-! ### Fields -/

/-- A blank. -/
inductive Blank
  | space
  | tab

def Blank.byte : Blank → UInt8
  | .space => 0x20
  | .tab => 0x09

/-- The sign of a numeral. -/
inductive Sign
  | none
  | plus
  | minus

def Sign.bytes : Sign → List UInt8
  | .none => []
  | .plus => [0x2b]
  | .minus => [0x2d]

/-- A decimal numeral. -/
structure Numeral where
  sign : Sign
  digits : List (Fin 10)
  nonempty : digits ≠ []

def digitByte (digit : Fin 10) : UInt8 := 0x30 + UInt8.ofNat digit.val

def Numeral.bytes (n : Numeral) : List UInt8 := n.sign.bytes ++ n.digits.map digitByte

def Numeral.magnitude (n : Numeral) : Nat := n.digits.foldl (fun m digit => m * 10 + digit.val) 0

def Numeral.value (n : Numeral) : Int :=
  match n.sign with
  | .minus => -(n.magnitude : Int)
  | _ => n.magnitude

/-- An integer that is an `int`. -/
abbrev Integer := { n : Numeral // -2 ^ 31 ≤ n.value ∧ n.value < 2 ^ 31 }

/-- An integer that is an `unsigned`. -/
abbrev Unsigned := { n : Numeral // 0 ≤ n.value ∧ n.value < 2 ^ 32 }

/-- The name of a geometry. -/
def Geometry.name : Geometry → List UInt8
  | .quadPlus => [0x34, 0x2b]
  | .quadX => [0x34, 0x78]
  | .hexPlus => [0x36, 0x2b]
  | .hexX => [0x36, 0x78]
  | .octaPlus => [0x38, 0x2b]
  | .octaX => [0x38, 0x78]

/-- What a field holds. -/
inductive Token
  | integer (n : Numeral)
  | geometry (g : Geometry)

def Token.bytes : Token → List UInt8
  | .integer n => n.bytes
  | .geometry g => g.name

/-- A token with the blanks before it. -/
structure Spaced (α : Type) where
  blanks : List Blank
  separated : blanks ≠ []
  item : α

def Spaced.map {α β : Type} (f : α → β) (field : Spaced α) : Spaced β where
  blanks := field.blanks
  separated := field.separated
  item := f field.item

/-- A field of a line. -/
abbrev Field := Spaced Token

def Field.bytes (field : Field) : List UInt8 := field.blanks.map Blank.byte ++ field.item.bytes

/-- A field with a number. -/
def Field.number {p : Numeral → Prop} (field : Spaced (Subtype p)) : Field :=
  field.map fun n => .integer n.val

/-- A line of a definition. -/
def definitionLine (letter : UInt8) (fields : List Field) (trailing : List Blank) : List UInt8 :=
  letter :: colon :: (fields.flatMap Field.bytes ++ trailing.map Blank.byte)

/-! ### Definitions -/

/-- The text of a scaler. -/
structure ScalerText where
  negativeScale : Spaced Integer
  positiveScale : Spaced Integer
  offset : Spaced Integer
  lowerLimit : Spaced Integer
  upperLimit : Spaced Integer

def ScalerText.fields (s : ScalerText) : List Field :=
  [.number s.negativeScale, .number s.positiveScale, .number s.offset, .number s.lowerLimit,
    .number s.upperLimit]

/-- The line of an output scaler. -/
structure OutputText where
  scaler : ScalerText
  trailing : List Blank

def OutputText.line (o : OutputText) : List UInt8 :=
  definitionLine 0x4f o.scaler.fields o.trailing

/-- The line of a control input. -/
structure ControlText where
  group : Spaced Unsigned
  index : Spaced Unsigned
  scaler : ScalerText
  trailing : List Blank

def ControlText.fields (c : ControlText) : List Field :=
  .number c.group :: .number c.index :: c.scaler.fields

def ControlText.line (c : ControlText) : List UInt8 := definitionLine 0x53 c.fields c.trailing

/-- The lines of a simple mixer. -/
structure SimpleText where
  count : Spaced Unsigned
  trailing : List Blank
  output : OutputText
  inputs : List ControlText
  count_eq : count.item.val.value = inputs.length
  count_le : inputs.length ≤ 255

/-- The line that says how many inputs there are. -/
def SimpleText.header (t : SimpleText) : List UInt8 :=
  definitionLine 0x4d [.number t.count] t.trailing

def SimpleText.lines (t : SimpleText) : List (List UInt8) :=
  t.header :: t.output.line :: t.inputs.map ControlText.line

/-- The line of a multirotor mixer. -/
structure MultirotorText where
  geometry : Spaced Geometry
  rollScale : Spaced Integer
  pitchScale : Spaced Integer
  yawScale : Spaced Integer
  deadband : Spaced Integer
  trailing : List Blank

def MultirotorText.fields (t : MultirotorText) : List Field :=
  [t.geometry.map .geometry, .number t.rollScale, .number t.pitchScale, .number t.yawScale,
    .number t.deadband]

def MultirotorText.line (t : MultirotorText) : List UInt8 :=
  definitionLine 0x52 t.fields t.trailing

/-- A mixer definition. -/
inductive Definition
  | null (trailing : List Blank)
  | simple (t : SimpleText)
  | multirotor (t : MultirotorText)

def Definition.lines : Definition → List (List UInt8)
  | .null trailing => [definitionLine 0x5a [] trailing]
  | .simple t => t.lines
  | .multirotor t => [t.line]

/-! ### What a definition describes -/

section

variable {F : Type} [Arithmetic F]

/-- Values are scaled by 10000. -/
def Spaced.scaled (field : Spaced Integer) : F := (field.item.val.value : F) / 10000.0

def ScalerText.scaler (s : ScalerText) : Scaler F where
  negativeScale := s.negativeScale.scaled
  positiveScale := s.positiveScale.scaled
  offset := s.offset.scaled
  minOutput := s.lowerLimit.scaled
  maxOutput := s.upperLimit.scaled

/-- The control is the one that is listed. -/
def ControlText.Describes (c : ControlText) (control : Control F) : Prop :=
  (control.controlGroup.toNat : Int) = c.group.item.val.value ∧
    (control.controlIndex.toNat : Int) = c.index.item.val.value ∧
    control.scaler = c.scaler.scaler

/-- The mixer is the one that is listed: a simple mixer has the output scaler, and its control
inputs are exactly those that are listed. -/
def Definition.Describes : Definition → AnyMixer F → Prop
  | .null _, .null => True
  | .simple t, .simple (some info) =>
      info.controlCount.toNat = t.inputs.length ∧ info.outputScaler = t.output.scaler.scaler ∧
        ∀ i (h : i < t.inputs.length), t.inputs[i].Describes (info.controls i)
  | .multirotor t, .multirotor m =>
      m = multirotorMixer t.geometry.item t.rollScale.scaled t.pitchScale.scaled t.yawScale.scaled
        t.deadband.scaled
  | _, _ => False

end

/-! ### Scanning a line -/

/-- What a field is scanned with. -/
def Token.directive : Token → Directive
  | .integer _ => .integer
  | .geometry _ => .string

/-- What it is scanned as. -/
def Token.assigned : Token → Assigned
  | .integer n => .integer (UInt32.ofInt n.value)
  | .geometry g => .string g.name

theorem isspace_blank (blank : Blank) : isspace blank.byte = true := by
  cases blank <;> decide

theorem digitByte_spec (digit : Fin 10) :
    isBaseDigit (digitByte digit) = true ∧ isspace (digitByte digit) = false ∧
      digitByte digit ≠ 0 ∧ digitByte digit ≠ 0x2b ∧ digitByte digit ≠ 0x2d ∧
      (digitByte digit - 0x30).toUInt32 = UInt32.ofNat digit.val := by
  revert digit
  decide

theorem accumulate_digits (accum : Nat) (digits : List (Fin 10)) :
    accumulate (UInt32.ofNat accum) (digits.map digitByte) =
      UInt32.ofNat (digits.foldl (fun m digit => m * 10 + digit.val) accum) := by
  induction digits generalizing accum with
  | nil => rfl
  | cons digit digits ih =>
      obtain ⟨hdigit, -, -, -, -, hvalue⟩ := digitByte_spec digit
      rw [List.map_cons, accumulate, if_pos hdigit, hvalue, List.foldl_cons, ← ih]
      rw [UInt32.ofNat_add, UInt32.ofNat_mul]
      rfl

/-- Nothing in a numeral is white space or a NUL. -/
theorem numeral_byte {n : Numeral} {c : UInt8} (h : c ∈ n.bytes) : isspace c = false ∧ c ≠ 0 := by
  unfold Numeral.bytes at h
  rcases List.mem_append.mp h with hsign | hdigit
  · cases hs : n.sign with
    | none => rw [hs] at hsign; cases hsign
    | plus => rw [hs] at hsign; cases List.mem_singleton.mp hsign; decide
    | minus => rw [hs] at hsign; cases List.mem_singleton.mp hsign; decide
  · obtain ⟨digit, -, rfl⟩ := List.mem_map.mp hdigit
    exact ⟨(digitByte_spec digit).2.1, (digitByte_spec digit).2.2.1⟩

theorem skipSpace_of_not {s : List UInt8} (h : ∀ c ∈ s, isspace c = false) : skipSpace s = s := by
  cases s with
  | nil => rfl
  | cons c s =>
      unfold skipSpace
      rw [List.dropWhile_cons, if_neg (by simp [h c List.mem_cons_self])]

theorem strtoul_digits (digits : List (Fin 10)) :
    strtoul (digits.map digitByte) =
      UInt32.ofNat (digits.foldl (fun m digit => m * 10 + digit.val) 0) := by
  unfold strtoul
  rw [skipSpace_of_not]
  · exact accumulate_digits 0 digits
  · intro c hc
    obtain ⟨digit, -, rfl⟩ := List.mem_map.mp hc
    exact (digitByte_spec digit).2.1

theorem ofInt_natCast (n : Nat) : UInt32.ofInt (n : Int) = UInt32.ofNat n := by
  apply UInt32.toNat_inj.mp
  unfold UInt32.ofInt
  rw [UInt32.toNat_ofNat', UInt32.toNat_ofNat']
  omega

/-- The bits of an `int` are those of its value. -/
theorem toInt_ofInt {v : Int} (hlo : -2 ^ 31 ≤ v) (hhi : v < 2 ^ 31) :
    (UInt32.ofInt v).toInt32.toInt = v := by
  have hnat : ((v % 2 ^ 32).toNat : Int) = v % 2 ^ 32 := Int.toNat_of_nonneg (by omega)
  have hsize : (Int32.size : Int) = 2 ^ 32 := rfl
  unfold UInt32.ofInt
  rw [UInt32.toInt32_ofNat', Int32.toInt_ofNat', Int.bmod_def, hsize, hnat]
  omega

theorem toNat_ofInt {v : Int} (hlo : 0 ≤ v) (hhi : v < 2 ^ 32) :
    ((UInt32.ofInt v).toNat : Int) = v := by
  unfold UInt32.ofInt
  rw [UInt32.toNat_ofNat']
  omega

/-- `strtol` of a numeral is its value. -/
theorem strtol_numeral (n : Numeral) : strtol n.bytes = UInt32.ofInt n.value := by
  have hskip : skipSpace n.bytes = n.bytes := skipSpace_of_not fun c hc => (numeral_byte hc).1
  have hdigits : strtoul (n.digits.map digitByte) = UInt32.ofInt (n.magnitude : Int) := by
    rw [ofInt_natCast]
    exact strtoul_digits n.digits
  unfold strtol Numeral.value
  rw [hskip]
  unfold Numeral.bytes
  cases n.sign with
  | none =>
      obtain ⟨digit, digits, heq⟩ := List.exists_cons_of_ne_nil n.nonempty
      obtain ⟨-, -, -, hplus, hminus, -⟩ := digitByte_spec digit
      have hhead : ∀ c, digitByte digit ≠ c → (n.digits.map digitByte).head? ≠ some c := by
        intro c hc h
        rw [heq] at h
        exact hc (Option.some.inj h)
      rw [Sign.bytes, List.nil_append, if_neg (hhead _ hminus), if_neg (hhead _ hplus)]
      exact hdigits
  | plus => exact hdigits
  | minus =>
      show -strtoul (n.digits.map digitByte) = _
      rw [hdigits, UInt32.ofInt_neg]

/-! ### Fields -/

theorem token_byte {token : Token} {c : UInt8} (h : c ∈ token.bytes) :
    isspace c = false ∧ c ≠ 0 := by
  cases token with
  | integer n => exact numeral_byte h
  | geometry g =>
      have hname : g.name.all (fun c => !isspace c && c != 0) = true := by
        cases g <;> decide
      simpa using List.all_eq_true.mp hname c h

theorem token_ne_nil (token : Token) : token.bytes ≠ [] := by
  cases token with
  | integer n =>
      intro h
      exact n.nonempty (List.map_eq_nil_iff.mp (List.append_eq_nil_iff.mp h).2)
  | geometry g => cases g <;> decide

/-- A field ends here. -/
def Ends (s : List UInt8) : Prop := ∀ c, s.head? = some c → isspace c = true

theorem ends_blanks (blanks : List Blank) : Ends (blanks.map Blank.byte) := by
  cases blanks with
  | nil => nofun
  | cons blank blanks =>
      rintro _ ⟨⟩
      exact isspace_blank blank

theorem ends_fields {fields : List Field} {tail : List UInt8} (htail : Ends tail) :
    Ends (fields.flatMap Field.bytes ++ tail) := by
  cases fields with
  | nil => exact htail
  | cons field fields =>
      obtain ⟨blank, blanks, heq⟩ := List.exists_cons_of_ne_nil field.separated
      intro c h
      rw [List.flatMap_cons, Field.bytes, heq] at h
      cases h
      exact isspace_blank blank

/-- A field is scanned with its directive, and what comes after it is left. -/
theorem vsscanf_field {field : Field} {fmt : List Directive} {rest : List UInt8}
    (hrest : Ends rest) :
    vsscanf (field.item.directive :: fmt) (field.bytes ++ rest) =
      field.item.assigned :: vsscanf fmt rest := by
  have hstop : rest.takeWhile (fun c => !isspace c) = [] := by
    cases rest with
    | nil => rfl
    | cons c rest => exact List.takeWhile_cons_of_neg (by simp [hrest c rfl])
  have hinside : ∀ c ∈ field.item.bytes, (!isspace c) = true := by
    intro c hc
    simp [(token_byte hc).1]
  have hskip : skipSpace (field.bytes ++ rest) = field.item.bytes ++ rest := by
    obtain ⟨c, word, hword⟩ := List.exists_cons_of_ne_nil (token_ne_nil field.item)
    have hc : isspace c = false := (token_byte (hword ▸ List.mem_cons_self)).1
    unfold skipSpace Field.bytes
    rw [List.append_assoc, List.dropWhile_append_of_pos]
    · rw [hword, List.cons_append, List.dropWhile_cons, if_neg (by simp [hc])]
    · intro c hc
      obtain ⟨blank, -, rfl⟩ := List.mem_map.mp hc
      exact isspace_blank blank
  have hword : nextField (field.bytes ++ rest) = field.item.bytes := by
    rw [nextField, hskip, List.takeWhile_append_of_pos hinside, hstop, List.append_nil]
  have hmore : field.bytes ++ rest ≠ [] := by
    intro h
    exact token_ne_nil field.item
      (List.append_eq_nil_iff.mp (List.append_eq_nil_iff.mp h).1).2
  have hleft : (skipSpace (field.bytes ++ rest)).drop (nextField (field.bytes ++ rest)).length =
      rest := by
    rw [hskip, hword, List.drop_left]
  cases hitem : field.item with
  | integer n =>
      rw [Token.directive, vsscanf_integer hmore, hleft, hword, hitem, Token.bytes,
        strtol_numeral, Token.assigned]
  | geometry g =>
      rw [Token.directive, vsscanf_string hmore, hleft, hword, hitem, Token.bytes, Token.assigned]

theorem vsscanf_fields {fields : List Field} {tail : List UInt8} (htail : Ends tail) :
    vsscanf (fields.map fun field => field.item.directive) (fields.flatMap Field.bytes ++ tail) =
      fields.map fun field => field.item.assigned := by
  induction fields with
  | nil => rfl
  | cons field fields ih =>
      rw [List.map_cons, List.flatMap_cons, List.append_assoc, vsscanf_field (ends_fields htail),
        ih, List.map_cons]

/-- There is no NUL in a line of a definition. -/
theorem definitionLine_byte {letter c : UInt8} {fields : List Field} {trailing : List Blank}
    (hnul : letter ≠ 0) (hc : c ∈ definitionLine letter fields trailing) : c ≠ 0 := by
  have hblank : ∀ blank : Blank, blank.byte ≠ 0 := by
    intro blank
    cases blank <;> decide
  unfold definitionLine at hc
  rcases List.mem_cons.mp hc with rfl | hc
  · exact hnul
  rcases List.mem_cons.mp hc with rfl | hc
  · decide
  rcases List.mem_append.mp hc with hfield | htrailing
  · obtain ⟨field, -, hfield⟩ := List.mem_flatMap.mp hfield
    rcases List.mem_append.mp hfield with hseparator | htoken
    · obtain ⟨blank, -, rfl⟩ := List.mem_map.mp hseparator
      exact hblank blank
    · exact (token_byte htoken).2
  · obtain ⟨blank, -, rfl⟩ := List.mem_map.mp htrailing
    exact hblank blank

theorem takeWhile_definitionLine {letter : UInt8} (fields : List Field) (trailing : List Blank)
    (hnul : letter ≠ 0) :
    (definitionLine letter fields trailing).takeWhile (· ≠ 0) =
      definitionLine letter fields trailing := by
  rw [List.takeWhile_eq_self_iff]
  intro c hc
  rw [decide_eq_true_eq]
  exact definitionLine_byte hnul hc

/-- A line of a definition is scanned field by field. -/
theorem sscanf_line (letter : UInt8) (fields : List Field) (trailing : List Blank)
    (hspace : isspace letter = false) (hnul : letter ≠ 0) :
    sscanf (.literal letter :: .literal colon :: fields.map fun field => field.item.directive)
        (definitionLine letter fields trailing) =
      fields.map fun field => field.item.assigned := by
  rw [sscanf, takeWhile_definitionLine fields trailing hnul, definitionLine,
    vsscanf_literal hspace, vsscanf_literal (by decide), vsscanf_fields (ends_blanks trailing)]

end Px4Firmware.Mixer
