/-!
# Px4Firmware.Mixer.Scan

What the mixer loader reads a file with: `mixer_getline` of `mixer_group.cpp`, and `sscanf` of the C
library (`lib_sscanf.c`, `lib_strtol.c`, `lib_strtoul.c`) with the conversions that the loader uses.

A format is a list of directives. White space in a format only matters for `findwidth`, which finds
the end of a field: in the formats of the loader every conversion comes before white space or at the
end, and a field ends at white space.
-/

namespace Px4Firmware.Mixer

/-- `':'`. -/
def colon : UInt8 := 0x3a

/-- `'\n'`. -/
def newline : UInt8 := 0x0a

/-- `'\r'`. -/
def carriageReturn : UInt8 := 0x0d

/-! ### Lines -/

/-- `mixer_getline` with a buffer of 60 characters: the next line that counts, and what comes after
it. The end of the file drops a line that is not terminated. -/
def mixerGetline : List UInt8 → List UInt8 → Option (List UInt8 × List UInt8)
  | [], _ => none
  | c :: input, line =>
      if c = carriageReturn then
        mixerGetline input line
      else if c = newline then
        -- malformed lines are ignored
        if line.length < 4 then
          mixerGetline input []
        else if (line)[1]? ≠ some colon then
          mixerGetline input []
        else
          some (line, input)
      else if line.length < 59 then
        mixerGetline input (line ++ [c])
      else
        mixerGetline input line

/-- What is left of a line. -/
def content (line : List UInt8) : List UInt8 := line.filter (· ≠ carriageReturn)

/-- The lines that count. -/
def Accepted (line : List UInt8) : Prop := 4 ≤ line.length ∧ (line)[1]? = some colon

instance : DecidablePred Accepted := fun line => by
  unfold Accepted
  infer_instance

/-- A whole line that is not too long. -/
theorem mixerGetline_append {line : List UInt8} (rest acc : List UInt8) (hline : newline ∉ line)
    (hlength : acc.length + (content line).length < 60) :
    mixerGetline (line ++ newline :: rest) acc =
      if Accepted (acc ++ content line) then
        some (acc ++ content line, rest)
      else
        mixerGetline rest [] := by
  induction line generalizing acc with
  | nil =>
      rw [List.nil_append, mixerGetline, if_neg (by decide), if_pos rfl, content, List.filter_nil,
        List.append_nil]
      by_cases hshort : acc.length < 4
      · rw [if_pos hshort, if_neg fun h : Accepted acc => absurd h.1 (Nat.not_le.mpr hshort)]
      · by_cases hcolon : acc[1]? = some colon
        · have haccepted : Accepted acc := ⟨Nat.not_lt.mp hshort, hcolon⟩
          rw [if_neg hshort, if_neg (not_not_intro hcolon), if_pos haccepted]
        · rw [if_neg hshort, if_pos hcolon, if_neg fun h : Accepted acc => hcolon h.2]
  | cons c line ih =>
      rw [List.mem_cons, not_or] at hline
      rw [List.cons_append, mixerGetline]
      by_cases hreturn : c = carriageReturn
      · have hcontent : content (c :: line) = content line :=
          List.filter_cons_of_neg (by simp [hreturn])
        rw [if_pos hreturn, hcontent]
        rw [hcontent] at hlength
        exact ih _ hline.2 hlength
      · have hcontent : content (c :: line) = c :: content line :=
          List.filter_cons_of_pos (by simp [hreturn])
        rw [hcontent, List.length_cons] at hlength
        have hspace : (acc ++ [c]).length + (content line).length < 60 := by
          rw [List.length_append, List.length_singleton]
          omega
        have hrest := ih _ hline.2 hspace
        rw [List.append_assoc, List.singleton_append] at hrest
        rw [if_neg hreturn, if_neg (Ne.symm hline.1), if_pos (by omega), hcontent]
        exact hrest

/-! ### Numbers -/

/-- `isspace`, and the characters at which a field ends. -/
def isspace (c : UInt8) : Bool :=
  c = 0x20 || c = 0x09 || c = 0x0a || c = 0x0d || c = 0x0c || c = 0x0b

/-- `lib_skipspace`. -/
def skipSpace (s : List UInt8) : List UInt8 := s.dropWhile isspace

/-- `lib_isbasedigit` for base 10. -/
def isBaseDigit (c : UInt8) : Bool := 0x30 ≤ c && c ≤ 0x39

/-- The loop of `strtoul`. -/
def accumulate : UInt32 → List UInt8 → UInt32
  | accum, [] => accum
  | accum, c :: s =>
      if isBaseDigit c then
        accumulate (accum * 10 + (c - 0x30).toUInt32) s
      else
        accum

/-- `strtoul` for base 10. -/
def strtoul (s : List UInt8) : UInt32 := accumulate 0 (skipSpace s)

/-- `strtol` for base 10: the bits of the result. -/
def strtol (s : List UInt8) : UInt32 :=
  let s := skipSpace s
  if s.head? = some 0x2d then
    -strtoul s.tail
  else if s.head? = some 0x2b then
    strtoul s.tail
  else
    strtoul s

/-! ### Formats -/

/-- A part of a format. -/
inductive Directive
  | literal (c : UInt8)
  | integer
  | string

/-- A value that is assigned. -/
inductive Assigned
  | integer (bits : UInt32)
  | string (s : List UInt8)

/-- `vsscanf`: the values that are assigned. It returns how many there are. -/
def vsscanf : List Directive → List UInt8 → List Assigned
  | [], _ => []
  | _ :: _, [] => []
  | .literal c :: fmt, buf =>
      match skipSpace buf with
      | [] => []
      | b :: buf => if c = b then vsscanf fmt buf else []
  | .integer :: fmt, buf =>
      let buf := skipSpace buf
      let field := buf.takeWhile fun c => !isspace c
      .integer (strtol field) :: vsscanf fmt (buf.drop field.length)
  | .string :: fmt, buf =>
      let buf := skipSpace buf
      let field := buf.takeWhile fun c => !isspace c
      .string field :: vsscanf fmt (buf.drop field.length)

/-- What is left after white space, up to the next white space. -/
def nextField (buf : List UInt8) : List UInt8 := (skipSpace buf).takeWhile fun c => !isspace c

theorem vsscanf_integer {fmt : List Directive} {buf : List UInt8} (hbuf : buf ≠ []) :
    vsscanf (.integer :: fmt) buf = .integer (strtol (nextField buf)) ::
      vsscanf fmt ((skipSpace buf).drop (nextField buf).length) := by
  cases buf with
  | nil => exact absurd rfl hbuf
  | cons c buf => rfl

theorem vsscanf_string {fmt : List Directive} {buf : List UInt8} (hbuf : buf ≠ []) :
    vsscanf (.string :: fmt) buf = .string (nextField buf) ::
      vsscanf fmt ((skipSpace buf).drop (nextField buf).length) := by
  cases buf with
  | nil => exact absurd rfl hbuf
  | cons c buf => rfl

/-- A literal at the start of the rest. -/
theorem vsscanf_literal {c : UInt8} {fmt : List Directive} {buf : List UInt8}
    (hspace : isspace c = false) : vsscanf (.literal c :: fmt) (c :: buf) = vsscanf fmt buf := by
  have hskip : skipSpace (c :: buf) = c :: buf := by
    rw [skipSpace, List.dropWhile_cons, if_neg (by simp [hspace])]
  rw [vsscanf, hskip]
  · exact if_pos rfl
  · nofun

theorem vsscanf_literal_of_ne {b c : UInt8} {fmt : List Directive} {buf : List UInt8}
    (hspace : isspace b = false) (hne : c ≠ b) : vsscanf (.literal c :: fmt) (b :: buf) = [] := by
  have hskip : skipSpace (b :: buf) = b :: buf := by
    rw [skipSpace, List.dropWhile_cons, if_neg (by simp [hspace])]
  rw [vsscanf, hskip]
  · exact if_neg hne
  · nofun

/-- `sscanf` of a line: a string ends at the first NUL. -/
def sscanf (fmt : List Directive) (line : List UInt8) : List Assigned :=
  vsscanf fmt (line.takeWhile (· ≠ 0))

end Px4Firmware.Mixer
