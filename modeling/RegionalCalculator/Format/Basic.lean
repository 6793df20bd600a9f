import RegionalCalculator.Text.Blank

/-!
# Number formats

A number format says which character separates the decimals of a number and which
one, if any, groups the digits of its integer part. The two marks are types of
their own, so every value of `NumberFormat` is a format that the calculator
accepts; characters that come from outside go through `NumberFormat.ofChars`.
-/

namespace RegionalCalculator

/-!
# Marks
-/

inductive DecimalMark where
  | point
  | comma
deriving DecidableEq, Repr

/-- The grouping marks. `space` stands for a family of three spaces. -/
inductive GroupMark where
  | comma
  | point
  | apostrophe
  | space
deriving DecidableEq, Repr

namespace DecimalMark

def toChar : DecimalMark -> Char
  | point => '.'
  | comma => ','

def ofChar? : Char -> Option DecimalMark
  | '.' => some point
  | ',' => some comma
  | _ => none

theorem toChar_inj {a b : DecimalMark} : a.toChar = b.toChar <-> a = b := by
  cases a <;> cases b <;> decide

end DecimalMark

namespace GroupMark

/-- The space, the no-break space and the narrow no-break space group digits alike. -/
def spaces : List Char :=
  ['\u0020', '\u00a0', '\u202f']

def toChar : GroupMark -> Char
  | comma => ','
  | point => '.'
  | apostrophe => '\x27'
  | space => ' '

def covers : GroupMark -> Char -> Bool
  | space, c => spaces.contains c
  | mark, c => c == mark.toChar

def ofChar? (c : Char) : Option GroupMark :=
  [comma, point, apostrophe, space].find? fun mark => mark.covers c

def chars : List Char :=
  [',', '.', '\x27'] ++ spaces

theorem covers_eq_beq {mark : GroupMark} (h : mark ≠ space) (c : Char) :
    mark.covers c = (c == mark.toChar) := by
  cases mark with
  | space => exact absurd rfl h
  | comma => rfl
  | point => rfl
  | apostrophe => rfl

theorem covers_cases {mark : GroupMark} {c : Char} (h : mark.covers c = true) :
    c ∈ spaces ∨ c = mark.toChar := by
  by_cases hspace : mark = space
  · rw [hspace] at h
    exact Or.inl (List.contains_iff_mem.mp h)
  · rw [covers_eq_beq hspace] at h
    exact Or.inr (eq_of_beq h)

theorem mem_chars_of_covers {mark : GroupMark} {c : Char} (h : mark.covers c = true) :
    c ∈ chars := by
  rcases covers_cases h with hspace | htoChar
  · exact List.mem_append_right _ hspace
  · rw [htoChar]
    cases mark <;> decide

theorem covers_toChar (mark : GroupMark) : mark.covers mark.toChar = true := by
  cases mark <;> decide

theorem ofChar?_toChar (mark : GroupMark) : ofChar? mark.toChar = some mark := by
  cases mark <;> decide

end GroupMark

/-!
# Formats
-/

/-- `hidesDecimals` concerns the display of a result only; reading ignores it. -/
structure NumberFormat where
  decimal : DecimalMark
  group : Option GroupMark
  hidesDecimals : Bool := false
deriving DecidableEq, Repr

inductive FormatError where
  | unknownName (name : String)
  | badDecimal (c : Char)
  | badGroup (c : Char)
deriving DecidableEq, Repr

def FormatError.message : FormatError -> String
  | .unknownName name => s!"format inconnu \"{name}\""
  | .badDecimal c => s!"séparateur décimal invalide '{c}' (attendu '.' ou ',')"
  | .badGroup c => s!"séparateur de milliers invalide '{c}'"

namespace NumberFormat

/-- The format with these two characters. The decimal mark is checked first. -/
def ofChars (decimal : Char) (group : Option Char) : Except FormatError NumberFormat :=
  match DecimalMark.ofChar? decimal, group with
  | none, _ => .error (.badDecimal decimal)
  | some decimalMark, none => .ok { decimal := decimalMark, group := none }
  | some decimalMark, some c =>
      match GroupMark.ofChar? c with
      | none => .error (.badGroup c)
      | some groupMark => .ok { decimal := decimalMark, group := some groupMark }

def isDecimal (f : NumberFormat) (c : Char) : Bool :=
  c == f.decimal.toChar

def isGroup (f : NumberFormat) (c : Char) : Bool :=
  f.group.any fun mark => mark.covers c

/-- One character plays both roles, so that only its last occurrence in a number is
the decimal mark. -/
def isAmbiguous (f : NumberFormat) : Bool :=
  f.group.any fun mark => mark.toChar == f.decimal.toChar

def belongs (f : NumberFormat) (c : Char) : Bool :=
  c.isDigit || f.isDecimal c || f.isGroup c

def sameMarks (f g : NumberFormat) : Bool :=
  f.decimal == g.decimal && f.group == g.group

theorem ofChars_eq_ok {decimal : Char} {group : Option Char} {f : NumberFormat}
    (h : ofChars decimal group = .ok f) :
    DecimalMark.ofChar? decimal = some f.decimal ∧ f.group = group.bind GroupMark.ofChar? := by
  unfold ofChars at h
  split at h
  · cases h
  · rename_i hdecimal
    cases h
    exact ⟨hdecimal, rfl⟩
  · rename_i hdecimal
    split at h
    · cases h
    · rename_i hgroup
      cases h
      exact ⟨hdecimal, hgroup.symm⟩

theorem isDecimal_eq_true_iff {f : NumberFormat} {c : Char} :
    f.isDecimal c = true <-> c = f.decimal.toChar := by
  simp [isDecimal]

theorem isDecimal_congr {f g : NumberFormat} (h : g.decimal = f.decimal) :
    g.isDecimal = f.isDecimal := by
  funext c
  rw [isDecimal, isDecimal, h]

theorem isGroup_of_group_none {f : NumberFormat} (h : f.group = none) (c : Char) :
    f.isGroup c = false := by
  simp [isGroup, h]

theorem isGroup_of_group_some {f : NumberFormat} {mark : GroupMark}
    (h : f.group = some mark) (c : Char) : f.isGroup c = mark.covers c := by
  simp [isGroup, h]

theorem isGroup_eq_true_iff {f : NumberFormat} {c : Char} :
    f.isGroup c = true <-> exists mark, f.group = some mark ∧ mark.covers c = true := by
  cases hgroup : f.group with
  | none => simp [isGroup, hgroup]
  | some mark => simp [isGroup, hgroup]

theorem sameMarks_iff {f g : NumberFormat} :
    f.sameMarks g = true <-> f.decimal = g.decimal ∧ f.group = g.group := by
  simp [sameMarks]

theorem sameMarks_refl (f : NumberFormat) : f.sameMarks f = true :=
  sameMarks_iff.mpr ⟨rfl, rfl⟩

theorem belongs_of_isDigit (f : NumberFormat) {c : Char} (h : c.isDigit = true) :
    f.belongs c = true := by
  rw [belongs, h, Bool.true_or, Bool.true_or]

theorem belongs_of_isDecimal {f : NumberFormat} {c : Char} (h : f.isDecimal c = true) :
    f.belongs c = true := by
  rw [belongs, h, Bool.or_true, Bool.true_or]

theorem belongs_of_isGroup {f : NumberFormat} {c : Char} (h : f.isGroup c = true) :
    f.belongs c = true := by
  rw [belongs, h, Bool.or_true]

theorem isDecimal_eq_false {property : Char -> Bool} (hpoint : property '.' = false)
    (hcomma : property ',' = false) (f : NumberFormat) {c : Char} (h : property c = true) :
    f.isDecimal c = false := by
  rw [Bool.eq_false_iff]
  intro hdecimal
  rw [isDecimal_eq_true_iff.mp hdecimal] at h
  cases hmark : f.decimal with
  | point =>
      rw [hmark, DecimalMark.toChar, hpoint] at h
      cases h
  | comma =>
      rw [hmark, DecimalMark.toChar, hcomma] at h
      cases h

theorem isDecimal_of_isDigit (f : NumberFormat) {c : Char} (h : c.isDigit = true) :
    f.isDecimal c = false :=
  isDecimal_eq_false rfl rfl f h

theorem isDecimal_of_isBlank (f : NumberFormat) {c : Char} (h : Text.isBlank c = true) :
    f.isDecimal c = false :=
  isDecimal_eq_false rfl rfl f h

theorem isDigit_toChar_decimal (f : NumberFormat) : f.decimal.toChar.isDigit = false := by
  cases f.decimal <;> rfl

theorem isDigit_of_isGroup {f : NumberFormat} {c : Char} (h : f.isGroup c = true) :
    c.isDigit = false := by
  rcases isGroup_eq_true_iff.mp h with ⟨mark, _, hcovers⟩
  have hchars : GroupMark.chars.any Char.isDigit = false := rfl
  rw [Bool.eq_false_iff]
  exact List.any_eq_false.mp hchars c (GroupMark.mem_chars_of_covers hcovers)

theorem isGroup_of_isDigit (f : NumberFormat) {c : Char} (h : c.isDigit = true) :
    f.isGroup c = false := by
  rw [Bool.eq_false_iff]
  intro hgroup
  rw [isDigit_of_isGroup hgroup] at h
  cases h

theorem isGroup_of_isBlank (f : NumberFormat) {c : Char} (h : Text.isBlank c = true) :
    f.isGroup c = true <-> f.group = some .space ∧ c ∈ GroupMark.spaces := by
  rw [isGroup_eq_true_iff]
  constructor
  · rintro ⟨mark, hmark, hcovers⟩
    cases mark with
    | space => exact ⟨hmark, List.contains_iff_mem.mp hcovers⟩
    | comma =>
        cases eq_of_beq hcovers
        cases h
    | point =>
        cases eq_of_beq hcovers
        cases h
    | apostrophe =>
        cases eq_of_beq hcovers
        cases h
  · rintro ⟨hspace, hmem⟩
    exact ⟨.space, hspace, List.contains_iff_mem.mpr hmem⟩

theorem belongs_of_isBlank (f : NumberFormat) {c : Char} (h : Text.isBlank c = true) :
    f.belongs c = true <-> f.group = some .space ∧ c ∈ GroupMark.spaces := by
  rw [belongs, Text.isDigit_of_isBlank h, f.isDecimal_of_isBlank h, Bool.or_self, Bool.false_or,
    f.isGroup_of_isBlank h]

theorem isDecimal_of_isGroup {f : NumberFormat} (hambiguous : f.isAmbiguous = false) {c : Char}
    (h : f.isGroup c = true) : f.isDecimal c = false := by
  rcases isGroup_eq_true_iff.mp h with ⟨mark, hmark, hcovers⟩
  have hother : (mark.toChar == f.decimal.toChar) = false := by
    rw [isAmbiguous, hmark] at hambiguous
    exact hambiguous
  rcases GroupMark.covers_cases hcovers with hspace | htoChar
  · have hblank : GroupMark.spaces.all Text.isBlank = true := rfl
    exact f.isDecimal_of_isBlank (List.all_eq_true.mp hblank c hspace)
  · rw [isDecimal, htoChar, hother]

theorem eq_toChar_of_isAmbiguous {f : NumberFormat} (hambiguous : f.isAmbiguous = true) {c : Char}
    (h : f.isGroup c = true) : c = f.decimal.toChar := by
  rcases isGroup_eq_true_iff.mp h with ⟨mark, hmark, hcovers⟩
  have hsame : mark.toChar = f.decimal.toChar := by
    rw [isAmbiguous, hmark] at hambiguous
    exact eq_of_beq hambiguous
  have hother : mark ≠ .space := by
    rintro rfl
    cases hdecimal : f.decimal with
    | point =>
        rw [hdecimal] at hsame
        cases hsame
    | comma =>
        rw [hdecimal] at hsame
        cases hsame
  rw [GroupMark.covers_eq_beq hother] at hcovers
  exact (eq_of_beq hcovers).trans hsame

end NumberFormat
end RegionalCalculator
