import RegionalCalculator.Format.Basic

/-!
# Named formats

The formats that the calculator offers by name, in the order of its selector. A
name is read without regard to surrounding blanks or to the case of its letters.
-/

namespace RegionalCalculator

/-- Each name gives the grouping mark, then the decimal mark. -/
inductive NamedFormat where
  | commaDot
  | dotComma
  | spaceComma
  | spaceDot
  | apostropheDot
  | commaDotIndia
  | dotDot
  | commaComma
deriving DecidableEq, Repr

namespace NamedFormat

def all : List NamedFormat :=
  [commaDot, dotComma, spaceComma, spaceDot, apostropheDot, commaDotIndia, dotDot, commaComma]

def name : NamedFormat -> String
  | commaDot => "comma-dot"
  | dotComma => "dot-comma"
  | spaceComma => "space-comma"
  | spaceDot => "space-dot"
  | apostropheDot => "apostrophe-dot"
  | commaDotIndia => "comma-dot-in"
  | dotDot => "dot-dot"
  | commaComma => "comma-comma"

/-- Groups of two digits, as in India, are read like groups of three: where a
grouping mark stands in the integer part makes no difference. -/
def format : NamedFormat -> NumberFormat
  | commaDot => { decimal := .point, group := some .comma }
  | dotComma => { decimal := .comma, group := some .point }
  | spaceComma => { decimal := .comma, group := some .space }
  | spaceDot => { decimal := .point, group := some .space }
  | apostropheDot => { decimal := .point, group := some .apostrophe }
  | commaDotIndia => { decimal := .point, group := some .comma }
  | dotDot => { decimal := .point, group := some .point }
  | commaComma => { decimal := .comma, group := some .comma }

theorem mem_all (n : NamedFormat) : n ∈ all := by
  cases n <;> decide

/-!
# Names from outside
-/

def ofText (text : String) : Except FormatError NamedFormat :=
  let wanted := Text.trim text.toList
  match all.find? fun candidate => wanted.map Char.toLower == candidate.name.toList with
  | some found => .ok found
  | none => .error (.unknownName (String.ofList wanted))

def matching? (f : NumberFormat) : Option NamedFormat :=
  all.find? fun candidate => candidate.format.sameMarks f

theorem sameMarks_of_matching? {f : NumberFormat} {n : NamedFormat}
    (h : matching? f = some n) : n.format.sameMarks f = true := by
  rw [matching?] at h
  have hfound := List.find?_some h
  exact hfound

theorem exists_matching? {f : NumberFormat} {n : NamedFormat}
    (h : n.format.sameMarks f = true) : exists m, matching? f = some m :=
  Option.isSome_iff_exists.mp (List.find?_isSome.mpr ⟨n, n.mem_all, h⟩)

end NamedFormat

def NumberFormat.standard : NumberFormat :=
  NamedFormat.commaDot.format

end RegionalCalculator
