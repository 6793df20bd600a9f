import RegionalCalculator.Token.Stream

/-!
# Scanning an entry

The scanner cuts an entry into tokens from left to right. Blanks between tokens
are skipped. A number takes as many characters as it can: digits, decimal marks,
and grouping marks that stand right before a digit. Whether its text makes sense
as a number is checked only afterwards: where the point is the decimal mark,
`1.2.3` is one malformed literal and not two numbers.
-/

namespace RegionalCalculator
namespace Scan

def byteLength : List Char -> Nat
  | [] => 0
  | c :: rest => c.utf8Size + byteLength rest

def startsWithDigit (text : List Char) : Bool :=
  text.head?.any Char.isDigit

def startsNumber (f : NumberFormat) : List Char -> Bool
  | [] => false
  | c :: rest => c.isDigit || (f.isDecimal c && startsWithDigit rest)

def extendsNumber (f : NumberFormat) (c : Char) (rest : List Char) : Bool :=
  c.isDigit || f.isDecimal c || (f.isGroup c && startsWithDigit rest)

/-- The longest run of characters that belong to a number, and what follows it. -/
def spanRun (f : NumberFormat) : List Char -> List Char × List Char
  | [] => ([], [])
  | c :: rest =>
      if extendsNumber f c rest then
        let parts := spanRun f rest
        (c :: parts.1, parts.2)
      else
        ([], c :: rest)

theorem spanRun_append (f : NumberFormat) (text : List Char) :
    (spanRun f text).1 ++ (spanRun f text).2 = text := by
  induction text with
  | nil => rfl
  | cons c rest ih =>
      cases h : extendsNumber f c rest with
      | true => simp [spanRun, h, ih]
      | false => simp [spanRun, h]

theorem length_spanRun_snd_lt {f : NumberFormat} {text : List Char}
    (h : startsNumber f text = true) : (spanRun f text).2.length < text.length := by
  cases text with
  | nil => simp [startsNumber] at h
  | cons c rest =>
      have hextends : extendsNumber f c rest = true := by
        simp only [startsNumber, Bool.or_eq_true, Bool.and_eq_true] at h
        rcases h with hdigit | hdecimal
        · simp [extendsNumber, hdigit]
        · simp [extendsNumber, hdecimal.1]
      have hlength := congrArg List.length (spanRun_append f rest)
      simp only [List.length_append] at hlength
      simp only [spanRun, hextends, if_true, List.length_cons]
      omega

structure Literal (text : List Char) where
  literal : List Char
  rest : List Char
  shorter : rest.length < text.length

/-- The literal at the front of the text, if there is one. A minus sign is part of it
only where an operand is awaited and only if it touches the number. -/
def literal? (f : NumberFormat) (awaitsOperand : Bool) :
    (text : List Char) -> Option (Literal text)
  | '-' :: rest =>
      if h : awaitsOperand = true ∧ startsNumber f rest = true then
        some { literal := '-' :: (spanRun f rest).1
               rest := (spanRun f rest).2
               shorter := Nat.lt_succ_of_lt (length_spanRun_snd_lt h.2) }
      else
        none
  | text =>
      if h : startsNumber f text = true then
        some { literal := (spanRun f text).1
               rest := (spanRun f text).2
               shorter := length_spanRun_snd_lt h }
      else
        none

/-- The tokens of `text`, which starts at byte `position` of the entry. -/
def tokensFrom (f : NumberFormat) (awaitsOperand : Bool) (position : Nat) :
    List Char -> TokenStream
  | [] => .finish position
  | c :: rest =>
      if Text.isBlank c then
        tokensFrom f awaitsOperand (position + c.utf8Size) rest
      else
        match literal? f awaitsOperand (c :: rest) with
        | some found =>
            match readLiteral f found.literal with
            | .ok value =>
                .next position (.number value)
                  (tokensFrom f false (position + byteLength found.literal) found.rest)
            | .error error => .fault error
        | none =>
            match Token.ofChar? c with
            | some token =>
                .next position token
                  (tokensFrom f token.awaitsOperand (position + c.utf8Size) rest)
            | none => .fault (.unexpectedCharacter c position)
termination_by text => text.length
decreasing_by
  · simp
  · exact found.shorter
  · simp

end Scan

def TokenStream.ofText (f : NumberFormat) (text : List Char) : TokenStream :=
  Scan.tokensFrom f true 0 text

end RegionalCalculator
