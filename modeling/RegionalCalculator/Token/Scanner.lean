import RegionalCalculator.Token.Scan

/-!
# Scanning item by item

A consumer asks for one item at a time. Between two items the scanner keeps the characters that
are left, and it remembers whether it has handed out the end mark or a fault, behind which
nothing comes any more.
-/

namespace RegionalCalculator

structure Scanner where
  rest : List Char
  position : Nat := 0
  awaitsOperand : Bool := true
  finished : Bool := false
deriving DecidableEq, Repr

namespace Scanner

def start (entry : List Char) : Scanner :=
  { rest := entry }

def skipBlanks (s : Scanner) : Scanner :=
  { s with
    rest := s.rest.dropWhile Text.isBlank
    position := s.position + Scan.byteLength (s.rest.takeWhile Text.isBlank) }

/-- The item at the front, where no blank stands, and the scanner behind it. -/
def takeItem (f : NumberFormat) (s : Scanner) : Except EntryError (Nat × Token) × Scanner :=
  match s.rest with
  | [] => (.ok (s.position, .finish), { s with finished := true })
  | c :: rest =>
      match Scan.literal? f s.awaitsOperand (c :: rest) with
      | some found =>
          let after : Scanner :=
            { s with
              rest := found.rest
              position := s.position + Scan.byteLength found.literal }
          match readLiteral f found.literal with
          | .ok value => (.ok (s.position, .number value), { after with awaitsOperand := false })
          | .error error => (.error error, { after with finished := true })
      | none =>
          match Token.ofChar? c with
          | some token =>
              (.ok (s.position, token),
                { s with
                  rest := rest
                  position := s.position + c.utf8Size
                  awaitsOperand := token.awaitsOperand })
          | none => (.error (.unexpectedCharacter c s.position), { s with finished := true })

def next? (f : NumberFormat) (s : Scanner) :
    Option (Except EntryError (Nat × Token)) × Scanner :=
  if s.finished then
    (none, s)
  else
    let taken := s.skipBlanks.takeItem f
    (some taken.1, taken.2)

def answers (f : NumberFormat) (s : Scanner) :
    Nat -> List (Option (Except EntryError (Nat × Token)))
  | 0 => []
  | count + 1 => (s.next? f).1 :: (s.next? f).2.answers f count

end Scanner
end RegionalCalculator
