import RegionalCalculator.Error

/-!
# Token streams

What an entry holds, in order: tokens with their positions, and then either the
end of the entry or the fault that stops the reading. A consumer sees the fault
only when it has moved past every token in front of it.
-/

namespace RegionalCalculator

inductive TokenStream where
  | finish (position : Nat)
  | fault (error : EntryError)
  | next (position : Nat) (token : Token) (rest : TokenStream)
deriving DecidableEq

namespace TokenStream

def length : TokenStream -> Nat
  | finish _ => 0
  | fault _ => 0
  | next _ _ rest => rest.length + 1

def ready : TokenStream -> Except EntryError Unit
  | fault error => .error error
  | _ => .ok ()

/-- Everything that the stream yields one after the other; the last item is the end
mark or the fault. -/
def items : TokenStream -> List (Except EntryError (Nat × Token))
  | finish position => [.ok (position, .finish)]
  | fault error => [.error error]
  | next position token rest => .ok (position, token) :: rest.items

/-- All tokens, the end mark last, unless the stream ends in a fault. -/
def tokens : TokenStream -> Except EntryError (List Token)
  | finish _ => .ok [.finish]
  | fault error => .error error
  | next _ token rest => rest.tokens.map (token :: ·)

theorem length_items (s : TokenStream) : s.items.length = s.length + 1 := by
  induction s with
  | finish position => rfl
  | fault error => rfl
  | next position token rest ih => simp [items, length, ih]

end TokenStream
end RegionalCalculator
