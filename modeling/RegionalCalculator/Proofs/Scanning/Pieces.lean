import RegionalCalculator.Proofs.Reading.Stream
import RegionalCalculator.Proofs.Scanning.Steps

/-!
# Pieces of an entry

A piece is a text that makes the same tokens wherever it stands as an operand. The
only thing that what follows could do to it is to draw out the number at its end.
Pieces are put together with operators and parentheses, and so are their tokens.
-/

namespace RegionalCalculator
namespace Scan

open TokenStream

/-- Where an operand is awaited, the text makes these tokens, and an operator is awaited
after it. -/
def Makes (f : NumberFormat) (text : List Char) (tokens : List Token) : Prop :=
  forall position rest, spanRun f rest = ([], rest) ->
    exists after,
      Yields (tokensFrom f true position (text ++ rest)) tokens (tokensFrom f false after rest)

variable {f : NumberFormat} {text front back : List Char} {tokens left right : List Token}

theorem Makes.parens (h : Makes f text tokens) :
    Makes f ('(' :: (text ++ [')'])) (.openParen :: (tokens ++ [.closeParen])) := by
  intro position rest _
  have hclosing : spanRun f (')' :: rest) = ([], ')' :: rest) :=
    spanRun_of_belongs_eq_false rest (f.belongs_of_ofChar? rfl)
  rcases h (position + '('.utf8Size) (')' :: rest) hclosing with ⟨after, hinner⟩
  rw [tokensFrom_token after rfl fun heq => absurd heq (by decide)] at hinner
  have htext : '(' :: (text ++ [')']) ++ rest = '(' :: (text ++ ')' :: rest) := by
    rw [List.cons_append, List.append_assoc]
    rfl
  rw [htext, tokensFrom_token position rfl fun heq => absurd heq (by decide)]
  exact ⟨_, Yields.cons (hinner.append (Yields.single after _ _))⟩

theorem Makes.minus (h : Makes f text tokens)
    (hsign : forall rest, startsNumber f (text ++ rest) = false) :
    Makes f ('-' :: text) (.operator .minus :: tokens) := by
  intro position rest hrest
  rcases h (position + '-'.utf8Size) rest hrest with ⟨after, hyields⟩
  refine ⟨after, ?_⟩
  rw [List.cons_append, tokensFrom_token position rfl fun _ => hsign rest]
  exact Yields.cons hyields

/-- Nothing but the number at its end stands between a piece and the next operator. -/
theorem Makes.join (op : Operator) (hleft : Makes f front left) (hright : Makes f back right) :
    Makes f (front ++ op.symbol :: back) (left ++ .operator op :: right) := by
  intro position rest hrest
  have hsymbol : spanRun f (op.symbol :: (back ++ rest)) = ([], op.symbol :: (back ++ rest)) :=
    spanRun_of_belongs_eq_false _ (f.belongs_of_ofChar? op.token_ofChar?_symbol)
  rcases hleft position _ hsymbol with ⟨middle, hfront⟩
  rw [tokensFrom_operator] at hfront
  rcases hright (middle + op.symbol.utf8Size) rest hrest with ⟨after, hback⟩
  refine ⟨after, ?_⟩
  rw [List.append_assoc]
  exact hfront.append (Yields.cons hback)

theorem Makes.binary (op : Operator) (hleft : Makes f front left) (hright : Makes f back right) :
    Makes f (front ++ ' ' :: op.symbol :: ' ' :: back) (left ++ .operator op :: right) := by
  intro position rest hrest
  have hspace : spanRun f (' ' :: op.symbol :: ' ' :: (back ++ rest)) =
      ([], ' ' :: op.symbol :: ' ' :: (back ++ rest)) := by
    apply spanRun_blank f rfl
    cases op <;> rfl
  rcases hleft position _ hspace with ⟨middle, hfront⟩
  rw [tokensFrom_blank f false middle _ rfl, tokensFrom_operator,
    tokensFrom_blank f _ _ _ rfl] at hfront
  rcases hright (middle + ' '.utf8Size + op.symbol.utf8Size + ' '.utf8Size) rest hrest with
    ⟨after, hback⟩
  refine ⟨after, ?_⟩
  rw [List.append_assoc]
  exact hfront.append (Yields.cons hback)

theorem Makes.ofText (h : Makes f text tokens) :
    exists position, Yields (TokenStream.ofText f text) tokens (.finish position) := by
  rcases h 0 [] rfl with ⟨after, hyields⟩
  rw [List.append_nil, tokensFrom] at hyields
  exact ⟨after, hyields⟩

end Scan
end RegionalCalculator
