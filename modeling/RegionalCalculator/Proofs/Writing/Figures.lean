import RegionalCalculator.Proofs.Number.SignMagnitude
import RegionalCalculator.Proofs.Scanning.Pieces

/-!
# Writing a number

A number is given by its digits, before and after the decimal mark. In a format it
is written with that format's decimal mark, and with grouping marks between any of
the digits before it. Scanning takes the whole text for one literal, wherever it
stands, and its value is that of the plain digits with a point between; a minus sign
in front of the digits turns the value around.
-/

namespace RegionalCalculator

/-- Decimals may be absent, which is not the same as a decimal mark without decimals. -/
structure Figures where
  whole : List Char
  decimals : Option (List Char)
  whole_ne_nil : whole ≠ []
  all_isDigit_whole : whole.all Char.isDigit = true
  all_isDigit_decimals : (decimals.getD []).all Char.isDigit = true

namespace Figures

def fraction (n : Figures) : List Char :=
  n.decimals.getD []

theorem isDigit_whole (n : Figures) : forall c, c ∈ n.whole -> c.isDigit = true :=
  List.all_eq_true.mp n.all_isDigit_whole

theorem isDigit_fraction (n : Figures) : forall c, c ∈ n.fraction -> c.isDigit = true :=
  List.all_eq_true.mp n.all_isDigit_decimals

def numeral (n : Figures) : Numeral :=
  { negative := false, whole := n.whole, fraction := n.fraction }

def canonical (n : Figures) : List Char :=
  n.whole ++ if n.fraction.isEmpty then [] else '.' :: n.fraction

theorem toChars_numeral (n : Figures) (negative : Bool) :
    { n.numeral with negative := negative }.toChars = Scan.withSign negative n.canonical := by
  have hwhole : n.whole.isEmpty = false := List.isEmpty_eq_false_iff.mpr n.whole_ne_nil
  rw [Numeral.toChars, numeral, hwhole, List.append_assoc]
  rfl

theorem whole_eq_cons (n : Figures) :
    exists digit rest, n.whole = digit :: rest ∧ digit.isDigit = true := by
  rcases List.exists_cons_of_ne_nil n.whole_ne_nil with ⟨digit, rest, hwhole⟩
  refine ⟨digit, rest, hwhole, n.isDigit_whole digit ?_⟩
  rw [hwhole]
  exact List.mem_cons_self

theorem ofChars?_canonical (n : Figures) :
    Decimal.ofChars? n.canonical =
      some { coefficient := Nat.ofDigitChars 10 (n.whole ++ n.fraction) 0
             places := n.fraction.length } := by
  have hwhole : n.whole.isEmpty = false := List.isEmpty_eq_false_iff.mpr n.whole_ne_nil
  have hall : n.fraction.all Char.isDigit = true := n.all_isDigit_decimals
  have htake : n.canonical.takeWhile Char.isDigit = n.whole := by
    rw [canonical, List.takeWhile_append_of_pos n.isDigit_whole]
    split <;> simp
  have hdrop : n.canonical.dropWhile Char.isDigit =
      if n.fraction.isEmpty then [] else '.' :: n.fraction := by
    rw [canonical, List.dropWhile_append_of_pos n.isDigit_whole]
    split <;> rfl
  rw [Decimal.ofChars?, htake, hdrop, hwhole]
  cases hfraction : n.fraction with
  | nil => simp
  | cons digit rest =>
      rw [hfraction] at hall
      simp [hall]

theorem read?_canonical_eq (n : Figures) :
    Number.read? n.canonical = Number.readUnsigned? n.canonical := by
  rcases n.whole_eq_cons with ⟨digit, rest, hwhole, hdigit⟩
  apply Number.read?_of_head?_ne_minus
  rw [canonical, hwhole, List.cons_append]
  intro hminus
  cases hminus
  cases hdigit

theorem isSome_read?_canonical (n : Figures) : (Number.read? n.canonical).isSome = true := by
  rw [read?_canonical_eq, Number.readUnsigned?, ofChars?_canonical]
  rfl

def value (n : Figures) : Float :=
  (Number.read? n.canonical).get n.isSome_read?_canonical

theorem read?_canonical (n : Figures) : Number.read? n.canonical = some n.value :=
  Option.some_get n.isSome_read?_canonical |>.symm

theorem read?_withSign_canonical (n : Figures) (negative : Bool) :
    Number.read? (Scan.withSign negative n.canonical) =
      some (Number.negateIf negative n.value) := by
  have hread := n.read?_canonical
  cases negative with
  | true =>
      rw [read?_canonical_eq] at hread
      rw [Scan.withSign, if_pos rfl, List.singleton_append, Number.read?_neg, hread]
      rfl
  | false => exact hread

end Figures

/-!
# Grouped digits
-/

/-- The digits with grouping marks between some of them, one mark at a place. -/
inductive Grouped (f : NumberFormat) : List Char -> List Char -> Prop where
  | last (digit : Char) : Grouped f [digit] [digit]
  | next {digits text : List Char} (digit : Char) :
      Grouped f digits text ->
      Grouped f (digit :: digits) (digit :: text)
  | mark {digits text : List Char} {c : Char} (digit : Char) :
      f.isGroup c = true ->
      Grouped f digits text ->
      Grouped f (digit :: digits) (digit :: c :: text)

namespace Grouped

variable {f : NumberFormat} {digits text : List Char}

theorem plain (digit : Char) (digits : List Char) :
    Grouped f (digit :: digits) (digit :: digits) := by
  induction digits generalizing digit with
  | nil => exact last digit
  | cons second digits ih => exact next digit (ih second)

theorem mem_cases (h : Grouped f digits text) {c : Char} (hc : c ∈ text) :
    c ∈ digits ∨ f.isGroup c = true := by
  induction h with
  | last digit => exact Or.inl hc
  | next digit _ ih =>
      rcases List.mem_cons.mp hc with heq | hmem
      · exact Or.inl (List.mem_cons.mpr (Or.inl heq))
      · exact (ih hmem).imp_left (List.mem_cons_of_mem digit)
  | mark digit hmark _ ih =>
      rcases List.mem_cons.mp hc with heq | hrest
      · exact Or.inl (List.mem_cons.mpr (Or.inl heq))
      · rcases List.mem_cons.mp hrest with heq | hmem
        · rw [heq]
          exact Or.inr hmark
        · exact (ih hmem).imp_left (List.mem_cons_of_mem digit)

theorem congr {g : NumberFormat} (h : Grouped f digits text)
    (hsame : forall c, g.isGroup c = f.isGroup c) : Grouped g digits text := by
  induction h with
  | last digit => exact last digit
  | next digit _ ih => exact next digit ih
  | mark digit hmark _ ih => exact mark digit (by rw [hsame, hmark]) ih

theorem head?_eq (h : Grouped f digits text) : text.head? = digits.head? := by
  cases h with
  | last digit => rfl
  | next digit _ => rfl
  | mark digit _ _ => rfl

theorem filter_isDigit (h : Grouped f digits text)
    (hdigits : forall c, c ∈ digits -> c.isDigit = true) :
    text.filter Char.isDigit = digits := by
  induction h with
  | last digit => exact List.filter_eq_self.mpr hdigits
  | next digit _ ih =>
      rw [List.forall_mem_cons] at hdigits
      rw [List.filter_cons_of_pos hdigits.left, ih hdigits.right]
  | mark digit hmark _ ih =>
      rw [List.forall_mem_cons] at hdigits
      rw [List.filter_cons_of_pos hdigits.left, List.filter_cons_of_neg, ih hdigits.right]
      rw [NumberFormat.isDigit_of_isGroup hmark]
      exact Bool.false_ne_true

theorem startsWithDigit_append (h : Grouped f digits text)
    (hdigits : forall c, c ∈ digits -> c.isDigit = true) (rest : List Char) :
    Scan.startsWithDigit (text ++ rest) = true := by
  cases h with
  | last digit => exact hdigits digit List.mem_cons_self
  | next digit _ => exact hdigits digit List.mem_cons_self
  | mark digit _ _ => exact hdigits digit List.mem_cons_self

theorem spanRun_append (h : Grouped f digits text)
    (hdigits : forall c, c ∈ digits -> c.isDigit = true) (rest : List Char) :
    Scan.spanRun f (text ++ rest) = (text ++ (Scan.spanRun f rest).1, (Scan.spanRun f rest).2) := by
  induction h with
  | last digit =>
      exact Scan.spanRun_cons_of_isDigit f rest (hdigits digit List.mem_cons_self)
  | next digit _ ih =>
      rw [List.forall_mem_cons] at hdigits
      rw [List.cons_append, Scan.spanRun_cons_of_isDigit f _ hdigits.left, ih hdigits.right]
      rfl
  | mark digit hmark hgrouped ih =>
      -- A grouping mark is taken only because a digit comes right after it.
      rw [List.forall_mem_cons] at hdigits
      rw [List.cons_append, List.cons_append, Scan.spanRun_cons_of_isDigit f _ hdigits.left,
        Scan.spanRun_cons_of_isGroup hmark (hgrouped.startsWithDigit_append hdigits.right rest),
        ih hdigits.right]
      rfl

end Grouped

/-!
# Written numbers
-/

namespace Figures

/-- What follows the integer part. Without decimals the mark is still written in an
ambiguous format, so that the marks before it can only be grouping marks. -/
def tail (f : NumberFormat) (n : Figures) : List Char :=
  match n.decimals with
  | some places => f.decimal.toChar :: places
  | none => if f.isAmbiguous then [f.decimal.toChar] else []

def Written (f : NumberFormat) (n : Figures) (text : List Char) : Prop :=
  exists front, Grouped f n.whole front ∧ text = front ++ n.tail f

theorem grouped_whole (f : NumberFormat) (n : Figures) : Grouped f n.whole n.whole := by
  rcases n.whole_eq_cons with ⟨digit, rest, hwhole, _⟩
  rw [hwhole]
  exact Grouped.plain digit rest

theorem exists_written (f : NumberFormat) (n : Figures) : exists text, Written f n text :=
  ⟨n.whole ++ n.tail f, n.whole, n.grouped_whole f, rfl⟩

theorem tail_cases (f : NumberFormat) (n : Figures) :
    n.tail f = f.decimal.toChar :: n.fraction ∨
      n.tail f = [] ∧ n.fraction = [] ∧ f.isAmbiguous = false := by
  unfold tail fraction
  cases n.decimals with
  | some places => exact Or.inl rfl
  | none =>
      cases f.isAmbiguous with
      | true => exact Or.inl rfl
      | false => exact Or.inr ⟨rfl, rfl, rfl⟩

/-!
# Laid out numbers

What reading needs to know of a text: the digits before the decimal mark, grouped in
some way, and then the mark and the decimals. The mark may be missing only if no other
mark could be taken for it.
-/

inductive LaidOut (f : NumberFormat) (n : Figures) : List Char -> Prop where
  | marked {front : List Char} :
      Grouped f n.whole front ->
      LaidOut f n (front ++ f.decimal.toChar :: n.fraction)
  | unmarked {front : List Char} :
      Grouped f n.whole front ->
      n.fraction = [] ->
      (forall c, c ∈ front -> f.isDecimal c = false) ->
      LaidOut f n front

theorem isDecimal_of_mem_fraction (f : NumberFormat) (n : Figures) :
    forall c, c ∈ n.fraction -> f.isDecimal c = false := by
  intro c hc
  exact f.isDecimal_of_isDigit (n.isDigit_fraction c hc)

section LaidOut

variable {f : NumberFormat} {n : Figures} {text front : List Char}

theorem isDecimal_of_mem_grouped (h : Grouped f n.whole front)
    (hambiguous : f.isAmbiguous = false) : forall c, c ∈ front -> f.isDecimal c = false := by
  intro c hc
  rcases h.mem_cases hc with hwhole | hmark
  · exact f.isDecimal_of_isDigit (n.isDigit_whole c hwhole)
  · exact NumberFormat.isDecimal_of_isGroup hambiguous hmark

theorem Written.laidOut (h : Written f n text) : LaidOut f n text := by
  rcases h with ⟨front, hgrouped, htext⟩
  rcases n.tail_cases f with htail | ⟨htail, hfraction, hambiguous⟩
  · rw [htext, htail]
    exact LaidOut.marked hgrouped
  · rw [htext, htail, List.append_nil]
    exact LaidOut.unmarked hgrouped hfraction (isDecimal_of_mem_grouped hgrouped hambiguous)

namespace LaidOut

theorem exists_eq_cons (h : LaidOut f n text) :
    exists digit rest, text = digit :: rest ∧ digit.isDigit = true := by
  rcases n.whole_eq_cons with ⟨digit, _, hwhole, hdigit⟩
  have hfront : forall {front}, Grouped f n.whole front -> exists rest, front = digit :: rest := by
    intro front hgrouped
    apply List.head?_eq_some_iff.mp
    rw [hgrouped.head?_eq, hwhole]
    rfl
  cases h with
  | marked hgrouped =>
      rcases hfront hgrouped with ⟨rest, hcons⟩
      exact ⟨digit, _, by rw [hcons]; rfl, hdigit⟩
  | unmarked hgrouped _ _ =>
      rcases hfront hgrouped with ⟨rest, hcons⟩
      exact ⟨digit, rest, hcons, hdigit⟩

theorem startsNumber_append (h : LaidOut f n text) (rest : List Char) :
    Scan.startsNumber f (text ++ rest) = true := by
  rcases h.exists_eq_cons with ⟨digit, after, htext, hdigit⟩
  rw [htext, List.cons_append, Scan.startsNumber, hdigit, Bool.true_or]

theorem head?_ne_minus (h : LaidOut f n text) : text.head? ≠ some '-' := by
  have hstarts := h.startsNumber_append []
  rw [List.append_nil] at hstarts
  exact Scan.head?_ne_minus hstarts

theorem spanRun_append (h : LaidOut f n text) {rest : List Char}
    (hrest : Scan.spanRun f rest = ([], rest)) :
    Scan.spanRun f (text ++ rest) = (text, rest) := by
  cases h with
  | marked hgrouped =>
      rw [List.append_assoc, hgrouped.spanRun_append n.isDigit_whole, List.cons_append,
        Scan.spanRun_cons_of_isDecimal _ (NumberFormat.isDecimal_eq_true_iff.mpr rfl),
        Scan.spanRun_append_of_isDigit f rest n.isDigit_fraction, hrest, List.append_nil]
  | unmarked hgrouped _ _ =>
      rw [hgrouped.spanRun_append n.isDigit_whole, hrest, List.append_nil]

theorem belongs_of_mem_grouped (h : Grouped f n.whole front) :
    forall c, c ∈ front -> f.belongs c = true := by
  intro c hc
  rcases h.mem_cases hc with hwhole | hmark
  · exact f.belongs_of_isDigit (n.isDigit_whole c hwhole)
  · exact NumberFormat.belongs_of_isGroup hmark

theorem belongs (h : LaidOut f n text) : forall c, c ∈ text -> f.belongs c = true := by
  cases h with
  | marked hgrouped =>
      rw [List.forall_mem_append, List.forall_mem_cons]
      refine ⟨belongs_of_mem_grouped hgrouped, ?_, fun c hc => ?_⟩
      · exact NumberFormat.belongs_of_isDecimal (NumberFormat.isDecimal_eq_true_iff.mpr rfl)
      · exact f.belongs_of_isDigit (n.isDigit_fraction c hc)
  | unmarked hgrouped _ _ => exact belongs_of_mem_grouped hgrouped

theorem countP_isDecimal_le (h : LaidOut f n text) (hambiguous : f.isAmbiguous = false) :
    text.countP f.isDecimal <= 1 := by
  have hnone : forall part : List Char,
      (forall c, c ∈ part -> f.isDecimal c = false) -> part.countP f.isDecimal = 0 := by
    intro part hpart
    rw [List.countP_eq_zero]
    intro c hc
    rw [hpart c hc]
    exact Bool.false_ne_true
  cases h with
  | marked hgrouped =>
      rw [List.countP_append, hnone _ (isDecimal_of_mem_grouped hgrouped hambiguous),
        Nat.zero_add, List.countP_cons, hnone _ (n.isDecimal_of_mem_fraction f), Nat.zero_add]
      split
      · exact Nat.le_refl 1
      · exact Nat.zero_le 1
  | unmarked _ _ hfront =>
      rw [hnone _ hfront]
      exact Nat.zero_le 1

theorem parts_eq (h : LaidOut f n text) :
    exists front, Grouped f n.whole front ∧
      (Numeral.splitLast? f.isDecimal text).getD (text, []) = (front, n.fraction) := by
  cases h with
  | @marked front hgrouped =>
      refine ⟨front, hgrouped, ?_⟩
      rw [Numeral.splitLast?_append_cons front (NumberFormat.isDecimal_eq_true_iff.mpr rfl)
        (n.isDecimal_of_mem_fraction f)]
      rfl
  | unmarked hgrouped hfraction hfront =>
      refine ⟨text, hgrouped, ?_⟩
      rw [Numeral.splitLast?_eq_none_iff.mpr hfront, hfraction]
      rfl

theorem ofLiteral (h : LaidOut f n text) (negative : Bool) :
    Numeral.ofLiteral f (Scan.withSign negative text) =
      .ok { n.numeral with negative := negative } := by
  have hminus := h.head?_ne_minus
  rcases h.parts_eq with ⟨front, hgrouped, hparts⟩
  have hbelongs : text.all f.belongs = true := List.all_eq_true.mpr h.belongs
  have hany : text.any Char.isDigit = true := by
    rcases h.exists_eq_cons with ⟨digit, after, htext, hdigit⟩
    rw [htext, List.any_cons, hdigit, Bool.true_or]
  have hcount : (!f.isAmbiguous && decide (2 <= text.countP f.isDecimal)) = false := by
    cases hambiguous : f.isAmbiguous with
    | true => rfl
    | false =>
        have hle := h.countP_isDecimal_le hambiguous
        exact decide_eq_false (Nat.not_le_of_lt (Nat.lt_succ_of_le hle))
  have hfraction : n.fraction.all Char.isDigit = true := n.all_isDigit_decimals
  simp only [Numeral.ofLiteral, Scan.body_withSign negative hminus,
    Scan.head?_withSign negative hminus, hbelongs, hany, hcount, hparts, hfraction,
    hgrouped.filter_isDigit n.isDigit_whole]
  rfl

theorem readLiteral (h : LaidOut f n text) (negative : Bool) :
    readLiteral f (Scan.withSign negative text) = .ok (Number.negateIf negative n.value) := by
  have hread : Number.read? { n.numeral with negative := negative }.toChars =
      some (Number.negateIf negative n.value) := by
    rw [toChars_numeral, read?_withSign_canonical]
  exact readLiteral_eq_ok_iff.mpr
    (literalValue_eq_ok_iff.mpr ⟨_, h.ofLiteral negative, hread⟩)

/-- The number makes a single token, sign included, if an operand is awaited or there is no
sign. -/
theorem yields (h : LaidOut f n text) {negative awaitsOperand : Bool}
    (hsign : negative = true -> awaitsOperand = true) (position : Nat) {rest : List Char}
    (hrest : Scan.spanRun f rest = ([], rest)) :
    exists after,
      TokenStream.Yields
        (Scan.tokensFrom f awaitsOperand position (Scan.withSign negative text ++ rest))
        [.number (Number.negateIf negative n.value)] (Scan.tokensFrom f false after rest) := by
  have hsplit := Scan.splitLiteral?_withSign negative (h.startsNumber_append rest)
    (h.spanRun_append hrest) hsign
  refine ⟨position + Scan.byteLength (Scan.withSign negative text), ?_⟩
  rw [Scan.tokensFrom_literal position hsplit (h.readLiteral negative)]
  exact TokenStream.Yields.single position _ _

theorem makes (h : LaidOut f n text) (negative : Bool) :
    Scan.Makes f (Scan.withSign negative text) [.number (Number.negateIf negative n.value)] :=
  fun position _ hrest => h.yields (fun _ => rfl) position hrest

end LaidOut

end LaidOut

end Figures
end RegionalCalculator
