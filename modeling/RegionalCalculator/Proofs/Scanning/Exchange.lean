import Mathlib.Logic.Equiv.Basic
import RegionalCalculator.Proofs.Number.Translation
import RegionalCalculator.Proofs.Reading.Relocation
import RegionalCalculator.Proofs.Scanning.Steps

/-!
# Exchanging the marks

Which characters serve as marks does not matter, only what each of them is for. If
the point, the comma and the apostrophe change places, in a format and in a text
alike, then the text is read as before: the tokens and their positions are the same,
and so is the tree. An error stays the same as well, except that it quotes the
changed text.
-/

namespace RegionalCalculator

/-- The characters that may change places. The spaces that group digits keep theirs. -/
def exchangeable : List Char :=
  ['.', ',', '\x27']

/-- A permutation of the characters that moves exchangeable ones only. -/
structure MarkExchange where
  perm : Equiv.Perm Char
  fixes : forall c, c ∉ exchangeable -> perm c = c

namespace MarkExchange

instance : CoeFun MarkExchange fun _ => Char -> Char :=
  ⟨fun p => p.perm⟩

/-- The marks of `g` are the images of those of `f`. -/
def Carries (p : MarkExchange) (f g : NumberFormat) : Prop :=
  g.decimal.toChar = p f.decimal.toChar ∧
    g.group.map GroupMark.toChar = f.group.map fun mark => p mark.toChar

end MarkExchange

def EntryError.mapChars (change : Char -> Char) : EntryError -> EntryError
  | .unexpectedCharacter c position => .unexpectedCharacter (change c) position
  | .malformedLiteral text fault => .malformedLiteral (text.map change) fault
  | .emptyEntry => .emptyEntry
  | .unmatchedParen position => .unmatchedParen position
  | .trailingInput position => .trailingInput position
  | .unexpectedToken token position => .unexpectedToken token position
  | .tooDeep limit => .tooDeep limit

namespace MarkExchange

variable (p : MarkExchange)

/-!
# Characters
-/

theorem mem_exchangeable {c : Char} (h : c ∈ exchangeable) : p c ∈ exchangeable := by
  by_cases himage : p c ∈ exchangeable
  · exact himage
  · have hsame : p c = c := p.perm.injective (p.fixes (p c) himage)
    rw [hsame]
    exact h

theorem apply_congr {α : Type} [DecidableEq α] (property : Char -> α)
    (h : exchangeable.all (fun c => property c == property '.') = true) (c : Char) :
    property (p c) = property c := by
  have hsame : forall c, c ∈ exchangeable -> property c = property '.' := by
    intro c hc
    exact eq_of_beq (List.all_eq_true.mp h c hc)
  by_cases hc : c ∈ exchangeable
  · rw [hsame c hc, hsame (p c) (p.mem_exchangeable hc)]
  · rw [p.fixes c hc]

theorem isDigit_apply (c : Char) : (p c).isDigit = c.isDigit :=
  p.apply_congr Char.isDigit rfl c

theorem isBlank_apply (c : Char) : Text.isBlank (p c) = Text.isBlank c :=
  p.apply_congr Text.isBlank rfl c

theorem utf8Size_apply (c : Char) : (p c).utf8Size = c.utf8Size :=
  p.apply_congr Char.utf8Size rfl c

theorem ofChar?_apply (c : Char) : Token.ofChar? (p c) = Token.ofChar? c :=
  p.apply_congr Token.ofChar? rfl c

theorem eq_minus_apply (c : Char) : (p c == '-') = (c == '-') :=
  p.apply_congr (· == '-') rfl c

theorem apply_beq_apply (a b : Char) : (p a == p b) = (a == b) := by
  rw [Bool.eq_iff_iff, beq_iff_eq, beq_iff_eq]
  exact p.perm.injective.eq_iff

theorem apply_of_isDigit {c : Char} (h : c.isDigit = true) : p c = c := by
  apply p.fixes
  intro hmem
  have hnone : exchangeable.any Char.isDigit = false := rfl
  exact List.any_eq_false.mp hnone c hmem h

/-!
# Formats
-/

variable {p} {f g : NumberFormat}

theorem isDecimal_apply (h : p.Carries f g) (c : Char) : g.isDecimal (p c) = f.isDecimal c := by
  rw [NumberFormat.isDecimal, NumberFormat.isDecimal, h.left, p.apply_beq_apply]

theorem toChar_mem_exchangeable {mark : GroupMark} :
    mark.toChar ∈ exchangeable <-> mark ≠ .space := by
  cases mark <;> decide

theorem covers_apply {mark image : GroupMark} (h : image.toChar = p mark.toChar) (c : Char) :
    image.covers (p c) = mark.covers c := by
  by_cases hspace : mark = .space
  · have himage : image = .space := by
      have hsame : p GroupMark.space.toChar = ' ' := p.fixes ' ' (by decide)
      rw [hspace, hsame] at h
      cases image with
      | space => rfl
      | comma => cases h
      | point => cases h
      | apostrophe => cases h
    rw [hspace, himage]
    exact p.apply_congr GroupMark.space.covers rfl c
  · have himage : image ≠ .space := by
      rw [← toChar_mem_exchangeable, h]
      exact p.mem_exchangeable (toChar_mem_exchangeable.mpr hspace)
    rw [GroupMark.covers_eq_beq himage, GroupMark.covers_eq_beq hspace, h, p.apply_beq_apply]

theorem group_cases (h : p.Carries f g) :
    (f.group = none ∧ g.group = none) ∨
      exists mark image,
        f.group = some mark ∧ g.group = some image ∧ image.toChar = p mark.toChar := by
  have hgroup := h.right
  cases hf : f.group with
  | none =>
      rw [hf] at hgroup
      exact Or.inl ⟨rfl, Option.map_eq_none_iff.mp hgroup⟩
  | some mark =>
      rw [hf] at hgroup
      rcases Option.map_eq_some_iff.mp hgroup with ⟨image, himage, hchar⟩
      exact Or.inr ⟨mark, image, rfl, himage, hchar⟩

theorem isGroup_apply (h : p.Carries f g) (c : Char) : g.isGroup (p c) = f.isGroup c := by
  rcases group_cases h with ⟨hf, hg⟩ | ⟨mark, image, hf, hg, hchar⟩
  · rw [NumberFormat.isGroup_of_group_none hf, NumberFormat.isGroup_of_group_none hg]
  · rw [NumberFormat.isGroup_of_group_some hf, NumberFormat.isGroup_of_group_some hg,
      covers_apply hchar]

theorem isAmbiguous_eq (h : p.Carries f g) : g.isAmbiguous = f.isAmbiguous := by
  rw [NumberFormat.isAmbiguous, NumberFormat.isAmbiguous]
  rcases group_cases h with ⟨hf, hg⟩ | ⟨mark, image, hf, hg, hchar⟩
  · rw [hf, hg]
    rfl
  · rw [hf, hg, Option.any_some, Option.any_some, hchar, h.left, p.apply_beq_apply]

/-!
# Literals
-/

theorem translates (h : p.Carries f g) : Translates f g p where
  digit _ hdigit := p.apply_of_isDigit hdigit
  isDigit := p.isDigit_apply
  isMinus := p.eq_minus_apply
  isDecimal := isDecimal_apply h
  isGroup := isGroup_apply h
  isAmbiguous := isAmbiguous_eq h

theorem readLiteral_map (h : p.Carries f g) (text : List Char) :
    readLiteral g (text.map p) = (readLiteral f text).mapError (EntryError.mapChars p) := by
  rw [readLiteral, readLiteral, (translates h).literalValue_map]
  cases literalValue f text with
  | error fault => rfl
  | ok value => rfl

/-!
# Tokens
-/

theorem startsWithDigit_map (text : List Char) :
    Scan.startsWithDigit (text.map p) = Scan.startsWithDigit text := by
  cases text with
  | nil => rfl
  | cons c rest => exact p.isDigit_apply c

theorem startsNumber_map (h : p.Carries f g) (text : List Char) :
    Scan.startsNumber g (text.map p) = Scan.startsNumber f text := by
  cases text with
  | nil => rfl
  | cons c rest =>
      rw [List.map_cons, Scan.startsNumber, Scan.startsNumber, p.isDigit_apply, isDecimal_apply h,
        startsWithDigit_map]

theorem extendsNumber_map (h : p.Carries f g) (c : Char) (rest : List Char) :
    Scan.extendsNumber g (p c) (rest.map p) = Scan.extendsNumber f c rest := by
  rw [Scan.extendsNumber, Scan.extendsNumber, p.isDigit_apply, isDecimal_apply h,
    isGroup_apply h, startsWithDigit_map]

theorem spanRun_map (h : p.Carries f g) (text : List Char) :
    Scan.spanRun g (text.map p) =
      ((Scan.spanRun f text).1.map p, (Scan.spanRun f text).2.map p) := by
  induction text with
  | nil => rfl
  | cons c rest ih =>
      rw [List.map_cons, Scan.spanRun, Scan.spanRun, extendsNumber_map h, ih]
      cases Scan.extendsNumber f c rest with
      | true => rfl
      | false => rfl

theorem byteLength_map (text : List Char) :
    Scan.byteLength (text.map p) = Scan.byteLength text := by
  induction text with
  | nil => rfl
  | cons c rest ih =>
      rw [List.map_cons, Scan.byteLength, Scan.byteLength, p.utf8Size_apply, ih]

theorem splitLiteral?_map (h : p.Carries f g) (awaitsOperand : Bool) (text : List Char) :
    Scan.splitLiteral? g awaitsOperand (text.map p) =
      (Scan.splitLiteral? f awaitsOperand text).map fun parts =>
        (parts.1.map p, parts.2.map p) := by
  by_cases hminus : text.head? = some '-'
  · rcases List.head?_eq_some_iff.mp hminus with ⟨rest, htext⟩
    have hmap : text.map p = '-' :: rest.map p := by
      rw [htext, List.map_cons, p.fixes '-' (by decide)]
    rw [hmap, htext, Scan.splitLiteral?_minus, Scan.splitLiteral?_minus, startsNumber_map h,
      spanRun_map h]
    by_cases hsigned : awaitsOperand = true ∧ Scan.startsNumber f rest = true
    · rw [if_pos hsigned, if_pos hsigned, Option.map_some, List.map_cons,
        p.fixes '-' (by decide)]
    · rw [if_neg hsigned, if_neg hsigned, Option.map_none]
  · have hminus' : (text.map p).head? ≠ some '-' := by
      intro heq
      have hbeq := (translates h).isNegative_map text
      rw [heq] at hbeq
      exact hminus (eq_of_beq hbeq.symm)
    rw [Scan.splitLiteral?_of_ne_minus g awaitsOperand hminus',
      Scan.splitLiteral?_of_ne_minus f awaitsOperand hminus, startsNumber_map h, spanRun_map h]
    by_cases hstarts : Scan.startsNumber f text = true
    · rw [if_pos hstarts, if_pos hstarts, Option.map_some]
    · rw [if_neg hstarts, if_neg hstarts, Option.map_none]

theorem tokensFrom_map (h : p.Carries f g) (awaitsOperand : Bool) (position : Nat)
    (text : List Char) :
    Scan.tokensFrom g awaitsOperand position (text.map p) =
      (Scan.tokensFrom f awaitsOperand position text).mapFault (EntryError.mapChars p) := by
  have hnotblank : forall {c : Char}, ¬ Text.isBlank c = true -> Text.isBlank (p c) = false := by
    intro c hblank
    rw [p.isBlank_apply, Bool.eq_false_iff]
    exact hblank
  have hliteral : forall {awaitsOperand : Bool} {text : List Char} {found : Scan.Literal text},
      Scan.literal? f awaitsOperand text = some found ->
      Scan.splitLiteral? g awaitsOperand (text.map p) =
        some (found.literal.map p, found.rest.map p) := by
    intro awaitsOperand text found hfound
    rw [splitLiteral?_map h, Scan.splitLiteral?_of_literal? hfound]
    rfl
  have hnoliteral : forall {awaitsOperand : Bool} {text : List Char},
      Scan.literal? f awaitsOperand text = none ->
      Scan.splitLiteral? g awaitsOperand (text.map p) = none := by
    intro awaitsOperand text hfound
    rw [splitLiteral?_map h, Scan.splitLiteral?_eq_none_iff.mpr hfound]
    rfl
  fun_induction Scan.tokensFrom f awaitsOperand position text with
  | case1 awaitsOperand position =>
      rw [List.map_nil, Scan.tokensFrom]
      rfl
  | case2 awaitsOperand position c rest hblank ih =>
      have hblank' : Text.isBlank (p c) = true := by
        rw [p.isBlank_apply, hblank]
      rw [List.map_cons, Scan.tokensFrom_blank g awaitsOperand position _ hblank',
        p.utf8Size_apply, ih]
  | case3 awaitsOperand position c rest hblank found hfound value hvalue ih =>
      have hread : readLiteral g (found.literal.map p) = .ok value := by
        rw [readLiteral_map h, hvalue]
        rfl
      rw [List.map_cons, Scan.tokensFrom_number position (hnotblank hblank) (hliteral hfound) hread,
        byteLength_map, ih]
      rfl
  | case4 awaitsOperand position c rest hblank found hfound error herror =>
      have hread : readLiteral g (found.literal.map p) = .error (error.mapChars p) := by
        rw [readLiteral_map h, herror]
        rfl
      rw [List.map_cons,
        Scan.tokensFrom_malformed position (hnotblank hblank) (hliteral hfound) hread]
      rfl
  | case5 awaitsOperand position c rest hblank hfound token htoken ih =>
      have htoken' : Token.ofChar? (p c) = some token := by
        rw [p.ofChar?_apply, htoken]
      rw [List.map_cons,
        Scan.tokensFrom_single position (hnotblank hblank) (hnoliteral hfound) htoken',
        p.utf8Size_apply, ih]
      rfl
  | case6 awaitsOperand position c rest hblank hfound htoken =>
      have htoken' : Token.ofChar? (p c) = none := by
        rw [p.ofChar?_apply, htoken]
      rw [List.map_cons,
        Scan.tokensFrom_foreign position (hnotblank hblank) (hnoliteral hfound) htoken']
      rfl

theorem ofText_map (h : p.Carries f g) (text : List Char) :
    TokenStream.ofText g (text.map p) =
      (TokenStream.ofText f text).mapFault (EntryError.mapChars p) :=
  tokensFrom_map h true 0 text

theorem mapChars_of_isStructural (change : Char -> Char) {error : EntryError}
    (h : error.isStructural = true) : error.mapChars change = error.moved id := by
  cases error with
  | unexpectedCharacter c position => cases h
  | malformedLiteral text fault => cases h
  | emptyEntry => rfl
  | unmatchedParen position => rfl
  | trailingInput position => rfl
  | unexpectedToken token position => rfl
  | tooDeep limit => rfl

end MarkExchange

/-- An entry with its marks exchanged, under the format with its marks exchanged, has
the same tokens at the same positions and the same tree; an error is the same but for
the text that it quotes. -/
theorem Expr.ofText_exchange (p : MarkExchange) {f g : NumberFormat} (h : p.Carries f g)
    (text : List Char) :
    (TokenStream.ofText g (text.map p)).items =
        (TokenStream.ofText f text).items.map (Except.mapError (EntryError.mapChars p)) ∧
      Expr.ofText g (text.map p) =
        (Expr.ofText f text).mapError (EntryError.mapChars p) := by
  constructor
  · rw [MarkExchange.ofText_map h, TokenStream.items_mapFault]
  · rw [Expr.ofText, MarkExchange.ofText_map h, TokenStream.mapFault_eq_relocate]
    exact Expr.ofTokens_relocate
      (fun error hstructural => MarkExchange.mapChars_of_isStructural p hstructural)
      (Scan.endsOnce_tokensFrom f true 0 text)

def MarkExchange.pointAndComma : MarkExchange :=
  { perm := Equiv.swap '.' ','
    fixes := by
      intro c hc
      apply Equiv.swap_apply_of_ne_of_ne
      · intro heq
        subst heq
        exact hc (by decide)
      · intro heq
        subst heq
        exact hc (by decide) }

theorem Expr.ofText_exchange_point_and_comma :
    Expr.ofText { decimal := .comma, group := some .point } "1.234,5*2".toList =
        .ok (.binary .times (.number (Float.ofBits 0x40934A0000000000))
          (.number (Float.ofBits 0x4000000000000000))) ∧
      Expr.ofText { decimal := .comma, group := some .point } "6,7,8".toList =
        .error (.malformedLiteral "6,7,8".toList .repeatedDecimal) := by
  have hcarries : MarkExchange.pointAndComma.Carries
      { decimal := .point, group := some .comma } { decimal := .comma, group := some .point } := by
    constructor
    · decide
    · decide
  constructor
  · have hproduct := (Expr.ofText_exchange _ hcarries "1,234.5*2".toList).right
    have himage : "1,234.5*2".toList.map MarkExchange.pointAndComma = "1.234,5*2".toList := by
      decide
    have hread : Expr.ofText { decimal := .point, group := some .comma } "1,234.5*2".toList =
        .ok (.binary .times (.number (Float.ofBits 0x40934A0000000000))
          (.number (Float.ofBits 0x4000000000000000))) := by
      decide +kernel
    rw [himage, hread] at hproduct
    exact hproduct
  · have hfault := (Expr.ofText_exchange _ hcarries "6.7.8".toList).right
    have himage : "6.7.8".toList.map MarkExchange.pointAndComma = "6,7,8".toList := by
      decide
    have hrefused : Expr.ofText { decimal := .point, group := some .comma } "6.7.8".toList =
        .error (.malformedLiteral "6.7.8".toList .repeatedDecimal) := by
      decide +kernel
    rw [himage, hrefused] at hfault
    rw [hfault, ← himage]
    rfl

end RegionalCalculator
