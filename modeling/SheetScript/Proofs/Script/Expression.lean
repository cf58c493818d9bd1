import SheetScript.Proofs.Arithmetic.Evaluation
import SheetScript.Proofs.Arithmetic.Spaced
import SheetScript.Proofs.Number.Numeral
import SheetScript.Proofs.Script.Substitution
import SheetScript.Script.Journal

/-!
# Variables in expressions

The variables of an expression are replaced by the texts of their values before the expression is
cut into tokens. So a negative value does not come in as one number: its minus sign is cut off and
read as an operator. Still an expression with variables has the value of its tree with the numbers
at the leaves (`evalExpr_of_spaced`), for a minus sign where an operand is expected binds tighter
than every other operator, and negates exactly what stands behind it (`Tree.HasValue.derives`).

The trees are those of the grammar of expressions, level by level, with variables among their
leaves; their values come from what the operators mean. Their texts have blanks around each operator
and each parenthesis.
-/

namespace SheetScript.Script

open Arithmetic (Operator IsNumeral Spaced EndsWord LexesAs Derives symbols)
open Number (format isFinite isNegative magnitude ofMagnitude)

/-! ## The tokens of a number -/

/-- The tokens of the text of a number: a minus sign, where it has one, and its magnitude. -/
def numberTokens (x : Float) : List Arithmetic.Token :=
  (if isNegative x then [.operator .subtract] else []) ++ [.number (ofMagnitude false (magnitude x))]

theorem isNumeral_positional (d : Number.Decimal) : IsNumeral d.positional := by
  obtain ⟨whole, fraction, hwhole, hfraction, -, htext, -⟩ := Number.exists_positional_eq d
  rw [htext]
  split_ifs
  · exact ⟨whole, [], [], by simp, hwhole, .none, .none⟩
  · exact ⟨whole, '.' :: fraction, [], by simp, hwhole, .digits hfraction, .none⟩

/-- The text of a finite number is cut into a minus sign, where it has one, and its digits. -/
theorem lexesAs_format {x : Float} (hx : isFinite x = true) :
    LexesAs (format .result x).toList (numberTokens x) := by
  have hbits : magnitude x < Number.infinityBits := by simpa [isFinite] using hx
  have hdigits : LexesAs (Number.shortest (magnitude x)).positional
      [.number (ofMagnitude false (magnitude x))] := by
    have hread := Number.read?_finiteText false hbits
    have hnumeral := isNumeral_positional (Number.shortest (magnitude x))
    obtain ⟨first, rest, htext, hfirst, -⟩ :=
      Number.exists_positional_eq_cons (Number.shortest (magnitude x))
    simp only [Number.finiteText, Bool.false_eq_true, if_false, htext] at hread
    rw [htext] at hnumeral ⊢
    exact Arithmetic.lexesAs_number (Or.inl hfirst) hnumeral hread
  rw [format, if_pos hbits, String.toList_ofList, Number.finiteText, numberTokens]
  cases isNegative x with
  | false => exact hdigits
  | true => exact hdigits.minus

theorem derives_numberTokens {x : Float} (hx : isFinite x = true) :
    Derives 6 (numberTokens x) x := by
  have hbits : magnitude x < Number.infinityBits := by simpa [isFinite] using hx
  have hvalue := Number.ofMagnitude_magnitude x
  have hmagnitude := Derives.number (ofMagnitude false (magnitude x))
  rw [numberTokens]
  cases hsign : isNegative x with
  | false =>
    rw [hsign] at hvalue
    rw [hvalue] at hmagnitude ⊢
    exact hmagnitude
  | true =>
    have hnegated := hmagnitude.sign
    rw [Number.neg_ofMagnitude (Nat.le_of_lt hbits), ← hsign, hvalue] at hnegated
    exact hnegated

/-! ## Trees and their words -/

/-- A numeral with the number that it stands for. -/
structure Literal where
  first : Char
  rest : List Char
  value : Float
  starts : first.isDigit = true ∨ first = '.'
  isNumeral : IsNumeral (first :: rest)
  reads : Number.read? (first :: rest) = some value

/-- The name of a variable. -/
structure VariableName where
  chars : List Char
  ne_nil : chars ≠ []
  isName : ∀ c ∈ chars, isNameChar c = true

/-- The name as a text. -/
def VariableName.text (name : VariableName) : String := String.ofList name.chars

/-- A word of an expression. -/
inductive Word where
  | literal (l : Literal)
  | reference (name : VariableName)
  | symbol {text : List Char} {token : Arithmetic.Token} (h : (text, token) ∈ symbols)

/-- An expression of the given level, with numbers and variables at its leaves. -/
inductive Tree : Nat → Type
  | literal (l : Literal) : Tree 6
  | reference (name : VariableName) : Tree 6
  | parenthesized (t : Tree 0) : Tree 6
  | sign (t : Tree 6) : Tree 6
  | operation {op : Operator} (hop : op ≠ .negate) (l : Tree op.level) (r : Tree (op.level + 1)) :
      Tree op.level
  | tighter {level : Nat} (t : Tree (level + 1)) : Tree level

/-- The words of an expression in order. -/
def Tree.words {level : Nat} : Tree level → List Word
  | literal l => [.literal l]
  | reference name => [.reference name]
  | parenthesized t =>
    .symbol Arithmetic.mem_symbols_open :: t.words ++ [.symbol Arithmetic.mem_symbols_close]
  | sign t => .symbol Arithmetic.mem_symbols_minus :: t.words
  | operation hop l r => l.words ++ .symbol (Operator.mem_symbols hop) :: r.words
  | tighter t => t.words

/-- The number is the value of the expression, whose variables have the given values. -/
def Tree.HasValue (ρ : String → Float) : {level : Nat} → Tree level → Float → Prop
  | _, literal l, z => z = l.value
  | _, reference name, z => z = ρ name.text
  | _, parenthesized t, z => t.HasValue ρ z
  | _, sign t, z => ∃ x, t.HasValue ρ x ∧ z = -x
  | _, @operation op _ l r, z => ∃ x y, l.HasValue ρ x ∧ r.HasValue ρ y ∧ op.Gives x y z
  | _, tighter t, z => t.HasValue ρ z

theorem Tree.exists_hasValue_iff {level : Nat} (ρ : String → Float) (t : Tree level) :
    ∃ x, ∀ z, t.HasValue ρ z ↔ z = x := by
  induction t with
  | literal l => exact ⟨l.value, fun _ => Iff.rfl⟩
  | reference name => exact ⟨ρ name.text, fun _ => Iff.rfl⟩
  | parenthesized t ih => exact ih
  | sign t ih =>
    obtain ⟨x, hx⟩ := ih
    exact ⟨-x, fun z => by simp [HasValue, hx]⟩
  | operation hop l r ihl ihr =>
    obtain ⟨x, hx⟩ := ihl
    obtain ⟨y, hy⟩ := ihr
    obtain ⟨z, hz⟩ := Operator.exists_gives_iff hop x y
    exact ⟨z, fun z' => by simp [HasValue, hx, hy, hz]⟩
  | tighter t ih => exact ih

namespace Word

/-- How a word is written. -/
def text : Word → List Char
  | literal l => l.first :: l.rest
  | reference name => '$' :: name.chars
  | @symbol text _ _ => text

/-- What substitution makes of a word. -/
def expanded (ρ : String → Float) : Word → List Char
  | reference name => (format .result (ρ name.text)).toList
  | word => word.text

/-- The tokens of a word. -/
def tokens (ρ : String → Float) : Word → List Arithmetic.Token
  | literal l => [.number l.value]
  | reference name => numberTokens (ρ name.text)
  | @symbol _ token _ => [token]

end Word

variable {H : Type} [Host H]

/-- If the word is a variable, its value is a finite number, written as results are. -/
def Word.Holds (i : Interp H) (ρ : String → Float) (word : Word) : Prop :=
  ∀ name, word = .reference name →
    isFinite (ρ name.text) = true ∧ i.get? name.text = some (format .result (ρ name.text))

variable {i : Interp H} {ρ : String → Float} {level : Nat} {c : Char} {word : Word}
  {words : List Word} {cs rest rest' : List Char}

/-! ## Characters -/

/-- The characters that begin what substitution does not take as it stands. -/
def marks : List Char := ['$', '\\', '{', '"', '[']

theorem notMem_marks_of_isBlank (h : Text.isBlank c = true) : c ∉ marks := by
  have hmarks : ∀ d ∈ marks, Text.isBlank d = false := by
    simp [marks, Text.isBlank]
  intro hc
  rw [hmarks c hc] at h
  cases h

theorem notMem_marks_of_isNameChar (h : isNameChar c = true) : c ∉ marks := by
  have hmarks : marks.all (fun d => !isNameChar d) = true := by decide
  intro hc
  have := List.all_eq_true.1 hmarks c hc
  rw [h] at this
  cases this

theorem isNameChar_of_isBlank (h : Text.isBlank c = true) : isNameChar c = false := by
  rw [isNameChar, Text.isAlphanumeric_of_isBlank h, Bool.false_or, Bool.or_eq_false_iff,
    beq_eq_false_iff_ne, beq_eq_false_iff_ne]
  constructor
  · rintro rfl
    cases h
  · rintro rfl
    cases h

/-- Numerals and symbols are taken as they stand. -/
theorem Word.notMem_marks (hword : ∀ name, word ≠ .reference name) (hc : c ∈ word.text) :
    c ∉ marks := by
  cases word with
  | literal l =>
    rcases Arithmetic.mem_numeral l.isNumeral hc with hdigit | hmark
    · refine notMem_marks_of_isNameChar ?_
      rw [isNameChar, Text.isAlphanumeric_of_isAlphanum (Text.isAlphanum_iff.2 (Or.inr hdigit))]
      rfl
    · have hall : ∀ d ∈ Arithmetic.numeralMarks, d ∉ marks := by
        simp [Arithmetic.numeralMarks, marks]
      exact hall c hmark
  | reference name => exact absurd rfl (hword name)
  | symbol h =>
    have hall : ∀ d ∈ Arithmetic.symbolChars, d ∉ marks := by
      simp [Arithmetic.symbolChars, marks]
    exact hall c (Arithmetic.mem_symbol h hc)

/-! ## Substitution in an expression -/

theorem Word.plain (word : Word) : Plain word.text := by
  intro c hc hmark
  have hmarks : c ∈ marks := List.mem_cons_of_mem '$' hmark
  cases word with
  | reference name =>
    rcases List.mem_cons.1 hc with rfl | hc
    · simp at hmark
    · exact notMem_marks_of_isNameChar (name.isName c hc) hmarks
  | literal l => exact notMem_marks (fun _ => Word.noConfusion) hc hmarks
  | symbol h => exact notMem_marks (fun _ => Word.noConfusion) hc hmarks

theorem plain_of_spaced (h : Spaced (words.map Word.text) cs) : Plain cs := by
  have hblanks : ∀ {gap : List Char}, (∀ c ∈ gap, Text.isBlank c = true) → Plain gap :=
    fun hgap c hc hmark => notMem_marks_of_isBlank (hgap c hc) (List.mem_cons_of_mem '$' hmark)
  induction words generalizing cs with
  | nil =>
    cases h with
    | last hgap => exact hblanks hgap
  | cons word words ih =>
    cases h with
    | word hgap hrest h =>
      intro c hc
      rw [List.mem_append, List.mem_append] at hc
      rcases hc with hc | hc | hc
      · exact hblanks hgap c hc
      · exact word.plain c hc
      · exact ih h c hc

theorem endsWord_of_expand {value? : String → Option String} (h : EndsWord rest)
    (hexpand : expand value? rest = .ok rest') : EndsWord rest' := by
  cases rest with
  | nil =>
    rw [expand_nil] at hexpand
    cases hexpand
    exact h
  | cons c rest =>
    have hc := h c rfl
    have hdollar : '$' ∉ [c] := by
      rw [List.mem_singleton]
      rintro rfl
      cases hc
    rw [← List.singleton_append, expand_append hdollar] at hexpand
    cases hrest : expand value? rest with
    | error name =>
      rw [hrest] at hexpand
      cases hexpand
    | ok tail =>
      rw [hrest] at hexpand
      cases hexpand
      exact fun d hd => Option.some.inj hd ▸ hc

/-- A word gives way to what substitution makes of it. -/
theorem Word.expand_append (hholds : word.Holds i ρ) (hrest : EndsWord rest)
    (h : expand i.get? rest = .ok rest') :
    expand i.get? (word.text ++ rest) = .ok (word.expanded ρ ++ rest') := by
  have hkept : (∀ name, word ≠ .reference name) →
      expand i.get? (word.text ++ rest) = .ok (word.text ++ rest') := by
    intro hword
    have hdollar : '$' ∉ word.text := fun hc => notMem_marks hword hc (by simp [marks])
    rw [Script.expand_append hdollar, h]
    rfl
  cases word with
  | literal l => exact hkept fun _ => Word.noConfusion
  | symbol hsymbol => exact hkept fun _ => Word.noConfusion
  | reference name =>
    have hends : ∀ c, rest.head? = some c → isNameChar c = false :=
      fun c hc => isNameChar_of_isBlank (hrest c hc)
    have hvalue := (hholds name rfl).2
    rw [VariableName.text] at hvalue
    rw [text, List.cons_append, expand_variable name.ne_nil name.isName hends, hvalue, h]
    rfl

/-- Substitution leaves the words of an expression where they are. -/
theorem exists_expand_of_spaced (h : Spaced (words.map Word.text) cs)
    (hholds : ∀ word ∈ words, word.Holds i ρ) :
    ∃ cs', expand i.get? cs = .ok cs' ∧ Spaced (words.map (Word.expanded ρ)) cs' := by
  have hblanks : ∀ {gap : List Char}, (∀ c ∈ gap, Text.isBlank c = true) → '$' ∉ gap :=
    fun hgap hc => notMem_marks_of_isBlank (hgap _ hc) (by simp [marks])
  induction words generalizing cs with
  | nil =>
    cases h with
    | last hgap =>
      have hexpand := @expand_append i.get? cs (hblanks hgap) []
      rw [List.append_nil, expand_nil] at hexpand
      exact ⟨cs ++ [], hexpand, by simpa using Spaced.last hgap⟩
  | cons word words ih =>
    obtain ⟨hword, hwords⟩ := List.forall_mem_cons.1 hholds
    cases h with
    | @word _ gap _ rest hgap hrest h =>
      obtain ⟨rest', hexpand, hspaced⟩ := ih h hwords
      have hrest' := endsWord_of_expand hrest hexpand
      refine ⟨gap ++ (word.expanded ρ ++ rest'), ?_, .word hgap hrest' hspaced⟩
      rw [Script.expand_append (hblanks hgap), word.expand_append hword hrest hexpand]
      rfl

/-! ## The value of an expression -/

theorem Word.Holds.lexesAs (hholds : word.Holds i ρ) : LexesAs (word.expanded ρ) (word.tokens ρ) := by
  cases word with
  | literal l => exact Arithmetic.lexesAs_number l.starts l.isNumeral l.reads
  | reference name => exact lexesAs_format (hholds name rfl).1
  | symbol h => exact Arithmetic.lexesAs_symbol h

/-- The tokens of an expression make its value, level by level. -/
theorem Tree.HasValue.derives {t : Tree level} {x : Float} (h : t.HasValue ρ x)
    (hholds : ∀ word ∈ t.words, word.Holds i ρ) :
    Derives level (t.words.flatMap (Word.tokens ρ)) x := by
  induction t generalizing x with
  | literal l =>
    obtain rfl := h
    exact .number l.value
  | reference name =>
    obtain rfl := h
    have hfinite := (hholds _ List.mem_cons_self name rfl).1
    simpa [words, Word.tokens] using derives_numberTokens hfinite
  | parenthesized t ih =>
    have hinner := ih h fun word hword => hholds word (by simp [words, hword])
    simpa [words, Word.tokens] using hinner.parenthesized
  | sign t ih =>
    obtain ⟨x, ht, rfl⟩ := h
    have hinner := ih ht fun word hword => hholds word (by simp [words, hword])
    simpa [words, Word.tokens] using hinner.sign
  | operation hop l r ihl ihr =>
    obtain ⟨x, y, hl, hr, hgives⟩ := h
    have hl := ihl hl fun word hword => hholds word (by simp [words, hword])
    have hr := ihr hr fun word hword => hholds word (by simp [words, hword])
    simpa [words, Word.tokens] using Derives.operation hgives hl hr
  | tighter t ih => exact (ih h hholds).tighter

/-- **Variables in expressions.** An expression with blanks around each operator and each
parenthesis, in which all variables have finite numbers as their values, evaluates to the one value
of its tree with these numbers. -/
theorem evalExpr_of_spaced (eval : String → Run H String) (t : Tree level)
    (hspaced : Spaced (t.words.map Word.text) cs) (hholds : ∀ word ∈ t.words, word.Holds i ρ) :
    ∃ x, (∀ z, t.HasValue ρ z ↔ z = x) ∧
      evalExpr eval (String.ofList cs) i = some (.ok x, i) := by
  obtain ⟨x, hx⟩ := t.exists_hasValue_iff ρ
  refine ⟨x, hx, ?_⟩
  obtain ⟨cs', hexpand, hspaced'⟩ := exists_expand_of_spaced hspaced hholds
  have hsubst : subst eval (String.ofList cs) i = some (.ok (String.ofList cs'), i) := by
    rw [subst_of_plain eval (by simpa using plain_of_spaced hspaced), String.toList_ofList, hexpand,
      substituted, String.empty_append]
  have hlexes := Arithmetic.lexes_of_spaced hspaced' fun word hword => (hholds word hword).lexesAs
  have hderives := (((hx x).2 rfl).derives hholds).loosen (Nat.zero_le level)
  have hvalue : Arithmetic.evaluate (String.ofList cs') = .ok x := by
    rw [Arithmetic.evaluate_eq_ok_iff_evaluateTokens, String.toList_ofList,
      Arithmetic.evaluateTokens_scan_eq_ok_iff]
    exact ⟨_, hlexes, hderives⟩
  rw [evalExpr, Run.bind_apply, hsubst]
  simp only [hvalue]
  rfl

/-! ## Negative values under a sign and behind a minus -/

/-- Minus three and minus one and a half, each in a variable. -/
def negativeValue (name : String) : Float :=
  if name = "x" then ofMagnitude true 0x4008000000000000 else ofMagnitude true 0x3FF8000000000000

theorem isFinite_negativeValue (name : String) : isFinite (negativeValue name) = true := by
  have hfinite : ∀ bits, bits < Number.infinityBits → isFinite (ofMagnitude true bits) = true := by
    intro bits hbits
    simpa [isFinite, Number.magnitude_ofMagnitude true (Nat.le_of_lt hbits)] using hbits
  unfold negativeValue
  split_ifs
  · exact hfinite _ (by decide)
  · exact hfinite _ (by decide)

/-- An interpreter with the two variables. -/
def negatives : Interp Journal :=
  (({ host := {} } : Interp Journal).setVariable "x" (format .result (negativeValue "x"))).setVariable
    "y" (format .result (negativeValue "y"))

theorem get?_negatives :
    negatives.get? "x" = some (format .result (negativeValue "x")) ∧
      negatives.get? "y" = some (format .result (negativeValue "y")) := by
  have hne : compare "y" "x" ≠ .eq := by decide
  simp only [negatives, Interp.get?, Interp.setVariable, Interp.modifyFrame,
    FrameStack.modifyCurrent, Frame.get?, Frame.set]
  rw [Std.ExtTreeMap.getElem?_insert, if_neg hne, Std.ExtTreeMap.getElem?_insert_self,
    Std.ExtTreeMap.getElem?_insert_self]
  exact ⟨rfl, rfl⟩

/-- The numeral of two. -/
def Literal.two : Literal where
  first := '2'
  rest := []
  value := ofMagnitude false 0x4000000000000000
  starts := Or.inl rfl
  isNumeral := ⟨['2'], [], [], rfl, by simp, .none, .none⟩
  reads := by
    have hdigits : Number.readDecimal? ['2'] = some 0x4000000000000000 := by decide +kernel
    simp [Number.read?, Number.readSign, Number.readWord?, hdigits]

/-- A variable whose name is one letter. -/
def VariableName.letter (c : Char) (h : isNameChar c = true) : VariableName where
  chars := [c]
  ne_nil := List.cons_ne_nil c []
  isName := by simpa using h

/-- The negated first variable times the difference between two and the second variable. -/
def negatedProduct : Tree 5 :=
  @Tree.operation .multiply nofun (.tighter (.sign (.reference (.letter 'x' rfl))))
    (.parenthesized (.tighter (.tighter (.tighter (.tighter
      (@Tree.operation .subtract nofun (.tighter (.tighter (.literal .two)))
        (.tighter (.reference (.letter 'y' rfl)))))))))

theorem evalExpr_of_spaced_negatives :
    Spaced (negatedProduct.words.map Word.text) " - $x * ( 2 - $y )".toList ∧
    (∀ word ∈ negatedProduct.words, word.Holds negatives negativeValue) ∧
    Interp.evalExpr " - $x * ( 2 - $y )" negatives =
      some (.ok (-negativeValue "x" * (Literal.two.value - negativeValue "y")), negatives) := by
  have hspaced : Spaced (negatedProduct.words.map Word.text) " - $x * ( 2 - $y )".toList :=
    Arithmetic.spaced_flatMap (negatedProduct.words.map Word.text)
  have hholds : ∀ word ∈ negatedProduct.words, word.Holds negatives negativeValue := by
    rintro word hword name rfl
    have hname : name = VariableName.letter 'x' rfl ∨ name = VariableName.letter 'y' rfl := by
      simpa [negatedProduct, Tree.words] using hword
    have htext : (VariableName.letter 'x' rfl).text = "x" ∧
        (VariableName.letter 'y' rfl).text = "y" := ⟨rfl, rfl⟩
    rcases hname with rfl | rfl
    · exact ⟨isFinite_negativeValue _, by simp [htext, get?_negatives]⟩
    · exact ⟨isFinite_negativeValue _, by simp [htext, get?_negatives]⟩
  refine ⟨hspaced, hholds, ?_⟩
  obtain ⟨x, hx, heval⟩ := evalExpr_of_spaced Interp.eval negatedProduct hspaced hholds
  have hvalue : negatedProduct.HasValue negativeValue
      (-negativeValue "x" * (Literal.two.value - negativeValue "y")) :=
    ⟨_, _, ⟨_, rfl, rfl⟩, ⟨_, _, rfl, rfl, .subtract⟩, .multiply⟩
  rw [(hx _).1 hvalue]
  exact heval

end SheetScript.Script
