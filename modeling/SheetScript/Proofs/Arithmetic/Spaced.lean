import SheetScript.Proofs.Arithmetic.Lexing

/-!
# Words with blanks between them

A text of words that are kept apart by blanks is cut at the blanks (`lexes_of_spaced`). No numeral
and no symbol has a blank in it, so none goes on beyond the end of a word (`longest_of_endsWord`).
-/

namespace SheetScript.Arithmetic

/-- The text is at its end, or a blank stands there. -/
def EndsWord (rest : List Char) : Prop := ∀ c, rest.head? = some c → Text.isBlank c = true

/-- The words one after the other, with blanks between them; at both ends there may be blanks. -/
inductive Spaced : List (List Char) → List Char → Prop
  | last {gap : List Char} (hgap : ∀ c ∈ gap, Text.isBlank c = true) : Spaced [] gap
  | word {words : List (List Char)} {gap text rest : List Char}
      (hgap : ∀ c ∈ gap, Text.isBlank c = true) (hrest : EndsWord rest) (h : Spaced words rest) :
      Spaced (text :: words) (gap ++ (text ++ rest))

variable {c : Char} {text gap rest cs : List Char} {token : Token} {tokens : List Token}

theorem endsWord_flatMap (words : List (List Char)) :
    EndsWord (words.flatMap fun word => ' ' :: word) := by
  cases words with
  | nil => exact nofun
  | cons word words =>
    rintro c ⟨⟩
    decide

/-- Words may be written one after the other, with one blank before each. -/
theorem spaced_flatMap (words : List (List Char)) :
    Spaced words (words.flatMap fun word => ' ' :: word) := by
  induction words with
  | nil => exact .last (List.forall_mem_nil _)
  | cons word words ih =>
    have hgap : ∀ c ∈ [' '], Text.isBlank c = true := by
      simp [Text.isBlank]
    exact .word hgap (endsWord_flatMap words) ih

/-! ## The characters of tokens -/

/-- The characters of numerals besides the digits. -/
def numeralMarks : List Char := ['.', 'e', 'E', '+', '-']

theorem mem_numeral (h : IsNumeral text) (hc : c ∈ text) :
    c.isDigit = true ∨ c ∈ numeralMarks := by
  obtain ⟨whole, fraction, exponent, rfl, hwhole, hfraction, hexponent⟩ := h
  rw [List.mem_append, List.mem_append] at hc
  rcases hc with hc | hc | hc
  · exact Or.inl (hwhole c hc)
  · cases hfraction with
    | none => cases hc
    | digits hds =>
      rcases List.mem_cons.1 hc with rfl | hc
      · exact Or.inr (by decide)
      · exact Or.inl (hds c hc)
  · cases hexponent with
    | none => cases hc
    | @digits e sign ds he hsign hds hne =>
      rw [List.mem_cons, List.mem_append] at hc
      rcases hc with rfl | hc | hc
      · rcases he with rfl | rfl <;> exact Or.inr (by decide)
      · simp only [List.mem_cons, List.not_mem_nil, or_false] at hsign
        rcases hsign with rfl | rfl | rfl <;> simp at hc <;> subst hc <;> exact Or.inr (by decide)
      · exact Or.inl (hds c hc)

theorem isBlank_of_mem_numeral (h : IsNumeral text) (hc : c ∈ text) : Text.isBlank c = false := by
  have hmarks : ∀ d ∈ numeralMarks, Text.isBlank d = false := by
    simp [numeralMarks, Text.isBlank]
  rcases mem_numeral h hc with hdigit | hmark
  · exact Text.isBlank_of_isAlphanum (Text.isAlphanum_iff.2 (Or.inr hdigit))
  · exact hmarks c hmark

/-- The characters of symbols. -/
def symbolChars : List Char := ['=', '!', '<', '>', '&', '|', '*', '/', '+', '-', '(', ')']

theorem mem_symbol (h : (text, token) ∈ symbols) (hc : c ∈ text) : c ∈ symbolChars := by
  have hall : ∀ entry ∈ symbols, ∀ d ∈ entry.1, d ∈ symbolChars := by
    simp [symbols, symbolChars]
  exact hall _ h c hc

theorem isBlank_of_mem_symbol (h : IsSymbol text) (hc : c ∈ text) : Text.isBlank c = false := by
  obtain ⟨token, h⟩ := h
  have hall : ∀ d ∈ symbolChars, Text.isBlank d = false := by
    simp [symbolChars, Text.isBlank]
  exact hall c (mem_symbol h hc)

/-- Without blanks in it, a token ends where the word ends. -/
theorem longest_of_endsWord {kind : List Char → Prop}
    (hblank : ∀ text, kind text → ∀ c ∈ text, Text.isBlank c = false) (h : kind text)
    (hrest : EndsWord rest) : Longest kind text rest := by
  refine ⟨h, fun text' htext' hprefix => ?_⟩
  by_contra hlonger
  obtain ⟨more, rfl⟩ :=
    List.prefix_of_prefix_length_le (List.prefix_append text rest) hprefix (by omega)
  have hmore := (List.prefix_append_right_inj text).1 hprefix
  cases more with
  | nil => simp at hlonger
  | cons d more =>
    obtain ⟨tail, rfl⟩ := hmore
    have hd := hblank _ htext' d (by simp)
    rw [hrest d rfl] at hd
    cases hd

/-! ## Words as tokens -/

/-- How an operator is written. -/
def Operator.chars : Operator → List Char
  | negate | subtract => ['-']
  | multiply => ['*']
  | divide => ['/']
  | add => ['+']
  | less => ['<']
  | greater => ['>']
  | lessEqual => ['<', '=']
  | greaterEqual => ['>', '=']
  | equal => ['=', '=']
  | notEqual => ['!', '=']
  | and => ['&', '&']
  | or => ['|', '|']

theorem mem_symbols_open : (['('], .openParenthesis) ∈ symbols := by simp [symbols]

theorem mem_symbols_close : ([')'], .closeParenthesis) ∈ symbols := by simp [symbols]

theorem mem_symbols_minus : (['-'], .operator .subtract) ∈ symbols := by simp [symbols]

theorem Operator.mem_symbols {op : Operator} (h : op ≠ .negate) :
    (op.chars, .operator op) ∈ symbols := by
  cases op with
  | negate => exact absurd rfl h
  | _ => simp [symbols, chars]

/-- As a word, the text is cut into the tokens. -/
def LexesAs (text : List Char) (tokens : List Token) : Prop :=
  ∀ rest more, EndsWord rest → Lexes rest more → Lexes (text ++ rest) (tokens ++ more)

theorem lexesAs_number {value : Float} (hc : c.isDigit = true ∨ c = '.')
    (hnumeral : IsNumeral (c :: text)) (hvalue : Number.read? (c :: text) = some value) :
    LexesAs (c :: text) [.number value] := by
  intro rest more hrest h
  have hlongest := longest_of_endsWord (fun _ h _ => isBlank_of_mem_numeral h) hnumeral hrest
  exact .number hc hlongest hvalue h

theorem lexesAs_symbol (h : (text, token) ∈ symbols) : LexesAs text [token] := by
  intro rest more hrest hmore
  have hlongest := longest_of_endsWord (fun _ h _ => isBlank_of_mem_symbol h) ⟨token, h⟩ hrest
  exact .symbol hlongest h hmore

/-- No symbol but the minus sign itself begins with one. -/
theorem longest_minus (rest : List Char) : Longest IsSymbol ['-'] rest := by
  refine ⟨⟨_, mem_symbols_minus⟩, ?_⟩
  rintro text ⟨token, htext⟩ hprefix
  have hall : ∀ entry ∈ symbols.map Prod.fst, entry.head? = some '-' → entry.length ≤ 1 := by
    decide
  refine hall text (List.mem_map_of_mem htext) ?_
  obtain ⟨c, tail, rfl, -⟩ := exists_cons_of_isSymbol ⟨token, htext⟩
  obtain ⟨more, hmore⟩ := hprefix
  exact congrArg some (List.cons.inj hmore).1

theorem LexesAs.minus (h : LexesAs text tokens) :
    LexesAs ('-' :: text) (.operator .subtract :: tokens) := by
  intro rest more hrest hmore
  have hlexes := Lexes.symbol (longest_minus _) mem_symbols_minus (h rest more hrest hmore)
  exact hlexes

theorem lexes_blanks (hgap : ∀ c ∈ gap, Text.isBlank c = true) (h : Lexes cs tokens) :
    Lexes (gap ++ cs) tokens := by
  induction gap with
  | nil => exact h
  | cons c gap ih =>
    obtain ⟨hc, hgap⟩ := List.forall_mem_cons.1 hgap
    exact .blank hc (ih hgap)

/-- Words with blanks between them are cut into their tokens, one word after the other. -/
theorem lexes_of_spaced {α : Type} {textOf : α → List Char} {tokensOf : α → List Token}
    {words : List α} (h : Spaced (words.map textOf) cs)
    (hwords : ∀ word ∈ words, LexesAs (textOf word) (tokensOf word)) :
    Lexes cs (words.flatMap tokensOf) := by
  induction words generalizing cs with
  | nil =>
    cases h with
    | last hgap => simpa using lexes_blanks hgap .nil
  | cons word words ih =>
    obtain ⟨hword, hwords⟩ := List.forall_mem_cons.1 hwords
    cases h with
    | word hgap hrest h => exact lexes_blanks hgap (hword _ _ hrest (ih h hwords))

end SheetScript.Arithmetic
