import SheetScript.Formula.Token
import SheetScript.Proofs.Text.Character

/-!
# Tokens without their places

`lexemes` cuts a text like `scan`, but keeps only the kind and the text of each token
(`map_lexeme_scan`). What stands in front of a position matters to it by one bit: whether an operand
ends there. So a text can be cut piece by piece, and each kind of token has one lemma that says
where it ends.
-/

namespace SheetScript.Formula

/-- The kind and the text of a token. -/
structure Lexeme where
  kind : TokenKind
  text : String
deriving DecidableEq, Repr

/-- A token without its place. -/
def Token.lexeme (token : Token) : Lexeme := ⟨token.kind, token.text⟩

/-- The tokens of a text without their places. -/
def lexemes (afterOperand : Bool) (cs : List Char) : List Lexeme :=
  match _h : cs.dropWhile Text.isBlank with
  | [] => []
  | c :: rest =>
    let (kind, size) := classify afterOperand c rest
    ⟨kind, String.ofList (c :: rest.take size)⟩ :: lexemes kind.endsOperand (rest.drop size)
termination_by cs.length
decreasing_by
  have := (List.dropWhile_suffix Text.isBlank (l := cs)).length_le
  rw [_h, List.length_cons] at this
  rw [List.length_drop]
  omega

variable {afterOperand : Bool} {c : Char} {cs tail rest : List Char}

theorem lexemes_of_dropWhile_eq_nil (h : cs.dropWhile Text.isBlank = []) :
    lexemes afterOperand cs = [] := by
  rw [lexemes]
  split
  next => rfl
  next heq => rw [h] at heq; cases heq

theorem lexemes_of_dropWhile_eq_cons (h : cs.dropWhile Text.isBlank = c :: rest) :
    lexemes afterOperand cs =
      ⟨(classify afterOperand c rest).1,
        String.ofList (c :: rest.take (classify afterOperand c rest).2)⟩ ::
      lexemes (classify afterOperand c rest).1.endsOperand
        (rest.drop (classify afterOperand c rest).2) := by
  rw [lexemes]
  split
  next heq => rw [h] at heq; cases heq
  next heq => rw [h] at heq; cases heq; rfl

theorem map_lexeme_scanFrom (offset : Nat) (afterOperand : Bool) (cs : List Char)
    (found : List Token) :
    (scanFrom offset afterOperand cs found).map Token.lexeme =
      (found.map Token.lexeme).reverse ++ lexemes afterOperand cs := by
  fun_induction scanFrom offset afterOperand cs found with
  | case1 offset afterOperand cs found h =>
    rw [lexemes_of_dropWhile_eq_nil h, List.append_nil, List.map_reverse]
  | case2 offset afterOperand cs found blanks c rest h kind size hclass start chars ih =>
    rw [ih, lexemes_of_dropWhile_eq_cons h, hclass]
    simp [Token.lexeme, chars]

theorem map_lexeme_scan (cs : List Char) : (scan cs).map Token.lexeme = lexemes false cs := by
  rw [scan, map_lexeme_scanFrom]
  rfl

/-! ## One token -/

@[simp] theorem lexemes_nil (afterOperand : Bool) : lexemes afterOperand [] = [] :=
  lexemes_of_dropWhile_eq_nil rfl

theorem lexemes_blank (h : Text.isBlank c = true) :
    lexemes afterOperand (c :: cs) = lexemes afterOperand cs := by
  have hdrop : (c :: cs).dropWhile Text.isBlank = cs.dropWhile Text.isBlank := by
    rw [List.dropWhile_cons, if_pos h]
  cases hcs : cs.dropWhile Text.isBlank with
  | nil => rw [lexemes_of_dropWhile_eq_nil hcs, lexemes_of_dropWhile_eq_nil (hdrop.trans hcs)]
  | cons d rest =>
    rw [lexemes_of_dropWhile_eq_cons hcs, lexemes_of_dropWhile_eq_cons (hdrop.trans hcs)]

theorem lexemes_blanks {gap : List Char} (h : ∀ c ∈ gap, Text.isBlank c = true) (cs : List Char) :
    lexemes afterOperand (gap ++ cs) = lexemes afterOperand cs := by
  induction gap with
  | nil => rfl
  | cons c gap ih =>
    obtain ⟨hc, hgap⟩ := List.forall_mem_cons.1 h
    rw [List.cons_append, lexemes_blank hc, ih hgap]

theorem lexemes_trimStart (cs : List Char) :
    lexemes afterOperand (Text.trimStart cs) = lexemes afterOperand cs := by
  conv_rhs => rw [← @List.takeWhile_append_dropWhile _ Text.isBlank cs]
  exact (lexemes_blanks (fun c hc => List.mem_takeWhile_imp hc) _).symm

/-- A character that is not blank begins a token. -/
theorem lexemes_cons {kind : TokenKind} {size : Nat} (h : Text.isBlank c = false)
    (hclass : classify afterOperand c cs = (kind, size)) :
    lexemes afterOperand (c :: cs) =
      ⟨kind, String.ofList (c :: cs.take size)⟩ :: lexemes kind.endsOperand (cs.drop size) := by
  have hdrop : (c :: cs).dropWhile Text.isBlank = c :: cs := by
    rw [List.dropWhile_cons, if_neg (by simp [h])]
  rw [lexemes_of_dropWhile_eq_cons hdrop, hclass]

/-- A text at whose start every number and every word ends. -/
def Stops (rest : List Char) : Prop :=
  ∀ c, rest.head? = some c → isNumberChar c = false ∧ isWordChar c = false

theorem stops_nil : Stops [] := nofun

/-- What stands after an operand in a formula ends it. -/
theorem stops_cons (c : Char) (rest : List Char) (h : c ∈ [' ', ',', ')', ':', '(']) :
    Stops (c :: rest) := by
  rintro d ⟨⟩
  simp only [List.mem_cons, List.not_mem_nil, or_false] at h
  rcases h with rfl | rfl | rfl | rfl | rfl <;> exact ⟨rfl, rfl⟩

/-- A number ends where its digits end. A minus sign belongs to it where no operand stands before
it. -/
theorem lexemes_number
    (hc : c.isDigit = true ∨ c = '-' ∧ tail.head?.any Char.isDigit = true ∧ afterOperand = false)
    (htail : ∀ d ∈ tail, isNumberChar d = true) (hpoints : tail.count '.' ≤ 1)
    (hrest : Stops rest) :
    lexemes afterOperand (c :: tail ++ rest) =
      ⟨.number, String.ofList (c :: tail)⟩ :: lexemes true rest := by
  have htake : (tail ++ rest).takeWhile isNumberChar = tail :=
    Text.takeWhile_append_of_stop htail fun d hd => (hrest d hd).1
  have hstart : (c.isDigit || (c == '-' && (tail ++ rest).head?.any Char.isDigit &&
      !afterOperand)) = true := by
    rcases hc with hc | ⟨rfl, hhead, rfl⟩
    · simp [hc]
    · cases tail with
      | nil => cases hhead
      | cons d tail => simpa using hhead
  have hblank : Text.isBlank c = false := by
    rcases hc with hc | ⟨rfl, -, -⟩
    · exact Text.isBlank_of_isAlphanum (Text.isAlphanum_iff.2 (Or.inr hc))
    · decide
  have hclass : classify afterOperand c (tail ++ rest) = (.number, tail.length) := by
    rw [classify, if_pos hstart]
    simp only [htake, if_pos hpoints]
  rw [List.cons_append, lexemes_cons hblank hclass, List.take_left, List.drop_left]
  rfl

/-- A word or a cell name ends where its letters and digits end. -/
theorem lexemes_word (hc : c.isAlpha = true) (htail : ∀ d ∈ tail, isWordChar d = true)
    (hrest : Stops rest) :
    lexemes afterOperand (c :: tail ++ rest) =
      ⟨if isCellName (c :: tail) then .cell else .word, String.ofList (c :: tail)⟩ ::
        lexemes (isCellName (c :: tail)) rest := by
  have htake : (tail ++ rest).takeWhile isWordChar = tail :=
    Text.takeWhile_append_of_stop htail fun d hd => (hrest d hd).2
  have hblank : Text.isBlank c = false :=
    Text.isBlank_of_isAlphanum (Text.isAlphanum_iff.2 (Or.inl hc))
  have hminus : c ≠ '-' := by
    rintro rfl
    cases hc
  have hclass : classify afterOperand c (tail ++ rest) =
      (if isCellName (c :: tail) then .cell else .word, tail.length) := by
    rw [classify, if_neg (by simp [Text.isDigit_of_isAlpha hc, hminus]), if_pos hc]
    simp only [htake]
  rw [List.cons_append, lexemes_cons hblank hclass, List.take_left, List.drop_left]
  cases isCellName (c :: tail) <;> rfl

theorem lexemes_leftParenthesis (cs : List Char) :
    lexemes afterOperand ('(' :: cs) = ⟨.leftParenthesis, "("⟩ :: lexemes false cs :=
  lexemes_cons (by decide) rfl

theorem lexemes_rightParenthesis (cs : List Char) :
    lexemes afterOperand (')' :: cs) = ⟨.rightParenthesis, ")"⟩ :: lexemes true cs :=
  lexemes_cons (by decide) rfl

theorem lexemes_comma (cs : List Char) :
    lexemes afterOperand (',' :: cs) = ⟨.comma, ","⟩ :: lexemes false cs :=
  lexemes_cons (by decide) rfl

/-- An equals sign belongs to no formula. -/
theorem lexemes_equals (cs : List Char) :
    lexemes afterOperand ('=' :: cs) = ⟨.malformed, "="⟩ :: lexemes false cs :=
  lexemes_cons (by decide) rfl

/-- After an operand, an operator is a token by itself if what follows may follow it. -/
theorem lexemes_operator (op : Operator) (h : cs.head?.any mayFollowOperator = true) :
    lexemes true (op.symbol :: cs) =
      ⟨.operator, String.singleton op.symbol⟩ :: lexemes false cs := by
  have hblank : Text.isBlank op.symbol = false := by
    cases op <;> decide
  have hclass : classify true op.symbol cs = (.operator, 0) := by
    cases op <;> simp [classify, Operator.symbol, Operator.ofSymbol?, Operator.all, h]
  exact lexemes_cons hblank hclass

end SheetScript.Formula
