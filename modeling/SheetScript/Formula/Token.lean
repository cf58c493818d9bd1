import SheetScript.CellRef
import SheetScript.Formula.Operator
import SheetScript.Text.Blank

/-!
# Tokens of formulas

`scan` cuts a formula into numbers, cell names, operators, words, parentheses and commas. Blanks
separate tokens and belong to none. A character that starts no token is a `malformed` token by
itself, and scanning goes on after it.

A minus sign directly before a digit belongs to the number unless an operand stands before it, so
`-3+A1` starts with a negative number while `A1-3` is a subtraction.
-/

namespace SheetScript.Formula

/-- The kinds of token. -/
inductive TokenKind where
  | number
  | cell
  | operator
  | word
  | leftParenthesis
  | rightParenthesis
  | comma
  | malformed
deriving DecidableEq, Repr

/-- A token: its kind, its text and the number of bytes before it. -/
structure Token where
  kind : TokenKind
  text : String
  offset : Nat
deriving DecidableEq, Repr

/-- A token of this kind ends an operand. -/
def TokenKind.endsOperand : TokenKind → Bool
  | number | cell | rightParenthesis => true
  | _ => false

/-- A character of a number after the first. -/
def isNumberChar (c : Char) : Bool := c.isDigit || c == '.'

/-- A character of a word or cell name after the first. -/
def isWordChar (c : Char) : Bool := c.isAlphanum || c == '_'

/-- A character that may follow an operator. -/
def mayFollowOperator (c : Char) : Bool :=
  Text.isBlank c || c.isAlphanum || c == '(' || c == '.' || c == '-'

/-- Capital letters followed by digits that name a cell of the sheet. -/
def isCellName (cs : List Char) : Bool :=
  cs.all (fun c => c.isUpper || c.isDigit) && (CellRef.ofChars? cs).isSome

/-- The kind of the token that starts with `c`, and how many characters of `rest` belong to it. -/
def classify (afterOperand : Bool) (c : Char) (rest : List Char) : TokenKind × Nat :=
  if c.isDigit || (c == '-' && rest.head?.any Char.isDigit && !afterOperand) then
    let tail := rest.takeWhile isNumberChar
    (if tail.count '.' ≤ 1 then .number else .malformed, tail.length)
  else if c.isAlpha then
    let tail := rest.takeWhile isWordChar
    (if isCellName (c :: tail) then .cell else .word, tail.length)
  else if c == '(' then (.leftParenthesis, 0)
  else if c == ')' then (.rightParenthesis, 0)
  else if c == ',' then (.comma, 0)
  else if (Operator.ofSymbol? c).isSome && rest.head?.any mayFollowOperator then (.operator, 0)
  else (.malformed, 0)

/-- The size of a text in bytes. -/
def byteCount (cs : List Char) : Nat := cs.foldl (fun size c => size + c.utf8Size) 0

/-- The tokens of a text that starts `offset` bytes into the formula, in front of which stands an
operand or not; `found` are the tokens before, the last one first. -/
def scanFrom (offset : Nat) (afterOperand : Bool) (cs : List Char) (found : List Token) :
    List Token :=
  let blanks := cs.takeWhile Text.isBlank
  match _h : cs.dropWhile Text.isBlank with
  | [] => found.reverse
  | c :: rest =>
    let (kind, size) := classify afterOperand c rest
    let start := offset + byteCount blanks
    let chars := c :: rest.take size
    scanFrom (start + byteCount chars) kind.endsOperand (rest.drop size)
      (⟨kind, String.ofList chars, start⟩ :: found)
termination_by cs.length
decreasing_by
  have := (List.dropWhile_suffix Text.isBlank (l := cs)).length_le
  rw [_h, List.length_cons] at this
  rw [List.length_drop]
  omega

/-- The tokens of a formula. The end of the list is the end of the text. -/
def scan (cs : List Char) : List Token := scanFrom 0 false cs []

end SheetScript.Formula
