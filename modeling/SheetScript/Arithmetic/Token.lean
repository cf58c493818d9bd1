import SheetScript.Arithmetic.Operator
import SheetScript.Number.Read
import SheetScript.Text.Blank

/-!
# Tokens of expressions

`scan` cuts an expression into numbers, operators and parentheses, with blanks between them. What
cannot be read ends the list as a `malformed` token. A minus sign is always the operator of a
subtraction here; whether it is a sign depends on what stands before it.
-/

namespace SheetScript.Arithmetic

/-- Text that makes no token. -/
inductive Malformed where
  /-- Digits and points that do not make a number. -/
  | number (text : String)
  | character (c : Char)
deriving DecidableEq, Repr

/-- A token of an expression. -/
inductive Token where
  | number (value : Float)
  | operator (op : Operator)
  | openParenthesis
  | closeParenthesis
  | malformed (what : Malformed)

/-- The sign at the start of a text, and the rest. -/
def takeSign : List Char → List Char × List Char
  | '+' :: rest => (['+'], rest)
  | '-' :: rest => (['-'], rest)
  | rest => ([], rest)

/-- The exponent at the start of a text, as long as a digit belongs to it, and the rest. -/
def takeExponent (cs : List Char) : List Char × List Char :=
  match cs with
  | e :: rest =>
    if e = 'e' ∨ e = 'E' then
      match (takeSign rest).2.takeWhile Char.isDigit with
      | [] => ([], cs)
      | digits => (e :: (takeSign rest).1 ++ digits, (takeSign rest).2.dropWhile Char.isDigit)
    else ([], cs)
  | [] => ([], [])

/-- The point at the start of a text with the digits after it, and the rest. -/
def takeFraction : List Char → List Char × List Char
  | '.' :: rest => ('.' :: rest.takeWhile Char.isDigit, rest.dropWhile Char.isDigit)
  | rest => ([], rest)

/-- The number at the start of a text, and the rest: digits with at most one point and an optional
exponent. -/
def takeNumber (cs : List Char) : List Char × List Char :=
  let whole := cs.takeWhile Char.isDigit
  let (fraction, rest) := takeFraction (cs.dropWhile Char.isDigit)
  let (exponent, rest) := takeExponent rest
  (whole ++ fraction ++ exponent, rest)

/-- The operator or parenthesis at the start of a text, and the rest. -/
def takeSymbol? : List Char → Option (Token × List Char)
  | '=' :: '=' :: rest => some (.operator .equal, rest)
  | '!' :: '=' :: rest => some (.operator .notEqual, rest)
  | '<' :: '=' :: rest => some (.operator .lessEqual, rest)
  | '>' :: '=' :: rest => some (.operator .greaterEqual, rest)
  | '&' :: '&' :: rest => some (.operator .and, rest)
  | '|' :: '|' :: rest => some (.operator .or, rest)
  | '<' :: rest => some (.operator .less, rest)
  | '>' :: rest => some (.operator .greater, rest)
  | '*' :: rest => some (.operator .multiply, rest)
  | '/' :: rest => some (.operator .divide, rest)
  | '+' :: rest => some (.operator .add, rest)
  | '-' :: rest => some (.operator .subtract, rest)
  | '(' :: rest => some (.openParenthesis, rest)
  | ')' :: rest => some (.closeParenthesis, rest)
  | _ => none

/-- The token at the start of a text that starts with `c` and no blank, and the rest; the rest of
what makes no token is not read. -/
def takeToken (c : Char) (rest : List Char) : Token × List Char :=
  if c.isDigit || c == '.' then
    let (text, rest) := takeNumber (c :: rest)
    match Number.read? text with
    | some value => (.number value, rest)
    | none => (.malformed (.number (String.ofList text)), [])
  else (takeSymbol? (c :: rest)).getD (.malformed (.character c), [])

theorem length_takeExponent (cs : List Char) : (takeExponent cs).2.length ≤ cs.length := by
  unfold takeExponent
  split
  next e rest =>
    split
    next =>
      have hs : (takeSign rest).2.length ≤ rest.length := by
        unfold takeSign
        split <;> simp
      have hd := (List.dropWhile_suffix Char.isDigit (l := (takeSign rest).2)).length_le
      split
      · exact Nat.le_refl _
      · exact Nat.le_succ_of_le (Nat.le_trans hd hs)
    next => exact Nat.le_refl _
  next => exact Nat.le_refl _

theorem length_takeNumber {c : Char} {rest : List Char} (h : (c.isDigit || c == '.') = true) :
    (takeNumber (c :: rest)).2.length < (c :: rest).length := by
  unfold takeNumber
  refine Nat.lt_of_le_of_lt (length_takeExponent _) ?_
  by_cases hd : c.isDigit = true
  · have h₁ : ((c :: rest).dropWhile Char.isDigit).length ≤ rest.length := by
      have := (List.dropWhile_suffix Char.isDigit (l := rest)).length_le
      simpa [List.dropWhile_cons, hd] using this
    refine Nat.lt_succ_of_le (Nat.le_trans ?_ h₁)
    unfold takeFraction
    split
    next tail heq =>
      rw [heq]
      exact Nat.le_succ_of_le (List.dropWhile_suffix _).length_le
    next => exact Nat.le_refl _
  · obtain rfl : c = '.' := by simpa [hd] using h
    have : ('.' :: rest).dropWhile Char.isDigit = '.' :: rest := by
      simp
    rw [this]
    exact Nat.lt_succ_of_le (List.dropWhile_suffix _).length_le

theorem length_of_takeSymbol? {cs rest : List Char} {token : Token}
    (h : takeSymbol? cs = some (token, rest)) : rest.length < cs.length := by
  unfold takeSymbol? at h
  split at h <;> cases h <;> simp only [List.length_cons] <;> omega

theorem length_takeToken (c : Char) (rest : List Char) :
    (takeToken c rest).2.length < (c :: rest).length := by
  unfold takeToken
  split
  next h =>
    have h' := @length_takeNumber c rest h
    dsimp only
    split <;> simp_all
  next =>
    cases hs : takeSymbol? (c :: rest) with
    | none => simp
    | some p => exact @length_of_takeSymbol? _ _ p.1 hs

/-- The tokens of a text; `found` are the tokens before, the last one first. -/
def scanFrom (cs : List Char) (found : List Token) : List Token :=
  match _h : Text.trimStart cs with
  | [] => found.reverse
  | c :: rest =>
    scanFrom (takeToken c rest).2 ((takeToken c rest).1 :: found)
termination_by cs.length
decreasing_by
  have h₁ : (Text.trimStart cs).length ≤ cs.length := (List.dropWhile_suffix _).length_le
  have h₂ := length_takeToken c rest
  rw [_h] at h₁
  omega

/-- The tokens of an expression. -/
def scan (cs : List Char) : List Token := scanFrom cs []

end SheetScript.Arithmetic
