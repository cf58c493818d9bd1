import SheetScript.Formula.Infix
import SheetScript.Proofs.Formula.Lexeme

/-!
# Reading tokens

Reading does not depend on the places of the tokens unless it fails (`foldlM_step_of_read`), so it
can be followed on tokens without places. There is one equation for each kind of token, with any
tokens behind it.
-/

namespace SheetScript.Formula

/-- A token with the given kind and text, at the start of the formula. -/
def Lexeme.token (lexeme : Lexeme) : Token := ⟨lexeme.kind, lexeme.text, 0⟩

/-- Reads some tokens, one after the other. -/
def read (ls : List Lexeme) (r : Reading) : Except FormulaError Reading :=
  (ls.map Lexeme.token).foldlM Reading.step r

/-! ## Places do not count -/

/-- Where a token stands decides nothing but the error. -/
theorem step_congr {token token' : Token} {r r' : Reading} (hlexeme : token.lexeme = token'.lexeme)
    (h : r.step token = .ok r') : r.step token' = .ok r' := by
  obtain ⟨kind, text, offset⟩ := token
  obtain ⟨kind', text', offset'⟩ := token'
  obtain ⟨rfl, rfl⟩ : kind = kind' ∧ text = text' := by simpa [Token.lexeme] using hlexeme
  unfold Reading.step at h ⊢
  cases kind with
  | number =>
    simp only at h ⊢
    cases hread : Number.read? text.toList with
    | none => rw [hread] at h; cases h
    | some value => rw [hread] at h; exact h
  | cell =>
    simp only at h ⊢
    cases hparse : CellRef.parse? text with
    | none => rw [hparse] at h; cases h
    | some ref => rw [hparse] at h; exact h
  | operator =>
    simp only at h ⊢
    cases hop : text.toList.head?.bind Operator.ofSymbol? with
    | none => rw [hop] at h; cases h
    | some op => rw [hop] at h; exact h
  | malformed => cases h
  | _ => exact h

theorem foldlM_step_congr {tokens tokens' : List Token} {r r' : Reading}
    (hlexemes : tokens.map Token.lexeme = tokens'.map Token.lexeme)
    (h : tokens.foldlM Reading.step r = .ok r') : tokens'.foldlM Reading.step r = .ok r' := by
  induction tokens generalizing tokens' r with
  | nil =>
    obtain rfl := List.map_eq_nil_iff.1 hlexemes.symm
    exact h
  | cons token tokens ih =>
    obtain ⟨token', tokens', rfl, htoken, htokens⟩ := List.map_eq_cons_iff.1 hlexemes.symm
    rw [List.foldlM_cons] at h ⊢
    cases hstep : r.step token with
    | error e =>
      rw [hstep] at h
      cases h
    | ok next =>
      rw [hstep] at h
      rw [step_congr htoken.symm hstep]
      exact ih htokens.symm h

theorem foldlM_step_of_read {tokens : List Token} {r r' : Reading}
    (h : read (tokens.map Token.lexeme) r = .ok r') : tokens.foldlM Reading.step r = .ok r' :=
  foldlM_step_congr (by simp [Token.lexeme, Lexeme.token]) h

/-! ## One token -/

variable {ls : List Lexeme} {r r' : Reading} {output : List Node} {pending : List Pending}

theorem read_cons {lexeme : Lexeme} (h : r.step lexeme.token = .ok r') :
    read (lexeme :: ls) r = read ls r' := by
  rw [read, List.map_cons, List.foldlM_cons, h]
  rfl

theorem read_word {word : String} {f : Function} (h : Function.ofName? word = some f) :
    read (⟨.word, word⟩ :: ls) r = read ls ⟨r.output, .function f :: r.pending⟩ := by
  apply read_cons
  simp [Reading.step, Lexeme.token, h]

theorem read_leftParenthesis :
    read (⟨.leftParenthesis, "("⟩ :: ls) r = read ls ⟨r.output, .parenthesis :: r.pending⟩ :=
  read_cons rfl

theorem read_rightParenthesis (h : Reading.unwind? r.output r.pending = some r') :
    read (⟨.rightParenthesis, ")"⟩ :: ls) r = read ls r'.close := by
  apply read_cons
  simp [Reading.step, Lexeme.token, h]

theorem read_comma (h : Reading.unwind? r.output r.pending = some r') :
    read (⟨.comma, ","⟩ :: ls) r = read ls r' := by
  apply read_cons
  simp [Reading.step, Lexeme.token, h]

theorem read_operator (op : Operator) :
    read (⟨.operator, String.singleton op.symbol⟩ :: ls) r =
      read ls ⟨(Reading.yieldTo op r.output r.pending).output,
        .operator op :: (Reading.yieldTo op r.output r.pending).pending⟩ := by
  apply read_cons
  simp [Reading.step, Lexeme.token, Operator.ofSymbol?_symbol]

end SheetScript.Formula
