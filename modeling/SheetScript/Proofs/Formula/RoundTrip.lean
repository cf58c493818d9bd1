import SheetScript.Proofs.Formula.Grammar
import SheetScript.Proofs.Formula.Writing

/-!
# Formulas read back

A sequence of nodes can be written as a formula exactly when it passes the arity rule, and parsing
that text gives the sequence back (`parse_render`): the text is cut into the tokens of a tree, which
the grammar derives with that tree.
-/

namespace SheetScript.Formula

namespace Tree

/-- The tokens of a tree are derived with it. Only a range stands there without parentheses. -/
theorem derives_lexemes {t : Tree} (h : Writable t.postorder) :
    Derives (if t.isRange then 3 else 4) t.lexemes t := by
  -- A range stands bare at the level of ranges; all else is an operand by itself.
  have hlevel : ∀ t : Tree, 3 ≤ if t.isRange then 3 else 4 := by
    intro t
    split <;> decide
  induction t with
  | constant value =>
    have hread := Number.read?_format (h.isFinite value List.mem_cons_self)
    exact .operand (.number hread)
  | cell ref => exact .operand (.cell (CellRef.parse?_name (h.inSheet ref List.mem_cons_self)))
  | operation op lhs rhs ihl ihr =>
    have hl := ihl h.left.left
    have hr := ihr h.left.right
    by_cases hop : op = .range
    · subst hop
      have hrhs : Derives 4 (if rhs.isRange then
          ⟨.leftParenthesis, "("⟩ :: (rhs.lexemes ++ [⟨.rightParenthesis, ")"⟩])
          else rhs.lexemes) rhs := by
        cases hrange : rhs.isRange with
        | true => exact .parenthesized (hr.loosen (Nat.zero_le _))
        | false => simpa [hrange] using hr
      exact @Derives.operation .range _ _ _ _ (hl.loosen (hlevel lhs)) hrhs
    · rw [isRange_operation hop, lexemes_operation hop]
      have hle : op.level + 1 ≤ 3 := by
        cases op with
        | range => exact absurd rfl hop
        | _ => decide
      have hall := Derives.operation (hl.loosen (Nat.le_trans (Nat.le_of_succ_le hle) (hlevel lhs)))
        (hr.loosen (Nat.le_trans hle (hlevel rhs)))
      simpa using (hall.loosen (Nat.zero_le _)).parenthesized
  | aggregate kind argument ih =>
    exact .aggregate (Function.named_name _) ((ih h.left).loosen (Nat.zero_le _))
  | extremum kind lhs rhs ihl ihr =>
    exact .extremum (Function.named_name _) ((ihl h.left.left).loosen (Nat.zero_le _))
      ((ihr h.left.right).loosen (Nat.zero_le _))

theorem parse_fragment_text {t : Tree} (h : Writable t.postorder) :
    parse t.fragment.text = .ok t.postorder := by
  have htokens : formulaTokens t.fragment.text = t.lexemes := by
    have hlexemes := t.lexemes_chars h stops_nil
    rw [List.append_nil, Formula.lexemes_nil, List.append_nil] at hlexemes
    rw [formulaTokens, t.toList_fragment_text, trim_chars h, stripEquals_chars h, map_lexeme_scan,
      hlexemes]
  exact parse_of_derives (htokens ▸ (derives_lexemes h).loosen (Nat.zero_le _))

end Tree

/-- **Rendering and parsing are inverse.** Exactly the sequences that pass the arity rule can be
written, and the text of one parses as the same sequence, so that it is written in the same way
again. Its numbers must be finite and its cells must have names. -/
theorem parse_render (nodes : List Node) :
    ((∃ text, render nodes = .ok text) ↔ checkArity nodes = .ok ()) ∧
    ∀ text, render nodes = .ok text →
      (∀ value, .constant value ∈ nodes → Number.isFinite value = true) →
      (∀ ref, .cell ref ∈ nodes → ref.col < CellRef.maxIndex ∧ ref.row < CellRef.maxIndex) →
      parse text = .ok nodes ∧ parse text >>= render = .ok text := by
  constructor
  · rw [checkArity_eq_ok_iff]
    constructor
    · rintro ⟨text, htext⟩
      obtain ⟨t, ht, -⟩ := render_eq_ok_iff.1 htext
      exact ⟨t, ht⟩
    · rintro ⟨t, rfl⟩
      exact ⟨_, t.render_postorder⟩
  · intro text htext hfinite hsheet
    obtain ⟨t, rfl, rfl⟩ := render_eq_ok_iff.1 htext
    have hparse := Tree.parse_fragment_text ⟨hfinite, hsheet⟩
    refine ⟨hparse, ?_⟩
    rw [hparse]
    exact htext

/-- The sum of a range whose last corner is a range, with a negative bound. -/
def nestedRanges : List Node :=
  [.cell ⟨0, 0⟩, .cell ⟨1, 0⟩, .constant (Float.ofBits 0xBFF0000000000000), .operator .range,
    .operator .range, .function (.aggregate .sum)]

/-- `SUM(A1:(B1:-1))` reads back. -/
theorem parse_render_nestedRanges :
    ∃ text, render nestedRanges = .ok text ∧ parse text = .ok nestedRanges := by
  obtain ⟨text, htext⟩ := (parse_render nestedRanges).1.2 rfl
  refine ⟨text, htext, ((parse_render nestedRanges).2 text htext ?_ ?_).1⟩
  · intro value hvalue
    simp [nestedRanges] at hvalue
    subst hvalue
    decide
  · intro ref href
    simp [nestedRanges] at href
    rcases href with rfl | rfl <;> decide

end SheetScript.Formula
