import SheetScript.Proofs.Arithmetic.Grammar
import SheetScript.Proofs.Arithmetic.Lexing

/-!
# Expressions have the values of their derivations

A text has a value just when it is cut into tokens that the grammar derives, and then it has the
value of the derivation (`evaluate_decides_grammar`).

That derivable tokens are read is a property of the grammar (`exists_stands_of_derives`). For the
converse, the two stacks are related to the tokens read so far: at any time these are open
parentheses, signs and left operands with their operators (`Waiting`), with an operand behind them
or not (`Reads`). Each token that is read keeps this (`step_reads`), and so do all
(`foldlM_step_reads`).
-/

namespace SheetScript.Arithmetic

variable {level : Nat} {op top : Operator} {compute : Float → Float → Float}
  {before tokens : List Token} {token : Token} {value : Float} {values values' : List Float}
  {pending pending' : List Pending} {m m' : Machine}

/-! ## What the stacks hold -/

/-- What has been read when an operand comes next: parentheses that are still open, signs, and left
operands with the operators behind them. -/
inductive Waiting : (tokens : List Token) → (values : List Float) → List Pending → Prop
  | start : Waiting [] [] []
  | parenthesis {tokens : List Token} {values : List Float} {pending : List Pending}
      (h : Waiting tokens values pending) :
      Waiting (tokens ++ [.openParenthesis]) values (.parenthesis :: pending)
  | sign {tokens : List Token} {values : List Float} {pending : List Pending}
      (h : Waiting tokens values pending) :
      Waiting (tokens ++ [.operator .subtract]) values (.operator .negate :: pending)
  | operator {op : Operator} {compute : Float → Float → Float} {tokens ls : List Token} {l : Float}
      {values : List Float} {pending : List Pending} (h : Waiting tokens values pending)
      (hop : op.compute? = some compute) (hl : Derives op.level ls l)
      (hfits : Fits op.level pending) :
      Waiting (tokens ++ ls ++ [.operator op]) (l :: values) (.operator op :: pending)

/-- What has been read: something that waits for an operand, or that and the operand. -/
inductive Reads : List Token → Machine → Prop
  | waiting {tokens : List Token} {values : List Float} {pending : List Pending}
      (h : Waiting tokens values pending) : Reads tokens ⟨values, pending, true⟩
  | operand {before tokens : List Token} {value : Float} {values : List Float}
      {pending : List Pending} (h : Waiting before values pending) (he : Derives 6 tokens value) :
      Reads (before ++ tokens) ⟨value :: values, pending, false⟩

/-! ## Applying what waits -/

/-- An operator that waits on top, with its last operand behind it, is an operation. -/
theorem Waiting.exists_apply (h : Waiting before values (.operator top :: pending))
    (he : Derives level tokens value) (hfits : Fits level (.operator top :: pending)) :
    ∃ before' tokens' value' values', before' ++ tokens' = before ++ tokens ∧
      Waiting before' values' pending ∧ Derives top.level tokens' value' ∧
      Fits top.level pending ∧ apply top (value :: values) = .ok (value' :: values') := by
  have hlevel := hfits top rfl
  cases h with
  | @sign before _ _ h =>
    have hsign : (6 : Nat) ≤ level := by
      rcases hlevel with hlevel | hlevel
      · exact Nat.le_of_lt hlevel
      · exact hlevel
    exact ⟨before, .operator .subtract :: tokens, -value, values, by simp, h,
      (he.loosen hsign).sign, fits_operand pending, apply_negate value values⟩
  | @operator _ compute before ls l values _ h hop hl hfits =>
    have hlt := level_lt hop
    exact ⟨before, ls ++ .operator top :: tokens, compute l value, values, by simp, h,
      .operation (Operator.gives_of_compute? hop l value) hl (he.loosen (by omega)),
        hfits, apply_binary hop l value values⟩

theorem Waiting.pushOperator (h : Waiting before values pending) (he : Derives level tokens value)
    (hfits : Fits level pending) (hop : op.compute? = some compute) (hlevel : op.level ≤ level)
    (hpush : pushOperator op (value :: values) pending = .ok (values', pending')) :
    Waiting (before ++ tokens ++ [.operator op]) values' pending' := by
  induction pending generalizing before tokens value values level with
  | nil =>
    cases hpush
    exact .operator h hop (he.loosen hlevel) (fits_nil _)
  | cons top pending ih =>
    cases top with
    | parenthesis =>
      cases hpush
      exact .operator h hop (he.loosen hlevel) (fits_parenthesis _ _)
    | operator top =>
      obtain ⟨before', tokens', value', values', hsame, h', he', hfits', happly⟩ :=
        h.exists_apply he hfits
      by_cases hle : op.level ≤ top.level
      · rw [pushOperator_of_apply hop hle happly] at hpush
        rw [← hsame]
        exact ih h' he' hfits' hle hpush
      · have hfits : Fits op.level (.operator top :: pending) :=
          fits_operator (Or.inl (Nat.lt_of_not_le hle)) pending
        rw [pushOperator_of_fits hop hfits] at hpush
        cases hpush
        exact .operator h hop (he.loosen hlevel) hfits

theorem Waiting.closeParenthesis (h : Waiting before values pending)
    (he : Derives level tokens value) (hfits : Fits level pending)
    (hclose : closeParenthesis (value :: values) pending = .ok (values', pending')) :
    Reads (before ++ tokens ++ [.closeParenthesis]) ⟨values', pending', false⟩ := by
  induction pending generalizing before tokens value values level with
  | nil => cases hclose
  | cons top pending ih =>
    cases top with
    | parenthesis =>
      cases hclose
      cases h with
      | parenthesis h =>
        have hread := Reads.operand h (he.loosen (Nat.zero_le level)).parenthesized
        simpa using hread
    | operator top =>
      obtain ⟨before', tokens', value', values', hsame, h', he', hfits', happly⟩ :=
        h.exists_apply he hfits
      rw [closeParenthesis_of_apply happly] at hclose
      rw [← hsame]
      exact ih h' he' hfits' hclose

theorem Waiting.finish {result : Float} (h : Waiting before values pending)
    (he : Derives level tokens value) (hfits : Fits level pending)
    (hfinish : finish (value :: values) pending = .ok result) :
    Derives 0 (before ++ tokens) result := by
  induction pending generalizing before tokens value values level with
  | nil =>
    cases h
    cases hfinish
    exact he.loosen (Nat.zero_le level)
  | cons top pending ih =>
    cases top with
    | parenthesis => cases hfinish
    | operator top =>
      obtain ⟨before', tokens', value', values', hsame, h', he', hfits', happly⟩ :=
        h.exists_apply he hfits
      rw [finish_of_apply happly] at hfinish
      rw [← hsame]
      exact ih h' he' hfits' hfinish

/-! ## An operand is missing -/

theorem ne_negate_of_compute? (h : op.compute? = some compute) : op ≠ .negate := by
  intro heq
  rw [heq] at h
  cases h

theorem exists_compute (h : op ≠ .negate) : ∃ compute, op.compute? = some compute := by
  cases op with
  | negate => exact absurd rfl h
  | _ => exact ⟨_, rfl⟩

/-- How many of the operators that wait take two operands. -/
def binaryCount (pending : List Pending) : Nat :=
  pending.countP fun
    | .operator op => op ≠ .negate
    | .parenthesis => false

theorem Waiting.length_eq (h : Waiting before values pending) :
    values.length = binaryCount pending := by
  induction h with
  | start => rfl
  | parenthesis h ih => simpa [binaryCount] using ih
  | sign h ih => simpa [binaryCount] using ih
  | @operator op compute tokens ls l values pending h hop hl hfits ih =>
    have hne := ne_negate_of_compute? hop
    simpa [binaryCount, hne] using ih

theorem length_of_apply (h : apply op values = .ok values') :
    values.length = values'.length + if op = .negate then 0 else 1 := by
  by_cases hne : op = .negate
  · subst hne
    match values, h with
    | value :: values, h =>
      cases h
      rfl
  · obtain ⟨compute, hop⟩ := exists_compute hne
    match values, h with
    | rhs :: lhs :: values, h =>
      rw [apply_binary hop] at h
      cases h
      simp [hne]
    | [value], h => simp [apply, hop] at h
    | [], h => simp [apply, hop] at h

theorem length_of_finish {result : Float} (h : finish values pending = .ok result) :
    values.length = binaryCount pending + 1 := by
  induction pending generalizing values with
  | nil =>
    match values, h with
    | [value], _ => rfl
  | cons top pending ih =>
    cases top with
    | parenthesis => cases h
    | operator op =>
      cases happly : apply op values with
      | error fault =>
        rw [finish, happly] at h
        cases h
      | ok values' =>
        rw [finish_of_apply happly] at h
        rw [length_of_apply happly, ih h]
        by_cases hop : op = .negate <;> simp [binaryCount, hop]

/-- Nothing that waits for an operand has a value. -/
theorem finish_ne_of_waiting (h : Waiting tokens values pending) (result : Float) :
    finish values pending ≠ .ok result := by
  intro hfinish
  have hlength := length_of_finish hfinish
  rw [h.length_eq] at hlength
  omega

/-! ## Reading -/

/-- A token that is read adds to what the stacks hold. -/
theorem step_reads (h : Reads tokens m) (htoken : token ≠ .operator .negate)
    (hstep : step m token = .ok m') : Reads (tokens ++ [token]) m' := by
  cases h with
  | @waiting _ values pending h =>
    cases token with
    | number value =>
      cases hstep
      exact .operand h (.number value)
    | openParenthesis =>
      cases hstep
      exact .waiting h.parenthesis
    | operator op =>
      by_cases hop : op = .subtract
      · subst hop
        rw [step_sign] at hstep
        cases hstep
        exact .waiting h.sign
      · simp [step] at hstep
    | closeParenthesis => cases hstep
    | malformed what => cases hstep
  | @operand before tokens value values pending h he =>
    have hfits := fits_operand pending
    cases token with
    | number value => cases hstep
    | openParenthesis => cases hstep
    | operator op =>
      obtain ⟨compute, hop⟩ := exists_compute fun heq => htoken (congrArg _ heq)
      cases hpush : pushOperator op (value :: values) pending with
      | error fault => simp [step, hpush, bind, Except.bind] at hstep
      | ok next =>
        obtain ⟨values', pending'⟩ := next
        rw [step_operator hop rfl hpush] at hstep
        cases hstep
        exact .waiting (h.pushOperator he hfits hop (Nat.le_of_lt (level_lt hop)) hpush)
    | closeParenthesis =>
      cases hclose : closeParenthesis (value :: values) pending with
      | error fault => simp [step, hclose, bind, Except.bind] at hstep
      | ok next =>
        obtain ⟨values', pending'⟩ := next
        rw [step_closeParenthesis rfl hclose] at hstep
        cases hstep
        exact h.closeParenthesis he hfits hclose
    | malformed what => cases hstep

theorem exists_of_foldlM_step_cons (h : (token :: tokens).foldlM step m = .ok m') :
    ∃ next, step m token = .ok next ∧ tokens.foldlM step next = .ok m' := by
  cases hstep : step m token with
  | error fault =>
    rw [List.foldlM_cons, hstep] at h
    cases h
  | ok next =>
    rw [foldlM_step_cons hstep] at h
    exact ⟨next, rfl, h⟩

theorem foldlM_step_reads (htokens : .operator .negate ∉ tokens) (h : Reads before m)
    (hread : tokens.foldlM step m = .ok m') : Reads (before ++ tokens) m' := by
  induction tokens generalizing before m with
  | nil =>
    cases hread
    simpa using h
  | cons token tokens ih =>
    rw [List.mem_cons, not_or] at htokens
    obtain ⟨next, hstep, hread⟩ := exists_of_foldlM_step_cons hread
    have hnext := ih htokens.2 (step_reads h (Ne.symm htokens.1) hstep) hread
    rwa [List.append_assoc] at hnext

theorem malformed_notMem_of_foldlM_step (hread : tokens.foldlM step m = .ok m') (what : Malformed) :
    .malformed what ∉ tokens := by
  induction tokens generalizing m with
  | nil => exact List.not_mem_nil
  | cons token tokens ih =>
    obtain ⟨next, hstep, hread⟩ := exists_of_foldlM_step_cons hread
    refine List.not_mem_cons_of_ne_of_not_mem ?_ (ih hread)
    intro heq
    subst heq
    cases hstep

theorem exists_of_evaluateTokens_eq_ok (h : evaluateTokens tokens = .ok value) :
    ∃ m, tokens.foldlM step {} = .ok m ∧ finish m.values m.pending = .ok value := by
  cases hread : tokens.foldlM step {} with
  | error fault =>
    rw [evaluateTokens, hread] at h
    cases h
  | ok m =>
    rw [evaluateTokens, hread] at h
    exact ⟨m, rfl, h⟩

theorem evaluateTokens_eq_ok_iff (htokens : .operator .negate ∉ tokens) :
    evaluateTokens tokens = .ok value ↔ Derives 0 tokens value := by
  constructor
  case mp =>
    intro h
    obtain ⟨m, hread, hfinish⟩ := exists_of_evaluateTokens_eq_ok h
    cases foldlM_step_reads htokens (.waiting .start) hread with
    | waiting hwaiting => exact absurd hfinish (finish_ne_of_waiting hwaiting value)
    | operand hwaiting he => exact hwaiting.finish he (fits_operand _) hfinish
  case mpr =>
    intro h
    obtain ⟨m, hread, hm⟩ := exists_stands_of_derives h [] (fits_nil 0)
    have hread : tokens.foldlM step {} = .ok m := hread
    rw [evaluateTokens, hread]
    exact hm.finish_eq

/-! ## Texts -/

theorem evaluateTokens_scan_eq_ok_iff (cs : List Char) :
    evaluateTokens (scan cs) = .ok value ↔ ∃ tokens, Lexes cs tokens ∧ Derives 0 tokens value := by
  constructor
  case mp =>
    intro h
    obtain ⟨m, hread, -⟩ := exists_of_evaluateTokens_eq_ok h
    have hlexes := lexes_iff.2 ⟨rfl, malformed_notMem_of_foldlM_step hread⟩
    exact ⟨scan cs, hlexes, (evaluateTokens_eq_ok_iff (notMem_of_lexes hlexes).2).1 h⟩
  case mpr =>
    intro h
    obtain ⟨tokens, hlexes, hderives⟩ := h
    rw [(lexes_iff.1 hlexes).1]
    exact (evaluateTokens_eq_ok_iff (notMem_of_lexes hlexes).2).2 hderives

theorem evaluate_eq_ok_iff_evaluateTokens {source : String} :
    evaluate source = .ok value ↔ evaluateTokens (scan source.toList) = .ok value := by
  unfold evaluate
  cases evaluateTokens (scan source.toList) <;> simp

/-- An expression is evaluated just when its text is cut into tokens that the grammar derives, to
the value of the derivation; for every other text there is an error. -/
theorem evaluate_decides_grammar (source : String) :
    (∀ value, evaluate source = .ok value ↔
      ∃ tokens, Lexes source.toList tokens ∧ Derives 0 tokens value) ∧
    ((∃ fault, evaluate source = .error ⟨source, fault⟩) ↔
      ¬ ∃ tokens value, Lexes source.toList tokens ∧ Derives 0 tokens value) := by
  have hvalue : ∀ value, evaluate source = .ok value ↔
      ∃ tokens, Lexes source.toList tokens ∧ Derives 0 tokens value := fun value =>
    evaluate_eq_ok_iff_evaluateTokens.trans (evaluateTokens_scan_eq_ok_iff source.toList)
  refine ⟨hvalue, ?_, ?_⟩
  case refine_1 =>
    intro h hderivable
    obtain ⟨fault, hfault⟩ := h
    obtain ⟨tokens, value, hderives⟩ := hderivable
    have hok := (hvalue value).2 ⟨tokens, hderives⟩
    cases hfault.symm.trans hok
  case refine_2 =>
    intro hnone
    cases hrun : evaluateTokens (scan source.toList) with
    | error fault => exact ⟨fault, by rw [evaluate, hrun]⟩
    | ok value =>
      obtain ⟨tokens, hderives⟩ := (evaluateTokens_scan_eq_ok_iff source.toList).1 hrun
      exact absurd ⟨tokens, value, hderives⟩ hnone

end SheetScript.Arithmetic
