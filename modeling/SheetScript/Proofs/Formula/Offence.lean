import SheetScript.Proofs.Formula.Accepted

/-!
# The first offending token

A token offends by itself, as a malformed one or as a word that names no function, or because of the
tokens before it: a closing parenthesis that closes nothing, a comma outside all parentheses
(`Offends`). The first token that offends decides the error (`parse_offence`). Without one, the
parentheses that are left open decide, and only then the operands are counted.

Reading counts no parentheses. The entries of the stack that are parentheses are those that are open
(`OpenAfter`): operators and functions come and go above them, a closing parenthesis takes away the
innermost one, and a comma none. So unwinding fails exactly when none is open.
-/

namespace SheetScript.Formula

/-! ## Offences -/

/-- How many parentheses the tokens open. -/
def opened (tokens : List Token) : Nat := tokens.countP (·.kind = .leftParenthesis)

/-- How many parentheses the tokens close. -/
def closed (tokens : List Token) : Nat := tokens.countP (·.kind = .rightParenthesis)

/-- Behind the tokens `before`, a token causes an error. -/
inductive Offends (before : List Token) : Token → FormulaError → Prop
  | malformed (text : String) (offset : Nat) :
      Offends before ⟨.malformed, text, offset⟩ (.malformed offset text)
  | unknownFunction {word : String} (h : ∀ f : Function, ¬ f.Named word) (offset : Nat) :
      Offends before ⟨.word, word, offset⟩ (.unknownFunction word)
  | rightParenthesis (h : opened before ≤ closed before) (text : String) (offset : Nat) :
      Offends before ⟨.rightParenthesis, text, offset⟩ .missingStartParenthesis
  | comma (h : opened before ≤ closed before) (text : String) (offset : Nat) :
      Offends before ⟨.comma, text, offset⟩ .misplacedSeparator

/-- No token offends. -/
def Inoffensive (tokens : List Token) : Prop :=
  ∀ before token after e, tokens = before ++ token :: after → ¬ Offends before token e

/-- The first token that offends causes the error. -/
def FirstOffence (tokens : List Token) (e : FormulaError) : Prop :=
  ∃ before token after, tokens = before ++ token :: after ∧ Inoffensive before ∧
    Offends before token e

variable {tokens before after : List Token} {token : Token} {e : FormulaError} {r r' : Reading}
  {output : List Node} {pending : List Pending}

theorem inoffensive_nil : Inoffensive [] := by
  intro before token after e h
  cases before <;> cases h

theorem inoffensive_of_kind
    (h : ∀ token ∈ tokens, token.kind ∈ [.number, .cell, .operator, .leftParenthesis]) :
    Inoffensive tokens := by
  rintro before token after e rfl hoffends
  have hkind := h token (by simp)
  cases hoffends <;> simp at hkind

theorem inoffensive_concat_iff :
    Inoffensive (tokens ++ [token]) ↔ Inoffensive tokens ∧ ∀ e, ¬ Offends tokens token e := by
  constructor
  · intro h
    refine ⟨?_, fun e => h tokens token [] e rfl⟩
    rintro before token' after e rfl
    exact h before token' (after ++ [token]) e (by simp)
  · rintro ⟨h, hlast⟩ before token' after e heq
    cases after using List.reverseRec with
    | nil =>
      obtain ⟨rfl, ⟨⟩⟩ := List.append_inj' heq rfl
      exact hlast e
    | append_singleton after last =>
      have hinit : tokens = before ++ token' :: after := by
        have heq' : tokens ++ [token] = (before ++ token' :: after) ++ [last] := by simp [heq]
        exact (List.append_inj' heq' rfl).1
      exact h before token' after e hinit

/-- Some token offends first, unless none does. -/
theorem inoffensive_or_firstOffence (tokens : List Token) :
    Inoffensive tokens ∨ ∃ e, FirstOffence tokens e := by
  induction tokens using List.reverseRec with
  | nil => exact Or.inl inoffensive_nil
  | append_singleton tokens token ih =>
    rcases ih with hinoffensive | ⟨e, before, first, after, rfl, hfirst⟩
    · by_cases hlast : ∃ e, Offends tokens token e
      · obtain ⟨e, he⟩ := hlast
        exact Or.inr ⟨e, tokens, token, [], rfl, hinoffensive, he⟩
      · exact Or.inl (inoffensive_concat_iff.2 ⟨hinoffensive, not_exists.1 hlast⟩)
    · exact Or.inr ⟨e, before, first, after ++ [token], by simp, hfirst⟩

/-! ## Parentheses on the stack -/

namespace Reading

/-- How many parentheses wait on the stack. -/
def openCount (r : Reading) : Nat := r.pending.count .parenthesis

theorem openCount_yieldTo (op : Operator) (output : List Node) (pending : List Pending) :
    (yieldTo op output pending).openCount = pending.count .parenthesis := by
  fun_induction yieldTo op output pending with
  | case1 => rfl
  | case2 output top rest _ ih => simpa using ih
  | case3 => rfl

theorem unwind?_eq_none_iff : unwind? output pending = none ↔ pending.count .parenthesis = 0 := by
  fun_induction unwind? output pending with
  | case1 => simp
  | case2 => simp
  | case3 output op rest ih => simpa using ih
  | case4 output f rest ih => simpa using ih

theorem openCount_unwind? (h : unwind? output pending = some r) :
    r.openCount = pending.count .parenthesis := by
  fun_induction unwind? output pending with
  | case1 => cases h
  | case2 => cases h; rfl
  | case3 output op rest ih => simpa using ih h
  | case4 output f rest ih => simpa using ih h

theorem openCount_close (h : r.pending.head? = some .parenthesis) :
    r.close.openCount + 1 = r.openCount := by
  obtain ⟨output, pending⟩ := r
  obtain ⟨rest, rfl⟩ := List.head?_eq_some_iff.1 h
  cases rest with
  | nil => rfl
  | cons top rest => cases top <;> simp [close, openCount]

theorem finish_of_openCount_eq_zero (h : pending.count .parenthesis = 0) :
    ∃ nodes, finish output pending = .ok nodes := by
  fun_induction finish output pending with
  | case1 => exact ⟨_, rfl⟩
  | case2 output op rest ih => exact ih (by simpa using h)
  | case3 output f rest ih => exact ih (by simpa using h)
  | case4 => simp at h

theorem finish_of_openCount_pos (h : 0 < pending.count .parenthesis) :
    finish output pending = .error .unmatchedParenthesis := by
  fun_induction finish output pending with
  | case1 => simp at h
  | case2 output op rest ih => exact ih (by simpa using h)
  | case3 output f rest ih => exact ih (by simpa using h)
  | case4 => rfl

end Reading

/-! ## Reading -/

/-- The parentheses that wait on the stack are those that the tokens leave open. -/
def OpenAfter (tokens : List Token) (r : Reading) : Prop :=
  r.openCount + closed tokens = opened tokens

/-- A number, a cell or an operator stands for a node. -/
def Converts (token : Token) : Prop :=
  token.kind ∈ [.number, .cell, .operator] → ∃ node, token.lexeme.node? = some node

theorem OpenAfter.opened_le_iff (h : OpenAfter tokens r) :
    opened tokens ≤ closed tokens ↔ r.pending.count .parenthesis = 0 := by
  unfold OpenAfter Reading.openCount at h
  omega

theorem step_of_offends (hopen : OpenAfter before r) (h : Offends before token e) :
    r.step token = .error e := by
  cases h with
  | malformed text offset => rfl
  | @unknownFunction word h offset =>
    have hnone : Function.ofName? word = none :=
      Option.eq_none_iff_forall_ne_some.2 fun f hf => h f (Function.named_of_ofName? hf)
    simp [Reading.step, hnone]
  | rightParenthesis h text offset =>
    have hnone : Reading.unwind? r.output r.pending = none :=
      Reading.unwind?_eq_none_iff.2 (hopen.opened_le_iff.1 h)
    simp [Reading.step, hnone]
  | comma h text offset =>
    have hnone : Reading.unwind? r.output r.pending = none :=
      Reading.unwind?_eq_none_iff.2 (hopen.opened_le_iff.1 h)
    simp [Reading.step, hnone]

theorem opened_concat (tokens : List Token) (token : Token) :
    opened (tokens ++ [token]) =
      opened tokens + if token.kind = .leftParenthesis then 1 else 0 := by
  simp [opened, List.countP_append, List.countP_singleton]

theorem closed_concat (tokens : List Token) (token : Token) :
    closed (tokens ++ [token]) =
      closed tokens + if token.kind = .rightParenthesis then 1 else 0 := by
  simp [closed, List.countP_append, List.countP_singleton]

theorem step_of_not_offends (hopen : OpenAfter before r) (hconverts : Converts token)
    (h : ∀ e, ¬ Offends before token e) :
    ∃ r', r.step token = .ok r' ∧ OpenAfter (before ++ [token]) r' := by
  obtain ⟨kind, text, offset⟩ := token
  -- A parenthesis is open before a token that closes one, so that unwinding finds it.
  have hunwinds : ¬ opened before ≤ closed before →
      ∃ r', Reading.unwind? r.output r.pending = some r' := by
    rw [hopen.opened_le_iff, ← Reading.unwind?_eq_none_iff, ← Ne, Option.ne_none_iff_exists']
    exact id
  unfold OpenAfter at *
  rw [opened_concat, closed_concat]
  cases kind with
  | number =>
    -- Operands go to the output, where no parenthesis is.
    obtain ⟨node, hnode⟩ := hconverts (by simp)
    obtain ⟨value, hvalue, -⟩ := Option.map_eq_some_iff.1 hnode
    refine ⟨r.push (.constant value), ?_, by simpa [Reading.push, Reading.openCount] using hopen⟩
    simp only [Token.lexeme] at hvalue
    simp [Reading.step, hvalue]
  | cell =>
    obtain ⟨node, hnode⟩ := hconverts (by simp)
    obtain ⟨ref, href, -⟩ := Option.map_eq_some_iff.1 hnode
    refine ⟨r.push (.cell ref), ?_, by simpa [Reading.push, Reading.openCount] using hopen⟩
    simp only [Token.lexeme] at href
    simp [Reading.step, href]
  | operator =>
    -- What an operator moves to the output are other operators, not parentheses.
    obtain ⟨node, hnode⟩ := hconverts (by simp)
    obtain ⟨op, hop, -⟩ := Option.map_eq_some_iff.1 hnode
    have hyield := Reading.openCount_yieldTo op r.output r.pending
    refine ⟨⟨(Reading.yieldTo op r.output r.pending).output,
      .operator op :: (Reading.yieldTo op r.output r.pending).pending⟩, ?_, ?_⟩
    · simp only [Token.lexeme] at hop
      simp [Reading.step, hop]
    · simp only [Reading.openCount] at hopen hyield ⊢
      simpa [hyield] using hopen
  | word =>
    obtain ⟨f, hf⟩ : ∃ f : Function, f.Named text := by
      by_contra hnone
      exact h _ (.unknownFunction (not_exists.1 hnone) offset)
    refine ⟨⟨r.output, .function f :: r.pending⟩, by simp [Reading.step, hf.ofName?], ?_⟩
    simpa [Reading.openCount] using hopen
  | leftParenthesis =>
    refine ⟨⟨r.output, .parenthesis :: r.pending⟩, rfl, ?_⟩
    simp only [Reading.openCount, List.count_cons_self] at hopen ⊢
    simp
    omega
  | rightParenthesis =>
    -- Unwinding stops at the innermost parenthesis; closing takes that one away, a comma leaves it.
    obtain ⟨r', hunwind⟩ := hunwinds fun hle => h _ (.rightParenthesis hle text offset)
    have hcount := Reading.openCount_unwind? hunwind
    have hclose := Reading.openCount_close (Reading.perm_nodes_unwind? hunwind).2
    refine ⟨r'.close, by simp [Reading.step, hunwind], ?_⟩
    simp only [Reading.openCount] at hopen hcount hclose ⊢
    simp
    omega
  | comma =>
    obtain ⟨r', hunwind⟩ := hunwinds fun hle => h _ (.comma hle text offset)
    have hcount := Reading.openCount_unwind? hunwind
    refine ⟨r', by simp [Reading.step, hunwind], ?_⟩
    simp only [Reading.openCount] at hopen hcount ⊢
    simpa [hcount] using hopen
  | malformed => exact absurd (.malformed text offset) (h _)

/-- Tokens that do not offend are read to the end. -/
theorem exists_of_inoffensive (hconverts : ∀ token ∈ tokens, Converts token)
    (h : Inoffensive tokens) :
    ∃ r, tokens.foldlM Reading.step {} = .ok r ∧ OpenAfter tokens r := by
  induction tokens using List.reverseRec with
  | nil => exact ⟨{}, rfl, rfl⟩
  | append_singleton tokens token ih =>
    obtain ⟨hinit, hlast⟩ := inoffensive_concat_iff.1 h
    obtain ⟨r, hr, hopen⟩ := ih (fun t ht => hconverts t (List.mem_append_left _ ht)) hinit
    obtain ⟨r', hstep, hopen'⟩ := step_of_not_offends hopen (hconverts token (by simp)) hlast
    refine ⟨r', ?_, hopen'⟩
    simp [List.foldlM_append, hr, hstep, bind, Except.bind, pure, Except.pure]

theorem ofTokens_of_firstOffence (hconverts : ∀ token ∈ tokens, Converts token)
    (h : FirstOffence tokens e) : ofTokens tokens = .error e := by
  obtain ⟨before, token, after, rfl, hbefore, hoffends⟩ := h
  obtain ⟨r, hr, hopen⟩ :=
    exists_of_inoffensive (fun t ht => hconverts t (List.mem_append_left _ ht)) hbefore
  have hstep := step_of_offends hopen hoffends
  simp [ofTokens, List.foldlM_append, hr, hstep, bind, Except.bind]

/-- Parentheses that are left open count only when all tokens are read. -/
theorem ofTokens_of_closed_lt (hconverts : ∀ token ∈ tokens, Converts token)
    (h : Inoffensive tokens) (hlt : closed tokens < opened tokens) :
    ofTokens tokens = .error .unmatchedParenthesis := by
  obtain ⟨r, hr, hopen⟩ := exists_of_inoffensive hconverts h
  have hpositive : 0 < r.pending.count .parenthesis := by
    have := mt hopen.opened_le_iff.2
    omega
  simp [ofTokens, hr, Reading.finish_of_openCount_pos hpositive, bind, Except.bind]

/-- With all parentheses closed, only the operands may be wrong. -/
theorem ofTokens_of_opened_le (hconverts : ∀ token ∈ tokens, Converts token)
    (h : Inoffensive tokens) (hle : opened tokens ≤ closed tokens) :
    (∃ nodes, ofTokens tokens = .ok nodes) ∨ ∃ fault, ofTokens tokens = .error (.arity fault) := by
  obtain ⟨r, hr, hopen⟩ := exists_of_inoffensive hconverts h
  obtain ⟨nodes, hfinish⟩ :=
    @Reading.finish_of_openCount_eq_zero r.output r.pending (hopen.opened_le_iff.1 hle)
  cases harity : checkArity nodes with
  | ok => exact Or.inl ⟨nodes, by simp [ofTokens, hr, hfinish, harity, bind, Except.bind]⟩
  | error fault => exact Or.inr ⟨fault, by simp [ofTokens, hr, hfinish, harity, bind, Except.bind]⟩

/-! ## Texts -/

/-- The tokens of a text with their places. -/
def placedTokens (text : String) : List Token := scan (stripEquals (Text.trim text.toList))

theorem Denotes.exists_node {lexeme : Lexeme} {leaf : Tree} (h : Denotes lexeme leaf) :
    ∃ node, lexeme.node? = some node := by
  cases h with
  | @number text value h => exact ⟨.constant value, by simp [Lexeme.node?, h]⟩
  | @cell text ref h => exact ⟨.cell ref, by simp [Lexeme.node?, h]⟩

theorem Lexeme.Shaped.exists_node {lexeme : Lexeme} (h : lexeme.Shaped)
    (hkind : lexeme.kind = .operator) : ∃ node, lexeme.node? = some node := by
  cases h with
  | operator op => exact ⟨.operator op, by simp [Lexeme.node?, Operator.ofSymbol?_symbol]⟩
  | _ => cases hkind

/-- The numbers, the cells and the operators of a text all convert. -/
theorem converts_of_mem_placedTokens {text : String} (h : token ∈ placedTokens text) :
    Converts token := by
  have hmem : token.lexeme ∈ lexemes false (stripEquals (Text.trim text.toList)) := by
    rw [← map_lexeme_scan]
    exact List.mem_map_of_mem h
  intro hkind
  rw [List.mem_cons, List.mem_cons, List.mem_singleton, ← or_assoc] at hkind
  rcases hkind with hoperand | hoperator
  · obtain ⟨leaf, hleaf⟩ := exists_denotes_of_mem_lexemes hmem (by simpa [Token.lexeme] using hoperand)
    exact hleaf.exists_node
  · exact (shaped_of_mem_lexemes hmem).exists_node hoperator

/-- **The first offending token decides the error.** If a token of a text offends, the first one
that does so causes the error. Otherwise a parenthesis that is left open does, and with all of them
closed the text parses or its nodes lack or leave operands. No token fails otherwise: the numbers,
the cells and the operators all convert. -/
theorem parse_offence (text : String) :
    (∀ e, FirstOffence (placedTokens text) e → parse text = .error e) ∧
    (Inoffensive (placedTokens text) → closed (placedTokens text) < opened (placedTokens text) →
      parse text = .error .unmatchedParenthesis) ∧
    (Inoffensive (placedTokens text) → opened (placedTokens text) ≤ closed (placedTokens text) →
      (∃ nodes, parse text = .ok nodes) ∨ ∃ fault, parse text = .error (.arity fault)) ∧
    (Inoffensive (placedTokens text) ∨ ∃ e, FirstOffence (placedTokens text) e) ∧
    ∀ token ∈ placedTokens text, Converts token :=
  ⟨fun _ => ofTokens_of_firstOffence fun _ => converts_of_mem_placedTokens,
    ofTokens_of_closed_lt fun _ => converts_of_mem_placedTokens,
    ofTokens_of_opened_le fun _ => converts_of_mem_placedTokens,
    inoffensive_or_firstOffence _, fun _ => converts_of_mem_placedTokens⟩

/-- A parenthesis that closes nothing before a character outside the language, one that is left
open, and two cells side by side. -/
theorem parse_offence_texts :
    (FirstOffence (placedTokens "A1)#") .missingStartParenthesis ∧
      parse "A1)#" = .error .missingStartParenthesis) ∧
    (Inoffensive (placedTokens "(A1") ∧
      closed (placedTokens "(A1") < opened (placedTokens "(A1") ∧
      parse "(A1" = .error .unmatchedParenthesis) ∧
    (Inoffensive (placedTokens "A1 A1") ∧
      opened (placedTokens "A1 A1") ≤ closed (placedTokens "A1 A1") ∧
      ((∃ nodes, parse "A1 A1" = .ok nodes) ∨ ∃ fault, parse "A1 A1" = .error (.arity fault))) := by
  have hclosing : placedTokens "A1)#" =
      [⟨.cell, "A1", 0⟩, ⟨.rightParenthesis, ")", 2⟩, ⟨.malformed, "#", 3⟩] := by cbv
  have hopening : placedTokens "(A1" = [⟨.leftParenthesis, "(", 0⟩, ⟨.cell, "A1", 1⟩] := by cbv
  have hcells : placedTokens "A1 A1" = [⟨.cell, "A1", 0⟩, ⟨.cell, "A1", 3⟩] := by cbv
  have hfirst : FirstOffence (placedTokens "A1)#") .missingStartParenthesis :=
    ⟨[⟨.cell, "A1", 0⟩], ⟨.rightParenthesis, ")", 2⟩, [⟨.malformed, "#", 3⟩], hclosing,
      inoffensive_of_kind (by simp), .rightParenthesis (by decide) ")" 2⟩
  have hopen : Inoffensive (placedTokens "(A1") := by
    rw [hopening]
    exact inoffensive_of_kind (by simp)
  have hlt : closed (placedTokens "(A1") < opened (placedTokens "(A1") := by
    rw [hopening]
    decide
  have htwo : Inoffensive (placedTokens "A1 A1") := by
    rw [hcells]
    exact inoffensive_of_kind (by simp)
  have hle : opened (placedTokens "A1 A1") ≤ closed (placedTokens "A1 A1") := by
    rw [hcells]
    decide
  exact ⟨⟨hfirst, (parse_offence "A1)#").1 _ hfirst⟩,
    ⟨hopen, hlt, (parse_offence "(A1").2.1 hopen hlt⟩,
    htwo, hle, (parse_offence "A1 A1").2.2.1 htwo hle⟩

end SheetScript.Formula
