import SheetScript.Proofs.Formula.Grammar

/-!
# What an accepted text consists of

Reading loses no token and makes up no node: the nodes of a parsed formula are those that its tokens
stand for, in another order (`parse_eq_ok`). Moving an entry from the stack to the output only
changes the place of its node, so each token adds its own node and nothing else (`perm_nodes_step`).

Each token of an accepted text belongs to the language (`Lexeme.Known`), and parentheses, commas and
operators have just the text that their kind says.
-/

namespace SheetScript.Formula

/-! ## Nodes of tokens and of states -/

/-- The node that a token stands for; parentheses and commas stand for none. -/
def Lexeme.node? (lexeme : Lexeme) : Option Node :=
  match lexeme.kind with
  | .number => (Number.read? lexeme.text.toList).map .constant
  | .cell => (CellRef.parse? lexeme.text).map .cell
  | .operator => (lexeme.text.toList.head?.bind Operator.ofSymbol?).map .operator
  | .word => (Function.ofName? lexeme.text).map .function
  | .leftParenthesis | .rightParenthesis | .comma | .malformed => none

/-- The token is a parenthesis or a comma, or stands for a node. -/
def Lexeme.Known (lexeme : Lexeme) : Prop :=
  lexeme.kind ∈ [.leftParenthesis, .rightParenthesis, .comma] ∨ lexeme.node?.isSome = true

/-- The node that an entry of the stack becomes; a parenthesis becomes none. -/
def Pending.node? : Pending → Option Node
  | operator op => some (.operator op)
  | function f => some (.function f)
  | parenthesis => none

/-- All nodes of a state, on the output and on the stack. -/
def Reading.nodes (r : Reading) : List Node := r.output ++ r.pending.filterMap Pending.node?

variable {r r' : Reading} {output nodes : List Node} {pending : List Pending}

/-- The top of the stack may as well stand on the output. -/
theorem Reading.perm_nodes_move {top : Pending} {node : Node} (h : top.node? = some node)
    (output : List Node) (pending : List Pending) :
    (⟨node :: output, pending⟩ : Reading).nodes.Perm
      (⟨output, top :: pending⟩ : Reading).nodes := by
  simp only [nodes, List.filterMap_cons, h, List.cons_append]
  exact List.perm_middle.symm

theorem Reading.perm_nodes_yieldTo (op : Operator) (output : List Node) (pending : List Pending) :
    (yieldTo op output pending).nodes.Perm (⟨output, pending⟩ : Reading).nodes := by
  fun_induction yieldTo op output pending with
  | case1 => exact .refl _
  | case2 output top rest _ ih => exact ih.trans (perm_nodes_move rfl output rest)
  | case3 => exact .refl _

/-- Unwinding moves nodes to the output and ends at a parenthesis. -/
theorem Reading.perm_nodes_unwind? (h : unwind? output pending = some r) :
    r.nodes.Perm (⟨output, pending⟩ : Reading).nodes ∧ r.pending.head? = some .parenthesis := by
  fun_induction unwind? output pending with
  | case1 => cases h
  | case2 => cases h; exact ⟨.refl _, rfl⟩
  | case3 output op rest ih => exact (ih h).imp_left (·.trans (perm_nodes_move rfl output rest))
  | case4 output f rest ih => exact (ih h).imp_left (·.trans (perm_nodes_move rfl output rest))

theorem Reading.perm_nodes_close (h : r.pending.head? = some .parenthesis) :
    r.close.nodes.Perm r.nodes := by
  obtain ⟨output, pending⟩ := r
  obtain ⟨rest, rfl⟩ := List.head?_eq_some_iff.1 h
  cases rest with
  | nil => exact .refl _
  | cons top rest =>
    cases top with
    | function f => exact @perm_nodes_move (.function f) _ rfl output rest
    | _ => exact .refl _

theorem Reading.perm_nodes_finish (h : finish output pending = .ok nodes) :
    nodes.Perm (⟨output, pending⟩ : Reading).nodes := by
  fun_induction finish output pending with
  | case1 output =>
    cases h
    simp [Reading.nodes]
  | case2 output op rest ih => exact (ih h).trans (perm_nodes_move rfl output rest)
  | case3 output f rest ih => exact (ih h).trans (perm_nodes_move rfl output rest)
  | case4 => cases h

/-! ## Reading -/

theorem perm_nodes_step {token : Token} (h : r.step token = .ok r') :
    token.lexeme.Known ∧ r'.nodes.Perm (token.lexeme.node?.toList ++ r.nodes) := by
  obtain ⟨kind, text, offset⟩ := token
  simp only [Token.lexeme]
  unfold Reading.step at h
  cases kind <;> simp only [Lexeme.Known, Lexeme.node?] at h ⊢
  case number =>
    split at h <;> cases h
    next value hread => simp [hread, Reading.push, Reading.nodes]
  case cell =>
    split at h <;> cases h
    next ref hparse => simp [hparse, Reading.push, Reading.nodes]
  case operator =>
    split at h <;> cases h
    next op hop =>
      refine ⟨by simp [hop], ?_⟩
      have hyield := Reading.perm_nodes_yieldTo op r.output r.pending
      simp only [hop, Option.map_some, Option.toList_some]
      exact List.perm_middle.trans (hyield.cons (.operator op))
  case word =>
    split at h <;> cases h
    next f hf =>
      refine ⟨by simp [hf], ?_⟩
      simp only [hf, Option.map_some, Option.toList_some]
      exact List.perm_middle
  case leftParenthesis =>
    cases h
    exact ⟨by simp, .refl _⟩
  case rightParenthesis =>
    split at h <;> cases h
    next r'' hunwind =>
      obtain ⟨hperm, htop⟩ := Reading.perm_nodes_unwind? hunwind
      exact ⟨by simp, (Reading.perm_nodes_close htop).trans hperm⟩
  case comma =>
    split at h <;> cases h
    next hunwind => exact ⟨by simp, (Reading.perm_nodes_unwind? hunwind).1⟩
  case malformed => cases h

theorem perm_nodes_foldlM {tokens : List Token} (h : tokens.foldlM Reading.step r = .ok r') :
    (∀ lexeme ∈ tokens.map Token.lexeme, lexeme.Known) ∧
      r'.nodes.Perm ((tokens.map Token.lexeme).filterMap Lexeme.node? ++ r.nodes) := by
  induction tokens generalizing r with
  | nil =>
    cases h
    exact ⟨fun _ h => absurd h List.not_mem_nil, .refl _⟩
  | cons token tokens ih =>
    rw [List.foldlM_cons] at h
    cases hstep : r.step token with
    | error e => rw [hstep] at h; cases h
    | ok next =>
      rw [hstep] at h
      obtain ⟨hknown, hperm⟩ := perm_nodes_step hstep
      obtain ⟨hrest, hperm'⟩ := ih h
      refine ⟨List.forall_mem_cons.2 ⟨hknown, hrest⟩, hperm'.trans ?_⟩
      rw [List.map_cons, List.filterMap_cons]
      cases hnode : token.lexeme.node? with
      | none => exact (hnode ▸ hperm).append_left _
      | some node => exact ((hnode ▸ hperm).append_left _).trans List.perm_middle

/-- **Parsing keeps the nodes of the tokens.** Every token of an accepted text is known; the parsed
formula passes the arity rule and consists of the nodes that the tokens stand for. -/
theorem parse_eq_ok {text : String} (h : parse text = .ok nodes) :
    checkArity nodes = .ok () ∧ (∀ lexeme ∈ formulaTokens text, lexeme.Known) ∧
      nodes.Perm ((formulaTokens text).filterMap Lexeme.node?) := by
  obtain ⟨r, hread, hfinish, harity⟩ := ofTokens_eq_ok_iff.1 h
  obtain ⟨hknown, hperm⟩ := perm_nodes_foldlM hread
  refine ⟨harity, hknown, (Reading.perm_nodes_finish hfinish).trans ?_⟩
  simpa [formulaTokens, Reading.nodes] using hperm

/-! ## The texts of tokens -/

theorem Function.named_of_ofName? {f : Function} {word : String}
    (h : Function.ofName? word = some f) : f.Named word := by
  rw [Function.ofName?] at h
  have hname := List.find?_some h
  exact (eq_of_beq hname).symm

theorem Lexeme.Known.exists_named {word : String} (h : Lexeme.Known ⟨.word, word⟩) :
    ∃ f : Function, f.Named word := by
  obtain ⟨f, hf⟩ : ∃ f, Function.ofName? word = some f := by
    simpa [Known, node?, Option.isSome_iff_exists] using h
  exact ⟨f, Function.named_of_ofName? hf⟩

theorem not_known_malformed (text : String) : ¬ Lexeme.Known ⟨.malformed, text⟩ := by
  simp [Lexeme.Known, Lexeme.node?]

variable {afterOperand : Bool} {cs : List Char} {lexeme : Lexeme}

/-- The text of a token is one of its kind. -/
inductive Lexeme.Shaped : Lexeme → Prop
  | number {text : String} (h : ∀ c ∈ text.toList, isNumberChar c = true ∨ c = '-') :
      Shaped ⟨.number, text⟩
  | cell {text : String} (h : isCellName text.toList = true) : Shaped ⟨.cell, text⟩
  | operator (op : Operator) : Shaped ⟨.operator, String.singleton op.symbol⟩
  | word (text : String) : Shaped ⟨.word, text⟩
  | leftParenthesis : Shaped ⟨.leftParenthesis, "("⟩
  | rightParenthesis : Shaped ⟨.rightParenthesis, ")"⟩
  | comma : Shaped ⟨.comma, ","⟩
  | malformed (text : String) : Shaped ⟨.malformed, text⟩

theorem shaped_of_classify {kind : TokenKind} {size : Nat} {c : Char} {rest : List Char}
    (h : classify afterOperand c rest = (kind, size)) :
    Lexeme.Shaped ⟨kind, String.ofList (c :: rest.take size)⟩ := by
  unfold classify at h
  -- One case for each class that a first character may belong to, in the order of `classify`.
  split_ifs at h with hnumber halpha hleft hright hcomma hoperator
  · obtain ⟨rfl, rfl⟩ := Prod.mk.inj h
    split_ifs
    · refine .number ?_
      rw [String.toList_ofList, Text.take_length_takeWhile, List.forall_mem_cons]
      refine ⟨?_, fun d hd => Or.inl (List.mem_takeWhile_imp hd)⟩
      rcases Bool.or_eq_true_iff.1 hnumber with hdigit | hminus
      · exact Or.inl (by simp [isNumberChar, hdigit])
      · simp only [Bool.and_eq_true, beq_iff_eq] at hminus
        exact Or.inr hminus.1.1
    · exact .malformed _
  · obtain ⟨rfl, rfl⟩ := Prod.mk.inj h
    rw [Text.take_length_takeWhile]
    split_ifs with hcell
    · exact .cell (by rwa [String.toList_ofList])
    · exact .word _
  · obtain ⟨rfl, rfl⟩ := Prod.mk.inj h
    obtain rfl := eq_of_beq hleft
    exact .leftParenthesis
  · obtain ⟨rfl, rfl⟩ := Prod.mk.inj h
    obtain rfl := eq_of_beq hright
    exact .rightParenthesis
  · obtain ⟨rfl, rfl⟩ := Prod.mk.inj h
    obtain rfl := eq_of_beq hcomma
    exact .comma
  · obtain ⟨rfl, rfl⟩ := Prod.mk.inj h
    obtain ⟨op, hop⟩ := Option.isSome_iff_exists.1 (Bool.and_eq_true_iff.1 hoperator).1
    have hsymbol : op.symbol = c := by simpa using List.find?_some hop
    subst hsymbol
    exact .operator op
  · obtain ⟨rfl, rfl⟩ := Prod.mk.inj h
    exact .malformed _

theorem shaped_of_mem_lexemes (h : lexeme ∈ lexemes afterOperand cs) : lexeme.Shaped := by
  fun_induction lexemes afterOperand cs with
  | case1 => cases h
  | case2 afterOperand cs c rest hcs kind size hclass ih =>
    rcases List.mem_cons.1 h with rfl | htail
    · exact shaped_of_classify hclass
    · exact ih htail

theorem shaped_of_mem_formulaTokens {text : String} (h : lexeme ∈ formulaTokens text) :
    lexeme.Shaped := by
  rw [formulaTokens, map_lexeme_scan] at h
  exact shaped_of_mem_lexemes h

end SheetScript.Formula
