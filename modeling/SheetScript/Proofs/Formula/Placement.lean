import SheetScript.Proofs.Formula.Accepted

/-!
# Where operands stand in an accepted text

The parser keeps no record of where operands stand. It counts values when all is read, so it accepts
some texts that no infix grammar derives: `+ A1 B1`, `() A1`, `(A1,)`, `SUM A1`. What the count
does not see is local, and `placed` looks for just that: operands side by side, names without their
parenthesis, and parentheses with more or fewer commas than their function takes. A text is
derivable exactly when it is accepted and well placed.

The count is a sum of weights: an operand weighs one, an operator takes one away, and the name of a
function takes away all operands but one. In well placed tokens no two operands stand side by side,
so what stands between two parentheses weighs at most one, and weighs one only if operands and
operators alternate (`splits_of_placed`). An accepted text weighs one altogether.
-/

namespace SheetScript.Formula

/-! ## The grammar -/

/-- The tokens make a formula: operands with operators between them, formulas in parentheses, and
calls of functions with as many formulas as the function takes. -/
inductive Infix : List Lexeme → Prop
  | operand {lexeme : Lexeme} {t : Tree} (h : Denotes lexeme t) : Infix [lexeme]
  | parenthesized {ls : List Lexeme} (h : Infix ls) :
      Infix (⟨.leftParenthesis, "("⟩ :: (ls ++ [⟨.rightParenthesis, ")"⟩]))
  | aggregate {kind : Aggregate} {word : String} {ls : List Lexeme}
      (hword : (Function.aggregate kind).Named word) (h : Infix ls) :
      Infix (⟨.word, word⟩ :: ⟨.leftParenthesis, "("⟩ :: (ls ++ [⟨.rightParenthesis, ")"⟩]))
  | extremum {kind : Extremum} {word : String} {ls rs : List Lexeme}
      (hword : (Function.extremum kind).Named word) (hl : Infix ls) (hr : Infix rs) :
      Infix (⟨.word, word⟩ :: ⟨.leftParenthesis, "("⟩ ::
        (ls ++ ⟨.comma, ","⟩ :: (rs ++ [⟨.rightParenthesis, ")"⟩])))
  | operation {op : Operator} {ls rs : List Lexeme} (hl : Infix ls) (hr : Infix rs) :
      Infix (ls ++ ⟨.operator, String.singleton op.symbol⟩ :: rs)

variable {ls rs seg rest : List Lexeme} {lexeme : Lexeme} {op : Operator} {f : Function}
  {level : Nat} {l r : Tree} {due : List Nat} {afterOperand : Bool}

/-- A further operand goes to the operation that it binds to. -/
theorem Derives.exists_operation (hl : Derives level ls l) (hlevel : level ≤ op.level)
    (hr : Derives 4 rs r) :
    ∃ t, Derives level (ls ++ ⟨.operator, String.singleton op.symbol⟩ :: rs) t := by
  have hop : op.level < 4 := by cases op <;> decide
  induction hl with
  | operand h => omega
  | parenthesized h => omega
  | aggregate hword h => omega
  | extremum hword hl hr => omega
  | @operation op' ls' rs' l' r' hl' hr' _ ih =>
    by_cases heq : op'.level = op.level
    · have hall := hl'.operation hr'
      rw [heq] at hall ⊢
      exact ⟨_, hall.operation (hr.loosen hop)⟩
    · obtain ⟨t, ht⟩ := ih (by omega)
      exact ⟨_, by simpa using hl'.operation ht⟩
  | @tighter level' ls' t h ih =>
    by_cases heq : level' = op.level
    · subst heq
      exact ⟨_, .operation h.tighter (hr.loosen hop)⟩
    · obtain ⟨t, ht⟩ := ih (by omega)
      exact ⟨t, ht.tighter⟩

/-- The grammar with levels derives every formula, and behind every derivation an operator and the
formula. -/
theorem Infix.exists_derives (h : Infix rs) :
    (∃ r, Derives 0 rs r) ∧ ∀ (op : Operator) (ls : List Lexeme) (l : Tree), Derives 0 ls l →
      ∃ t, Derives 0 (ls ++ ⟨.operator, String.singleton op.symbol⟩ :: rs) t := by
  -- A formula that is one operand in the grammar with levels may stand behind an operator.
  have hoperand : ∀ {rs : List Lexeme} {r : Tree}, Derives 4 rs r → (∃ r, Derives 0 rs r) ∧
      ∀ (op : Operator) (ls : List Lexeme) (l : Tree), Derives 0 ls l →
        ∃ t, Derives 0 (ls ++ ⟨.operator, String.singleton op.symbol⟩ :: rs) t :=
    fun hr => ⟨⟨_, hr.loosen (Nat.zero_le _)⟩, fun op _ _ hl =>
      hl.exists_operation (Nat.zero_le _) hr⟩
  induction h with
  | operand h => exact hoperand (.operand h)
  | parenthesized _ ih =>
    obtain ⟨⟨t, ht⟩, -⟩ := ih
    exact hoperand ht.parenthesized
  | aggregate hword _ ih =>
    obtain ⟨⟨t, ht⟩, -⟩ := ih
    exact hoperand (.aggregate hword ht)
  | extremum hword _ _ ihl ihr =>
    obtain ⟨⟨l, hl⟩, -⟩ := ihl
    obtain ⟨⟨r, hr⟩, -⟩ := ihr
    exact hoperand (.extremum hword hl hr)
  | @operation op' ls' rs' _ _ ihl ihr =>
    obtain ⟨⟨l, hl⟩, hbehind⟩ := ihl
    refine ⟨ihr.2 op' ls' l hl, fun op ls l' hl' => ?_⟩
    obtain ⟨t, ht⟩ := hbehind op ls l' hl'
    simpa using ihr.2 op' _ t ht

/-! ## Places -/

/-- How many commas separate the arguments of a function. -/
def Function.commas (f : Function) : Nat :=
  match f.arity with
  | .range => 0
  | .binary => 1

@[simp] theorem Function.commas_aggregate (kind : Aggregate) : (aggregate kind).commas = 0 := rfl

@[simp] theorem Function.commas_extremum (kind : Extremum) : (extremum kind).commas = 1 := rfl

/-- The tokens are well placed, where an operand stands in front of them or not, and `due` are the
commas still due in each open parenthesis, the innermost first:

* no operand begins directly behind another one,
* the name of a function stands directly before a parenthesis,
* each pair of parentheses has as many commas as the function before it takes, or none. -/
def placed (afterOperand : Bool) (due : List Nat) : List Lexeme → Bool
  | [] => due.isEmpty
  | ⟨.word, word⟩ :: ⟨.leftParenthesis, _⟩ :: ls =>
    match Function.ofName? word with
    | some f => !afterOperand && placed false (f.commas :: due) ls
    | none => false
  | lexeme :: ls =>
    match lexeme.kind, due with
    | .number, due | .cell, due => !afterOperand && placed true due ls
    | .leftParenthesis, due => !afterOperand && placed false (0 :: due) ls
    | .operator, due => placed false due ls
    | .rightParenthesis, 0 :: due => placed true due ls
    | .comma, (n + 1) :: due => placed false (n :: due) ls
    | _, _ => false

/-- The tokens of a text are well placed. -/
def WellPlaced (ls : List Lexeme) : Prop := placed false [] ls = true

instance (ls : List Lexeme) : Decidable (WellPlaced ls) :=
  inferInstanceAs (Decidable (placed false [] ls = true))

theorem placed_denotes {t : Tree} (h : Denotes lexeme t) (due : List Nat) (ls : List Lexeme) :
    placed afterOperand due (lexeme :: ls) = (!afterOperand && placed true due ls) := by
  cases h <;> rfl

theorem placed_operator (op : Operator) (due : List Nat) (ls : List Lexeme) :
    placed afterOperand due (⟨.operator, String.singleton op.symbol⟩ :: ls) =
      placed false due ls := rfl

theorem placed_leftParenthesis (due : List Nat) (ls : List Lexeme) :
    placed afterOperand due (⟨.leftParenthesis, "("⟩ :: ls) =
      (!afterOperand && placed false (0 :: due) ls) := rfl

theorem placed_rightParenthesis (due : List Nat) (ls : List Lexeme) :
    placed afterOperand (0 :: due) (⟨.rightParenthesis, ")"⟩ :: ls) = placed true due ls := rfl

theorem placed_comma (n : Nat) (due : List Nat) (ls : List Lexeme) :
    placed afterOperand ((n + 1) :: due) (⟨.comma, ","⟩ :: ls) = placed false (n :: due) ls := rfl

theorem placed_rightParenthesis_iff :
    placed afterOperand due (⟨.rightParenthesis, ")"⟩ :: ls) = true ↔
      ∃ due', due = 0 :: due' ∧ placed true due' ls = true := by
  match due with
  | [] => exact iff_of_false Bool.false_ne_true (by simp)
  | 0 :: due =>
    constructor
    · exact fun h => ⟨due, rfl, h⟩
    · rintro ⟨_, ⟨⟩, h⟩
      exact h
  | (n + 1) :: due => exact iff_of_false Bool.false_ne_true (by simp)

theorem placed_comma_iff :
    placed afterOperand due (⟨.comma, ","⟩ :: ls) = true ↔
      ∃ n due', due = (n + 1) :: due' ∧ placed false (n :: due') ls = true := by
  match due with
  | [] => exact iff_of_false Bool.false_ne_true (by simp)
  | 0 :: due => exact iff_of_false Bool.false_ne_true (by simp)
  | (n + 1) :: due =>
    constructor
    · exact fun h => ⟨n, due, rfl, h⟩
    · rintro ⟨_, _, ⟨⟩, h⟩
      exact h

/-- Behind the name of a function stands a parenthesis. -/
theorem exists_of_placed_word {word : String}
    (h : placed afterOperand due (⟨.word, word⟩ :: ls) = true) :
    ∃ text rest, ls = ⟨.leftParenthesis, text⟩ :: rest := by
  match ls with
  | [] => exact absurd h Bool.false_ne_true
  | ⟨kind, text⟩ :: rest =>
    cases kind with
    | leftParenthesis => exact ⟨text, rest, rfl⟩
    | _ => exact absurd h Bool.false_ne_true

theorem placed_word {word : String} (h : f.Named word) (due : List Nat) (ls : List Lexeme) :
    placed afterOperand due (⟨.word, word⟩ :: ⟨.leftParenthesis, "("⟩ :: ls) =
      (!afterOperand && placed false (f.commas :: due) ls) := by
  simp only [placed, h.ofName?]

/-- The tokens of a formula are well placed before whatever is well placed behind an operand. -/
theorem Infix.placed_append (h : Infix ls) (due : List Nat) (rest : List Lexeme) :
    placed false due (ls ++ rest) = placed true due rest := by
  induction h generalizing due rest with
  | operand h => exact placed_denotes h due rest
  | parenthesized _ ih =>
    have := ih (0 :: due) (⟨.rightParenthesis, ")"⟩ :: rest)
    simpa [placed_leftParenthesis, placed_rightParenthesis] using this
  | aggregate hword _ ih =>
    have := ih (0 :: due) (⟨.rightParenthesis, ")"⟩ :: rest)
    simpa [placed_word hword, placed_rightParenthesis] using this
  | @extremum kind word ls rs hword _ _ ihl ihr =>
    have hl := ihl (1 :: due) (⟨.comma, ","⟩ :: (rs ++ ⟨.rightParenthesis, ")"⟩ :: rest))
    have hr := ihr (0 :: due) (⟨.rightParenthesis, ")"⟩ :: rest)
    simpa [placed_word hword, placed_comma, placed_rightParenthesis, hr] using hl
  | @operation op ls rs _ _ ihl ihr =>
    have hl := ihl due (⟨.operator, String.singleton op.symbol⟩ :: (rs ++ rest))
    simpa [placed_operator, ihr] using hl

theorem Infix.wellPlaced (h : Infix ls) : WellPlaced ls := by
  have hplaced := h.placed_append [] []
  rwa [List.append_nil] at hplaced

/-! ## Weights -/

/-- What a node adds to the number of values. -/
def Node.weight (node : Node) : Int := 1 - node.operandCount

/-- What some tokens add to the number of values, once their nodes find their operands. -/
def weight (ls : List Lexeme) : Int := ((ls.filterMap Lexeme.node?).map Node.weight).sum

@[simp] theorem weight_append (ls rs : List Lexeme) :
    weight (ls ++ rs) = weight ls + weight rs := by
  simp [weight]

theorem weight_cons (lexeme : Lexeme) (ls : List Lexeme) :
    weight (lexeme :: ls) = weight [lexeme] + weight ls :=
  weight_append [lexeme] ls

theorem weight_denotes {t : Tree} (h : Denotes lexeme t) : weight [lexeme] = 1 := by
  cases h with
  | number h => simp [weight, Lexeme.node?, h, Node.weight, Node.operandCount]
  | cell h => simp [weight, Lexeme.node?, h, Node.weight, Node.operandCount]

theorem weight_operator (op : Operator) :
    weight [⟨.operator, String.singleton op.symbol⟩] = -1 := by
  simp [weight, Lexeme.node?, Operator.ofSymbol?_symbol, Node.weight, Node.operandCount]

/-- The name of a function takes away as many values as commas stand between its arguments. -/
theorem weight_word {word : String} (h : f.Named word) : weight [⟨.word, word⟩] = -f.commas := by
  have hweight : (Node.function f).weight = -f.commas := by
    cases f <;> rfl
  simp [weight, Lexeme.node?, h.ofName?, hweight]

theorem weight_leftParenthesis : weight [⟨.leftParenthesis, "("⟩] = 0 := rfl

theorem weight_rightParenthesis : weight [⟨.rightParenthesis, ")"⟩] = 0 := rfl

theorem weight_comma : weight [⟨.comma, ","⟩] = 0 := rfl

theorem countValues_eq_ok {nodes : List Node} {depth count : Nat}
    (h : countValues depth nodes = .ok count) :
    (count : Int) = depth + (nodes.map Node.weight).sum := by
  induction nodes generalizing depth with
  | nil =>
    cases h
    simp
  | cons node nodes ih =>
    rw [countValues] at h
    split_ifs at h with hdepth
    have hrest := ih h
    have hnode : node.weight = 1 - node.operandCount := rfl
    rw [List.map_cons, List.sum_cons]
    omega

/-- The tokens of an accepted text weigh as much as one value. -/
theorem weight_of_parse {text : String} {nodes : List Node} (h : parse text = .ok nodes) :
    weight (formulaTokens text) = 1 := by
  obtain ⟨harity, -, hperm⟩ := parse_eq_ok h
  have hcount := countValues_eq_ok (checkArity_eq_ok_iff_count.1 harity)
  have hsum := (hperm.map Node.weight).sum_eq
  rw [weight, ← hsum]
  omega

/-! ## What well placed tokens weigh -/

/-- The tokens weigh at most as much as one value, and only a formula weighs as much. -/
structure Bounded (ls : List Lexeme) : Prop where
  weight_le : weight ls ≤ 1
  infix_of_weight : weight ls = 1 → Infix ls

theorem bounded_denotes {t : Tree} (h : Denotes lexeme t) : Bounded [lexeme] where
  weight_le := (weight_denotes h).le
  infix_of_weight _ := .operand h

theorem Bounded.parenthesized (h : Bounded ls) :
    Bounded (⟨.leftParenthesis, "("⟩ :: (ls ++ [⟨.rightParenthesis, ")"⟩])) := by
  have hweight : weight (⟨.leftParenthesis, "("⟩ :: (ls ++ [⟨.rightParenthesis, ")"⟩])) =
      weight ls := by
    rw [weight_cons, weight_append, weight_leftParenthesis, weight_rightParenthesis]
    omega
  exact ⟨hweight ▸ h.weight_le, fun h1 => (h.infix_of_weight (hweight ▸ h1)).parenthesized⟩

theorem Bounded.aggregate {kind : Aggregate} {word : String}
    (hword : (Function.aggregate kind).Named word) (h : Bounded ls) :
    Bounded (⟨.word, word⟩ :: ⟨.leftParenthesis, "("⟩ ::
      (ls ++ [⟨.rightParenthesis, ")"⟩])) := by
  have hweight : weight (⟨.word, word⟩ :: ⟨.leftParenthesis, "("⟩ ::
      (ls ++ [⟨.rightParenthesis, ")"⟩])) = weight ls := by
    rw [weight_cons, weight_cons ⟨.leftParenthesis, "("⟩, weight_append, weight_word hword,
      weight_leftParenthesis, weight_rightParenthesis, Function.commas_aggregate]
    omega
  exact ⟨hweight ▸ h.weight_le, fun h1 => .aggregate hword (h.infix_of_weight (hweight ▸ h1))⟩

theorem Bounded.extremum {kind : Extremum} {word : String}
    (hword : (Function.extremum kind).Named word) (hl : Bounded ls) (hr : Bounded rs) :
    Bounded (⟨.word, word⟩ :: ⟨.leftParenthesis, "("⟩ ::
      (ls ++ ⟨.comma, ","⟩ :: (rs ++ [⟨.rightParenthesis, ")"⟩]))) := by
  have hweight : weight (⟨.word, word⟩ :: ⟨.leftParenthesis, "("⟩ ::
      (ls ++ ⟨.comma, ","⟩ :: (rs ++ [⟨.rightParenthesis, ")"⟩]))) =
        weight ls + weight rs - 1 := by
    rw [weight_cons, weight_cons ⟨.leftParenthesis, "("⟩, weight_append, weight_cons ⟨.comma, ","⟩,
      weight_append, weight_word hword, weight_leftParenthesis, weight_comma,
      weight_rightParenthesis, Function.commas_extremum]
    omega
  have hlle := hl.weight_le
  have hrle := hr.weight_le
  refine ⟨by omega, fun h1 => .extremum hword (hl.infix_of_weight ?_) (hr.infix_of_weight ?_)⟩
  · omega
  · omega

/-- The tokens begin a formula, up to an operand or up to a place where one is missing. -/
def Begins : (afterOperand : Bool) → List Lexeme → Prop
  | true, ls => Infix ls
  | false, ls => ls = [] ∨ ∃ (front : List Lexeme) (op : Operator), Infix front ∧
      ls = front ++ [⟨.operator, String.singleton op.symbol⟩]

/-- The tokens lead from one place to another, behind an operand or not: they weigh at most the
difference, and if they weigh as much, they go on with every formula that has begun. -/
structure Leads (before : Bool) (seg : List Lexeme) (after : Bool) : Prop where
  weight_le : weight seg + before.toInt ≤ after.toInt
  begins : weight seg + before.toInt = after.toInt →
    ∀ front, Begins before front → Begins after (front ++ seg)

theorem leads_nil (place : Bool) : Leads place [] place where
  weight_le := by simp [weight]
  begins _ front h := by rwa [List.append_nil]

theorem Leads.trans {before between after : Bool} (h : Leads before seg between)
    (h' : Leads between rest after) : Leads before (seg ++ rest) after := by
  have hle := h.weight_le
  have hle' := h'.weight_le
  refine ⟨by rw [weight_append]; omega, fun heq front hfront => ?_⟩
  rw [weight_append] at heq
  rw [← List.append_assoc]
  exact h'.begins (by omega) _ (h.begins (by omega) front hfront)

theorem Bounded.leads (h : Bounded seg) : Leads false seg true where
  weight_le := by simpa using h.weight_le
  begins heq front hfront := by
    have hseg := h.infix_of_weight (by simpa using heq)
    obtain rfl | ⟨front, op, hfront, rfl⟩ := hfront
    · exact hseg
    · simpa [Begins] using hfront.operation hseg

theorem leads_operator (before : Bool) (op : Operator) :
    Leads before [⟨.operator, String.singleton op.symbol⟩] false where
  weight_le := by
    rw [weight_operator]
    cases before <;> decide
  begins heq front hfront := by
    rw [weight_operator] at heq
    cases before with
    | false => cases heq
    | true => exact Or.inr ⟨front, op, hfront, rfl⟩

theorem Leads.bounded {after : Bool} (h : Leads false seg after) : Bounded seg := by
  have hle := h.weight_le
  have hbegins := h.begins
  cases after <;> simp at hle hbegins
  · exact ⟨by omega, fun h1 => by omega⟩
  · exact ⟨hle, fun h1 => hbegins h1 [] (Or.inl rfl)⟩

/-! ## One level of parentheses -/

/-- Where a level of parentheses ends, with the commas still due: at the end of the tokens, at the
closing parenthesis when no comma is due, or at a comma. What follows is well placed there. -/
inductive Ends : List Nat → List Lexeme → Prop
  | finish : Ends [] []
  | close {due : List Nat} {rest : List Lexeme} (h : placed true due rest = true) :
      Ends (0 :: due) (⟨.rightParenthesis, ")"⟩ :: rest)
  | comma {n : Nat} {due : List Nat} {rest : List Lexeme} (h : placed false (n :: due) rest = true) :
      Ends ((n + 1) :: due) (⟨.comma, ","⟩ :: rest)

/-- The tokens up to the end of the level lead from one place to another. -/
def Splits (before : Bool) (due : List Nat) (ls : List Lexeme) : Prop :=
  ∃ seg rest after, ls = seg ++ rest ∧ Leads before seg after ∧ Ends due rest

theorem Ends.splits (before : Bool) (h : Ends due rest) : Splits before due rest :=
  ⟨[], rest, before, rfl, leads_nil before, h⟩

theorem Leads.splits {before between : Bool} (h : Leads before seg between)
    (hrest : Splits between due rest) : Splits before due (seg ++ rest) := by
  obtain ⟨seg', rest', after, rfl, hlead, hends⟩ := hrest
  exact ⟨seg ++ seg', rest', after, (List.append_assoc _ _ _).symm, h.trans hlead, hends⟩

/-- Between parentheses that take no comma stands at most a formula. -/
theorem Splits.exists_close (h : Splits false (0 :: due) ls) :
    ∃ seg rest, ls = seg ++ ⟨.rightParenthesis, ")"⟩ :: rest ∧ Bounded seg ∧
      placed true due rest = true := by
  obtain ⟨seg, _, after, rfl, hlead, hends⟩ := h
  cases hends with
  | close h => exact ⟨seg, _, rfl, hlead.bounded, h⟩

/-- Before a comma that is due stands at most a formula. -/
theorem Splits.exists_comma {n : Nat} (h : Splits false ((n + 1) :: due) ls) :
    ∃ seg rest, ls = seg ++ ⟨.comma, ","⟩ :: rest ∧ Bounded seg ∧
      placed false (n :: due) rest = true := by
  obtain ⟨seg, _, after, rfl, hlead, hends⟩ := h
  cases hends with
  | comma h => exact ⟨seg, _, rfl, hlead.bounded, h⟩

/-- A token of an accepted text. -/
inductive Lexeme.Proper : Lexeme → Prop
  | operand {lexeme : Lexeme} {t : Tree} (h : Denotes lexeme t) : Proper lexeme
  | operator (op : Operator) : Proper ⟨.operator, String.singleton op.symbol⟩
  | word {word : String} {f : Function} (h : f.Named word) : Proper ⟨.word, word⟩
  | leftParenthesis : Proper ⟨.leftParenthesis, "("⟩
  | rightParenthesis : Proper ⟨.rightParenthesis, ")"⟩
  | comma : Proper ⟨.comma, ","⟩

theorem proper_of_known (hshape : lexeme.Shaped) (hknown : lexeme.Known) : lexeme.Proper := by
  cases hshape with
  | number =>
    obtain ⟨value, hvalue⟩ : ∃ value, Number.read? _ = some value := by
      simpa [Lexeme.Known, Lexeme.node?, Option.isSome_iff_exists] using hknown
    exact .operand (.number hvalue)
  | cell =>
    obtain ⟨ref, href⟩ : ∃ ref, CellRef.parse? _ = some ref := by
      simpa [Lexeme.Known, Lexeme.node?, Option.isSome_iff_exists] using hknown
    exact .operand (.cell href)
  | operator op => exact .operator op
  | word text =>
    obtain ⟨f, hname⟩ := hknown.exists_named
    exact .word hname
  | leftParenthesis => exact .leftParenthesis
  | rightParenthesis => exact .rightParenthesis
  | comma => exact .comma
  | malformed text => exact absurd hknown (not_known_malformed text)

theorem text_of_proper {text : String} (h : Lexeme.Proper ⟨.leftParenthesis, text⟩) :
    text = "(" := by
  cases h with
  | operand h => cases h
  | leftParenthesis => rfl

/-- Well placed tokens that begin with a call split, when what is shorter splits. -/
theorem splits_of_placed_word {word : String} (hword : f.Named word)
    (hproper : ∀ lexeme ∈ ls, lexeme.Proper)
    (hrec : ∀ (before : Bool) (due : List Nat) (rest : List Lexeme), rest.length ≤ ls.length →
      (∀ lexeme ∈ rest, lexeme.Proper) → placed before due rest = true → Splits before due rest)
    (h : placed afterOperand due (⟨.word, word⟩ :: ls) = true) :
    Splits afterOperand due (⟨.word, word⟩ :: ls) := by
  obtain ⟨text, ls, rfl⟩ := exists_of_placed_word h
  obtain ⟨hparenthesis, htail⟩ := List.forall_mem_cons.1 hproper
  obtain rfl := text_of_proper hparenthesis
  rw [placed_word hword, Bool.and_eq_true, Bool.not_eq_true'] at h
  obtain ⟨rfl, h⟩ := h
  -- One argument up to the parenthesis, or one up to the comma and another up to the parenthesis;
  -- what is behind is shorter.
  cases f with
  | aggregate kind =>
    obtain ⟨seg, rest, rfl, hseg, h⟩ := (hrec _ _ ls (by simp) htail h).exists_close
    rw [List.forall_mem_append, List.forall_mem_cons] at htail
    have hsplits := hrec true due rest (by simp; omega) htail.2.2 h
    simpa using (hseg.aggregate hword).leads.splits hsplits
  | extremum kind =>
    obtain ⟨left, ls, rfl, hleft, h⟩ := (hrec _ _ ls (by simp) htail h).exists_comma
    rw [List.forall_mem_append, List.forall_mem_cons] at htail
    obtain ⟨right, rest, rfl, hright, h⟩ :=
      (hrec _ _ ls (by simp; omega) htail.2.2 h).exists_close
    rw [List.forall_mem_append, List.forall_mem_cons] at htail
    have hsplits := hrec true due rest (by simp; omega) htail.2.2.2.2 h
    simpa using (hleft.extremum hword hright).leads.splits hsplits

/-- Well placed tokens split at the end of the level of parentheses. -/
theorem splits_of_placed (hproper : ∀ lexeme ∈ ls, lexeme.Proper)
    (h : placed afterOperand due ls = true) : Splits afterOperand due ls := by
  -- Strong induction: what follows a closing parenthesis is shorter, but no part of the recursion.
  induction hlength : ls.length using Nat.strong_induction_on generalizing ls afterOperand due with
  | _ length ih =>
    cases ls with
    | nil =>
      obtain rfl : due = [] := List.isEmpty_iff.1 h
      exact Ends.finish.splits afterOperand
    | cons lexeme ls =>
      obtain ⟨hfirst, htail⟩ := List.forall_mem_cons.1 hproper
      rw [List.length_cons] at hlength
      have hrec : ∀ (before : Bool) (due : List Nat) (rest : List Lexeme), rest.length ≤ ls.length →
          (∀ lexeme ∈ rest, lexeme.Proper) → placed before due rest = true →
            Splits before due rest :=
        fun before due rest hle hproper h => ih rest.length (by omega) hproper h rfl
      cases hfirst with
      | operand hdenotes =>
        rw [placed_denotes hdenotes, Bool.and_eq_true, Bool.not_eq_true'] at h
        obtain ⟨rfl, h⟩ := h
        exact (bounded_denotes hdenotes).leads.splits (hrec true due ls (Nat.le_refl _) htail h)
      | operator op =>
        rw [placed_operator] at h
        exact (leads_operator afterOperand op).splits (hrec false due ls (Nat.le_refl _) htail h)
      | leftParenthesis =>
        rw [placed_leftParenthesis, Bool.and_eq_true, Bool.not_eq_true'] at h
        obtain ⟨rfl, h⟩ := h
        obtain ⟨seg, rest, rfl, hseg, h⟩ := (hrec _ _ ls (Nat.le_refl _) htail h).exists_close
        rw [List.forall_mem_append, List.forall_mem_cons] at htail
        have hsplits := hrec true due rest (by simp; omega) htail.2.2 h
        simpa using hseg.parenthesized.leads.splits hsplits
      | rightParenthesis =>
        obtain ⟨due, rfl, h⟩ := placed_rightParenthesis_iff.1 h
        exact (Ends.close h).splits afterOperand
      | comma =>
        obtain ⟨n, due, rfl, h⟩ := placed_comma_iff.1 h
        exact (Ends.comma h).splits afterOperand
      | @word word f hword =>
        exact splits_of_placed_word hword htail hrec h

/-! ## Derivable texts -/

/-- A text is derivable exactly when it is accepted and its tokens are well placed. -/
theorem infix_iff (text : String) :
    Infix (formulaTokens text) ↔
      (∃ nodes, parse text = .ok nodes) ∧ WellPlaced (formulaTokens text) := by
  constructor
  · intro h
    obtain ⟨⟨t, ht⟩, -⟩ := h.exists_derives
    exact ⟨⟨_, parse_of_derives ht⟩, h.wellPlaced⟩
  · rintro ⟨⟨nodes, hparse⟩, hplaced⟩
    obtain ⟨-, hknown, -⟩ := parse_eq_ok hparse
    have hproper : ∀ lexeme ∈ formulaTokens text, lexeme.Proper := fun lexeme hmem =>
      proper_of_known (shaped_of_mem_formulaTokens hmem) (hknown lexeme hmem)
    obtain ⟨seg, rest, after, hsplit, hlead, hends⟩ := splits_of_placed hproper hplaced
    cases hends with
    | finish =>
      rw [List.append_nil] at hsplit
      rw [hsplit]
      exact hlead.bounded.infix_of_weight (hsplit ▸ weight_of_parse hparse)

/-- The parser accepts an operator before its operands, empty parentheses, a comma before nothing, a
call behind its argument, and a call without parentheses. -/
theorem parse_notInfix :
    (parse "+ A1 B1" = .ok [.cell ⟨0, 0⟩, .cell ⟨1, 0⟩, .operator .add] ∧
      ¬ Infix (formulaTokens "+ A1 B1")) ∧
    (parse "() A1" = .ok [.cell ⟨0, 0⟩] ∧ ¬ Infix (formulaTokens "() A1")) ∧
    (parse "(A1,)" = .ok [.cell ⟨0, 0⟩] ∧ ¬ Infix (formulaTokens "(A1,)")) ∧
    (parse "A1 SUM()" = .ok [.cell ⟨0, 0⟩, .function (.aggregate .sum)] ∧
      ¬ Infix (formulaTokens "A1 SUM()")) ∧
    (parse "SUM A1" = .ok [.cell ⟨0, 0⟩, .function (.aggregate .sum)] ∧
      ¬ Infix (formulaTokens "SUM A1")) := by
  have hoperator : formulaTokens "+ A1 B1" =
      [⟨.operator, "+"⟩, ⟨.cell, "A1"⟩, ⟨.cell, "B1"⟩] := by cbv
  have hempty : formulaTokens "() A1" =
      [⟨.leftParenthesis, "("⟩, ⟨.rightParenthesis, ")"⟩, ⟨.cell, "A1"⟩] := by cbv
  have hcomma : formulaTokens "(A1,)" = [⟨.leftParenthesis, "("⟩, ⟨.cell, "A1"⟩, ⟨.comma, ","⟩,
      ⟨.rightParenthesis, ")"⟩] := by cbv
  have hbehind : formulaTokens "A1 SUM()" = [⟨.cell, "A1"⟩, ⟨.word, "SUM"⟩,
      ⟨.leftParenthesis, "("⟩, ⟨.rightParenthesis, ")"⟩] := by cbv
  have hbare : formulaTokens "SUM A1" = [⟨.word, "SUM"⟩, ⟨.cell, "A1"⟩] := by cbv
  refine ⟨⟨by cbv, ?_⟩, ⟨by cbv, ?_⟩, ⟨by cbv, ?_⟩, ⟨by cbv, ?_⟩, ⟨by cbv, ?_⟩⟩
  · exact fun h => absurd (hoperator ▸ h.wellPlaced) (by decide)
  · exact fun h => absurd (hempty ▸ h.wellPlaced) (by decide)
  · exact fun h => absurd (hcomma ▸ h.wellPlaced) (by decide)
  · exact fun h => absurd (hbehind ▸ h.wellPlaced) (by decide)
  · exact fun h => absurd (hbare ▸ h.wellPlaced) (by decide)

end SheetScript.Formula
