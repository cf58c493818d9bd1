import SheetScript.Proofs.Formula.Reading
import SheetScript.Proofs.Formula.Tree

/-!
# The grammar of formulas

Formulas are built level by level. The operators of each level group to the left and their operands
come from the next tighter level; the tightest level has numbers, cells, formulas in parentheses and
calls of functions. `Derives` relates the tokens of a formula to its tree.

Reading the tokens of a tree leaves a state that stands for its postorder (`Stands`): operators may
still wait on the stack, but whatever comes next moves them to the output first, as long as it does
not bind tighter than the tree. This goes through by induction on the derivation
(`exists_stands_of_derives`), so every derivable text parses as the postorder of its tree
(`parse_grammar`).
-/

namespace SheetScript.Formula

/-! ## Derivations -/

/-- The level of an operator, from the loosest up. -/
def Operator.level : Operator → Nat
  | add | subtract => 0
  | divide => 1
  | multiply => 2
  | range => 3

/-- A token that stands for an operand by itself. -/
inductive Denotes : Lexeme → Tree → Prop
  | number {text : String} {value : Float} (h : Number.read? text.toList = some value) :
      Denotes ⟨.number, text⟩ (.constant value)
  | cell {text : String} {ref : CellRef} (h : CellRef.parse? text = some ref) :
      Denotes ⟨.cell, text⟩ (.cell ref)

/-- The word is the name of the function, in letters of either case. -/
def Function.Named (f : Function) (word : String) : Prop :=
  word.toList.map Char.toUpper = f.name.toList

/-- The tokens make a formula of the given level with the given tree. -/
inductive Derives : (level : Nat) → List Lexeme → Tree → Prop
  | operand {lexeme : Lexeme} {t : Tree} (h : Denotes lexeme t) : Derives 4 [lexeme] t
  | parenthesized {ls : List Lexeme} {t : Tree} (h : Derives 0 ls t) :
      Derives 4 (⟨.leftParenthesis, "("⟩ :: (ls ++ [⟨.rightParenthesis, ")"⟩])) t
  | aggregate {kind : Aggregate} {word : String} {ls : List Lexeme} {argument : Tree}
      (hword : (Function.aggregate kind).Named word) (h : Derives 0 ls argument) :
      Derives 4
        (⟨.word, word⟩ :: ⟨.leftParenthesis, "("⟩ :: (ls ++ [⟨.rightParenthesis, ")"⟩]))
        (.aggregate kind argument)
  | extremum {kind : Extremum} {word : String} {ls rs : List Lexeme} {l r : Tree}
      (hword : (Function.extremum kind).Named word) (hl : Derives 0 ls l) (hr : Derives 0 rs r) :
      Derives 4
        (⟨.word, word⟩ :: ⟨.leftParenthesis, "("⟩ ::
          (ls ++ ⟨.comma, ","⟩ :: (rs ++ [⟨.rightParenthesis, ")"⟩])))
        (.extremum kind l r)
  | operation {op : Operator} {ls rs : List Lexeme} {l r : Tree} (hl : Derives op.level ls l)
      (hr : Derives (op.level + 1) rs r) :
      Derives op.level (ls ++ ⟨.operator, String.singleton op.symbol⟩ :: rs) (.operation op l r)
  | tighter {level : Nat} {ls : List Lexeme} {t : Tree} (h : Derives (level + 1) ls t) :
      Derives level ls t

variable {level : Nat} {op top : Operator} {f : Function} {word : String} {ls : List Lexeme}
  {t : Tree} {output : List Node} {pending : List Pending} {r : Reading}

theorem Derives.loosen {level' : Nat} (h : Derives level' ls t) (hle : level ≤ level') :
    Derives level ls t := by
  induction hle with
  | refl => exact h
  | step _ ih => exact ih h.tighter

theorem Function.named_name (f : Function) : f.Named f.name := by
  rcases f with kind | kind <;> cases kind <;> rfl

theorem Function.Named.ofName? (h : f.Named word) : Function.ofName? word = some f := by
  rw [Function.ofName?, h]
  rcases f with kind | kind <;> cases kind <;> decide

/-- The levels of the grammar are the precedences of the table. -/
theorem precedence_lt_iff : top.precedence < op.precedence ↔ top.level < op.level := by
  cases top <;> cases op <;> decide

/-! ## What waits -/

/-- A formula of the given level may be the operand of what waits on top. A function waits for its
parenthesis instead. -/
structure Fits (level : Nat) (pending : List Pending) : Prop where
  operator : ∀ op, pending.head? = some (.operator op) → op.level < level
  function : ∀ f, pending.head? ≠ some (.function f)

theorem fits_nil (level : Nat) : Fits level [] := ⟨nofun, nofun⟩

theorem fits_parenthesis (level : Nat) (pending : List Pending) :
    Fits level (.parenthesis :: pending) := ⟨nofun, nofun⟩

theorem fits_operator (op : Operator) (pending : List Pending) :
    Fits (op.level + 1) (.operator op :: pending) := by
  refine ⟨?_, nofun⟩
  intro top htop
  cases htop
  exact Nat.lt_succ_self op.level

theorem Fits.tighter (h : Fits level pending) : Fits (level + 1) pending :=
  ⟨fun op hop => Nat.lt_succ_of_lt (h.operator op hop), h.function⟩

theorem Fits.yieldTo (h : Fits op.level pending) (output : List Node) :
    Reading.yieldTo op output pending = ⟨output, pending⟩ := by
  match pending, h with
  | [], _ => rfl
  | .operator top :: rest, h => rw [Reading.yieldTo, if_pos (precedence_lt_iff.2 (h.operator top rfl))]
  | .parenthesis :: rest, _ => rfl
  | .function f :: rest, _ => rfl

/-- A closing parenthesis without a function before it goes with the open one. -/
theorem Fits.close (h : Fits level pending) (output : List Node) :
    Reading.close ⟨output, .parenthesis :: pending⟩ = ⟨output, pending⟩ := by
  match pending, h with
  | [], _ => rfl
  | .operator op :: rest, _ => rfl
  | .parenthesis :: rest, _ => rfl
  | .function f :: rest, h => exact absurd rfl (h.function f)

/-- An operator of the same or a tighter level that waits on top is moved. -/
theorem yieldTo_of_level_le (h : op.level ≤ top.level) (output : List Node)
    (pending : List Pending) :
    Reading.yieldTo op output (.operator top :: pending) =
      Reading.yieldTo op (.operator top :: output) pending := by
  have hmoves : ¬ top.precedence < op.precedence := by
    rw [precedence_lt_iff]
    exact Nat.not_lt.2 h
  rw [Reading.yieldTo, if_neg hmoves]

/-! ## Derived tokens are read -/

/-- The state is as good as the one with the nodes put on the output above the given stack: what
comes next cannot tell them apart, unless it binds tighter than the formula. -/
structure Stands (level : Nat) (output : List Node) (pending : List Pending) (r : Reading) :
    Prop where
  yieldTo_eq : ∀ op : Operator, op.level ≤ level →
    Reading.yieldTo op r.output r.pending = Reading.yieldTo op output pending
  unwind?_eq : Reading.unwind? r.output r.pending = Reading.unwind? output pending
  finish_eq : Reading.finish r.output r.pending = Reading.finish output pending

theorem stands_self (level : Nat) (output : List Node) (pending : List Pending) :
    Stands level output pending ⟨output, pending⟩ :=
  ⟨fun _ _ => rfl, rfl, rfl⟩

theorem Stands.loosen {level' : Nat} (h : Stands level' output pending r) (hle : level ≤ level') :
    Stands level output pending r :=
  { h with yieldTo_eq := fun op hop => h.yieldTo_eq op (Nat.le_trans hop hle) }

/-- With the last operand of an operator that waits, the whole operation stands. -/
theorem Stands.operation (h : Stands (top.level + 1) output (.operator top :: pending) r) :
    Stands top.level (.operator top :: output) pending r where
  yieldTo_eq op hop := by
    rw [h.yieldTo_eq op (Nat.le_succ_of_le hop), yieldTo_of_level_le hop]
  unwind?_eq := by rw [h.unwind?_eq, Reading.unwind?]
  finish_eq := by rw [h.finish_eq, Reading.finish]

theorem Stands.unwind?_parenthesis (h : Stands level output (.parenthesis :: pending) r) :
    Reading.unwind? r.output r.pending = some ⟨output, .parenthesis :: pending⟩ :=
  h.unwind?_eq

theorem read_operand {lexeme : Lexeme} (h : Denotes lexeme t) (output : List Node)
    (pending : List Pending) (ls : List Lexeme) :
    read (lexeme :: ls) ⟨output, pending⟩ = read ls ⟨t.postorder.reverse ++ output, pending⟩ := by
  cases h with
  | number h =>
    apply read_cons
    simp [Reading.step, Lexeme.token, h, Reading.push, Tree.postorder]
  | cell h =>
    apply read_cons
    simp [Reading.step, Lexeme.token, h, Reading.push, Tree.postorder]

/-- Reading the tokens of a tree, whatever follows them, leaves a state that stands for its
postorder. -/
theorem exists_stands_of_derives (h : Derives level ls t) (output : List Node)
    {pending : List Pending} (hfits : Fits level pending) :
    ∃ r, (∀ rest, read (ls ++ rest) ⟨output, pending⟩ = read rest r) ∧
      Stands level (t.postorder.reverse ++ output) pending r := by
  induction h generalizing output pending with
  | @operand lexeme t h =>
    exact ⟨_, fun rest => read_operand h output pending rest, stands_self 4 _ pending⟩
  | @parenthesized ls t h ih =>
    -- Inside parentheses nothing waits, so an operand of any level fits. Closing them leaves the
    -- operand on the output.
    obtain ⟨r, hread, hr⟩ := ih output (fits_parenthesis 0 pending)
    refine ⟨_, fun rest => ?_, stands_self 4 _ pending⟩
    simp only [List.cons_append, List.append_assoc, List.nil_append]
    rw [read_leftParenthesis, hread, read_rightParenthesis hr.unwind?_parenthesis, hfits.close]
  | @aggregate kind word ls argument hword h ih =>
    obtain ⟨r, hread, hr⟩ := ih output (fits_parenthesis 0 (.function (.aggregate kind) :: pending))
    refine ⟨_, fun rest => ?_, stands_self 4 _ pending⟩
    simp only [List.cons_append, List.append_assoc, List.nil_append]
    rw [read_word hword.ofName?, read_leftParenthesis, hread,
      read_rightParenthesis hr.unwind?_parenthesis]
    simp [Reading.close, Tree.postorder]
  | @extremum kind word ls rs l r hword hl hr ihl ihr =>
    obtain ⟨rl, hreadl, hstandl⟩ :=
      ihl output (fits_parenthesis 0 (.function (.extremum kind) :: pending))
    obtain ⟨rr, hreadr, hstandr⟩ :=
      ihr (l.postorder.reverse ++ output)
        (fits_parenthesis 0 (.function (.extremum kind) :: pending))
    refine ⟨_, fun rest => ?_, stands_self 4 _ pending⟩
    simp only [List.cons_append, List.append_assoc, List.nil_append]
    rw [read_word hword.ofName?, read_leftParenthesis, hreadl,
      read_comma hstandl.unwind?_parenthesis, hreadr,
      read_rightParenthesis hstandr.unwind?_parenthesis]
    simp [Reading.close, Tree.postorder]
  | @operation op ls rs l r hl hr ihl ihr =>
    -- The operator moves all that waits inside its left operand, and waits itself during the right
    -- one.
    obtain ⟨rl, hreadl, hstandl⟩ := ihl output hfits
    obtain ⟨rr, hreadr, hstandr⟩ := ihr (l.postorder.reverse ++ output) (fits_operator op pending)
    refine ⟨rr, fun rest => ?_, by simpa [Tree.postorder] using hstandr.operation⟩
    rw [List.append_assoc, List.cons_append, hreadl, read_operator,
      hstandl.yieldTo_eq op (Nat.le_refl _), hfits.yieldTo, hreadr]
  | tighter h ih =>
    obtain ⟨r, hread, hr⟩ := ih output hfits.tighter
    exact ⟨r, hread, hr.loosen (Nat.le_succ _)⟩

/-! ## Every number and every cell is an operand -/

variable {afterOperand : Bool} {c : Char} {tail : List Char} {size : Nat}

/-- After the first digits of a number stands nothing, or a point and the other digits. -/
theorem exists_fraction (htail : ∀ d ∈ tail, isNumberChar d = true) (hpoints : tail.count '.' ≤ 1) :
    tail.dropWhile Char.isDigit = [] ∨
      ∃ fraction, tail.dropWhile Char.isDigit = '.' :: fraction ∧
        ∀ d ∈ fraction, d.isDigit = true := by
  induction tail with
  | nil => exact Or.inl rfl
  | cons c tail ih =>
    rw [List.forall_mem_cons] at htail
    by_cases hc : c.isDigit = true
    · rw [List.dropWhile_cons_of_pos hc]
      exact ih htail.2 (Nat.le_trans (List.count_le_count_cons) hpoints)
    · obtain rfl : c = '.' := by simpa [isNumberChar, hc] using htail.1
      refine Or.inr ⟨tail, List.dropWhile_cons_of_neg hc, ?_⟩
      rw [List.count_cons_self] at hpoints
      intro d hd
      have hne : d ≠ '.' := by
        intro heq
        subst heq
        have := List.count_pos_iff.2 hd
        omega
      simpa [isNumberChar, hne] using htail.2 d hd

theorem exists_readDecimal? (hc : c.isDigit = true) (htail : ∀ d ∈ tail, isNumberChar d = true)
    (hpoints : tail.count '.' ≤ 1) : ∃ bits, Number.readDecimal? (c :: tail) = some bits := by
  have hwhole : ((c :: tail).takeWhile Char.isDigit).isEmpty = false := by
    rw [List.takeWhile_cons_of_pos hc, List.isEmpty_cons]
  have hrest : (c :: tail).dropWhile Char.isDigit = tail.dropWhile Char.isDigit :=
    List.dropWhile_cons_of_pos hc
  rcases exists_fraction htail hpoints with hnone | ⟨fraction, hfraction, hdigits⟩
  · simp [Number.readDecimal?, hwhole, hrest, hnone]
  · have hend : fraction.dropWhile Char.isDigit = [] := List.dropWhile_eq_nil_iff.2 hdigits
    simp [Number.readDecimal?, hwhole, hrest, hfraction, hend]

theorem exists_read? (hc : c.isDigit = true ∨ c = '-' ∧ tail.head?.any Char.isDigit = true)
    (htail : ∀ d ∈ tail, isNumberChar d = true) (hpoints : tail.count '.' ≤ 1) :
    ∃ value, Number.read? (c :: tail) = some value := by
  have hsome : ∃ negative digits bits, Number.readSign (c :: tail) = (negative, digits) ∧
      Number.readDecimal? digits = some bits := by
    rcases hc with hc | ⟨rfl, hhead⟩
    · obtain ⟨bits, hbits⟩ := exists_readDecimal? hc htail hpoints
      refine ⟨false, c :: tail, bits, ?_, hbits⟩
      unfold Number.readSign
      split
      next heq => cases heq; cases hc
      next heq => cases heq; cases hc
      next => rfl
    · cases tail with
      | nil => cases hhead
      | cons d tail =>
        rw [List.forall_mem_cons] at htail
        obtain ⟨bits, hbits⟩ := exists_readDecimal? (by simpa using hhead) htail.2
          (Nat.le_trans List.count_le_count_cons hpoints)
        exact ⟨true, d :: tail, bits, rfl, hbits⟩
  obtain ⟨negative, digits, bits, hsign, hbits⟩ := hsome
  rw [Number.read?, hsign]
  cases hword : Number.readWord? digits with
  | none => exact ⟨_, by simp only [hword, hbits]; rfl⟩
  | some word => exact ⟨_, by simp only [hword]; rfl⟩

theorem read?_of_classify (h : classify afterOperand c tail = (.number, size)) :
    size = (tail.takeWhile isNumberChar).length ∧
      ∃ value, Number.read? (c :: tail.takeWhile isNumberChar) = some value := by
  dsimp only [classify] at h
  split_ifs at h with hstart hpoints <;> cases h
  refine ⟨rfl, exists_read? ?_ (fun d hd => List.mem_takeWhile_imp hd) hpoints⟩
  rcases Bool.or_eq_true_iff.1 hstart with hc | hc
  · exact Or.inl hc
  · simp only [Bool.and_eq_true, beq_iff_eq] at hc
    refine Or.inr ⟨hc.1.1, ?_⟩
    match tail, hc.1.2 with
    | d :: tail, hd =>
      have hd : d.isDigit = true := by simpa using hd
      simp [isNumberChar, hd]

theorem ofChars?_of_classify (h : classify afterOperand c tail = (.cell, size)) :
    size = (tail.takeWhile isWordChar).length ∧
      ∃ ref, CellRef.ofChars? (c :: tail.takeWhile isWordChar) = some ref := by
  dsimp only [classify] at h
  split_ifs at h with hstart hpoints halpha hcell <;> cases h
  rw [isCellName, Bool.and_eq_true] at hcell
  exact ⟨rfl, Option.isSome_iff_exists.1 hcell.2⟩

/-- The number tokens and the cell tokens of a text denote operands. -/
theorem exists_denotes_of_mem_lexemes {cs : List Char} {lexeme : Lexeme}
    (h : lexeme ∈ lexemes afterOperand cs) (hkind : lexeme.kind ∈ [.number, .cell]) :
    ∃ leaf, Denotes lexeme leaf := by
  fun_induction lexemes afterOperand cs with
  | case1 => cases h
  | case2 afterOperand cs c rest hcs kind size hclass ih =>
    rcases List.mem_cons.1 h with rfl | htail
    · simp only [List.mem_cons, List.not_mem_nil, or_false] at hkind
      rcases hkind with rfl | rfl
      · obtain ⟨rfl, value, hvalue⟩ := read?_of_classify hclass
        exact ⟨_, .number (by rwa [String.toList_ofList, Text.take_length_takeWhile])⟩
      · obtain ⟨rfl, ref, href⟩ := ofChars?_of_classify hclass
        exact ⟨_, .cell (by rwa [CellRef.parse?, String.toList_ofList, Text.take_length_takeWhile])⟩
    · exact ih htail

/-! ## Texts -/

/-- The tokens of the text of a formula. -/
def formulaTokens (text : String) : List Lexeme :=
  (scan (stripEquals (Text.trim text.toList))).map Token.lexeme

theorem stripEquals_eq_self {cs : List Char} (h : ∀ source, cs ≠ '=' :: source) : stripEquals cs = cs := by
  unfold stripEquals
  split
  · exact absurd rfl (h _)
  · rfl

theorem ofTokens_eq_ok_iff {tokens : List Token} {nodes : List Node} :
    ofTokens tokens = .ok nodes ↔
      ∃ r, tokens.foldlM Reading.step {} = .ok r ∧
        Reading.finish r.output r.pending = .ok nodes ∧ checkArity nodes = .ok () := by
  unfold ofTokens
  cases hread : tokens.foldlM Reading.step {} with
  | error e => simp [bind, Except.bind]
  | ok r =>
    cases hfinish : Reading.finish r.output r.pending with
    | error e => simp [bind, Except.bind, hfinish]
    | ok finished =>
      cases harity : checkArity finished with
      | error fault =>
        refine iff_of_false (by simp [bind, Except.bind, hfinish, harity]) ?_
        rintro ⟨r', hr, hnodes, hok⟩
        cases hr
        cases hfinish.symm.trans hnodes
        cases harity.symm.trans hok
      | ok =>
        simp only [bind, Except.bind, hfinish, harity]
        constructor
        · intro h
          cases h
          exact ⟨r, rfl, hfinish, harity⟩
        · rintro ⟨r', hr, hnodes, -⟩
          cases hr
          exact hfinish.symm.trans hnodes

/-- The places of the tokens do not matter to a text that is accepted. -/
theorem ofTokens_congr {tokens tokens' : List Token} {nodes : List Node}
    (hlexemes : tokens.map Token.lexeme = tokens'.map Token.lexeme)
    (h : ofTokens tokens = .ok nodes) : ofTokens tokens' = .ok nodes := by
  obtain ⟨r, hread, hnodes⟩ := ofTokens_eq_ok_iff.1 h
  exact ofTokens_eq_ok_iff.2 ⟨r, foldlM_step_congr hlexemes hread, hnodes⟩

theorem parse_of_derives {text : String} (h : Derives 0 (formulaTokens text) t) :
    parse text = .ok t.postorder := by
  obtain ⟨r, hread, hr⟩ := exists_stands_of_derives h [] (fits_nil 0)
  have hread : read (formulaTokens text) {} = .ok r := by
    have hall := hread []
    rw [List.append_nil] at hall
    exact hall
  have hfinish : Reading.finish r.output r.pending = .ok t.postorder := by
    rw [hr.finish_eq, List.append_nil, Reading.finish, List.reverse_reverse]
  exact ofTokens_eq_ok_iff.2
    ⟨r, foldlM_step_of_read hread, hfinish, checkArity_eq_ok_iff.2 ⟨t, rfl⟩⟩

/-- **Parsing follows the grammar.** A text whose tokens the grammar derives parses, as the
postorder of the tree of the derivation. Every number and every cell of a text is an operand of the
grammar. -/
theorem parse_grammar (text : String) :
    (∀ t, Derives 0 (formulaTokens text) t → parse text = .ok t.postorder) ∧
    ∀ lexeme ∈ formulaTokens text, lexeme.kind ∈ [.number, .cell] → ∃ leaf, Denotes lexeme leaf := by
  refine ⟨fun t h => parse_of_derives h, ?_⟩
  intro lexeme hlexeme hkind
  rw [formulaTokens, map_lexeme_scan] at hlexeme
  exact exists_denotes_of_mem_lexemes hlexeme hkind

/-- A range in doubled parentheses, a function in small letters, a sign and two subtractions. -/
def scaledSum : String := "=sum((A1:B2)) * -3 - 4 - 2"

/-- The tree of `scaledSum`. -/
def scaledSumTree : Tree :=
  .operation .subtract
    (.operation .subtract
      (.operation .multiply
        (.aggregate .sum (.operation .range (.cell ⟨0, 0⟩) (.cell ⟨1, 1⟩)))
        (.constant (Number.ofMagnitude true 0x4008000000000000)))
      (.constant (Number.ofMagnitude false 0x4010000000000000)))
    (.constant (Number.ofMagnitude false 0x4000000000000000))

theorem formulaTokens_scaledSum :
    formulaTokens scaledSum = [⟨.word, "sum"⟩, ⟨.leftParenthesis, "("⟩, ⟨.leftParenthesis, "("⟩,
      ⟨.cell, "A1"⟩, ⟨.operator, ":"⟩, ⟨.cell, "B2"⟩, ⟨.rightParenthesis, ")"⟩,
      ⟨.rightParenthesis, ")"⟩, ⟨.operator, "*"⟩, ⟨.number, "-3"⟩, ⟨.operator, "-"⟩,
      ⟨.number, "4"⟩, ⟨.operator, "-"⟩, ⟨.number, "2"⟩] := by
  cbv

theorem derives_scaledSum : Derives 0 (formulaTokens scaledSum) scaledSumTree := by
  have hdigits : Number.readDecimal? ['2'] = some 0x4000000000000000 ∧
      Number.readDecimal? ['3'] = some 0x4008000000000000 ∧
      Number.readDecimal? ['4'] = some 0x4010000000000000 := by
    decide +kernel
  have htwo : Denotes ⟨.number, "2"⟩ (.constant (Number.ofMagnitude false 0x4000000000000000)) :=
    .number (by simp [Number.read?, Number.readSign, Number.readWord?, hdigits.1])
  have hthree : Denotes ⟨.number, "-3"⟩ (.constant (Number.ofMagnitude true 0x4008000000000000)) :=
    .number (by simp [Number.read?, Number.readSign, Number.readWord?, hdigits.2.1])
  have hfour : Denotes ⟨.number, "4"⟩ (.constant (Number.ofMagnitude false 0x4010000000000000)) :=
    .number (by simp [Number.read?, Number.readSign, Number.readWord?, hdigits.2.2])
  have hfirst : Derives 4 [⟨.cell, "A1"⟩] (.cell ⟨0, 0⟩) := .operand (.cell rfl)
  have hlast : Derives 4 [⟨.cell, "B2"⟩] (.cell ⟨1, 1⟩) := .operand (.cell rfl)
  have hrange := @Derives.operation .range _ _ _ _ hfirst.tighter hlast
  have hsum := @Derives.aggregate .sum "sum" _ _ rfl
    ((hrange.loosen (Nat.zero_le _)).parenthesized.loosen (Nat.zero_le 4))
  have hproduct := @Derives.operation .multiply _ _ _ _ hsum.tighter.tighter
    (Derives.operand hthree).tighter
  have hfourLess := @Derives.operation .subtract _ _ _ _ hproduct.tighter.tighter
    ((Derives.operand hfour).loosen (by decide))
  have htwoLess := @Derives.operation .subtract _ _ _ _ hfourLess
    ((Derives.operand htwo).loosen (by decide))
  rw [formulaTokens_scaledSum]
  exact htwoLess

theorem parse_grammar_scaledSum :
    (Derives 0 (formulaTokens scaledSum) scaledSumTree ∧
      parse scaledSum = .ok scaledSumTree.postorder) ∧
    (⟨.number, "-3"⟩ ∈ formulaTokens scaledSum ∧ ∃ leaf, Denotes ⟨.number, "-3"⟩ leaf) := by
  have hsign : ⟨.number, "-3"⟩ ∈ formulaTokens scaledSum := by
    rw [formulaTokens_scaledSum]
    decide
  have hparse := (parse_grammar scaledSum).1 scaledSumTree derives_scaledSum
  have hdenotes := (parse_grammar scaledSum).2 _ hsign List.mem_cons_self
  exact ⟨⟨derives_scaledSum, hparse⟩, hsign, hdenotes⟩

end SheetScript.Formula
