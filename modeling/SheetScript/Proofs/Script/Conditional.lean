import Mathlib
import SheetScript.Proofs.Script.Expression
import SheetScript.Proofs.Script.Rounds

/-!
# Conditional commands

An `if` command is a row of branches, each a condition with its body, and an ending. `Chooses` says
which of them decides it: the first branch whose condition is not false, or the ending if there is
no such branch. `calls_if_iff` says that a call of `if` ends just so.

The words of the command may leave out `then` and `else`; they are read as the same clauses
(`Clauses.parse_words`). One clause runs as one branch is chosen (`Clauses.ends_clause_iff`,
`chooses_cons_iff`), and all of them by induction on the branches (`ends_branches_iff`).
-/

namespace SheetScript.Script

variable {H : Type} [Host H] {i j k : Interp H} {name condition body : String}
  {args : List String} {outcome : Outcome} {rest : Clauses}

/-! ## Conditions and clauses -/

/-- The condition, tested in the state `i`, gives the result and leaves the state `j`. -/
def Tests (condition : String) (i : Interp H) (result : Except Flow Bool) (j : Interp H) : Prop :=
  ∃ rounds, evalCondition (evalScript rounds) condition i = some (result, j)

theorem steady_evalCondition (condition : String) :
    Steady (H := H) fun rounds => evalCondition (evalScript rounds) condition :=
  fun m n hmn => (kept_eq.compositional ()).evalCondition
    (fun script => steady_evalScript script m n hmn) condition

namespace Clauses

/-- The clauses, started in the state `i`, end with the outcome in the state `j`. -/
def Ends (clauses : Clauses) (i : Interp H) (outcome : Outcome) (j : Interp H) : Prop :=
  ∃ rounds, Builtin.runClauses (evalScript rounds) clauses i = some (outcome, j)

theorem steady_runClauses (clauses : Clauses) :
    Steady (H := H) fun rounds => Builtin.runClauses (evalScript rounds) clauses :=
  fun m n hmn => (kept_eq.compositional ()).runClauses
    (fun script => steady_evalScript script m n hmn) clauses

/-- A clause runs its body if its condition is true, and goes on if it is false. -/
theorem ends_clause_iff : (clause condition body rest).Ends i outcome k ↔
    (∃ flow, Tests condition i (.error flow) k ∧ outcome = .error flow) ∨
    (∃ j, Tests condition i (.ok true) j ∧ Evaluates body j outcome k) ∨
    ∃ j, Tests condition i (.ok false) j ∧ rest.Ends j outcome k := by
  have hbranches : ∀ holds, Steady (H := H) fun rounds =>
      if holds = true then evalScript rounds body
      else Builtin.runClauses (evalScript rounds) rest := by
    intro holds
    cases holds with
    | true => exact steady_evalScript body
    | false => exact steady_runClauses rest
  refine ((steady_evalCondition condition).exists_bind_iff hbranches).trans
    (or_congr_right ?_)
  constructor
  · rintro ⟨holds, j, htest, hrest⟩
    cases holds with
    | true => exact .inl ⟨j, htest, hrest⟩
    | false => exact .inr ⟨j, htest, hrest⟩
  · rintro (⟨j, htest, hbody⟩ | ⟨j, htest, hrest⟩)
    · exact ⟨true, j, htest, hbody⟩
    · exact ⟨false, j, htest, hrest⟩

end Clauses

theorem callWords_of_builtin {eval : String → Run H String} {b : Builtin}
    (hget : i.procedures.get? name = some (.builtin b)) (rounds : Nat) (args : List String) :
    callWords (call eval (rounds + 1)) (name :: args) i = b.run eval rounds args i := by
  rw [callWords, call, Run.get_bind_apply, hget]

/-- A call of `if` runs the clauses that its arguments make. -/
theorem calls_if_iff_ends (hget : i.procedures.get? name = some (.builtin .if)) :
    Calls (name :: args) i outcome j ↔ (Clauses.parse args).Ends i outcome j := by
  constructor
  · rintro ⟨nested, rounds, hrun⟩
    cases rounds with
    | zero => cases hrun
    | succ rounds =>
      rw [callWords_of_builtin hget] at hrun
      exact ⟨nested, hrun⟩
  · rintro ⟨rounds, hrun⟩
    exact ⟨rounds, 1, by rw [callWords_of_builtin hget]; exact hrun⟩

/-! ## The words of an `if` command -/

/-- A condition with its body. Without the mark `then`, the body must not be read as the mark. -/
structure Branch where
  condition : String
  marked : Bool
  body : String
  body_ne : marked = false → body ≠ "then"

/-- What follows the last branch: nothing, a body after `else`, or a body alone, which must not be
read as a mark. -/
inductive Ending where
  | none
  | marked (body : String)
  | bare (body : String) (h : body ∉ ["elseif", "else"])

/-- The words of a branch. -/
def Branch.words (b : Branch) : List String :=
  b.condition :: if b.marked then ["then", b.body] else [b.body]

/-- The words of an ending. -/
def Ending.words : Ending → List String
  | none => []
  | marked body => ["else", body]
  | bare body _ => [body]

/-- The words of an `if` command after its name. -/
def conditionalWords (first : Branch) (more : List Branch) (ending : Ending) : List String :=
  first.words ++ (more.flatMap fun b => "elseif" :: b.words) ++ ending.words

/-- The clause of an ending. -/
def Ending.clauses : Ending → Clauses
  | none => .done
  | marked body | bare body _ => .otherwise body

/-- The clauses of a row of branches. -/
def Branch.clauses (branches : List Branch) (ending : Ending) : Clauses :=
  branches.foldr (fun b rest => .clause b.condition b.body rest) ending.clauses

namespace Clauses

theorem parseFrom_branch (b : Branch) (words : List String) :
    parseFrom .condition (b.words ++ words) =
      clause b.condition b.body (parseFrom .tail words) := by
  obtain ⟨condition, _ | _, body, hbody⟩ := b
  · have hne : body ≠ "then" := hbody rfl
    simp [Branch.words, parseFrom]
  · simp [Branch.words, parseFrom]

theorem parseFrom_ending (ending : Ending) : parseFrom .tail ending.words = ending.clauses := by
  cases ending with
  | none => rfl
  | marked body => rfl
  | bare body h =>
    have hne : body ≠ "elseif" ∧ body ≠ "else" := by simpa using h
    simp [Ending.words, Ending.clauses, parseFrom, hne]

theorem parseFrom_branches (more : List Branch) (ending : Ending) :
    parseFrom .tail ((more.flatMap fun b => "elseif" :: b.words) ++ ending.words) =
      Branch.clauses more ending := by
  induction more with
  | nil => exact parseFrom_ending ending
  | cons b more ih =>
    rw [List.flatMap_cons, List.append_assoc, List.cons_append, parseFrom, parseFrom_branch, ih]
    rfl

/-- The words of a row of branches are read as these branches, whichever marks are left out. -/
theorem parse_words (first : Branch) (more : List Branch) (ending : Ending) :
    parse (conditionalWords first more ending) = Branch.clauses (first :: more) ending := by
  rw [parse, conditionalWords, List.append_assoc, parseFrom_branch, parseFrom_branches]
  rfl

end Clauses

/-! ## The branch that is taken -/

variable {b : Branch} {branches : List Branch} {ending : Ending}

/-- The conditions of the branches, tested one after the other, are all false. -/
inductive Passes : List Branch → Interp H → Interp H → Prop
  | nil (i : Interp H) : Passes [] i i
  | cons {b : Branch} {branches : List Branch} {i j k : Interp H}
      (htest : Tests b.condition i (.ok false) j) (h : Passes branches j k) :
      Passes (b :: branches) i k

/-- How a command ends that has come to its ending. -/
def Ending.Ends (ending : Ending) (i : Interp H) (outcome : Outcome) (j : Interp H) : Prop :=
  match ending with
  | none => outcome = .ok "" ∧ j = i
  | marked body | bare body _ => Evaluates body i outcome j

/-- How a command of the given branches and ending ends, started in the state `i`. -/
inductive Chooses (branches : List Branch) (ending : Ending) (i : Interp H) :
    Outcome → Interp H → Prop
  /-- The first condition that is not false is true, and its body is evaluated. -/
  | body {passed rest : List Branch} {b : Branch} {j k l : Interp H} {outcome : Outcome}
      (hsplit : branches = passed ++ b :: rest) (hpassed : Passes passed i j)
      (htest : Tests b.condition j (.ok true) k) (hbody : Evaluates b.body k outcome l) :
      Chooses branches ending i outcome l
  /-- The first condition that is not false ends without a result, and the command with it. -/
  | stopped {passed rest : List Branch} {b : Branch} {j k : Interp H} {flow : Flow}
      (hsplit : branches = passed ++ b :: rest) (hpassed : Passes passed i j)
      (htest : Tests b.condition j (.error flow) k) : Chooses branches ending i (.error flow) k
  /-- All conditions are false. -/
  | ending {j k : Interp H} {outcome : Outcome} (hpassed : Passes branches i j)
      (hending : ending.Ends j outcome k) : Chooses branches ending i outcome k

theorem chooses_nil_iff : Chooses [] ending i outcome j ↔ ending.Ends i outcome j := by
  constructor
  · intro h
    cases h with
    | body hsplit => simp at hsplit
    | stopped hsplit => simp at hsplit
    | ending hpassed hending =>
      cases hpassed
      exact hending
  · exact fun h => .ending (.nil i) h

theorem chooses_cons_iff : Chooses (b :: branches) ending i outcome k ↔
    (∃ flow, Tests b.condition i (.error flow) k ∧ outcome = .error flow) ∨
    (∃ j, Tests b.condition i (.ok true) j ∧ Evaluates b.body j outcome k) ∨
    ∃ j, Tests b.condition i (.ok false) j ∧ Chooses branches ending j outcome k := by
  constructor
  · intro h
    cases h with
    | @body passed _ _ _ _ _ _ hsplit hpassed htest hbody =>
      cases hpassed with
      | nil =>
        cases hsplit
        exact .inr (.inl ⟨_, htest, hbody⟩)
      | cons hfirst hpassed =>
        cases hsplit
        exact .inr (.inr ⟨_, hfirst, .body rfl hpassed htest hbody⟩)
    | @stopped passed _ _ _ _ _ hsplit hpassed htest =>
      cases hpassed with
      | nil =>
        cases hsplit
        exact .inl ⟨_, htest, rfl⟩
      | cons hfirst hpassed =>
        cases hsplit
        exact .inr (.inr ⟨_, hfirst, .stopped rfl hpassed htest⟩)
    | ending hpassed hending =>
      cases hpassed with
      | cons hfirst hpassed => exact .inr (.inr ⟨_, hfirst, .ending hpassed hending⟩)
  · rintro (⟨flow, htest, rfl⟩ | ⟨j, htest, hbody⟩ | ⟨j, htest, h⟩)
    · exact .stopped (List.nil_append _).symm (.nil i) htest
    · exact .body (List.nil_append _).symm (.nil i) htest hbody
    -- The first branch was passed, so the choice among the others is one among all.
    · cases h with
      | body hsplit hpassed htest' hbody =>
        exact .body (congrArg (b :: ·) hsplit) (.cons htest hpassed) htest' hbody
      | stopped hsplit hpassed htest' =>
        exact .stopped (congrArg (b :: ·) hsplit) (.cons htest hpassed) htest'
      | ending hpassed hending => exact .ending (.cons htest hpassed) hending

theorem ends_ending_iff : ending.clauses.Ends i outcome j ↔ ending.Ends i outcome j := by
  cases ending with
  | none =>
    constructor
    · rintro ⟨rounds, hrun⟩
      cases hrun
      exact ⟨rfl, rfl⟩
    · rintro ⟨rfl, rfl⟩
      exact ⟨0, rfl⟩
  | marked body => exact Iff.rfl
  | bare body h => exact Iff.rfl

theorem ends_branches_iff :
    (Branch.clauses branches ending).Ends i outcome j ↔ Chooses branches ending i outcome j := by
  induction branches generalizing i with
  | nil => exact ends_ending_iff.trans chooses_nil_iff.symm
  | cons b branches ih =>
    rw [chooses_cons_iff]
    simp only [← ih]
    exact Clauses.ends_clause_iff

/-! ## Numerals as conditions -/

theorem tests_literal (l : Literal) (i : Interp H) :
    Tests (String.ofList (l.first :: l.rest)) i (.ok (Arithmetic.truth l.value)) i := by
  have hword : ∀ name, Word.literal l ≠ .reference name := by simp
  have hdollar : '$' ∉ l.first :: l.rest := fun h => Word.notMem_marks hword h (by decide)
  have hexpand : expand i.get? (l.first :: l.rest) = .ok (l.first :: l.rest) := by
    have happend : expand i.get? (l.first :: l.rest ++ []) =
        (expand i.get? []).map (l.first :: l.rest ++ ·) := expand_append hdollar []
    simpa [Except.map] using happend
  have hsubst : subst (evalScript 0) (String.ofList (l.first :: l.rest)) i =
      some (.ok (String.ofList (l.first :: l.rest)), i) := by
    rw [subst_of_plain _ (by rw [String.toList_ofList]; exact (Word.literal l).plain),
      String.toList_ofList, hexpand]
    simp [substituted]
  have hlexes : Arithmetic.Lexes (l.first :: l.rest) [.number l.value] := by
    have hend : Arithmetic.EndsWord [] := by simp [Arithmetic.EndsWord]
    have hlexesAs := Arithmetic.lexesAs_number l.starts l.isNumeral l.reads [] [] hend .nil
    simpa using hlexesAs
  have hvalue : Arithmetic.evaluate (String.ofList (l.first :: l.rest)) = .ok l.value := by
    rw [Arithmetic.evaluate_eq_ok_iff_evaluateTokens, String.toList_ofList,
      Arithmetic.evaluateTokens_scan_eq_ok_iff]
    exact ⟨_, hlexes, (Arithmetic.Derives.number l.value).loosen (Nat.zero_le 6)⟩
  refine ⟨0, ?_⟩
  rw [evalCondition, Run.bind_apply, evalExpr, Run.bind_apply, hsubst]
  simp only [hvalue]
  rfl

/-- The numeral of zero. -/
def Literal.zero : Literal where
  first := '0'
  rest := []
  value := Number.ofMagnitude false 0
  starts := Or.inl rfl
  isNumeral := ⟨['0'], [], [], rfl, by simp, .none, .none⟩
  reads := by
    have hdigits : Number.readDecimal? ['0'] = some 0 := by decide +kernel
    simp [Number.read?, Number.readSign, Number.readWord?, hdigits]

/-! ## Main result -/

/-- **An `if` command takes the first branch whose condition is true.** In any state, and whichever
of the words `then` and `else` are left out, a call of `if` tests the conditions in order up to the
first one that is not false. If that one is true, its body is evaluated in the state that the test
left, and ends the call as it ends itself; if it ends without a result, so does the call, and no
body is evaluated. If all conditions are false, the last body is evaluated, or there is an empty
result. -/
theorem calls_if_iff (hget : i.procedures.get? name = some (.builtin .if)) (first : Branch)
    (more : List Branch) (ending : Ending) (outcome : Outcome) (j : Interp H) :
    Calls (name :: conditionalWords first more ending) i outcome j ↔
      Chooses (first :: more) ending i outcome j := by
  rw [calls_if_iff_ends hget, Clauses.parse_words, ends_branches_iff]

/-- A branch that is passed. -/
def falseBranch : Branch := ⟨"0", false, "log a", by decide⟩

/-- A branch that is taken. -/
def trueBranch : Branch := ⟨"2", true, "log b", by decide⟩

/-- A branch whose condition breaks. -/
def breakingBranch : Branch := ⟨"[break]", false, "log c", by decide⟩

/-- The first of two branches that are not passed counts: a true one is taken, and one that breaks
ends all. -/
theorem calls_if_iff_twoOrders :
    let fresh : Interp Journal := .ofHost {}
    fresh.procedures.get? "if" = some (.builtin .if) ∧
    Calls ["if", "0", "log a", "elseif", "2", "then", "log b", "elseif", "[break]", "log c", "log d"]
      fresh (.ok "1") ({ fresh with host := ⟨["b"]⟩ }.setResult "1") ∧
    Calls ["if", "0", "log a", "elseif", "[break]", "log c", "elseif", "2", "then", "log b"]
      fresh (.error .breakLoop) fresh := by
  intro fresh
  have hget : fresh.procedures.get? "if" = some (.builtin .if) := by cbv
  have hzero : Tests "0" fresh (.ok false) fresh := by
    have htests := tests_literal .zero fresh
    rwa [show Arithmetic.truth Literal.zero.value = false by decide +kernel] at htests
  have htwo : Tests "2" fresh (.ok true) fresh := by
    have htests := tests_literal .two fresh
    rwa [show Arithmetic.truth Literal.two.value = true by decide +kernel] at htests
  have hbreak : Tests "[break]" fresh (.error .breakLoop) fresh := ⟨2, by cbv⟩
  have hlog : Evaluates "log b" fresh (.ok "1") ({ fresh with host := ⟨["b"]⟩ }.setResult "1") :=
    ⟨2, by cbv⟩
  have hpassed : Passes [falseBranch] fresh fresh := .cons hzero (.nil fresh)
  have hsplit : ∀ b b' : Branch, [falseBranch, b, b'] = [falseBranch] ++ b :: [b'] :=
    fun _ _ => rfl
  refine ⟨hget, ?_, ?_⟩
  · exact (calls_if_iff hget falseBranch [trueBranch, breakingBranch]
      (.bare "log d" (by decide)) _ _).2 (.body (hsplit _ _) hpassed htwo hlog)
  · exact (calls_if_iff hget falseBranch [breakingBranch, trueBranch] .none _ _).2
      (.stopped (hsplit _ _) hpassed hbreak)

end SheetScript.Script
