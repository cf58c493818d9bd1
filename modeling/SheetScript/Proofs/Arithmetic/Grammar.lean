import SheetScript.Arithmetic.Evaluate

/-!
# The grammar of expressions

Expressions are built level by level. The operators of each level group to the left and their
operands come from the next tighter level; the tightest level has signs, numbers and expressions in
parentheses. `Derives` gives every derivation its value on the way, by what the operators mean
(`Operator.Gives`).

Reading the tokens of an expression leaves a state that stands for its value (`Stands`): operators
may still wait, but whatever comes next applies them first, as long as it does not bind tighter than
the expression. This goes through by induction on the derivation (`exists_stands_of_derives`).
-/

namespace SheetScript.Arithmetic

/-! ## What operators mean -/

/-- The operator makes a number of two others. A comparison makes one if it holds and zero
otherwise, where numbers are equal up to a tolerance. A connective does so for numbers that are true
unless they are zero. The sign takes no two numbers. -/
inductive Operator.Gives (x y : Float) : Operator → Float → Prop
  | multiply : Gives x y .multiply (x * y)
  | divide : Gives x y .divide (x / y)
  | add : Gives x y .add (x + y)
  | subtract : Gives x y .subtract (x - y)
  | less : Gives x y .less (if x < y then 1 else 0)
  | greater : Gives x y .greater (if x > y then 1 else 0)
  | lessEqual : Gives x y .lessEqual (if x ≤ y then 1 else 0)
  | greaterEqual : Gives x y .greaterEqual (if x ≥ y then 1 else 0)
  | equal : Gives x y .equal (if (x - y).abs < 1e-7 then 1 else 0)
  | notEqual : Gives x y .notEqual (if (x - y).abs ≥ 1e-7 then 1 else 0)
  | and : Gives x y .and (if x != 0 ∧ y != 0 then 1 else 0)
  | or : Gives x y .or (if x != 0 ∨ y != 0 then 1 else 0)

theorem Operator.Gives.unique {op : Operator} {x y z z' : Float} (h : op.Gives x y z)
    (h' : op.Gives x y z') : z = z' := by
  cases h <;> cases h' <;> rfl

/-- The table of the machine gives what the operators mean. -/
theorem Operator.gives_of_compute? {op : Operator} {compute : Float → Float → Float}
    (h : op.compute? = some compute) (x y : Float) : op.Gives x y (compute x y) := by
  cases op <;> cases h <;>
    simp only [flag, truth, decide_eq_true_eq, Bool.and_eq_true, Bool.or_eq_true] <;>
    constructor

theorem Operator.exists_gives_iff {op : Operator} (h : op ≠ .negate) (x y : Float) :
    ∃ z, ∀ z', op.Gives x y z' ↔ z' = z := by
  obtain ⟨z, hz⟩ : ∃ z, op.Gives x y z := by
    cases op with
    | negate => exact absurd rfl h
    | _ => exact ⟨_, by constructor⟩
  exact ⟨z, fun z' => ⟨fun h => h.unique hz, fun h => h ▸ hz⟩⟩

theorem Operator.Gives.exists_compute {op : Operator} {x y z : Float} (h : op.Gives x y z) :
    ∃ compute, op.compute? = some compute ∧ compute x y = z := by
  obtain ⟨compute, hop⟩ : ∃ compute, op.compute? = some compute := by
    cases h <;> exact ⟨_, rfl⟩
  exact ⟨compute, hop, (gives_of_compute? hop x y).unique h⟩

/-! ## Levels -/

/-- The level of an operator, from the loosest up. -/
def Operator.level : Operator → Nat
  | or => 0
  | and => 1
  | equal | notEqual => 2
  | less | greater | lessEqual | greaterEqual => 3
  | add | subtract => 4
  | multiply | divide => 5
  | negate => 6

/-- The tokens make an expression of the given level that has the given value. -/
inductive Derives : (level : Nat) → List Token → (value : Float) → Prop
  | number (value : Float) : Derives 6 [.number value] value
  | parenthesized {tokens : List Token} {value : Float} (h : Derives 0 tokens value) :
      Derives 6 (.openParenthesis :: tokens ++ [.closeParenthesis]) value
  | sign {tokens : List Token} {value : Float} (h : Derives 6 tokens value) :
      Derives 6 (.operator .subtract :: tokens) (-value)
  | operation {op : Operator} {ls rs : List Token} {l r value : Float}
      (hop : op.Gives l r value) (hl : Derives op.level ls l) (hr : Derives (op.level + 1) rs r) :
      Derives op.level (ls ++ .operator op :: rs) value
  | tighter {level : Nat} {tokens : List Token} {value : Float}
      (h : Derives (level + 1) tokens value) : Derives level tokens value

variable {level : Nat} {op top : Operator} {compute : Float → Float → Float}
  {tokens : List Token} {value l r : Float} {values : List Float} {pending : List Pending}
  {m : Machine}

theorem Derives.loosen {level' : Nat} (h : Derives level' tokens value) (hle : level ≤ level') :
    Derives level tokens value := by
  induction hle with
  | refl => exact h
  | step _ ih => exact ih h.tighter

theorem level_lt (h : op.compute? = some compute) : op.level < 6 := by
  cases op <;> cases h <;> decide

/-- The levels of the grammar are the precedences of the machine. -/
theorem appliesBefore_iff (h : op.compute? = some compute) :
    appliesBefore top op = true ↔ op.level ≤ top.level := by
  cases op <;> cases h <;> cases top <;> decide

/-! ## Operators that wait -/

/-- An expression of the given level may be the operand of what waits on top. -/
def Fits (level : Nat) (pending : List Pending) : Prop :=
  ∀ top, pending.head? = some (.operator top) → top.level < level ∨ 6 ≤ level

theorem fits_nil (level : Nat) : Fits level [] := nofun

theorem fits_parenthesis (level : Nat) (pending : List Pending) :
    Fits level (.parenthesis :: pending) := nofun

theorem fits_operator (h : op.level < level ∨ 6 ≤ level) (pending : List Pending) :
    Fits level (.operator op :: pending) := by
  intro top htop
  cases htop
  exact h

/-- Whatever waits takes a number or an expression in parentheses. -/
theorem fits_operand (pending : List Pending) : Fits 6 pending :=
  fun _ _ => Or.inr (Nat.le_refl 6)

theorem Fits.tighter (h : Fits level pending) : Fits (level + 1) pending := by
  intro top htop
  have := h top htop
  omega

/-- An operator of a level that fits starts to wait at once. -/
theorem pushOperator_of_fits (hop : op.compute? = some compute) (h : Fits op.level pending)
    (values : List Float) :
    pushOperator op values pending = .ok (values, .operator op :: pending) := by
  match pending, h with
  | [], _ => rfl
  | .parenthesis :: rest, _ => rfl
  | .operator top :: rest, h =>
    have hlevel := h top rfl
    have hlt := level_lt hop
    have hwaits : ¬ appliesBefore top op = true := by
      rw [appliesBefore_iff hop]
      omega
    rw [pushOperator, if_neg hwaits]

theorem pushOperator_negate (values : List Float) (pending : List Pending) :
    pushOperator .negate values pending = .ok (values, .operator .negate :: pending) := by
  match pending with
  | [] => rfl
  | .parenthesis :: rest => rfl
  | .operator top :: rest =>
    have hwaits : ¬ appliesBefore top .negate = true := by
      cases top <;> decide
    rw [pushOperator, if_neg hwaits]

/-- An operator of the same or a tighter level that waits on top is applied first. -/
theorem pushOperator_of_apply {values' : List Float} (hop : op.compute? = some compute)
    (hle : op.level ≤ top.level) (happly : apply top values = .ok values') :
    pushOperator op values (.operator top :: pending) = pushOperator op values' pending := by
  rw [pushOperator, if_pos ((appliesBefore_iff hop).2 hle), happly]
  rfl

theorem closeParenthesis_of_apply {values' : List Float} (happly : apply top values = .ok values') :
    closeParenthesis values (.operator top :: pending) = closeParenthesis values' pending := by
  rw [closeParenthesis, happly]
  rfl

theorem finish_of_apply {values' : List Float} (happly : apply top values = .ok values') :
    finish values (.operator top :: pending) = finish values' pending := by
  rw [finish, happly]
  rfl

theorem apply_binary (h : op.compute? = some compute) (l r : Float) (values : List Float) :
    apply op (r :: l :: values) = .ok (compute l r :: values) := by
  simp [apply, h]

theorem apply_negate (value : Float) (values : List Float) :
    apply .negate (value :: values) = .ok (-value :: values) := rfl

/-! ## Derived tokens are read -/

/-- The state is as good as the one with the value of an expression on top of the given stacks:
what comes next cannot tell them apart, unless it binds tighter than the expression. -/
structure Stands (level : Nat) (value : Float) (values : List Float) (pending : List Pending)
    (m : Machine) : Prop where
  expectOperand : m.expectOperand = false
  pushOperator_eq : ∀ op compute, op.compute? = some compute → op.level ≤ level →
    pushOperator op m.values m.pending = pushOperator op (value :: values) pending
  closeParenthesis_eq :
    closeParenthesis m.values m.pending = closeParenthesis (value :: values) pending
  finish_eq : finish m.values m.pending = finish (value :: values) pending

theorem stands_self (level : Nat) (value : Float) (values : List Float) (pending : List Pending) :
    Stands level value values pending ⟨value :: values, pending, false⟩ :=
  ⟨rfl, fun _ _ _ _ => rfl, rfl, rfl⟩

theorem Stands.loosen {level' : Nat} (h : Stands level' value values pending m)
    (hle : level ≤ level') : Stands level value values pending m :=
  { h with
    pushOperator_eq := fun op compute hop hlevel =>
      h.pushOperator_eq op compute hop (Nat.le_trans hlevel hle) }

/-- The last operand of an operator that waits stands for the whole operation. -/
theorem Stands.apply {value' : Float} {values' : List Float}
    (h : Stands level value values (.operator top :: pending) m) (hle : top.level ≤ level)
    (happly : apply top (value :: values) = .ok (value' :: values')) :
    Stands top.level value' values' pending m where
  expectOperand := h.expectOperand
  pushOperator_eq op compute hop hlevel := by
    rw [h.pushOperator_eq op compute hop (Nat.le_trans hlevel hle),
      pushOperator_of_apply hop hlevel happly]
  closeParenthesis_eq := by rw [h.closeParenthesis_eq, closeParenthesis_of_apply happly]
  finish_eq := by rw [h.finish_eq, finish_of_apply happly]

theorem step_operator (hop : op.compute? = some compute) (h : m.expectOperand = false)
    {values : List Float} {pending : List Pending}
    (hpush : pushOperator op m.values m.pending = .ok (values, pending)) :
    step m (.operator op) = .ok ⟨values, pending, true⟩ := by
  cases op <;> cases hop <;> simp [step, h, hpush, bind, Except.bind, pure, Except.pure]

theorem step_closeParenthesis (h : m.expectOperand = false)
    {values : List Float} {pending : List Pending}
    (hclose : closeParenthesis m.values m.pending = .ok (values, pending)) :
    step m .closeParenthesis = .ok ⟨values, pending, false⟩ := by
  simp [step, h, hclose, bind, Except.bind, pure, Except.pure]

theorem step_sign (values : List Float) (pending : List Pending) :
    step ⟨values, pending, true⟩ (.operator .subtract) =
      .ok ⟨values, .operator .negate :: pending, true⟩ := by
  simp [step, pushOperator_negate, bind, Except.bind, pure, Except.pure]

theorem foldlM_step_cons {token : Token} {m' : Machine} (h : step m token = .ok m') :
    (token :: tokens).foldlM step m = tokens.foldlM step m' := by
  rw [List.foldlM_cons, h]
  rfl

theorem foldlM_step_append {tokens' : List Token} {m' : Machine}
    (h : tokens.foldlM step m = .ok m') :
    (tokens ++ tokens').foldlM step m = tokens'.foldlM step m' := by
  rw [List.foldlM_append, h]
  rfl

/-- Reading the tokens of an expression leaves a state that stands for it. -/
theorem exists_stands_of_derives (h : Derives level tokens value) (values : List Float)
    {pending : List Pending} (hfits : Fits level pending) :
    ∃ m, tokens.foldlM step ⟨values, pending, true⟩ = .ok m ∧
      Stands level value values pending m := by
  induction h generalizing values pending with
  | number value => exact ⟨_, rfl, stands_self 6 value values pending⟩
  | parenthesized h ih =>
    obtain ⟨m, hread, hm⟩ := ih values (fits_parenthesis 0 pending)
    refine ⟨_, ?_, stands_self 6 _ values pending⟩
    rw [List.cons_append, foldlM_step_cons rfl, foldlM_step_append hread]
    exact foldlM_step_cons (step_closeParenthesis hm.expectOperand hm.closeParenthesis_eq)
  | sign h ih =>
    obtain ⟨m, hread, hm⟩ := ih values (fits_operator (Or.inr (Nat.le_refl 6)) pending)
    refine ⟨m, ?_, hm.apply (by decide) (apply_negate _ values)⟩
    rw [foldlM_step_cons (step_sign values pending)]
    exact hread
  | @operation op ls rs l r value hgives hl hr ihl ihr =>
    obtain ⟨compute, hop, rfl⟩ := hgives.exists_compute
    obtain ⟨ml, hreadl, hml⟩ := ihl values hfits
    obtain ⟨mr, hreadr, hmr⟩ :=
      ihr (l :: values) (fits_operator (Or.inl (Nat.lt_succ_self op.level)) pending)
    have hpush :
        pushOperator op ml.values ml.pending = .ok (l :: values, .operator op :: pending) := by
      rw [hml.pushOperator_eq op compute hop (Nat.le_refl _), pushOperator_of_fits hop hfits]
    refine ⟨mr, ?_, hmr.apply (Nat.le_succ op.level) (apply_binary hop l r values)⟩
    rw [foldlM_step_append hreadl, foldlM_step_cons (step_operator hop hml.expectOperand hpush)]
    exact hreadr
  | tighter h ih =>
    obtain ⟨m, hread, hm⟩ := ih values hfits.tighter
    exact ⟨m, hread, hm.loosen (Nat.le_succ _)⟩

end SheetScript.Arithmetic
