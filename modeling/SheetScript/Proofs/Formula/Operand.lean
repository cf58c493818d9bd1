import SheetScript.Proofs.Formula.Agreement
import SheetScript.Proofs.Formula.Tree

/-!
# What a tree leaves on the stack

The stack of an evaluation does not hold one entry for each value: a range keeps its two corners
below its operator until an aggregate takes all three. `Operand` is what one tree leaves there, and
`Tree.operand` computes it from the operands of the parts of the tree.

Evaluating the postorder of a tree comes to the same (`resultOf_foldlM_postorder`), errors included,
whatever lies below on the stack: each node takes whole operands and leaves one.
-/

namespace SheetScript.Formula

variable {α β : Type}

/-! ## Runs over plain values -/

/-- The result of a run over plain values. -/
def resultOf (run : Lookup Unit α) : Except FormulaError α := (run ()).1

@[simp] theorem resultOf_pure (x : α) : resultOf (pure x) = .ok x := rfl

@[simp] theorem resultOf_throw (e : FormulaError) :
    resultOf (throw e : Lookup Unit α) = .error e := rfl

@[simp] theorem resultOf_bind (run : Lookup Unit α) (next : α → Lookup Unit β) :
    resultOf (run >>= next) = resultOf run >>= fun x => resultOf (next x) := by
  unfold resultOf
  rw [Lookup.bind_apply]
  rcases run () with ⟨_ | _, _⟩ <;> rfl

@[simp] theorem resultOf_map (f : α → β) (run : Lookup Unit α) :
    resultOf (f <$> run) = f <$> resultOf run := by
  rw [← bind_pure_comp, resultOf_bind, ← bind_pure_comp]
  rfl

variable {value : CellRef → Except FormulaError Float} {hasValue : CellRef → Bool}
  {overflow : Overflow}

@[simp] theorem resultOf_ofValues (ref : CellRef) :
    resultOf ((CellSource.ofValues value hasValue).value ref) = value ref := rfl

@[simp] theorem hasValue_ofValues (ref : CellRef) :
    (CellSource.ofValues value hasValue).hasValue ref = hasValue ref := rfl

theorem resultOf_foldlM (next : β → α → Lookup Unit β) (xs : List α) (acc : β) :
    resultOf (xs.foldlM next acc) = xs.foldlM (fun acc x => resultOf (next acc x)) acc := by
  induction xs generalizing acc with
  | nil => rfl
  | cons x xs ih => simp [ih]

theorem evaluateWith_eq_resultOf (nodes : List Node) :
    evaluateWith value hasValue nodes overflow =
      resultOf (evaluate overflow (.ofValues value hasValue) nodes) := rfl

/-! ## Operands -/

/-- What a tree leaves on the stack. -/
inductive Operand where
  | constant (value : Float)
  | cell (ref : CellRef)
  /-- A range that no aggregate has taken yet. -/
  | range (first last : Operand)

namespace Operand

/-- The entry on top. -/
def top : Operand → Node
  | constant value => .constant value
  | cell ref => .cell ref
  | range _ _ => .operator .range

/-- All entries, the top one first. -/
def nodes : Operand → List Node
  | constant value => [.constant value]
  | cell ref => [.cell ref]
  | range first last => .operator .range :: (last.nodes ++ first.nodes)

/-- The number that the operand stands for. -/
def scalar (value : CellRef → Except FormulaError Float) : Operand → Except FormulaError Float
  | constant x => .ok x
  | cell ref => value ref
  | range _ _ => .error (.value .rangeAsValue)

/-- The operand as the corner of a range. -/
def corner : Operand → Except FormulaError CellRef
  | cell ref => .ok ref
  | a => .error (.value (.cornerNotACell a.top))

/-- The corners of the operand as a range. -/
def corners (overflow : Overflow) : Operand → Except FormulaError (CellRef × CellRef)
  | range first last => do
    let last ← last.corner
    let first ← first.corner
    checkRange overflow first last
    return (first, last)
  | a => .error ((ValueFault.notARange a.top).toError overflow)

/-- The constant that two operands combine to; the right one is read first. -/
def combine (value : CellRef → Except FormulaError Float) (compute : Float → Float → Float)
    (lhs rhs : Operand) : Except FormulaError Operand := do
  let y ← rhs.scalar value
  let x ← lhs.scalar value
  return constant (compute x y)

/-- What an operator makes of two operands. -/
def operate (value : CellRef → Except FormulaError Float) (op : Operator) (lhs rhs : Operand) :
    Except FormulaError Operand :=
  match op.compute? with
  | none => .ok (range lhs rhs)
  | some compute => combine value compute lhs rhs

/-- The value of a formula that leaves the operand. -/
def finish (value : CellRef → Except FormulaError Float) : Operand → Except FormulaError Float
  | range first last => .error (.stackDepth (range first last).nodes.length)
  | a => a.scalar value

theorem nodes_ne_nil (a : Operand) : a.nodes ≠ [] := by
  cases a <;> exact List.cons_ne_nil _ _

end Operand

/-- The sum and the number of the cells of a rectangle that hold something. -/
def totalsOf (value : CellRef → Except FormulaError Float) (hasValue : CellRef → Bool)
    (first last : CellRef) : Except FormulaError (Float × Nat) :=
  resultOf (totals (.ofValues value hasValue) first last)

/-- What the tree leaves on the stack. -/
def Tree.operand (value : CellRef → Except FormulaError Float) (hasValue : CellRef → Bool)
    (overflow : Overflow) : Tree → Except FormulaError Operand
  | constant x => .ok (.constant x)
  | cell ref => .ok (.cell ref)
  | operation op lhs rhs => do
    let a ← lhs.operand value hasValue overflow
    let b ← rhs.operand value hasValue overflow
    Operand.operate value op a b
  | aggregate kind argument => do
    let a ← argument.operand value hasValue overflow
    let (first, last) ← a.corners overflow
    let (sum, count) ← totalsOf value hasValue first last
    return .constant (kind.ofTotals sum count)
  | extremum kind lhs rhs => do
    let a ← lhs.operand value hasValue overflow
    let b ← rhs.operand value hasValue overflow
    Operand.combine value kind.choose a b

/-! ## Taking operands from the stack -/

variable (a b : Operand) (stack : List Node)

theorem resultOf_popScalar :
    resultOf (popScalar (.ofValues value hasValue) (a.nodes ++ stack)) =
      (·, stack) <$> a.scalar value := by
  cases a <;> simp [popScalar, pop, Operand.nodes, Operand.scalar, Formula.scalar]

theorem resultOf_popPair :
    resultOf (popPair (.ofValues value hasValue) (b.nodes ++ (a.nodes ++ stack))) = do
      let y ← b.scalar value
      let x ← a.scalar value
      return ((x, y), stack) := by
  simp [popPair, resultOf_popScalar]

theorem resultOf_popCorner :
    resultOf (popCorner (a.nodes ++ stack)) = (·, stack) <$> a.corner := by
  cases a <;> simp [popCorner, pop, Operand.nodes, Operand.corner, Operand.top]

theorem resultOf_popRange :
    resultOf (popRange overflow (a.nodes ++ stack)) = (·, stack) <$> a.corners overflow := by
  cases a with
  | constant x => rfl
  | cell ref => rfl
  | range first last =>
    simp only [popRange, pop, Operand.nodes, List.cons_append, List.append_assoc, pure_bind,
      resultOf_bind, resultOf_popCorner, Operand.corners, map_eq_pure_bind, bind_assoc]
    refine bind_congr fun last => bind_congr fun first => ?_
    cases checkRange overflow first last <;> rfl

/-! ## Running a node -/

theorem resultOf_evaluateStep_operator (op : Operator) :
    resultOf (evaluateStep overflow (.ofValues value hasValue) (b.nodes ++ (a.nodes ++ stack))
        (.operator op)) =
      (·.nodes ++ stack) <$> Operand.operate value op a b := by
  unfold Operand.operate
  cases hop : op.compute? with
  | none =>
    have hrange : op = .range := by cases op <;> first | rfl | cases hop
    simp [evaluateStep, hrange, Operator.compute?, Operand.nodes]
  | some compute =>
    simp [evaluateStep, hop, resultOf_popPair, Operand.combine, Operand.nodes]

theorem resultOf_evaluateStep_extremum (kind : Extremum) :
    resultOf (evaluateStep overflow (.ofValues value hasValue) (b.nodes ++ (a.nodes ++ stack))
        (.function (.extremum kind))) =
      (·.nodes ++ stack) <$> Operand.combine value (kind.choose · ·) a b := by
  simp [evaluateStep, resultOf_popPair, Operand.combine, Operand.nodes]

theorem resultOf_evaluateStep_aggregate (kind : Aggregate) :
    resultOf (evaluateStep overflow (.ofValues value hasValue) (a.nodes ++ stack)
        (.function (.aggregate kind))) =
      (·.nodes ++ stack) <$> (do
        let (first, last) ← a.corners overflow
        let (sum, count) ← totalsOf value hasValue first last
        return Operand.constant (kind.ofTotals sum count)) := by
  simp [evaluateStep, resultOf_popRange, totalsOf, Operand.nodes]

/-! ## Running a tree -/

/-- **A tree leaves its operand**, whatever lies below it on the stack. -/
theorem resultOf_foldlM_postorder (t : Tree) (stack rest : List Node) :
    resultOf
        ((t.postorder ++ rest).foldlM (evaluateStep overflow (.ofValues value hasValue)) stack) =
      t.operand value hasValue overflow >>= fun a =>
        resultOf
          (rest.foldlM (evaluateStep overflow (.ofValues value hasValue)) (a.nodes ++ stack)) := by
  induction t generalizing stack rest with
  | constant x => rfl
  | cell ref => rfl
  | operation op lhs rhs ihl ihr =>
    simp only [Tree.postorder, Tree.operand, List.append_assoc, ihl, ihr, bind_assoc]
    refine bind_congr fun a => bind_congr fun b => ?_
    rw [List.cons_append, List.nil_append, List.foldlM_cons, resultOf_bind,
      resultOf_evaluateStep_operator]
    simp
  | aggregate kind argument ih =>
    simp only [Tree.postorder, Tree.operand, List.append_assoc, ih, bind_assoc]
    refine bind_congr fun a => ?_
    rw [List.cons_append, List.nil_append, List.foldlM_cons, resultOf_bind,
      resultOf_evaluateStep_aggregate]
    simp
  | extremum kind lhs rhs ihl ihr =>
    simp only [Tree.postorder, Tree.operand, List.append_assoc, ihl, ihr, bind_assoc]
    refine bind_congr fun a => bind_congr fun b => ?_
    rw [List.cons_append, List.nil_append, List.foldlM_cons, resultOf_bind,
      resultOf_evaluateStep_extremum]
    simp

/-- The value of a formula is what its operand comes to. -/
theorem evaluateWith_postorder (t : Tree) :
    evaluateWith value hasValue t.postorder overflow =
      t.operand value hasValue overflow >>= Operand.finish value := by
  have hrun : resultOf (t.postorder.foldlM (evaluateStep overflow (.ofValues value hasValue)) []) =
      t.operand value hasValue overflow >>= fun a => .ok (a.nodes ++ []) := by
    simpa using resultOf_foldlM_postorder t [] []
  rw [evaluateWith_eq_resultOf, evaluate, resultOf_bind, hrun, bind_assoc]
  refine bind_congr fun a => ?_
  cases a with
  | constant x => rfl
  | cell ref => rfl
  | range first last =>
    -- The corners below the operator are more than the one entry that a value may leave.
    cases hcorners : last.nodes ++ first.nodes with
    | nil => exact absurd (List.append_eq_nil_iff.1 hcorners).1 last.nodes_ne_nil
    | cons node rest =>
      simp only [Operand.finish, Operand.nodes, hcorners, List.append_nil]
      rfl

end SheetScript.Formula
