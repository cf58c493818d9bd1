import Mathlib.Tactic.SplitIfs
import SheetScript.Formula.Infix
import SheetScript.Formula.Render

/-!
# Formulas as trees

A sequence of nodes passes the arity rule exactly when it is the postorder of a tree
(`checkArity_eq_ok_iff`), and exactly then it can be written as a text, the text of that tree
(`render_eq_ok_iff`). A tree is counted as one value and written as one fragment, whatever lies
below it on the stack.
-/

namespace SheetScript.Formula

/-- A formula as a tree. -/
inductive Tree where
  | constant (value : Float)
  | cell (ref : CellRef)
  | operation (op : Operator) (lhs rhs : Tree)
  | aggregate (kind : Aggregate) (argument : Tree)
  | extremum (kind : Extremum) (lhs rhs : Tree)

namespace Tree

/-- The nodes of a tree, each after its operands. -/
def postorder : Tree → List Node
  | constant value => [.constant value]
  | cell ref => [.cell ref]
  | operation op lhs rhs => lhs.postorder ++ rhs.postorder ++ [.operator op]
  | aggregate kind argument => argument.postorder ++ [.function (.aggregate kind)]
  | extremum kind lhs rhs => lhs.postorder ++ rhs.postorder ++ [.function (.extremum kind)]

/-- The text of a tree, as a part of a larger one. -/
def fragment : Tree → Fragment
  | constant value => ⟨(Node.constant value).text, false⟩
  | cell ref => ⟨(Node.cell ref).text, false⟩
  | operation op lhs rhs => lhs.fragment.join op rhs.fragment
  | aggregate kind argument =>
    ⟨s!"{(Function.aggregate kind).name}({argument.fragment.text})", false⟩
  | extremum kind lhs rhs =>
    ⟨s!"{(Function.extremum kind).name}({lhs.fragment.text}, {rhs.fragment.text})", false⟩

/-- The nodes of the trees on a stack, the top one last. -/
def postorders (ts : List Tree) : List Node := ts.reverse.flatMap postorder

theorem postorders_cons (t : Tree) (ts : List Tree) :
    postorders (t :: ts) = postorders ts ++ t.postorder := by
  simp [postorders]

/-! ## The arity rule -/

theorem countValues_postorder (t : Tree) (depth : Nat) (rest : List Node) :
    countValues depth (t.postorder ++ rest) = countValues (depth + 1) rest := by
  induction t generalizing depth rest with
  | constant value => rfl
  | cell ref => rfl
  | operation op lhs rhs ihl ihr =>
    rw [postorder, List.append_assoc, List.append_assoc, ihl, ihr]
    rfl
  | aggregate kind argument ih =>
    rw [postorder, List.append_assoc, ih]
    rfl
  | extremum kind lhs rhs ihl ihr =>
    rw [postorder, List.append_assoc, List.append_assoc, ihl, ihr]
    rfl

/-- A node that finds its operands makes them one tree. -/
theorem exists_tree_of_operands {node : Node} {ts : List Tree}
    (h : node.operandCount ≤ ts.length) :
    ∃ t, postorders (t :: ts.drop node.operandCount) = postorders ts ++ [node] := by
  match node, ts, h with
  | .constant value, ts, _ => exact ⟨.constant value, postorders_cons _ _⟩
  | .cell ref, ts, _ => exact ⟨.cell ref, postorders_cons _ _⟩
  | .operator op, rhs :: lhs :: ts, _ =>
    exact ⟨.operation op lhs rhs, by simp [postorders_cons, postorder, Node.operandCount]⟩
  | .function (.aggregate kind), argument :: ts, _ =>
    refine ⟨.aggregate kind argument, ?_⟩
    simp [postorders_cons, postorder, Node.operandCount, Function.arity]
  | .function (.extremum kind), rhs :: lhs :: ts, _ =>
    refine ⟨.extremum kind lhs rhs, ?_⟩
    simp [postorders_cons, postorder, Node.operandCount, Function.arity]

/-- Counted values are trees. -/
theorem exists_trees_of_countValues {nodes : List Node} {ts : List Tree} {count : Nat}
    (h : countValues ts.length nodes = .ok count) :
    ∃ ts', ts'.length = count ∧ postorders ts' = postorders ts ++ nodes := by
  induction nodes generalizing ts with
  | nil =>
    cases h
    exact ⟨ts, rfl, (List.append_nil _).symm⟩
  | cons node nodes ih =>
    rw [countValues] at h
    split_ifs at h with hcount
    obtain ⟨t, ht⟩ := exists_tree_of_operands (Nat.not_lt.1 hcount)
    rw [← List.length_drop, ← List.length_cons (a := t)] at h
    obtain ⟨ts', hlength, hnodes⟩ := ih h
    exact ⟨ts', hlength, by rw [hnodes, ht, List.append_assoc]; rfl⟩

end Tree

theorem checkArity_eq_ok_iff_count {nodes : List Node} :
    checkArity nodes = .ok () ↔ countValues 0 nodes = .ok 1 := by
  unfold checkArity
  cases countValues 0 nodes with
  | error fault => exact iff_of_false nofun nofun
  | ok count =>
    match count with
    | 0 => exact iff_of_false nofun nofun
    | 1 => exact iff_of_true rfl rfl
    | count + 2 => exact iff_of_false nofun fun h => by simpa using Except.ok.inj h

/-- The sequences that pass the arity rule are the postorders of trees. -/
theorem checkArity_eq_ok_iff {nodes : List Node} :
    checkArity nodes = .ok () ↔ ∃ t : Tree, t.postorder = nodes := by
  rw [checkArity_eq_ok_iff_count]
  constructor
  · intro h
    change countValues ([] : List Tree).length nodes = .ok 1 at h
    obtain ⟨ts, hlength, hnodes⟩ := Tree.exists_trees_of_countValues h
    obtain ⟨t, rfl⟩ := List.length_eq_one_iff.1 hlength
    exact ⟨t, by simpa [Tree.postorders] using hnodes⟩
  · rintro ⟨t, rfl⟩
    have := t.countValues_postorder 0 []
    rw [List.append_nil] at this
    rw [this]
    rfl

/-! ## Rendering -/

namespace Tree

theorem foldlM_renderStep_postorder (t : Tree) (stack : List Fragment) (rest : List Node) :
    (t.postorder ++ rest).foldlM renderStep stack =
      rest.foldlM renderStep (t.fragment :: stack) := by
  induction t generalizing stack rest with
  | constant value => rfl
  | cell ref => rfl
  | operation op lhs rhs ihl ihr =>
    rw [postorder, List.append_assoc, List.append_assoc, ihl, ihr]
    rfl
  | aggregate kind argument ih =>
    rw [postorder, List.append_assoc, ih]
    rfl
  | extremum kind lhs rhs ihl ihr =>
    rw [postorder, List.append_assoc, List.append_assoc, ihl, ihr]
    rfl

theorem render_postorder (t : Tree) : render t.postorder = .ok t.fragment.text := by
  have := foldlM_renderStep_postorder t [] []
  rw [List.append_nil] at this
  rw [render, this]
  rfl

end Tree

theorem countValues_of_renderStep {node : Node} {stack stack' : List Fragment}
    (h : renderStep stack node = .ok stack') (rest : List Node) :
    countValues stack.length (node :: rest) = countValues stack'.length rest := by
  have hcount : node.operandCount ≤ stack.length ∧
      stack'.length = stack.length - node.operandCount + 1 := by
    match node, stack, h with
    | .constant value, stack, rfl => exact ⟨Nat.zero_le _, rfl⟩
    | .cell ref, stack, rfl => exact ⟨Nat.zero_le _, rfl⟩
    | .operator op, rhs :: lhs :: stack, rfl => exact ⟨Nat.le_add_left 2 _, rfl⟩
    | .function (.aggregate kind), argument :: stack, rfl => exact ⟨Nat.le_add_left 1 _, rfl⟩
    | .function (.extremum kind), rhs :: lhs :: stack, rfl => exact ⟨Nat.le_add_left 2 _, rfl⟩
  rw [countValues, if_neg (Nat.not_lt.2 hcount.1), hcount.2]

theorem countValues_of_foldlM_renderStep {nodes : List Node} {stack stack' : List Fragment}
    (h : nodes.foldlM renderStep stack = .ok stack') :
    countValues stack.length nodes = .ok stack'.length := by
  induction nodes generalizing stack with
  | nil =>
    cases h
    rfl
  | cons node nodes ih =>
    rw [List.foldlM_cons] at h
    cases hstep : renderStep stack node with
    | error e =>
      rw [hstep] at h
      cases h
    | ok next =>
      rw [hstep] at h
      rw [countValues_of_renderStep hstep]
      exact ih h

/-- What can be written is the postorder of a tree, and its text is the text of the tree. -/
theorem render_eq_ok_iff {nodes : List Node} {text : String} :
    render nodes = .ok text ↔ ∃ t : Tree, t.postorder = nodes ∧ t.fragment.text = text := by
  constructor
  · intro h
    have hcount : countValues 0 nodes = .ok 1 := by
      unfold render at h
      cases hfold : nodes.foldlM renderStep [] with
      | error e =>
        rw [hfold] at h
        cases h
      | ok stack =>
        rw [hfold] at h
        match stack, h with
        | [fragment], _ => exact countValues_of_foldlM_renderStep hfold
    obtain ⟨t, rfl⟩ := checkArity_eq_ok_iff.1 (checkArity_eq_ok_iff_count.2 hcount)
    exact ⟨t, rfl, Except.ok.inj (t.render_postorder.symm.trans h)⟩
  · rintro ⟨t, rfl, rfl⟩
    exact t.render_postorder

end SheetScript.Formula
