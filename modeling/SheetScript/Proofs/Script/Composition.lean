import Mathlib
import SheetScript.Script.Evaluate

/-!
# Runs put together from smaller ones

What an interpreter does is put together from a few single operations. A relation between runs that
holds of each operation and goes through sequences (`Run.Compositional`) therefore holds of every
built-in procedure, and of the tokens of a script, if it holds of the scripts that they evaluate
(`Run.Compositional.builtin`, `Run.Compositional.runTokens`). Only the two loops, which take a
number of rounds, are left to the relation itself.

This is the one place that goes through the built-in procedures. That two runs keep states related,
and that a run ends, are two such relations.
-/

namespace SheetScript.Script

variable {H : Type} [Host H] {α β : Type}

namespace Run

/-- The two states show a script the same variables and procedures. -/
structure SameView (i j : Interp H) : Prop where
  get?_eq : ∀ name, i.get? name = j.get? name
  procedures_eq : i.procedures = j.procedures

/-- A relation between runs that goes through sequences, however they end. -/
structure Sequential (P : (α : Type) → Run H α → Run H α → Prop) : Prop where
  pure : ∀ {α : Type} (x : α), P α (pure x) (pure x)
  throw : ∀ {α : Type} (flow : Flow), P α (throw flow) (throw flow)
  bind : ∀ {α β : Type} {a b : Run H α} {f g : α → Run H β},
    P α a b → (∀ x, P β (f x) (g x)) → P β (a >>= f) (b >>= g)
  outcome : ∀ {α : Type} {a b : Run H α}, P α a b → P _ (outcome a) (outcome b)

/-- A relation between runs that goes through sequences and holds of the single operations. -/
structure Compositional (P : (α : Type) → Run H α → Run H α → Prop) : Prop
    extends Sequential P where
  get_bind : ∀ {α : Type} {f g : Interp H → Run H α},
    (∀ i j, SameView i j → P α (f i) (g j)) → P α (get >>= f) (get >>= g)
  modifyFrame : ∀ f, P _ (modify (·.modifyFrame f)) (modify (·.modifyFrame f))
  define : ∀ name p, P _ (modify (·.define name p)) (modify (·.define name p))
  emit : ∀ line, P _ (modify (·.emit line)) (modify (·.emit line))

variable {P : (α : Type) → Run H α → Run H α → Prop} {eval eval' : String → Run H String}

namespace Sequential

theorem ofExcept (hP : Sequential P) (x : Except ScriptError α) :
    P α (ofExcept x) (ofExcept x) := by
  cases x with
  | ok x => exact hP.pure x
  | error e => exact hP.throw _

theorem elements (hP : Sequential P) (text : String) : P _ (elements text) (elements text) := by
  unfold Run.elements
  split
  · exact hP.pure _
  · exact hP.throw _

theorem runRound (hP : Sequential P) (heval : ∀ script, P _ (eval script) (eval' script))
    (body : String) : P _ (Builtin.runRound eval body) (Builtin.runRound eval' body) := by
  refine hP.bind (hP.outcome (heval body)) fun outcome => ?_
  split
  · exact hP.pure _
  · exact hP.pure _
  · exact hP.pure _
  · exact hP.throw _

/-- A call of a scripted procedure behaves alike if its body does in any frame. -/
theorem callScripted (hP : Sequential P) {p : ScriptedProcedure}
    (hbody : ∀ frame, P _ (inFrame frame (eval p.body)) (inFrame frame (eval' p.body)))
    (name : String) (args : List String) :
    P _ (callScripted eval name p args) (callScripted eval' name p args) := by
  refine hP.bind (hP.ofExcept _) fun bindings => ?_
  refine hP.bind (hP.outcome (hbody _)) fun outcome => ?_
  split
  · exact hP.pure _
  · exact hP.pure _
  · exact hP.throw _
  · exact hP.throw _
  · exact hP.throw _

theorem callWords (hP : Sequential P) {call call' : String → List String → Run H String}
    (hcall : ∀ name args, P _ (call name args) (call' name args)) (words : List String) :
    P _ (callWords call words) (callWords call' words) := by
  cases words with
  | nil => exact hP.pure _
  | cons name args => exact hcall name args

end Sequential

namespace Compositional

/-- A command that changes a variable and answers with a value. -/
theorem store (hP : Compositional P) (f : Frame → Frame) (value : α) :
    P α (do modify (·.modifyFrame f); return value) (do modify (·.modifyFrame f); return value) :=
  hP.bind (hP.modifyFrame f) fun _ => hP.pure value

theorem lookup (hP : Compositional P) (name : String) : P _ (lookup name) (lookup name) := by
  refine hP.get_bind fun i j h => ?_
  rw [h.get?_eq name]
  cases j.get? name with
  | none => exact hP.throw _
  | some value => exact hP.pure value

/-! ## The built-in procedures -/

theorem substTokens (hP : Compositional P) (heval : ∀ script, P _ (eval script) (eval' script))
    (tokens : List Token) (done : String) :
    P _ (substTokens eval done tokens) (substTokens eval' done tokens) := by
  induction tokens generalizing done with
  | nil => exact hP.pure _
  | cons token tokens ih =>
    cases token with
    | malformed what => exact hP.throw _
    | «variable» name => exact hP.bind (hP.lookup name) fun _ => ih _
    | command script => exact hP.bind (heval script) fun _ => ih _
    | endOfLine text => exact ih _
    | separator text => exact ih _
    | verbatim text => exact ih _
    | literal text => exact ih _

theorem evalExpr (hP : Compositional P) (heval : ∀ script, P _ (eval script) (eval' script))
    (text : String) : P _ (evalExpr eval text) (evalExpr eval' text) := by
  refine hP.bind (hP.substTokens heval _ _) fun text => ?_
  split
  · exact hP.pure _
  · exact hP.throw _

theorem evalCondition (hP : Compositional P) (heval : ∀ script, P _ (eval script) (eval' script))
    (text : String) : P _ (evalCondition eval text) (evalCondition eval' text) :=
  hP.bind (hP.evalExpr heval text) fun _ => hP.pure _

theorem runClauses (hP : Compositional P) (heval : ∀ script, P _ (eval script) (eval' script))
    (clauses : Clauses) :
    P _ (Builtin.runClauses eval clauses) (Builtin.runClauses eval' clauses) := by
  induction clauses with
  | clause condition body rest ih =>
    refine hP.bind (hP.evalCondition heval condition) fun holds => ?_
    cases holds with
    | true => exact heval body
    | false => exact ih
  | otherwise body => exact heval body
  | done => exact hP.pure _
  | malformed => exact hP.throw _

theorem runForeach (hP : Compositional P) (heval : ∀ script, P _ (eval script) (eval' script))
    (name body : String) (elements : List String) :
    P _ (Builtin.runForeach eval name body elements)
      (Builtin.runForeach eval' name body elements) := by
  induction elements with
  | nil => exact hP.pure _
  | cons element rest ih =>
    refine hP.bind (hP.modifyFrame _) fun _ => ?_
    refine hP.bind (hP.runRound heval body) fun goesOn => ?_
    cases goesOn with
    | false => exact hP.pure _
    | true => exact ih

theorem runUnset (hP : Compositional P) (names : List String) :
    P _ (Builtin.runUnset names) (Builtin.runUnset names) := by
  induction names with
  | nil => exact hP.pure _
  | cons name names ih =>
    exact hP.bind (hP.lookup name) fun _ => hP.bind (hP.modifyFrame _) fun _ => ih

theorem runIncr (hP : Compositional P) (name : String) (step : Int) :
    P _ (Builtin.runIncr name step) (Builtin.runIncr name step) := by
  refine hP.get_bind fun i j h => ?_
  rw [h.get?_eq name]
  cases j.get? name with
  | none => exact hP.bind (hP.pure _) fun _ => hP.store _ _
  | some text => exact hP.bind (hP.ofExcept _) fun _ => hP.store _ _

/-- A built-in procedure behaves alike in two runs whose scripts do, if its loops do. -/
theorem builtin (hP : Compositional P) (heval : ∀ script, P _ (eval script) (eval' script))
    (b : Builtin) {m n : Nat}
    (hloop : b = .while ∨ b = .for → ∀ condition body {next next' : Run H Unit}, P _ next next' →
      P _ (Builtin.runLoop eval condition body next m)
        (Builtin.runLoop eval' condition body next' n))
    (args : List String) : P _ (b.run eval m args) (b.run eval' n args) := by
  -- One goal for each shape of a command, in the order in which `Builtin.run` lists them.
  unfold Builtin.run
  split
  · exact hP.lookup _
  · exact hP.store _ _
  · exact hP.runUnset _
  · exact hP.runIncr _ _
  · exact hP.bind (hP.ofExcept _) fun _ => hP.runIncr _ _
  · refine hP.get_bind fun i j h => ?_
    rw [h.get?_eq]
    exact hP.store _ _
  · exact hP.bind (hP.evalExpr heval _) fun _ => hP.pure _
  · exact hP.runClauses heval _
  · exact hloop (.inl rfl) _ _ (hP.pure _)
  · exact hP.bind (heval _) fun _ =>
      hloop (.inr rfl) _ _ (hP.bind (heval _) fun _ => hP.pure _)
  · exact hP.bind (hP.elements _) fun _ => hP.runForeach heval _ _ _
  · exact hP.throw _
  · exact hP.throw _
  · exact hP.throw _
  · exact hP.throw _
  · exact hP.bind (hP.elements _) fun _ => hP.bind (hP.define _ _) fun _ => hP.pure _
  · exact heval _
  · exact hP.bind (hP.outcome (heval _)) fun _ => hP.pure _
  · exact hP.bind (hP.outcome (heval _)) fun _ => hP.store _ _
  · exact hP.throw _
  · exact hP.pure _
  · exact hP.bind (hP.elements _) fun _ => hP.pure _
  · exact hP.bind (hP.elements _) fun _ => hP.bind (hP.ofExcept _) fun _ => hP.pure _
  · exact hP.bind (hP.emit _) fun _ => hP.pure _
  · refine hP.get_bind fun i j h => ?_
    rw [h.get?_eq]
    exact hP.pure _
  · refine hP.get_bind fun i j h => ?_
    rw [h.procedures_eq]
    exact hP.pure _
  · exact hP.throw _

/-! ## Commands and scripts -/

variable {call call' : String → List String → Run H String}

theorem endCommand (hP : Compositional P)
    (hcall : ∀ name args, P _ (call name args) (call' name args)) (words : Words)
    (result : String) : P _ (endCommand call words result) (endCommand call' words result) := by
  unfold Script.endCommand
  split
  · exact hP.pure _
  · exact hP.bind (hP.callWords hcall _) fun _ => hP.store _ _

theorem runTokens (hP : Compositional P) (heval : ∀ script, P _ (eval script) (eval' script))
    (hcall : ∀ name args, P _ (call name args) (call' name args)) (tokens : List Token)
    (words : Words) (result : String) :
    P _ (runTokens eval call words result tokens) (runTokens eval' call' words result tokens) := by
  induction tokens generalizing words result with
  | nil => exact hP.endCommand hcall words result
  | cons token tokens ih =>
    cases token with
    | separator text => exact ih _ _
    | endOfLine text => exact hP.bind (hP.endCommand hcall words result) fun _ => ih _ _
    | malformed what => exact hP.throw _
    | «variable» name => exact hP.bind (hP.lookup name) fun _ => ih _ _
    | command script => exact hP.bind (heval script) fun _ => ih _ _
    | verbatim text => exact ih _ _
    | literal text => exact ih _ _

end Compositional

end Run

end SheetScript.Script
