import SheetScript.Script.Builtin

/-!
# Evaluating scripts

A script is evaluated token by token. Pieces gather into words, and at the end of a command its
first word names the procedure that is called with the others. The result of a script is that of
its last command.

Nested commands and the bodies of procedures are scripts themselves, evaluated one level deeper.
Since a loop may go on for ever, evaluation takes a number of `rounds`: it bounds the rounds of
every loop, and it falls with every level of nesting. An evaluation that ends, ends in the same way
with more rounds; `Interp.evaluate` and the like take more than any script will use.
-/

namespace SheetScript.Script

variable {H : Type} [Host H]

/-- Runs a scripted procedure in a frame of its own. -/
def callScripted (eval : String → Run H String) (name : String) (p : ScriptedProcedure)
    (args : List String) : Run H String := do
  let bindings ← Run.ofExcept (p.bind name args)
  let frame := bindings.foldl (fun frame (name, value) => frame.set name value) {}
  match ← Run.outcome (Run.inFrame frame (eval p.body)) with
  | .ok value | .error (.returned value) => return value
  | .error .breakLoop => Run.fail (.misuse .breakOutsideLoop)
  | .error .continueLoop => Run.fail (.misuse .continueOutsideLoop)
  | .error flow => throw flow

/-- Calls the procedure of a name. -/
def call (eval : String → Run H String) :
    (rounds : Nat) → (name : String) → (args : List String) → Run H String
  | 0, _, _ => Run.unfinished
  | rounds + 1, name, args => do
    let i ← get
    match i.procedures.get? name with
    | none => Run.fail (.undefinedProcedure name)
    | some (.builtin b) => b.run eval rounds args
    | some (.scripted p) => callScripted eval name p args
    | some (.command c) =>
      match Host.perform c args i.host with
      | .answer host result => do
        set { i with host }
        Run.ofExcept result
      | .define name p => do
        set (i.define name p)
        return ""
      | .invoke name missing =>
        if i.procedures.contains name then call eval rounds name [] else Run.fail missing

/-- Calls the procedure that the first word names with the other words. -/
def callWords (call : String → List String → Run H String) : List String → Run H String
  | [] => return ""
  | name :: args => call name args

/-- Ends a command: calls it and stores its result. A command without words keeps the result of the
one before. -/
def endCommand (call : String → List String → Run H String) (words : Words) (result : String) :
    Run H String :=
  match words.toList with
  | [] => return result
  | words => do
    let result ← callWords call words
    modify (·.setResult result)
    return result

/-- Runs the rest of a script, given the words of the command so far and the latest result. -/
def runTokens (eval : String → Run H String) (call : String → List String → Run H String)
    (words : Words) (result : String) : List Token → Run H String
  | [] => endCommand call words result
  | token :: rest =>
    match token with
    | .separator _ => runTokens eval call words.close result rest
    | .endOfLine _ => do
      let result ← endCommand call words result
      runTokens eval call {} result rest
    | .malformed what => Run.fail (.unclosed what)
    | .variable name => do
      runTokens eval call (words.add (← Run.lookup name)) result rest
    | .command script => do
      runTokens eval call (words.add (← eval script)) result rest
    | .verbatim text | .literal text => runTokens eval call (words.add text) result rest

/-- The result of a script, one level deeper. -/
def evalScript : (rounds : Nat) → (script : String) → Run H String
  | 0, _ => Run.unfinished
  | rounds + 1, script =>
    let eval := evalScript rounds
    Run.nested (runTokens eval (call eval rounds) {} "" (scan true script))

/-! ## Evaluation without a bound in sight -/

namespace Interp

/-- More rounds than any script uses up. -/
def manyRounds : Nat := 1 <<< 62

/-- The result of a script. -/
def eval (script : String) : Run H String := evalScript manyRounds script

/-- Calls the procedure that the first word names. -/
def call (words : List String) : Run H String :=
  callWords (Script.call eval manyRounds) words

/-- Runs the procedure of a name without arguments, or fails if there is none. -/
def invoke (name : String) (missing : ScriptError) : Run H String := do
  if (← get).procedures.contains name then call [name] else Run.fail missing

/-- A text after substitution. -/
def subst (text : String) : Run H String := Script.subst eval text

/-- The value of an expression after substitution. -/
def evalExpr (text : String) : Run H Float := Script.evalExpr eval text

/-- Whether an expression is true after substitution. -/
def evalCondition (text : String) : Run H Bool := Script.evalCondition eval text

/-- The text of an outcome: its value, or what went wrong. -/
def outcomeText : Outcome → String
  | .ok value | .error (.returned value) => value
  | .error (.error e) => e.message
  | .error .breakLoop => Misuse.message .breakOutsideLoop
  | .error .continueLoop => Misuse.message .continueOutsideLoop

/-- Evaluates a script, stores the text of its outcome in the innermost frame and tells what kind
of outcome it was. -/
def evaluate (script : String) : Run H ReturnCode := do
  let outcome ← Run.outcome (eval script)
  modify (·.setResult (outcomeText outcome))
  return ReturnCode.ofOutcome outcome

end Interp

end SheetScript.Script
