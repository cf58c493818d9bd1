import SheetScript.Script.Interp

/-!
# The built-in procedures

What each built-in procedure does, given its arguments. Those that run scripts take the evaluation
of a script as a parameter, `eval`; loops also take the most rounds that they may go on.
-/

namespace SheetScript.Script

variable {H : Type} [Host H]

/-! ## Substitution and expressions -/

/-- The text that tokens stand for, after `done`, with variables and commands replaced by their
values. -/
def substTokens (eval : String → Run H String) (done : String) : List Token → Run H String
  | [] => return done
  | token :: rest =>
    match token with
    | .malformed what => Run.fail (.unclosed what)
    | .variable name => do substTokens eval (done ++ (← Run.lookup name)) rest
    | .command script => do substTokens eval (done ++ (← eval script)) rest
    | .endOfLine text | .separator text | .verbatim text | .literal text =>
      substTokens eval (done ++ text) rest

/-- A text with variables and commands replaced by their values. -/
def subst (eval : String → Run H String) (text : String) : Run H String :=
  substTokens eval "" (scan false text)

/-- The value of an expression after substitution. -/
def evalExpr (eval : String → Run H String) (text : String) : Run H Float := do
  match Arithmetic.evaluate (← subst eval text) with
  | .ok value => return value
  | .error e => Run.fail (.misuse (.expression e))

/-- Whether an expression is true. -/
def evalCondition (eval : String → Run H String) (text : String) : Run H Bool := do
  return Arithmetic.truth (← evalExpr eval text)

/-! ## The shape of an `if` command -/

/-- The clauses of an `if` command. -/
inductive Clauses where
  /-- A condition with its body, then the clauses for when it is false. -/
  | clause (condition body : String) (rest : Clauses)
  /-- A body without a condition. -/
  | otherwise (body : String)
  /-- Nothing more. -/
  | done
  /-- Words that make no clause; they matter only once all conditions before are false. -/
  | malformed
deriving DecidableEq, Repr

namespace Clauses

/-- What the next word of an `if` command is. -/
inductive Expected where
  | condition
  /-- The word `then`, or the body of the given condition. -/
  | thenOrBody (condition : String)
  /-- The body of the given condition. -/
  | body (condition : String)
  /-- What follows a body. -/
  | tail

/-- The clauses that a row of words makes. -/
def parseFrom : Expected → List String → Clauses
  | .condition, condition :: rest => parseFrom (.thenOrBody condition) rest
  | .condition, [] => malformed
  | .thenOrBody condition, "then" :: rest => parseFrom (.body condition) rest
  | .thenOrBody condition, body :: rest => clause condition body (parseFrom .tail rest)
  | .thenOrBody _, [] => malformed
  | .body condition, body :: rest => clause condition body (parseFrom .tail rest)
  | .body _, [] => malformed
  | .tail, [] => done
  | .tail, "elseif" :: rest => parseFrom .condition rest
  | .tail, ["else", body] => otherwise body
  | .tail, "else" :: _ => malformed
  | .tail, [body] => otherwise body
  | .tail, _ => malformed

/-- The clauses of an `if` command, given its arguments. -/
def parse (args : List String) : Clauses := parseFrom .condition args

end Clauses

/-! ## Control flow -/

namespace Builtin

/-- Runs the clauses of an `if` command up to the first true condition. -/
def runClauses (eval : String → Run H String) : Clauses → Run H String
  | .clause condition body rest => do
    if ← evalCondition eval condition then eval body else runClauses eval rest
  | .otherwise body => eval body
  | .done => return ""
  | .malformed => Run.fail (.wrongArguments Builtin.if.usage)

/-- One round of a loop. The loop goes on unless the body breaks it. -/
def runRound (eval : String → Run H String) (body : String) : Run H Bool := do
  match ← Run.outcome (eval body) with
  | .ok _ | .error .continueLoop => return true
  | .error .breakLoop => return false
  | .error flow => throw flow

/-- A loop of at most `rounds` rounds: as long as `condition` holds, `body` runs and then `next`. -/
def runLoop (eval : String → Run H String) (condition body : String) (next : Run H Unit) :
    (rounds : Nat) → Run H String
  | 0 => Run.unfinished
  | rounds + 1 => do
    if ← evalCondition eval condition then
      if ← runRound eval body then
        next
        runLoop eval condition body next rounds
      else return ""
    else return ""

/-- A loop over the elements of a list. -/
def runForeach (eval : String → Run H String) (name body : String) : List String → Run H String
  | [] => return ""
  | element :: rest => do
    modify (·.setVariable name element)
    if ← runRound eval body then runForeach eval name body rest else return ""

/-- Removes variables, which must be set. -/
def runUnset : List String → Run H String
  | [] => return ""
  | name :: rest => do
    let _ ← Run.lookup name
    modify (·.unsetVariable name)
    runUnset rest

/-- The value of an outcome as `catch` stores it. -/
def caughtValue : Outcome → String
  | .ok value | .error (.returned value) => value
  | .error (.error e) => e.message
  | .error .breakLoop | .error .continueLoop => ""

/-- Adds a step to a counter, which wraps at sixty-four bits. -/
def wrappingAdd (n step : Int) : Int := (n + step).bmod UInt64.size

/-- Adds to a variable, which counts as zero if it is not set. -/
def runIncr (name : String) (step : Int) : Run H String := do
  let current ←
    match (← get).get? name with
    | some text => Run.integer text
    | none => pure 0
  let value := toString (wrappingAdd current step)
  modify (·.setVariable name value)
  return value

/-- Runs a built-in procedure. -/
def run (eval : String → Run H String) (rounds : Nat) (b : Builtin) (args : List String) :
    Run H String :=
  match b, args with
  | .set, [name] => Run.lookup name
  | .set, [name, value] => do
    modify (·.setVariable name value)
    return value
  | .unset, name :: names => runUnset (name :: names)
  | .incr, [name] => runIncr name 1
  | .incr, [name, step] => do runIncr name (← Run.integer step)
  | .append, name :: pieces => do
    let value := pieces.foldl (· ++ ·) (((← get).get? name).getD "")
    modify (·.setVariable name value)
    return value
  | .expr, arg :: args => do
    return Number.format .result (← evalExpr eval (" ".intercalate (arg :: args)))
  | .if, args => runClauses eval (Clauses.parse args)
  | .while, [condition, body] => runLoop eval condition body (pure ()) rounds
  | .for, [start, condition, next, body] => do
    let _ ← eval start
    runLoop eval condition body (do let _ ← eval next) rounds
  | .foreach, [name, items, body] => do runForeach eval name body (← Run.elements items)
  | .break, [] => throw .breakLoop
  | .continue, [] => throw .continueLoop
  | .return, [] => throw (.returned "")
  | .return, [value] => throw (.returned value)
  | .proc, [name, params, body] => do
    let params ← Run.elements params
    modify (·.define name ⟨params, body⟩)
    return ""
  | .eval, arg :: args => eval (" ".intercalate (arg :: args))
  | .catch, [script] => do
    return toString (ReturnCode.ofOutcome (← Run.outcome (eval script))).toNat
  | .catch, [script, name] => do
    let outcome ← Run.outcome (eval script)
    modify (·.setVariable name (caughtValue outcome))
    return toString (ReturnCode.ofOutcome outcome).toNat
  | .error, [message] => Run.fail (.user message)
  | .list, args => return WordList.format args
  | .llength, [items] => return toString (← Run.elements items).length
  | .lindex, [items, index] => do
    let elements ← Run.elements items
    let index ← Run.integer index
    return if index < 0 then "" else elements.getD index.toNat ""
  | .puts, [line] => do
    modify (·.emit line)
    return ""
  | .info, ["exists", name] => return if ((← get).get? name).isSome then "1" else "0"
  | .info, ["commands"] => return WordList.format (← get).procedures.names
  | b, _ => Run.fail (.wrongArguments b.usage)

end Builtin

end SheetScript.Script
