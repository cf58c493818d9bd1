import SheetScript.Arithmetic.Evaluate
import SheetScript.Script.Token

/-!
# Errors and outcomes of scripts

A script ends with a result, or with a `Flow` that carries it out of the command it is in: an
error, or the request to leave a loop, to start its next round, or to return from a procedure.
`ReturnCode` is the flat form of an outcome.
-/

namespace SheetScript.Script

/-- A value that does not suit its use. -/
inductive Misuse where
  | notAnInteger (text : String)
  | breakOutsideLoop
  | continueOutsideLoop
  /-- A whole script asks for loop control. -/
  | loopControlOutsideLoop
  | expression (error : ExpressionError)

/-- The wording of a misuse. -/
def Misuse.message : Misuse → String
  | notAnInteger text => s!"expected integer but got \"{text}\""
  | breakOutsideLoop => "invoked \"break\" outside of a loop"
  | continueOutsideLoop => "invoked \"continue\" outside of a loop"
  | loopControlOutsideLoop => "loop control outside of a loop"
  | expression error => error.message

/-- What can go wrong in a script. -/
inductive ScriptError where
  | unclosed (what : Unclosed)
  /-- A command got too few or too many words. -/
  | wrongArguments (usage : String)
  | misuse (what : Misuse)
  | undefinedVariable (name : String)
  | undefinedProcedure (name : String)
  /-- Scripts are nested more deeply than allowed. -/
  | recursionLimit (limit : Nat)
  /-- The host refused a request. -/
  | host (message : String)
  /-- Raised by the script itself. -/
  | user (message : String)

/-- The wording of a script error. -/
def ScriptError.message : ScriptError → String
  | unclosed what => s!"syntax error: {what.message}"
  | wrongArguments usage => s!"wrong # args: should be \"{usage}\""
  | misuse what => what.message
  | undefinedVariable name => s!"can't read \"{name}\": no such variable"
  | undefinedProcedure name => s!"invalid command name \"{name}\""
  | recursionLimit limit => s!"too many nested evaluations (limit {limit})"
  | host message => message
  | user message => message

/-- Why a script did not run to its end. -/
inductive Flow where
  | error (error : ScriptError)
  | breakLoop
  | continueLoop
  | returned (value : String)

/-- The result of a script, or why there is none. -/
abbrev Outcome := Except Flow String

/-- The kinds of outcome. -/
inductive ReturnCode where
  | ok
  | error
  | returned
  | breakLoop
  | continueLoop
deriving DecidableEq, Repr

namespace ReturnCode

/-- The kind of an outcome. -/
def ofOutcome : Outcome → ReturnCode
  | .ok _ => ok
  | .error (.error _) => error
  | .error (.returned _) => returned
  | .error .breakLoop => breakLoop
  | .error .continueLoop => continueLoop

/-- The number of a kind of outcome. -/
def toNat : ReturnCode → Nat
  | ok => 0
  | error => 1
  | returned => 2
  | breakLoop => 3
  | continueLoop => 4

end ReturnCode

end SheetScript.Script
