import SheetScript.Script.Frame
import SheetScript.Script.Procedure
import SheetScript.Script.Registry

/-!
# Interpreters

The state of an interpreter: its frames, its procedures, how deeply scripts are nested, the lines
written so far, and the host.

`Run` is the type of computations over that state. A computation ends with a value or a `Flow`, and
the state it leaves counts in both cases; or it does not end within the rounds that it was given,
and then there is no state at all.
-/

namespace SheetScript.Script

/-- The state of an interpreter over the host `H`. -/
structure Interp (H : Type) [Host H] where
  frames : FrameStack := {}
  procedures : Registry nameHash (Procedure H) := .empty
  /-- How many evaluations are under way. -/
  depth : Nat := 0
  /-- How many evaluations may be under way. -/
  maxDepth : Nat := 200
  /-- The lines written since they were last taken away. -/
  output : Array String := #[]
  host : H

namespace Interp

variable {H : Type} [Host H]

/-- A registry of the built-in procedures and the commands of the host. -/
def initialProcedures : Registry nameHash (Procedure H) :=
  let builtins := Builtin.all.map fun b => (b.name, Procedure.builtin b)
  let commands := (Host.commands (H := H)).map fun (name, c) => (name, Procedure.command c)
  (builtins ++ commands).foldl (fun registry (name, p) => registry.insert name p) .empty

/-- A fresh interpreter. -/
def ofHost (host : H) : Interp H := { procedures := initialProcedures, host }

/-- The value of a variable of the innermost frame. -/
def get? (i : Interp H) (name : String) : Option String := i.frames.current.get? name

/-- Changes the innermost frame. -/
def modifyFrame (i : Interp H) (f : Frame → Frame) : Interp H :=
  { i with frames := i.frames.modifyCurrent f }

/-- Sets a variable of the innermost frame. -/
def setVariable (i : Interp H) (name value : String) : Interp H := i.modifyFrame (·.set name value)

/-- Removes a variable of the innermost frame. -/
def unsetVariable (i : Interp H) (name : String) : Interp H := i.modifyFrame (·.unset name)

/-- The result of the latest command in the innermost frame. -/
def result (i : Interp H) : String := i.frames.current.result

/-- Stores the result of a command in the innermost frame. -/
def setResult (i : Interp H) (value : String) : Interp H :=
  i.modifyFrame fun frame => { frame with result := value }

/-- Defines a procedure, in place of any other of that name. -/
def define (i : Interp H) (name : String) (p : ScriptedProcedure) : Interp H :=
  { i with procedures := i.procedures.insert name (.scripted p) }

/-- Writes a line. -/
def emit (i : Interp H) (line : String) : Interp H := { i with output := i.output.push line }

/-- Puts a frame on top, a fresh one if none is given. -/
def pushFrame (i : Interp H) (frame : Frame := {}) : Interp H :=
  { i with frames := i.frames.push frame }

/-- Takes the innermost frame off. -/
def popFrame (i : Interp H) : Interp H := { i with frames := i.frames.pop }

end Interp

/-! ## Computations -/

/-- Computations over the state of an interpreter. -/
abbrev Run (H : Type) [Host H] (α : Type) := ExceptT Flow (StateT (Interp H) Option) α

namespace Run

variable {H : Type} [Host H] {α : Type}

/-- Ends without a value because of an error. -/
def fail (e : ScriptError) : Run H α := throw (.error e)

/-- A value or an error. -/
def ofExcept : Except ScriptError α → Run H α
  | .ok value => pure value
  | .error e => fail e

/-- Does not end. -/
def unfinished : Run H α := fun _ => none

/-- A computation that counts as one more nested evaluation, and fails if there are too many. -/
def nested (body : Run H α) : Run H α := fun i =>
  if i.maxDepth ≤ i.depth then some (.error (.error (.recursionLimit i.maxDepth)), i)
  else
    match body { i with depth := i.depth + 1 } with
    | some (result, j) => some (result, { j with depth := j.depth - 1 })
    | none => none

/-- A computation in a frame of its own, which is taken off however the computation ends. -/
def inFrame (frame : Frame) (body : Run H α) : Run H α := fun i =>
  match body (i.pushFrame frame) with
  | some (result, j) => some (result, j.popFrame)
  | none => none

/-- The outcome of a computation as a value. -/
def outcome (body : Run H α) : Run H (Except Flow α) := fun i =>
  match body i with
  | some (result, j) => some (.ok result, j)
  | none => none

/-- The value of a variable, which must be set. -/
def lookup (name : String) : Run H String := do
  match (← get).get? name with
  | some value => return value
  | none => fail (.undefinedVariable name)

/-- The elements of a list. -/
def elements (text : String) : Run H (List String) :=
  match WordList.parse text with
  | .ok words => return words
  | .error what => fail (.unclosed what)

/-- The integer that an argument stands for. -/
def integer (text : String) : Run H Int := ofExcept (integerArgument text)

end Run

end SheetScript.Script
