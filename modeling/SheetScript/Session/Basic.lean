import SheetScript.Script.Evaluate
import SheetScript.Session.Command

/-!
# Sessions

A session is an interpreter whose host is a document, with the default keys bound. Scripts can come
from a startup file, from a command line or from a key; errors of the latter two become the message
of the document.
-/

namespace SheetScript

open Script (Interp Run ReturnCode Outcome ScriptError ScriptedProcedure Misuse)

/-- An interpreter over a document. -/
abbrev Session := Interp Document

namespace Session

/-- The keys that are bound from the start, with their scripts. -/
def defaultBindings : List (String × String) :=
  [("h", "move -1 0"), ("j", "move 0 1"), ("k", "move 0 -1"), ("l", "move 1 0"),
    ("Left", "move -1 0"), ("Down", "move 0 1"), ("Up", "move 0 -1"), ("Right", "move 1 0"),
    ("Tab", "move 1 0"), ("BackTab", "move -1 0"),
    ("x", "clearcell [cursor]"), ("Delete", "clearcell [cursor]"),
    ("u", "undo"), ("C-r", "redo"), ("C-Home", "goto A1")]

/-- Binds a key to a script, in place of the one before. -/
def bindKey (session : Session) (key script : String) : Session :=
  session.define (SheetCommand.bindingName key) ⟨[], script⟩

/-- A fresh session over a document. -/
def ofDocument (doc : Document) : Session :=
  defaultBindings.foldl (fun session (key, script) => session.bindKey key script) (.ofHost doc)

/-- Leaves a message to be shown. -/
def setFlash (session : Session) (message : String) : Session :=
  { session with host := session.host.setFlash message }

/-- The outcome of a whole script, where loop control has nothing to control. -/
def settle : Outcome → Except ScriptError String
  | .ok value | .error (.returned value) => .ok value
  | .error (.error e) => .error e
  | .error .breakLoop | .error .continueLoop => .error (.misuse .loopControlOutsideLoop)

/-- Runs a whole script. -/
def run (script : String) : Run Document (Except ScriptError String) := do
  return settle (← Run.outcome (Interp.eval script))

/-- Runs a line typed by the user. An error becomes the message of the document. -/
def command (line : String) : Run Document ReturnCode := do
  let code ← Interp.evaluate line
  if code = .error then modify fun session => setFlash session session.result
  return code

/-- Runs the script bound to a key. An error becomes the message of the document. -/
def press (key : String) : Run Document ReturnCode := do
  let outcome ← Run.outcome
    (Interp.invoke (SheetCommand.bindingName key) (SheetCommand.noBinding key))
  if let .error (.error e) := outcome then modify (setFlash · e.message)
  return ReturnCode.ofOutcome outcome

end Session

end SheetScript
