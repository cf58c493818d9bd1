import SheetScript.Document.History
import SheetScript.Document.Values
import SheetScript.Script.Procedure

/-!
# Commands over a document

The commands by which scripts work on a document. A command that fails leaves the cells, the
history, the cursor and the message as they are.

A key is bound to a script by a procedure of its own: `bind` defines it and `press` runs it.

The cursor can be moved to cells whose names cannot be read back, in the last column and the last
row. There `cursor` answers with a name all the same, and in the last row with that of a row zero.
-/

namespace SheetScript

open Script (Host Request ScriptError integerArgument)

/-- A command over a document. -/
inductive SheetCommand where
  | getcell
  | setcell
  | getvalue
  | clearcell
  | cursor
  | move
  | goto
  | flash
  | undo
  | redo
  | bind
  | press
deriving DecidableEq, Repr

namespace SheetCommand

/-- Every command with its name. -/
def all : List (String × SheetCommand) :=
  [("getcell", getcell), ("setcell", setcell), ("getvalue", getvalue), ("clearcell", clearcell),
    ("cursor", cursor), ("move", move), ("goto", goto), ("flash", flash), ("undo", undo),
    ("redo", redo), ("bind", bind), ("press", press)]

/-- How to call a command. -/
def usage : SheetCommand → String
  | getcell => "getcell ref"
  | setcell => "setcell ref text"
  | getvalue => "getvalue ref"
  | clearcell => "clearcell ref"
  | cursor => "cursor ?ref?"
  | move => "move dx dy"
  | goto => "goto ref"
  | flash => "flash text"
  | undo => "undo"
  | redo => "redo"
  | bind => "bind key script"
  | press => "press key"

/-- The name of the procedure that a key is bound to. -/
def bindingName (key : String) : String := "key:" ++ key

/-- A key is pressed that no script is bound to. -/
def noBinding (key : String) : ScriptError := .host s!"no binding for key \"{key}\""

/-- A document error as scripts see it. -/
def hostError (e : DocumentError) : ScriptError := .host e.message

/-- The cell that a word names. -/
def cellArgument (text : String) : Except ScriptError CellRef :=
  match CellRef.parse? text with
  | some ref => .ok ref
  | none => .error (hostError (.invalidCellRef text))

/-- Answers with what `use` makes of an argument, or fails over the document as it is. -/
def withArgument {α : Type} (doc : Document) (argument : Except ScriptError α)
    (use : α → Request Document) : Request Document :=
  match argument with
  | .ok a => use a
  | .error e => .answer doc (.error e)

/-- Answers with a text over a changed document, or fails over the document as it is. -/
def afterEdit (doc : Document) (edited : Except DocumentError Document) (answer : String) :
    Request Document :=
  match edited with
  | .ok doc => .answer doc (.ok answer)
  | .error e => .answer doc (.error (hostError e))

/-- Answers with a text after a change made in place, or fails over what the change left. -/
def afterTyping (answer : String) : Except DocumentError Unit × Document → Request Document
  | (.ok _, doc) => .answer doc (.ok answer)
  | (.error e, doc) => .answer doc (.error (hostError e))

/-- Answers with the value of a cell. Failing or not, what was computed on the way is kept. -/
def answerValue : Except DocumentError Float × Document → Request Document
  | (.ok value, doc) => .answer doc (.ok (Number.format .result value))
  | (.error e, doc) => .answer doc (.error (hostError e))

/-- Answers with the name of the cell under the cursor. -/
def answerCursor (doc : Document) : Request Document := .answer doc (.ok doc.cursor.name)

/-- What a command asks for. -/
def perform (command : SheetCommand) (args : List String) (doc : Document) : Request Document :=
  match command, args with
  | getcell, [ref] =>
    withArgument doc (cellArgument ref) fun ref => .answer doc (.ok (doc.cellText ref))
  | setcell, [ref, text] =>
    withArgument doc (cellArgument ref) fun ref => afterTyping text (doc.typeText ref text)
  | getvalue, [ref] =>
    withArgument doc (cellArgument ref) fun ref => answerValue (doc.numericValue ref)
  | clearcell, [ref] =>
    withArgument doc (cellArgument ref) fun ref => .answer (doc.clear ref) (.ok "")
  | cursor, [] => answerCursor doc
  | cursor, [ref] | goto, [ref] =>
    withArgument doc (cellArgument ref) fun ref => answerCursor (doc.setCursor ref)
  | move, [dcol, drow] =>
    withArgument doc (integerArgument dcol) fun dcol =>
      withArgument doc (integerArgument drow) fun drow => answerCursor (doc.moveCursor dcol drow)
  | flash, [message] => .answer (doc.setFlash message) (.ok "")
  | undo, [] => afterEdit doc doc.undo ""
  | redo, [] => afterEdit doc doc.redo ""
  | bind, [key, script] => .define (bindingName key) ⟨[], script⟩
  | press, [key] => .invoke (bindingName key) (noBinding key)
  | command, _ => .answer doc (.error (.wrongArguments command.usage))

end SheetCommand

instance : Host Document where
  Command := SheetCommand
  commands := SheetCommand.all
  perform := SheetCommand.perform

end SheetScript
