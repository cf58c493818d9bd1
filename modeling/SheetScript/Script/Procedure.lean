import SheetScript.Script.Error
import SheetScript.Script.WordList

/-!
# Procedures

A scripted procedure has named parameters and a body. If its last parameter is called `args`, it
takes any number of further arguments, as one list.

Besides scripted procedures there are the built-in ones and those of the host, the program around
the interpreter. A host command may answer at once, or ask the interpreter to define a procedure or
to run one.
-/

namespace SheetScript.Script

/-! ## Scripted procedures -/

/-- A procedure written as a script. -/
structure ScriptedProcedure where
  params : List String
  body : String
deriving DecidableEq, Repr

namespace ScriptedProcedure

/-- The name of the parameter that collects all further arguments. -/
def restName : String := "args"

/-- The last parameter collects all further arguments. -/
def isVariadic (p : ScriptedProcedure) : Bool := p.params.getLast? == some restName

/-- The parameters that take one argument each. -/
def fixedParams (p : ScriptedProcedure) : List String :=
  if p.isVariadic then p.params.dropLast else p.params

/-- How to call the procedure. -/
def usage (p : ScriptedProcedure) (name : String) : String :=
  " ".intercalate <| name :: p.params.map fun param =>
    if p.isVariadic && param == restName then "?arg ...?" else param

/-- The variables of a call: every parameter with its argument. -/
def bind (p : ScriptedProcedure) (name : String) (args : List String) :
    Except ScriptError (List (String × String)) :=
  let fixed := p.fixedParams
  if p.isVariadic then
    if args.length < fixed.length then .error (.wrongArguments (p.usage name))
    else .ok (fixed.zip args ++ [(restName, WordList.format (args.drop fixed.length))])
  else
    if args.length ≠ fixed.length then .error (.wrongArguments (p.usage name))
    else .ok (fixed.zip args)

end ScriptedProcedure

/-! ## Built-in procedures -/

/-- A procedure that every interpreter has. -/
inductive Builtin where
  | set
  | unset
  | incr
  | append
  | expr
  | if
  | while
  | for
  | foreach
  | break
  | continue
  | return
  | proc
  | eval
  | catch
  | error
  | list
  | llength
  | lindex
  | puts
  | info
deriving DecidableEq, Repr

namespace Builtin

/-- Every built-in procedure. -/
def all : List Builtin :=
  [set, unset, incr, append, expr, .if, .while, .for, foreach, .break, .continue, .return, proc,
    eval, .catch, error, list, llength, lindex, puts, info]

/-- The name of a built-in procedure. -/
def name : Builtin → String
  | set => "set"
  | unset => "unset"
  | incr => "incr"
  | append => "append"
  | expr => "expr"
  | .if => "if"
  | .while => "while"
  | .for => "for"
  | foreach => "foreach"
  | .break => "break"
  | .continue => "continue"
  | .return => "return"
  | proc => "proc"
  | eval => "eval"
  | .catch => "catch"
  | error => "error"
  | list => "list"
  | llength => "llength"
  | lindex => "lindex"
  | puts => "puts"
  | info => "info"

/-- How to call a built-in procedure. `list` takes any arguments. -/
def usage : Builtin → String
  | set => "set varName ?newValue?"
  | unset => "unset varName ?varName ...?"
  | incr => "incr varName ?increment?"
  | append => "append varName ?value ...?"
  | expr => "expr arg ?arg ...?"
  | .if => "if expr ?then? body ?elseif expr ?then? body ...? ?else? ?body?"
  | .while => "while test command"
  | .for => "for start test next command"
  | foreach => "foreach varName list command"
  | .break => "break"
  | .continue => "continue"
  | .return => "return ?value?"
  | proc => "proc name args body"
  | eval => "eval arg ?arg ...?"
  | .catch => "catch script ?varName?"
  | error => "error message"
  | list => ""
  | llength => "llength list"
  | lindex => "lindex list index"
  | puts => "puts string"
  | info => "info exists varName | info commands"

end Builtin

/-! ## Arguments -/

/-- The integer that an argument stands for, with blanks around it. -/
def integerArgument (text : String) : Except ScriptError Int :=
  match Number.readInteger? (Text.trim text.toList) with
  | some n => .ok n
  | none => .error (.misuse (.notAnInteger text))

/-! ## Host commands -/

/-- What a host command asks of the interpreter. -/
inductive Request (H : Type) where
  /-- To answer with a result or an error, over the host as it is now. -/
  | answer (host : H) (result : Except ScriptError String)
  /-- To define a procedure. -/
  | define (name : String) (procedure : ScriptedProcedure)
  /-- To run the procedure of the given name without arguments, or fail if there is none. -/
  | invoke (name : String) (missing : ScriptError)

/-- A host: what its commands are, and what each of them does. -/
class Host (H : Type) where
  /-- The commands of the host. -/
  Command : Type
  /-- Every command with its name. -/
  commands : List (String × Command)
  /-- What a command asks for, given its arguments. -/
  perform : Command → List String → H → Request H

/-- A procedure of any kind. -/
inductive Procedure (H : Type) [Host H] where
  | builtin (b : Builtin)
  | command (c : Host.Command H)
  | scripted (p : ScriptedProcedure)

end SheetScript.Script
