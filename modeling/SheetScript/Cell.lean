import SheetScript.Formula.Infix
import SheetScript.Formula.Render
import SheetScript.Text.Blank

/-!
# Cells

What is typed into a cell decides what the cell holds. Blanks at both ends never count. An equals
sign starts a formula, quotes around a text keep it a text, a text that reads as a number is one,
and anything else is text as it stands.

A formula is parsed once, when it is typed. A formula that does not parse keeps its text; its
postfix sequence is empty.
-/

namespace SheetScript

open Formula (Node)

/-- What a cell holds. -/
inductive Content where
  | empty
  | text (text : String)
  | number (value : Float)
  /-- The text of a formula without the equals sign. -/
  | formula (source : String)

namespace Content

/-- The content that a typed text stands for. -/
def ofInput (input : String) : Content :=
  match Text.trim input.toList with
  | [] => empty
  | '=' :: source => formula (String.ofList source)
  | '"' :: rest =>
    if rest.getLast? = some '"' then text (String.ofList rest.dropLast)
    else text (String.ofList ('"' :: rest))
  | cs =>
    match Number.read? cs with
    | some value => number value
    | none => text (String.ofList cs)

/-- The content as it would be typed in again. -/
def toInput : Content → String
  | empty => ""
  | text s => s
  | number value => Number.format .plain value
  | formula source => "=" ++ source

/-- The content is a formula, whether or not it parses. -/
def isFormula : Content → Bool
  | formula _ => true
  | _ => false

/-- The content is nothing at all. -/
def isEmpty : Content → Bool
  | empty => true
  | _ => false

end Content

/-- A cell: its content, its parsed formula and the cells that the formula reads. -/
structure Cell where
  content : Content
  /-- The formula in postfix order; empty without a formula that parses. -/
  nodes : List Node := []
  /-- The cells that the formula reads. -/
  precedents : List CellRef := []

namespace Cell

/-- The postfix order of a formula, empty if it does not parse. -/
def parseOrEmpty (source : String) : List Node :=
  match Formula.parse source with
  | .ok nodes => nodes
  | .error _ => []

/-- The cell with the given content. -/
def ofContent : Content → Cell
  | .formula source =>
    let nodes := parseOrEmpty source
    ⟨.formula source, nodes, Formula.precedents nodes⟩
  | content => { content }

/-- The cell that a typed text makes. -/
def ofInput (input : String) : Cell := ofContent (Content.ofInput input)

@[simp] theorem content_ofContent (content : Content) : (ofContent content).content = content := by
  cases content <;> rfl

end Cell

end SheetScript
