import SheetScript.Script.Scan
import SheetScript.Text.Blank

/-!
# Lists as text

A list value is a text: its elements as words. `parse` splits the text into words, without
comments and without any substitution. `format` joins elements so that `parse` splits them again:
a plain element stands by itself, one with special characters stands in braces, and one whose
braces would not match has each special character behind a backslash.
-/

namespace SheetScript.Script.WordList

/-! ## Reading -/

/-- The text of a token inside a word: variables and commands stand for their own text. A separator
has none. -/
def pieceOf : Token → Option String
  | .endOfLine _ | .separator _ | .malformed _ => none
  | .variable name => some ("$" ++ name)
  | .command script => some ("[" ++ script ++ "]")
  | .verbatim text | .literal text => some text

/-- Adds a token to the words before it. -/
def step (words : Words) (token : Token) : Except Unclosed Words :=
  match token, pieceOf token with
  | .malformed what, _ => .error what
  | _, some piece => .ok (words.add piece)
  | _, none => .ok words.close

/-- The elements of a list. -/
def parse (text : String) : Except Unclosed (List String) := do
  return (← (scan false text).foldlM step {}).toList

/-! ## Writing -/

/-- A character that would end a word, or change its meaning. -/
def isSpecial (c : Char) : Bool :=
  Text.isBlank c || c == ';' || c == '"' || c == '$' || c == '[' || c == ']' || c == '{'
    || c == '}' || c == '\\'

/-- The element cannot stand by itself. -/
def needsQuoting (cs : List Char) : Bool :=
  cs.isEmpty || cs.head? == some '#' || cs.any isSpecial

/-- The element can stand in braces: inside `depth` open ones all its braces match, and it has no
backslash. -/
def fitsBraces (depth : Nat) : List Char → Bool
  | [] => depth == 0
  | '{' :: rest => fitsBraces (depth + 1) rest
  | '}' :: rest =>
    match depth with
    | 0 => false
    | depth + 1 => fitsBraces depth rest
  | '\\' :: _ => false
  | _ :: rest => fitsBraces depth rest

/-- A character that stands for itself outside braces. -/
def escape (c : Char) : List Char :=
  if c = '\n' then ['\\', 'n']
  else if c = '\t' then ['\\', 't']
  else if isSpecial c || c == '#' then ['\\', c]
  else [c]

/-- An element as a word. -/
def formatElement (cs : List Char) : List Char :=
  if !needsQuoting cs then cs
  else if fitsBraces 0 cs then '{' :: (cs ++ ['}'])
  else cs.flatMap escape

/-- The text of a list. -/
def format (elements : List String) : String :=
  " ".intercalate (elements.map fun e => String.ofList (formatElement e.toList))

end SheetScript.Script.WordList
