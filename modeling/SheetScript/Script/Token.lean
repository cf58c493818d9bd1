import SheetScript.Text.Alphanumeric

/-!
# Tokens of scripts

A script is a row of commands, separated by line ends and semicolons. A command is a row of words,
separated by spaces, and a word is made of tokens that follow each other without a separator, as in
`cell$column[expr 1 + 1]`. `Token` lists what these pieces are; `Words` puts them together.
-/

namespace SheetScript.Script

/-- What can be left open at the end of a script. -/
inductive Unclosed where
  | brace
  | bracket
  | quote
deriving DecidableEq, Repr

/-- The wording of an open end. -/
def Unclosed.message : Unclosed → String
  | brace => "missing close-brace"
  | bracket => "missing close-bracket"
  | quote => "missing close-quote"

/-- A token of a script. -/
inductive Token where
  /-- Line ends, semicolons and the spaces around them. -/
  | endOfLine (text : String)
  /-- The spaces between two words. -/
  | separator (text : String)
  /-- Text taken as it stands. -/
  | verbatim (text : String)
  /-- The name of a variable. -/
  | variable (name : String)
  /-- Text whose escapes are resolved. -/
  | literal (text : String)
  /-- The script of a nested command. -/
  | command (script : String)
  /-- The script ends too early. -/
  | malformed (what : Unclosed)
deriving DecidableEq, Repr

/-! ## Characters and escapes -/

/-- A character that separates words. -/
def isSpace (c : Char) : Bool := c == ' ' || c == '\t' || c == '\r'

/-- A character of a variable name. -/
def isNameChar (c : Char) : Bool := Text.isAlphanumeric c || c == '_' || c == ':'

/-- A character that separates commands or stands around such a one. -/
def isLineEnd (c : Char) : Bool := isSpace c || c == '\n' || c == ';'

/-- The character that a backslash before `c` stands for. -/
def unescapeChar : Char → Char
  | 'n' => '\n'
  | 't' => '\t'
  | 'r' => '\r'
  | '\n' => ' '
  | c => c

/-- A text with its escapes resolved; a backslash at the very end stands for itself. -/
def unescape (cs : List Char) : List Char := go cs []
where
  /-- Resolves the rest; `done` is the result so far, backwards. -/
  go : List Char → List Char → List Char
  | '\\' :: c :: rest, done => go rest (unescapeChar c :: done)
  | c :: rest, done => go rest (c :: done)
  | [], done => done.reverse

/-! ## Words -/

/-- Words put together from their pieces. -/
structure Words where
  /-- The words so far, the last one first. -/
  found : List String := []
  /-- Whether the next piece starts a new word. -/
  fresh : Bool := true

namespace Words

/-- Adds a piece to the last word, or as a new word. -/
def add (words : Words) (piece : String) : Words :=
  match words.fresh, words.found with
  | false, last :: rest => ⟨(last ++ piece) :: rest, false⟩
  | _, found => ⟨piece :: found, false⟩

/-- Ends the last word. -/
def close (words : Words) : Words := { words with fresh := true }

/-- The words in order. -/
def toList (words : Words) : List String := words.found.reverse

end Words

end SheetScript.Script
