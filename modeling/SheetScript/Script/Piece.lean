import SheetScript.Script.Token

/-!
# Pieces of scripts

Each function here takes what belongs to one token from the start of a text and returns it with the
rest of the text. The characters taken so far are passed along backwards. What is returned as the
rest is never longer than the text; with a closing brace or bracket taken off it is shorter.
-/

namespace SheetScript.Script

/-- The text up to the brace that closes `depth + 1` open ones. -/
def takeBraced (depth : Nat) (taken : List Char) : List Char → Option (List Char × List Char)
  | [] => none
  | '\\' :: c :: rest => takeBraced depth (c :: '\\' :: taken) rest
  | '{' :: rest => takeBraced (depth + 1) ('{' :: taken) rest
  | '}' :: rest =>
    match depth with
    | 0 => some (taken.reverse, rest)
    | depth + 1 => takeBraced depth ('}' :: taken) rest
  | c :: rest => takeBraced depth (c :: taken) rest

/-- The text up to the bracket that closes `depth + 1` open ones, inside `braces` open braces. -/
def takeBracketed (depth braces : Nat) (taken : List Char) :
    List Char → Option (List Char × List Char)
  | [] => none
  | '\\' :: c :: rest => takeBracketed depth braces (c :: '\\' :: taken) rest
  | '{' :: rest => takeBracketed depth (braces + 1) ('{' :: taken) rest
  | '}' :: rest => takeBracketed depth (braces - 1) ('}' :: taken) rest
  | '[' :: rest =>
    takeBracketed (if braces = 0 then depth + 1 else depth) braces ('[' :: taken) rest
  | ']' :: rest =>
    match braces, depth with
    | 0, 0 => some (taken.reverse, rest)
    | 0, depth + 1 => takeBracketed depth 0 (']' :: taken) rest
    | braces, depth => takeBracketed depth braces (']' :: taken) rest
  | c :: rest => takeBracketed depth braces (c :: taken) rest

/-- The spaces at the start of a text, backslashes before line ends among them. -/
def takeSeparator (taken : List Char) : List Char → List Char × List Char
  | '\\' :: '\n' :: rest => takeSeparator ('\n' :: '\\' :: taken) rest
  | c :: rest => if isSpace c then takeSeparator (c :: taken) rest else (taken.reverse, c :: rest)
  | [] => (taken.reverse, [])

/-- The text of a word without quotes, up to a separator, a nested command or a variable. -/
def takeBare (taken : List Char) : List Char → List Char × List Char
  | '\\' :: '\n' :: rest => (taken.reverse, '\\' :: '\n' :: rest)
  | '\\' :: c :: rest => takeBare (c :: '\\' :: taken) rest
  | c :: rest =>
    if isSpace c || c == '\n' || c == ';' || c == '[' || c == '$' then (taken.reverse, c :: rest)
    else takeBare (c :: taken) rest
  | [] => (taken.reverse, [])

/-- The text of a quoted word, up to the closing quote, a nested command or a variable. -/
def takeQuoted (taken : List Char) : List Char → List Char × List Char
  | '\\' :: c :: rest => takeQuoted (c :: '\\' :: taken) rest
  | c :: rest =>
    if c == '"' || c == '[' || c == '$' then (taken.reverse, c :: rest)
    else takeQuoted (c :: taken) rest
  | [] => (taken.reverse, [])

/-! ## The rest gets no longer -/

theorem length_of_takeBraced {depth : Nat} {taken cs text rest : List Char}
    (h : takeBraced depth taken cs = some (text, rest)) : rest.length < cs.length := by
  fun_induction takeBraced depth taken cs <;> simp_all <;> omega

theorem length_of_takeBracketed {depth braces : Nat} {taken cs text rest : List Char}
    (h : takeBracketed depth braces taken cs = some (text, rest)) : rest.length < cs.length := by
  fun_induction takeBracketed depth braces taken cs <;> simp_all <;> omega

theorem length_takeSeparator (taken cs : List Char) :
    (takeSeparator taken cs).2.length ≤ cs.length := by
  fun_induction takeSeparator taken cs <;> simp_all <;> omega

theorem length_takeBare (taken cs : List Char) : (takeBare taken cs).2.length ≤ cs.length := by
  fun_induction takeBare taken cs <;> simp_all <;> omega

theorem length_takeQuoted (taken cs : List Char) :
    (takeQuoted taken cs).2.length ≤ cs.length := by
  fun_induction takeQuoted taken cs <;> simp_all <;> omega

end SheetScript.Script
