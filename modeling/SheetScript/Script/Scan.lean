import SheetScript.Script.Piece

/-!
# Scanning scripts

`scan` gives the tokens of a script in order.

* `{...}` at the start of a word is taken as it stands, without the outer braces. Braces inside are
  balanced; a backslash keeps the next character from counting.
* `"..."` at the start of a word may hold variables and commands, and resolves escapes.
* `[...]` is a nested command. Brackets inside braces do not count.
* `$name` is a variable; a dollar sign without a name stands for itself.
* `#` at the start of a command hides the rest of the line, unless comments are off.
* A backslash before a line end separates words.

The end of the list is the end of the text, unless the last token is `malformed`: then a brace,
bracket or quote was left open, and nothing after it is read. Every step takes at least one
character (`step_shorter`), so scanning ends.
-/

namespace SheetScript.Script

/-- Where in a script the next character stands. -/
inductive Place where
  | commandStart
  | wordStart
  | inWord
  /-- Inside quotes, before or after the first token of the word. -/
  | quoted (started : Bool)
deriving DecidableEq, Repr

/-- What one step of scanning finds. -/
inductive Step where
  /-- The end of the text. -/
  | finished
  /-- The end of the text inside a brace, bracket or quote. -/
  | unclosed (what : Unclosed)
  /-- Characters that make no token. -/
  | skip (place : Place) (rest : List Char)
  /-- A token. -/
  | emit (token : Token) (place : Place) (rest : List Char)

namespace Step

/-- A nested command; `rest` starts after its opening bracket. -/
def command (after : Place) (rest : List Char) : Step :=
  match takeBracketed 0 0 [] rest with
  | some (script, rest) => emit (.command (String.ofList script)) after rest
  | none => unclosed .bracket

/-- A text in braces; `rest` starts after its opening brace. -/
def braced (rest : List Char) : Step :=
  match takeBraced 0 [] rest with
  | some (text, rest) => emit (.verbatim (String.ofList text)) .inWord rest
  | none => unclosed .brace

/-- A variable; `rest` starts after the dollar sign. -/
def dollar (after : Place) (rest : List Char) : Step :=
  match rest.takeWhile isNameChar with
  | [] => emit (.verbatim "$") after rest
  | name => emit (.variable (String.ofList name)) after (rest.dropWhile isNameChar)

/-- The spaces between two words. They do not end the start of a command. -/
def separator (place : Place) (cs : List Char) : Step :=
  let (text, rest) := takeSeparator [] cs
  let after := if place = .commandStart then .commandStart else .wordStart
  emit (.separator (String.ofList text)) after rest

/-- The end of a command. -/
def endOfLine (cs : List Char) : Step :=
  emit (.endOfLine (String.ofList (cs.takeWhile isLineEnd))) .commandStart (cs.dropWhile isLineEnd)

/-- A piece of a word without quotes. -/
def bare (cs : List Char) : Step :=
  let (text, rest) := takeBare [] cs
  emit (.literal (String.ofList (unescape text))) .inWord rest

/-- A piece of a quoted word. -/
def quoted (cs : List Char) : Step :=
  let (text, rest) := takeQuoted [] cs
  emit (.literal (String.ofList (unescape text))) (.quoted true) rest

/-- If the scan goes on, it does with fewer than `size` characters. -/
def Shorter (size : Nat) : Step → Prop
  | skip _ rest | emit _ _ rest => rest.length < size
  | _ => True

end Step

/-- The step inside quotes, of which the word had a token before or not. -/
def quotedStep (started : Bool) : List Char → Step
  | [] => .unclosed .quote
  | c :: rest =>
    if c = '"' then
      if started then .skip .inWord rest else .emit (.literal "") .inWord rest
    else if c = '[' then .command (.quoted true) rest
    else if c = '$' then .dollar (.quoted true) rest
    else .quoted (c :: rest)

/-- A backslash before a line end stands here. -/
def isContinuation (c : Char) (rest : List Char) : Bool := c == '\\' && rest.head? == some '\n'

/-- The step outside quotes. -/
def plainStep (comments : Bool) (place : Place) : List Char → Step
  | [] => .finished
  | c :: rest =>
    if isSpace c || isContinuation c rest then .separator place (c :: rest)
    else if c = '\n' ∨ c = ';' then .endOfLine (c :: rest)
    else if c = '#' ∧ comments ∧ place = .commandStart then
      .skip .commandStart (rest.dropWhile (· != '\n'))
    else if c = '{' ∧ place ≠ .inWord then .braced rest
    else if c = '"' ∧ place ≠ .inWord then .skip (.quoted false) rest
    else if c = '[' then .command .inWord rest
    else if c = '$' then .dollar .inWord rest
    else .bare (c :: rest)

/-- The step at the start of a text. -/
def step (comments : Bool) (place : Place) (cs : List Char) : Step :=
  match place with
  | .quoted started => quotedStep started cs
  | place => plainStep comments place cs

/-! ## Every step takes a character -/

namespace Step

theorem shorter_command (after : Place) (c : Char) (rest : List Char) :
    (command after rest).Shorter (c :: rest).length := by
  unfold command
  split
  next h => exact Nat.lt_succ_of_lt (length_of_takeBracketed h)
  next => trivial

theorem shorter_braced (c : Char) (rest : List Char) :
    (braced rest).Shorter (c :: rest).length := by
  unfold braced
  split
  next h => exact Nat.lt_succ_of_lt (length_of_takeBraced h)
  next => trivial

theorem shorter_dollar (after : Place) (c : Char) (rest : List Char) :
    (dollar after rest).Shorter (c :: rest).length := by
  unfold dollar
  split
  · exact Nat.lt_succ_self _
  · exact Nat.lt_succ_of_le (List.dropWhile_suffix _).length_le

theorem shorter_separator (place : Place) {c : Char} {rest : List Char}
    (h : (isSpace c || isContinuation c rest) = true) :
    (separator place (c :: rest)).Shorter (c :: rest).length := by
  simp only [separator, Shorter]
  unfold takeSeparator
  split
  next tail hcs =>
    cases hcs
    have := length_takeSeparator ['\n', '\\'] tail
    simp only [List.length_cons]
    omega
  next c' rest' hne hcs =>
    cases hcs
    have hspace : isSpace c = true := by
      cases hs : isSpace c with
      | true => rfl
      | false =>
        simp only [hs, Bool.false_or, isContinuation, Bool.and_eq_true, beq_iff_eq] at h
        obtain ⟨rfl, h⟩ := h
        cases rest with
        | nil => simp at h
        | cons d tail =>
          simp only [List.head?_cons, Option.some.injEq] at h
          exact absurd rfl (h ▸ hne tail rfl)
    rw [if_pos hspace]
    exact Nat.lt_succ_of_le (length_takeSeparator _ _)
  next hcs => cases hcs

theorem shorter_endOfLine {c : Char} {rest : List Char} (h : isLineEnd c = true) :
    (endOfLine (c :: rest)).Shorter (c :: rest).length := by
  simp only [endOfLine, Shorter, List.dropWhile_cons, h, if_true]
  exact Nat.lt_succ_of_le (List.dropWhile_suffix _).length_le

theorem shorter_bare {c : Char} {rest : List Char}
    (h : (isSpace c || c == '\n' || c == ';' || c == '[' || c == '$') = false)
    (hc : isContinuation c rest = false) : (bare (c :: rest)).Shorter (c :: rest).length := by
  simp only [bare, Shorter]
  unfold takeBare
  split
  next tail hcs => cases hcs; simp [isContinuation] at hc
  next d tail _ hcs =>
    cases hcs
    have := length_takeBare [d, '\\'] tail
    simp only [List.length_cons]
    omega
  next c' rest' _ _ hcs =>
    cases hcs
    rw [h]
    exact Nat.lt_succ_of_le (length_takeBare _ _)
  next hcs => cases hcs

theorem shorter_quoted {c : Char} {rest : List Char}
    (h : (c == '"' || c == '[' || c == '$') = false) :
    (quoted (c :: rest)).Shorter (c :: rest).length := by
  simp only [quoted, Shorter]
  unfold takeQuoted
  split
  next d tail hcs =>
    cases hcs
    have := length_takeQuoted [d, '\\'] tail
    simp only [List.length_cons]
    omega
  next c' rest' _ hcs =>
    cases hcs
    rw [h]
    exact Nat.lt_succ_of_le (length_takeQuoted _ _)
  next hcs => cases hcs

end Step

theorem quotedStep_shorter (started : Bool) (cs : List Char) :
    (quotedStep started cs).Shorter cs.length := by
  cases cs with
  | nil => trivial
  | cons c rest =>
    simp only [quotedStep]
    split
    next => split <;> exact Nat.lt_succ_self _
    next hq =>
      split
      next => exact Step.shorter_command _ c rest
      next hb =>
        split
        next => exact Step.shorter_dollar _ c rest
        next hd => exact Step.shorter_quoted (by simp [hq, hb, hd])

theorem plainStep_shorter (comments : Bool) (place : Place) (cs : List Char) :
    (plainStep comments place cs).Shorter cs.length := by
  cases cs with
  | nil => trivial
  | cons c rest =>
    simp only [plainStep]
    split
    next hs => exact Step.shorter_separator place hs
    next hs =>
    split
    next he => exact Step.shorter_endOfLine (by rcases he with rfl | rfl <;> rfl)
    next he =>
    split
    next => exact Nat.lt_succ_of_le (List.dropWhile_suffix _).length_le
    split
    next => exact Step.shorter_braced c rest
    split
    next => exact Nat.lt_succ_self _
    split
    next => exact Step.shorter_command _ c rest
    next hb =>
    split
    next => exact Step.shorter_dollar _ c rest
    next hd =>
    rw [Bool.not_eq_true, Bool.or_eq_false_iff] at hs
    rw [not_or] at he
    exact Step.shorter_bare (by simp [hs.1, he.1, he.2, hb, hd]) hs.2

/-- Every step that goes on takes at least one character. -/
theorem step_shorter (comments : Bool) (place : Place) (cs : List Char) :
    (step comments place cs).Shorter cs.length := by
  unfold step
  split
  · exact quotedStep_shorter _ _
  · exact plainStep_shorter _ _ _

theorem length_of_step_eq_skip {comments : Bool} {place place' : Place} {cs rest : List Char}
    (h : step comments place cs = .skip place' rest) : rest.length < cs.length := by
  simpa [h, Step.Shorter] using step_shorter comments place cs

theorem length_of_step_eq_emit {comments : Bool} {token : Token} {place place' : Place}
    {cs rest : List Char} (h : step comments place cs = .emit token place' rest) :
    rest.length < cs.length := by
  simpa [h, Step.Shorter] using step_shorter comments place cs

/-! ## Scanning -/

/-- The tokens of a text that starts at the given place; `found` are the tokens before, the last
one first. -/
def scanFrom (comments : Bool) (place : Place) (cs : List Char) (found : List Token) :
    List Token :=
  match _h : step comments place cs with
  | .finished => found.reverse
  | .unclosed what => (.malformed what :: found).reverse
  | .skip place rest => scanFrom comments place rest found
  | .emit token place rest => scanFrom comments place rest (token :: found)
termination_by cs.length
decreasing_by
  · exact length_of_step_eq_skip _h
  · exact length_of_step_eq_emit _h

/-- The tokens of a script, where `#` starts a comment only with `comments`. -/
def scan (comments : Bool) (text : String) : List Token :=
  scanFrom comments .commandStart text.toList []

end SheetScript.Script
