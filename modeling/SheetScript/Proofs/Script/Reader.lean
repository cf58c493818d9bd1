import Mathlib
import SheetScript.Proofs.Text.Slice
import SheetScript.Script.Scan

/-!
# Reading scripts by byte positions

A `Reader` keeps a byte position in a script and gives one token after the other (`Reader.next`). It
finds the same tokens as `scan`, but by other means: it cuts the script at computed positions, looks
for a closing brace or bracket byte by byte, and counts what is open.

All of this can go wrong. A position can be beyond the text or inside a character, a counter can go
below zero, and a turn can leave the position where it is, so that the reader never comes back with
a token. Each of these is a `Fault`, and the first one ends the reading.
-/

namespace SheetScript.Script

open Text (Fault slice sliceFrom bytes)
open String (utf8Len)

/-! ## Counting what is open -/

/-- One less, unless there is none. -/
def decrement (n : Nat) : Except Fault Nat := if n = 0 then .error .belowZero else .ok (n - 1)

/-- What is still open, if anything. -/
def stillOpen : Nat → Option Nat
  | 0 => none
  | n + 1 => some (n + 1)

/-- The open braces behind a byte, or nothing behind the brace that closes the last one. -/
def countBrace (depth : Nat) (b : UInt8) : Except Fault (Option Nat) :=
  if b = '{'.toUInt8 then .ok (some (depth + 1))
  else if b = '}'.toUInt8 then stillOpen <$> decrement depth
  else .ok (some depth)

/-- The open brackets, and the open braces inside them. -/
structure Brackets where
  brackets : Nat
  braces : Nat

/-- The open brackets behind a byte, or nothing behind the bracket that closes the last one.
Brackets inside braces do not count, and a brace too many closes nothing. -/
def countBracket (state : Brackets) (b : UInt8) : Except Fault (Option Brackets) :=
  if b = '{'.toUInt8 then .ok (some { state with braces := state.braces + 1 })
  else if b = '}'.toUInt8 then .ok (some { state with braces := state.braces - 1 })
  else if b = '['.toUInt8 ∧ state.braces = 0 then
    .ok (some { state with brackets := state.brackets + 1 })
  else if b = ']'.toUInt8 ∧ state.braces = 0 then
    return (stillOpen (← decrement state.brackets)).map fun brackets => { state with brackets }
  else .ok (some state)

/-- The position of the byte behind which the count has nothing left; `i` is the position of the
first byte. A backslash takes one byte with it that does not count. -/
def findEnd {σ : Type} (count : σ → UInt8 → Except Fault (Option σ)) (state : σ) (i : Nat) :
    List UInt8 → Except Fault (Option Nat)
  | [] => .ok none
  | b :: rest =>
    if b = '\\'.toUInt8 then findEnd count state (i + 2) (rest.drop 1)
    else do
      match ← count state b with
      | none => return some i
      | some state => findEnd count state (i + 1) rest
termination_by bytes => bytes.length

/-! ## Sizes of pieces -/

/-- The bytes of a word without quotes, up to a separator, a nested command or a variable. -/
def bareSize : List Char → Nat
  | '\\' :: '\n' :: _ => 0
  | '\\' :: c :: rest => '\\'.utf8Size + c.utf8Size + bareSize rest
  | c :: rest =>
    if isSpace c || c == '\n' || c == ';' || c == '[' || c == '$' then 0
    else c.utf8Size + bareSize rest
  | [] => 0

/-- The bytes of a quoted word, up to the closing quote, a nested command or a variable. -/
def quotedSize : List Char → Nat
  | '\\' :: c :: rest => '\\'.utf8Size + c.utf8Size + quotedSize rest
  | c :: rest => if c == '"' || c == '[' || c == '$' then 0 else c.utf8Size + quotedSize rest
  | [] => 0

/-! ## One turn -/

/-- A place in a script, with its byte position. -/
structure Reader where
  place : Place := .commandStart
  pos : Nat := 0

/-- What one turn of a reader finds. -/
inductive Turn where
  /-- The end of the script. -/
  | finished
  /-- No token yet. -/
  | again (next : Reader)
  /-- A token. -/
  | emit (token : Token) (next : Reader)

namespace Reader

/-- The end of the script inside a brace, bracket or quote. Nothing is read behind it. -/
def unclosed (text : String) (what : Unclosed) : Turn :=
  .emit (.malformed what) ⟨.inWord, text.utf8ByteSize⟩

/-- A text that starts with an opening brace or bracket, up to the one that closes it. -/
def enclosed {σ : Type} (count : σ → UInt8 → Except Fault (Option σ)) (none : σ)
    (token : String → Token) (what : Unclosed) (after : Place) (text : String) (pos : Nat) :
    Except Fault Turn := do
  let rest ← sliceFrom text pos
  match ← findEnd count none 0 (bytes rest) with
  | some i => return .emit (token (← slice rest 1 i)) ⟨after, pos + i + 1⟩
  | _ => return unclosed text what

/-- A text in braces. -/
def braced : String → Nat → Except Fault Turn := enclosed countBrace 0 .verbatim .brace .inWord

/-- A nested command. -/
def command (after : Place) : String → Nat → Except Fault Turn :=
  enclosed countBracket ⟨0, 0⟩ .command .bracket after

/-- A variable, or a dollar sign by itself. -/
def dollar (after : Place) (text : String) (pos : Nat) : Except Fault Turn := do
  let rest ← sliceFrom text pos
  let behind ← sliceFrom rest 1
  let size := utf8Len (behind.toList.takeWhile isNameChar)
  if size = 0 then return .emit (.verbatim "$") ⟨after, pos + 1 + size⟩
  else return .emit (.variable (← slice behind 0 size)) ⟨after, pos + 1 + size⟩

/-- The bytes of the space or hidden line end that a text starts with. -/
def spaceSize : List Char → Nat
  | '\\' :: '\n' :: _ => 2
  | c :: _ => if isSpace c then 1 else 0
  | [] => 0

/-- The position at which the spaces from a position on end. -/
def separatorEnd (text : String) (pos : Nat) : Except Fault Nat := do
  match spaceSize (← sliceFrom text pos).toList with
  | 0 => return pos
  | size + 1 =>
    if pos + (size + 1) ≤ text.utf8ByteSize then separatorEnd text (pos + (size + 1))
    else .error .noProgress
termination_by text.utf8ByteSize - pos

/-- The spaces between two words. -/
def separator (place : Place) (text : String) (pos : Nat) : Except Fault Turn := do
  let stop ← separatorEnd text pos
  let after := if place = .commandStart then .commandStart else .wordStart
  return .emit (.separator (← slice text pos stop)) ⟨after, stop⟩

/-- The end of a command. -/
def endOfLine (text : String) (pos : Nat) : Except Fault Turn := do
  let rest ← sliceFrom text pos
  let size := utf8Len (rest.toList.takeWhile isLineEnd)
  return .emit (.endOfLine (← slice rest 0 size)) ⟨.commandStart, pos + size⟩

/-- A piece of a word whose escapes are resolved. -/
def literal (size : List Char → Nat) (after : Place) (text : String) (pos : Nat) :
    Except Fault Turn := do
  let rest ← sliceFrom text pos
  let piece ← slice rest 0 (size rest.toList)
  return .emit (.literal (String.ofList (unescape piece.toList))) ⟨after, pos + size rest.toList⟩

/-- A turn inside quotes, of which the word had a token before or not. -/
def quotedTurn (started : Bool) (text : String) (pos : Nat) : Except Fault Turn := do
  match (← sliceFrom text pos).toList with
  | [] => return unclosed text .quote
  | c :: _ =>
    if c = '"' then
      return if started then .again ⟨.inWord, pos + 1⟩ else .emit (.literal "") ⟨.inWord, pos + 1⟩
    else if c = '[' then command (.quoted true) text pos
    else if c = '$' then dollar (.quoted true) text pos
    else literal quotedSize (.quoted true) text pos

/-- A turn outside quotes. -/
def plainTurn (comments : Bool) (place : Place) (text : String) (pos : Nat) :
    Except Fault Turn := do
  match (← sliceFrom text pos).toList with
  | [] => return .finished
  | c :: rest =>
    if isSpace c || isContinuation c rest then separator place text pos
    else if c = '\n' ∨ c = ';' then endOfLine text pos
    else if c = '#' ∧ comments ∧ place = .commandStart then
      return .again ⟨.commandStart, pos + utf8Len ((c :: rest).takeWhile (· != '\n'))⟩
    else if c = '{' ∧ place ≠ .inWord then braced text pos
    else if c = '"' ∧ place ≠ .inWord then return .again ⟨.quoted false, pos + 1⟩
    else if c = '[' then command .inWord text pos
    else if c = '$' then dollar .inWord text pos
    else literal bareSize .inWord text pos

/-- One turn of a reader. -/
def turn (comments : Bool) (text : String) (r : Reader) : Except Fault Turn :=
  match r.place with
  | .quoted started => quotedTurn started text r.pos
  | place => plainTurn comments place text r.pos

/-! ## Token by token -/

/-- The next token, or nothing at the end of the script. Turns that find no token yet have to go
on in the script. -/
def next (comments : Bool) (text : String) (r : Reader) :
    Except Fault (Option (Token × Reader)) :=
  match r.turn comments text with
  | .error fault => .error fault
  | .ok .finished => .ok none
  | .ok (.emit token after) => .ok (some (token, after))
  | .ok (.again after) =>
    if r.pos < after.pos ∧ after.pos ≤ text.utf8ByteSize then after.next comments text
    else .error .noProgress
termination_by text.utf8ByteSize - r.pos

/-- The tokens up to the end of the script, and what is open there, if anything. There may be no
more than the given number of calls. -/
def drain (comments : Bool) (text : String) (r : Reader) :
    (calls : Nat) → Except Fault (List Token × Option Unclosed)
  | 0 => .error .unfinished
  | calls + 1 => do
    match ← r.next comments text with
    | none => return ([], none)
    | some (.malformed what, _) => return ([], some what)
    | some (token, after) =>
      let (tokens, ending) ← after.drain comments text calls
      return (token :: tokens, ending)

end Reader

end SheetScript.Script
