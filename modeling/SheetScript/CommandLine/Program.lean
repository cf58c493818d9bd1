import SheetScript.CommandLine.Options
import SheetScript.Session.Basic

/-!
# The program

What the program prints and how it exits, as a function of its arguments, of the files it finds and
of its input.

A startup file is a script that runs before all others. If it cannot be read or fails, a warning is
all that comes of it. With a script on the command line the program runs it, prints its lines and
its result, and exits. Without one it runs its input line by line: a line that starts with `!`
presses the key named after it, any other is a command.
-/

namespace SheetScript.CommandLine

open Script (Interp Run ReturnCode)

/-- What a path leads to. -/
inductive FileStatus where
  | missing
  | directory
  | file (contents : ByteArray)

/-- What was printed so far. -/
structure Printed where
  stdout : String := ""
  stderr : String := ""
deriving DecidableEq, Repr

namespace Printed

/-- Adds a line to standard output. -/
def out (p : Printed) (line : String) : Printed := { p with stdout := p.stdout ++ line ++ "\n" }

/-- Adds a line to standard error. -/
def err (p : Printed) (line : String) : Printed := { p with stderr := p.stderr ++ line ++ "\n" }

end Printed

/-- The end of the program: its exit code and what it printed. -/
structure Report where
  exitCode : Nat
  printed : Printed
deriving DecidableEq, Repr

/-! ## Startup files -/

/-- The largest startup file, in bytes. -/
def maxStartupBytes : Nat := 1024 * 1024

/-- Where the startup file lies below the home directory. -/
def defaultStartupFile : String := ".config/tabula/tabularc"

/-- The wording for input that is no text. -/
def notUtf8 : String := "stream did not contain valid UTF-8"

/-- The text of a startup file, or why there is none. -/
def readStartup (path : String) : FileStatus → Except String String
  | .missing => .error s!"IO error reading {path}: No such file or directory (os error 2)"
  | .directory => .error s!"IO error reading {path}: Is a directory (os error 21)"
  | .file contents =>
    if maxStartupBytes < contents.size then
      let limit := s!"startup files are limited to {maxStartupBytes} bytes"
      .error s!"{path} is {contents.size} bytes; {limit}"
    else
      match String.fromUTF8? contents with
      | some text => .ok text
      | none => .error s!"IO error reading {path}: {notUtf8}"

/-- The path of the startup file that the options ask for. The default one counts only if it is a
file. -/
def startupPath? (options : Options) (home : String) (lookup : String → FileStatus) :
    Option String :=
  if options.noStartup then none
  else
    match options.startupFile with
    | some path => some path
    | none =>
      let path := home ++ "/" ++ defaultStartupFile
      match lookup path with
      | .file _ => some path
      | _ => none

/-- Runs the startup file at a path. -/
def loadStartup (path : String) (status : FileStatus) (session : Session) (printed : Printed) :
    Option (Session × Printed) :=
  match readStartup path status with
  | .error message => some (session, printed.err s!"Warning: {message}")
  | .ok text =>
    match Session.run text session with
    | some (.ok (.error e), session) =>
      some (session, printed.err s!"Warning: {path}: {e.message}")
    | some (_, session) => some (session, printed)
    | none => none

/-! ## Scripts and lines -/

/-- Prints the lines that scripts wrote, and takes them away. -/
def flushOutput (session : Session) (printed : Printed) : Session × Printed :=
  ({ session with output := #[] }, session.output.foldl Printed.out printed)

/-- Runs the script of the command line. -/
def runScript (script : String) (session : Session) (printed : Printed) : Option Report :=
  match Interp.evaluate script session with
  | none => none
  | some (code, session) =>
    let (session, printed) := flushOutput session printed
    match code with
    | .ok .ok | .ok .returned =>
      some ⟨0, if session.result.isEmpty then printed else printed.out session.result⟩
    | _ => some ⟨1, printed.err s!"Error: {session.result}"⟩

/-- Prints what a line left to be printed: the lines it wrote, the result of a command that went
well, and the message of the document. -/
def printLine (showResult : Bool) (session : Session) (printed : Printed) : Session × Printed :=
  let (session, printed) := flushOutput session printed
  let printed :=
    if showResult && !session.result.isEmpty then printed.out session.result else printed
  match session.host.flash with
  | some message => ({ session with host := session.host.clearFlash }, printed.err message)
  | none => (session, printed)

/-- Runs one line of input, without the blanks at its end. -/
def runLine (line : List Char) (session : Session) (printed : Printed) :
    Option (Session × Printed) :=
  match line with
  | [] => some (session, printed)
  | '!' :: key =>
    match Session.press (String.ofList (Text.trim key)) session with
    | some (_, session) => some (printLine false session printed)
    | none => none
  | line =>
    match Session.command (String.ofList line) session with
    | some (code, session) => some (printLine (code matches .ok .ok) session printed)
    | none => none

/-- Runs the lines of the input, up to the first that is no text. -/
def runLines (session : Session) (printed : Printed) : List ByteArray → Option Report
  | [] => some ⟨0, printed⟩
  | line :: rest =>
    match String.fromUTF8? line with
    | none => some ⟨1, printed.err s!"Error: failed to read command: {notUtf8}"⟩
    | some text =>
      match runLine (Text.trimEnd text.toList) session printed with
      | some (session, printed) => runLines session printed rest
      | none => none

/-- The lines of an input, without their line ends; no line follows the last line end. -/
def splitLines (input : ByteArray) : List ByteArray := go input.toList [] []
where
  /-- Splits the rest, after the bytes of a `line` begun and the lines `found`, both backwards. -/
  go : List UInt8 → List UInt8 → List ByteArray → List ByteArray
  | [], [], found => found.reverse
  | [], line, found => (⟨line.reverse.toArray⟩ :: found).reverse
  | byte :: rest, line, found =>
    if byte = 10 then go rest [] (⟨line.reverse.toArray⟩ :: found)
    else go rest (byte :: line) found

/-- Runs a session: the startup file, then the script or the input. -/
def runSession (options : Options) (startup : Option (String × FileStatus)) (input : ByteArray) :
    Option Report := do
  let session := Session.ofDocument .empty
  let (session, printed) ←
    match startup with
    | some (path, status) => loadStartup path status session {}
    | none => some (session, {})
  match options.script with
  | some script => runScript script session printed
  | none => runLines session printed (splitLines input)

/-- The report of the program; nothing if a script does not end. -/
def program (args : List String) (home : String) (lookup : String → FileStatus)
    (input : ByteArray) : Option Report :=
  match parse args with
  | .help => some ⟨0, { stderr := usageText }⟩
  | .refused why => some ⟨1, { stderr := why.message }⟩
  | .run options =>
    let startup := (startupPath? options home lookup).map fun path => (path, lookup path)
    runSession options startup input

end SheetScript.CommandLine
