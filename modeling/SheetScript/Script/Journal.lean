import SheetScript.Script.Evaluate

/-!
# Journals

The simplest host: a list of lines, with one command that writes to it. It serves to run scripts
outside a spreadsheet, with all built-in procedures (`Interp.ofHost`) or with none of them
(`journaling`), where calling the command with some words is all that a script can do.
-/

namespace SheetScript.Script

/-- A host that remembers what scripts tell it. -/
structure Journal where
  /-- The lines written since they were last taken away. -/
  lines : List String := []
deriving DecidableEq, Repr

/-- The only command: adds its arguments to the journal and answers how many they are. -/
inductive JournalCommand where
  | log
deriving DecidableEq, Repr

instance : Host Journal where
  Command := JournalCommand
  commands := [("log", .log)]
  perform
    | .log, args, journal => .answer ⟨journal.lines ++ args⟩ (.ok (toString args.length))

/-- An interpreter over an empty journal that knows no procedure but the command. -/
def journaling : Interp Journal :=
  { procedures := Registry.empty.insert "log" (.command JournalCommand.log), host := {} }

theorem journaling_get? : journaling.procedures.get? "log" = some (.command JournalCommand.log) :=
  rfl

end SheetScript.Script
