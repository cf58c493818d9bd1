/-!
# Command lines

How the program was called: with a script to run or with commands on standard input, and with which
startup file. The first argument that asks for help, or that makes no sense, settles the matter.
-/

namespace SheetScript.CommandLine

/-- The options of a call. -/
structure Options where
  /-- The script to run, if commands do not come from standard input. -/
  script : Option String := none
  /-- The startup file to read in place of the default one. -/
  startupFile : Option String := none
  /-- Whether to read no startup file at all. -/
  noStartup : Bool := false
deriving DecidableEq, Repr

/-- A command line that makes no sense. -/
inductive Refusal where
  | missingScript
  | missingFile
  | unknownOption (argument : String)
deriving DecidableEq, Repr

/-- What a command line asks for. -/
inductive Invocation where
  | help
  | run (options : Options)
  | refused (why : Refusal)
deriving DecidableEq, Repr

/-- Reads the arguments after the name of the program, given the options so far. -/
def parseFrom (options : Options) : List String → Invocation
  | [] => .run options
  | arg :: rest =>
    if arg = "-h" ∨ arg = "--help" then .help
    else if arg = "-c" ∨ arg = "--command" then
      match rest with
      | [] => .refused .missingScript
      | script :: rest => parseFrom { options with script := some script } rest
    else if arg = "--rc" then
      match rest with
      | [] => .refused .missingFile
      | file :: rest => parseFrom { options with startupFile := some file } rest
    else if arg = "--no-rc" then parseFrom { options with noStartup := true } rest
    else .refused (.unknownOption arg)

/-- What the arguments after the name of the program ask for. -/
def parse (args : List String) : Invocation := parseFrom {} args

/-- How to call the program. -/
def usageText : String :=
  "\n".intercalate
    ["Usage: tabula [OPTIONS]",
     "",
     "Without -c, commands are read from stdin one line at a time.",
     "A line starting with '!' presses the key that follows it.",
     "",
     "Options:",
     "  -c, --command <SCRIPT>    Run a script, print its result and exit",
     "  --rc <FILE>               Startup file to load instead of the default",
     "  --no-rc                   Do not load any startup file",
     "  -h, --help                Print help",
     ""]

/-- The wording of a refusal. -/
def Refusal.message : Refusal → String
  | missingScript => "Error: --command requires a script\n"
  | missingFile => "Error: --rc requires a file path\n"
  | unknownOption argument => s!"Error: Unknown option: {argument}\n" ++ usageText

end SheetScript.CommandLine
