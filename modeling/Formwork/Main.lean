import Formwork.Command.Run

/-!
# The program

Reads real files, prints the report, and answers requests for help.
-/

namespace Formwork.Program

set_option autoImplicit false

/-- Read a file of the working directory. -/
def readFile (path : String) : IO Formwork.FileRead := do
  try
    return .text (← IO.FS.readFile path)
  catch
    | .noFileOrDirectory .. => return .missing
    | e => return .failed (toString e)

/-- The text shown when help is asked for. -/
def helpText : String :=
  "Render an XML form template\n\nUsage: formtemplate [OPTIONS] <TEMPLATES>\n\n" ++
  "  -m, --messages <MESSAGES>  Message bundle used for localized labels\n" ++
  "  -t, --template <TEMPLATE>  Template to render (default: the first one)\n" ++
  "      --set <NAME=VALUE>     Set a field value before rendering\n" ++
  "      --list                 List the templates and exit\n" ++
  "      --output <OUTPUT>      Output format: human or json\n" ++
  "      --config <CONFIG>      Configuration file (default: ./formtemplate.json when present)\n" ++
  "  -v, --verbose              Verbose output\n" ++
  "  -h, --help                 Print help\n" ++
  "  -V, --version              Print version\n"

end Formwork.Program

/-- Run the command on the arguments of the process. -/
def main (args : List String) : IO UInt32 := do
  match ← Formwork.Command.run ⟨Formwork.Program.readFile⟩ args with
  | .ok text =>
    IO.print text
    return 0
  | .error (.usage .helpAsked) =>
    IO.print Formwork.Program.helpText
    return 0
  | .error (.usage .versionAsked) =>
    IO.println "formtemplate"
    return 0
  | .error (.usage e) =>
    IO.eprintln (Formwork.Command.Failure.usage e).message
    return 2
  | .error e =>
    IO.eprintln e.message
    return 1
