import TopicSync.CommandLine.Reader
import TopicSync.Json.Printer
import TopicSync.Resource.Definition

/-!
The program: it reads its command line, and prints the definition of the resource or says whether
the operator can work with the settings.
-/
namespace TopicSync

/-- One line of the usage text. -/
def Parameter.usage (p : Parameter) : String :=
  let value := if p.isFlag then "" else " <VALUE>"
  let source := match p.environmentName? with
    | some name => s!" [env: {name}]"
    | none => ""
  s!"  --{p.name}{value}  {p.help}{source}"

def usage : String :=
  "\n".intercalate <|
    "Usage: kafka-topic-operator [OPTIONS]" :: "" :: Parameter.all.map Parameter.usage

def Rejection.message : Rejection → String
  | help => usage
  | version => "kafka-topic-operator"
  | unknownArgument => "error: unexpected argument"
  | repeatedParameter => "error: an option is given more than once"
  | invalidValue => "error: an option has no value, or one that is not possible"
  | malformedValue => "error: the value of an option cannot be read"
  | unexpectedValue => "error: a flag takes no value"

/-- Whether the program was asked for what it prints. -/
def Rejection.isAnswer (r : Rejection) : Bool := r = help || r = version

/-- The variables that parameters are taken from, as far as they are set. -/
def readEnvironment : IO (TextMap String) := do
  let entries ← (Parameter.all.filterMap Parameter.environmentName?).mapM fun name => do
    return (← IO.getEnv name).map (name, ·)
  return TextMap.ofList (entries.filterMap id)

def runProgram (arguments : List String) : IO UInt32 := do
  match CommandLine.parse arguments (← readEnvironment) with
  | .error r =>
    if r.isAnswer then
      IO.println r.message
      return 0
    IO.eprintln r.message
    return 2
  | .ok c =>
    if c.printDefinition then
      IO.println Resource.Definition.document.compact
      return 0
    match c.settings.validate with
    | .ok _ =>
      IO.println s!"The settings for namespace {c.settings.namespace} are valid."
      return 0
    | .error e =>
      IO.eprintln s!"Error: {e.message}"
      return 1

end TopicSync

def main (arguments : List String) : IO UInt32 := TopicSync.runProgram arguments
