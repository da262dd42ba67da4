import TopicSync.CommandLine.Basic

/-!
Reading a command line, with environment variables in place of parameters that it does not name.
A parameter's value is looked at when the next parameter begins or the line ends; an argument that
cannot be placed is reported before that.
-/
namespace TopicSync.CommandLine

/-- The form of an argument. -/
inductive Argument where
  /-- Two hyphens alone: no parameters follow. -/
  | terminator
  | long (name : String) (value : Option String)
  /-- A hyphen and letters, of which the first is given. -/
  | short (letter : Char)
  | plain (text : String)
  deriving DecidableEq, Repr

def Argument.ofText (s : String) : Argument :=
  match s.toList with
  | ['-', '-'] => .terminator
  | '-' :: '-' :: cs =>
    match cs.span (· ≠ '=') with
    | (name, []) => .long (String.ofList name) none
    | (name, _ :: value) => .long (String.ofList name) (some (String.ofList value))
  | '-' :: c :: _ => .short c
  | _ => .plain s

/-- How far the reading has got. -/
structure Reading where
  line : CommandLine
  given : List Parameter
  /-- The parameter read last, with its value if that has been read. -/
  pending : Option (Parameter × Option String)

namespace Reading

def start : Reading := ⟨.default, [], none⟩

/-- Give a parameter its value, for the first time. -/
def assign (r : Reading) (p : Parameter) (v : String) : Except Rejection Reading :=
  if p ∈ r.given then .error .repeatedParameter
  else do return { r with line := ← r.line.assign p v, given := p :: r.given }

/-- Give the parameter read last its value. -/
def settle (r : Reading) : Except Rejection Reading :=
  match r.pending with
  | none => .ok r
  | some (_, none) => .error .invalidValue
  | some (p, some v) => { r with pending := none }.assign p v

def parameter (r : Reading) (p : Parameter) (value : Option String) : Except Rejection Reading :=
  match p.isFlag, value with
  | true, some _ => .error .unexpectedValue
  | true, none => do (← r.settle).assign p "true"
  | false, some v => do (← r.settle).assign p v
  | false, none => do return { ← r.settle with pending := some (p, none) }

/-- Stop with a rejection, unless the parameter read last is at fault. -/
def stop (r : Reading) (reason : Rejection) : Except Rejection Reading := do
  let _ ← r.settle
  throw reason

def step (r : Reading) : Argument → Except Rejection Reading
  | .long name value =>
    match Parameter.ofName? name with
    | some p => r.parameter p value
    | none =>
      match name, value with
      | "help", none => r.stop .help
      | "version", none => r.stop .version
      | "help", some _ | "version", some _ => .error .unexpectedValue
      | _, _ => .error .unknownArgument
  | .short 'h' => r.stop .help
  | .short 'V' => r.stop .version
  | .plain s =>
    match r.pending with
    | some (p, none) => .ok { r with pending := some (p, some s) }
    | _ => .error .unknownArgument
  | .short _ | .terminator => .error .unknownArgument

def steps (r : Reading) : List String → Except Rejection Reading
  | [] => r.settle
  | s :: ss =>
    if Argument.ofText s = .terminator ∧ ss = [] then r.settle
    else do (← r.step (.ofText s)).steps ss

/-- Take the values of parameters that were not given from the environment. -/
def consult (r : Reading) (environment : TextMap String) : List Parameter →
    Except Rejection CommandLine
  | [] => .ok r.line
  | p :: ps =>
    match if p ∈ r.given then none else p.environmentName?.bind environment.get? with
    | none => r.consult environment ps
    | some v => do (← r.assign p v).consult environment ps

end Reading

/-- Read the arguments of a command line, without the program's name. -/
def parse (arguments : List String) (environment : TextMap String) :
    Except Rejection CommandLine := do
  (← Reading.start.steps arguments).consult environment Parameter.all

end TopicSync.CommandLine
