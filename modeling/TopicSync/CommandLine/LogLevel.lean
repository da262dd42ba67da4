import TopicSync.Text.Scan

/-!
How much is logged.
-/
namespace TopicSync

inductive LogLevel where
  | error
  | warn
  | info
  | debug
  | trace
  deriving DecidableEq, Repr

namespace LogLevel

def text : LogLevel → String
  | error => "error"
  | warn => "warn"
  | info => "info"
  | debug => "debug"
  | trace => "trace"

/-- A level by number, from the least to the most talkative. -/
def ofNat? : Nat → Option LogLevel
  | 1 => some error
  | 2 => some warn
  | 3 => some info
  | 4 => some debug
  | 5 => some trace
  | _ => none

/-- A level by number or by name, in letters of either case. -/
def ofText? (s : String) : Option LogLevel :=
  match (Text.natOf? s).bind ofNat? with
  | some l => some l
  | none => [error, warn, info, debug, trace].find? fun l => l.text = s.toLower

end LogLevel

end TopicSync
