import TopicSync.Json.Number

/-!
Reading JSON text. The input is a list of symbols: characters, and places where the bytes are no
UTF-8. The latter are only allowed within string literals. What has the form of a value but cannot
be taken in becomes `Json.garbled`.
-/
namespace TopicSync.Json

/-- A character, or `none` for bytes that encode none. -/
abbrev Symbol := Option Char

def isSpace (c : Char) : Bool := c = ' ' || c = '\t' || c = '\n' || c = '\r'

def skipSpace : List Symbol → List Symbol
  | some c :: cs => if isSpace c then skipSpace cs else some c :: cs
  | cs => cs

def hexValue? (c : Char) : Option Nat :=
  if '0' ≤ c ∧ c ≤ '9' then some (c.toNat - 48)
  else if 'a' ≤ c ∧ c ≤ 'f' then some (c.toNat - 87)
  else if 'A' ≤ c ∧ c ≤ 'F' then some (c.toNat - 55)
  else none

/-- The number that four hexadecimal digits denote. -/
def hexUnit? (a b c d : Symbol) : Option Nat := do
  let a ← hexValue? (← a)
  let b ← hexValue? (← b)
  let c ← hexValue? (← c)
  let d ← hexValue? (← d)
  return ((a * 16 + b) * 16 + c) * 16 + d

/-- Part of a string literal. -/
inductive Piece where
  | char (c : Char)
  /-- A UTF-16 unit given by its number. -/
  | unit (n : Nat)
  | invalid
  deriving DecidableEq, Repr

/-- The character that a one-letter escape stands for. -/
def escaped? (c : Char) : Option Char :=
  match c with
  | '"' => some '"'
  | '\\' => some '\\'
  | '/' => some '/'
  | 'b' => some (Char.ofNat 8)
  | 'f' => some (Char.ofNat 12)
  | 'n' => some '\n'
  | 'r' => some '\r'
  | 't' => some '\t'
  | _ => none

/-- How many bytes symbols take. -/
def byteCount (cs : List Symbol) : Nat :=
  cs.foldl (fun n c => n + (c.map Char.utf8Size).getD 1) 0

/-- The pieces of a string literal up to its closing quote, and what follows it; nothing follows if
the text ends before. Four bytes are due behind the mark of a UTF-16 unit. -/
def pieces : List Symbol → Option (List Piece × Option (List Symbol))
  | [] => some ([], none)
  | none :: cs => (pieces cs).map fun r => (.invalid :: r.1, r.2)
  | some '"' :: cs => some ([], some cs)
  | [some '\\'] => some ([], none)
  | some '\\' :: some 'u' :: a :: b :: c :: d :: cs =>
    match hexUnit? a b c d with
    | none => none
    | some n => (pieces cs).map fun r => (.unit n :: r.1, r.2)
  | some '\\' :: some e :: cs =>
    match escaped? e with
    | none => if e = 'u' ∧ byteCount cs < 4 then some ([], none) else none
    | some c => (pieces cs).map fun r => (.char c :: r.1, r.2)
  | some c :: cs =>
    if c = '\\' ∨ c.toNat < 0x20 then none
    else (pieces cs).map fun r => (.char c :: r.1, r.2)

def isHighUnit (n : Nat) : Bool := decide (0xd800 ≤ n) && decide (n < 0xdc00)

def isLowUnit (n : Nat) : Bool := decide (0xdc00 ≤ n) && decide (n < 0xe000)

/-- The text of a literal; a UTF-16 unit of a pair without its partner has none. -/
def assemble : List Piece → Option (List Char)
  | [] => some []
  | .char c :: ps => (assemble ps).map (c :: ·)
  | .invalid :: _ => none
  | .unit n :: .unit m :: ps =>
    if isHighUnit n then
      if isLowUnit m then
        (assemble ps).map (Char.ofNat (0x10000 + (n - 0xd800) * 0x400 + (m - 0xdc00)) :: ·)
      else none
    else if isLowUnit n then none
    else (assemble (.unit m :: ps)).map (Char.ofNat n :: ·)
  | .unit n :: ps =>
    if isHighUnit n || isLowUnit n then none else (assemble ps).map (Char.ofNat n :: ·)

/-- A literal after its opening quote: its text, if it has one, and what follows. -/
def literal (cs : List Symbol) : Option (Option String × List Symbol) :=
  match pieces cs with
  | some (ps, some rest) => some ((assemble ps).map String.ofList, rest)
  | _ => none

/-- The decimal digits at the beginning, and the rest. -/
def spanDigits : List Symbol → List Char × List Symbol
  | some c :: cs =>
    if c.isDigit then
      let r := spanDigits cs
      (c :: r.1, r.2)
    else ([], some c :: cs)
  | cs => ([], cs)

/-- The digits after a point; `none` if the point has no digit after it. -/
def fraction? : List Symbol → Option (List Char × List Symbol)
  | some '.' :: cs =>
    match spanDigits cs with
    | ([], _) => none
    | r => some r
  | cs => some ([], cs)

/-- The sign at the beginning of an exponent: whether it is a minus, and the rest. -/
def sign : List Symbol → Bool × List Symbol
  | some '-' :: cs => (true, cs)
  | some '+' :: cs => (false, cs)
  | cs => (false, cs)

/-- An exponent, if there is one; the outer `none` if its mark has no digits after it. -/
def exponent? : List Symbol → Option (Option Int × List Symbol)
  | some c :: cs =>
    if c = 'e' ∨ c = 'E' then
      let s := sign cs
      match spanDigits s.2 with
      | ([], _) => none
      | (ds, rest) =>
        let n : Int := natOf ds
        some (some (if s.1 then -n else n), rest)
    else some (none, some c :: cs)
  | cs => some (none, cs)

/-- Digits without a superfluous leading zero. -/
def wholeDigits? (cs : List Symbol) : Option (List Char × List Symbol) :=
  match spanDigits cs with
  | ([], _) => none
  | (c :: d :: ds, rest) => if c = '0' then none else some (c :: d :: ds, rest)
  | r => some r

/-- A number after its sign. -/
def number? (negative : Bool) (cs : List Symbol) : Option (Json × List Symbol) := do
  let (whole, cs) ← wholeDigits? cs
  let (fraction, cs) ← fraction? cs
  let (exponent, cs) ← exponent? cs
  return (ofDigits negative whole fraction exponent, cs)

/-- What follows `word` at the beginning. -/
def keyword? (word : String) (cs : List Symbol) : Option (List Symbol) :=
  if (word.toList.map some).isPrefixOf cs then some (cs.drop word.length) else none

/-- Put a member in front of an object; a name without text leaves no readable object. -/
def addMember (name : Option String) (j rest : Json) : Json :=
  match name, rest with
  | some name, .object ms => .object ((name, j) :: ms)
  | _, _ => .garbled

def addItem (j rest : Json) : Json :=
  match rest with
  | .array js => .array (j :: js)
  | r => r

/-- An array or object, if it may be nested at this depth; the depth counts down. -/
def nested (depth : Nat) (j : Json) : Json := if depth = 0 then .garbled else j

mutual

/-- One value. The first argument bounds the number of steps, the second how many arrays and objects
may be nested. -/
def value? : Nat → Nat → List Symbol → Option (Json × List Symbol)
  | 0, _, _ => none
  | n + 1, depth, cs =>
    match skipSpace cs with
    | some '"' :: cs =>
      (literal cs).map fun r => (match r.1 with | some s => .string s | none => .garbled, r.2)
    | some '[' :: cs =>
      match skipSpace cs with
      | some ']' :: cs => some (nested depth (.array []), cs)
      | _ => (items? n (depth - 1) cs).map fun r => (nested depth r.1, r.2)
    | some '{' :: cs =>
      match skipSpace cs with
      | some '}' :: cs => some (nested depth (.object []), cs)
      | _ => (members? n (depth - 1) cs).map fun r => (nested depth r.1, r.2)
    | some '-' :: cs => number? true cs
    | some 't' :: cs => (keyword? "rue" cs).map (.bool true, ·)
    | some 'f' :: cs => (keyword? "alse" cs).map (.bool false, ·)
    | some 'n' :: cs => (keyword? "ull" cs).map (.null, ·)
    | cs => number? false cs

/-- The items of an array that is not empty, through its closing bracket. -/
def items? : Nat → Nat → List Symbol → Option (Json × List Symbol)
  | 0, _, _ => none
  | n + 1, depth, cs =>
    match value? n depth cs with
    | none => none
    | some (j, cs) =>
      match skipSpace cs with
      | some ']' :: cs => some (.array [j], cs)
      | some ',' :: cs => (items? n depth cs).map fun r => (addItem j r.1, r.2)
      | _ => none

/-- The members of an object that is not empty, through its closing brace. -/
def members? : Nat → Nat → List Symbol → Option (Json × List Symbol)
  | 0, _, _ => none
  | n + 1, depth, cs =>
    match skipSpace cs with
    | some '"' :: cs =>
      match literal cs with
      | none => none
      | some (name, cs) =>
        match skipSpace cs with
        | some ':' :: cs =>
          match value? n depth cs with
          | none => none
          | some (j, cs) =>
            match skipSpace cs with
            | some '}' :: cs => some (addMember name j (.object []), cs)
            | some ',' :: cs => (members? n depth cs).map fun r => (addMember name j r.1, r.2)
            | _ => none
        | _ => none
    | _ => none

end

/-- How many arrays and objects may be nested. -/
def maxDepth : Nat := 127

/-- A whole document. -/
def ofSymbols? (cs : List Symbol) : Option Json :=
  match value? (2 * cs.length + 2) maxDepth cs with
  | none => none
  | some (j, rest) => if (skipSpace rest).isEmpty then some j else none

/-- The document that a text denotes. -/
def parse? (s : String) : Option Json := ofSymbols? (s.toList.map some)

/-- Symbols of bytes that need not be UTF-8: each byte that begins no character is invalid. -/
def symbolsFrom (bytes : ByteArray) : Nat → Nat → List Symbol
  | 0, _ => []
  | n + 1, i =>
    if i < bytes.size then
      match bytes.utf8DecodeChar? i with
      | some c => some c :: symbolsFrom bytes n (i + c.utf8Size)
      | none => none :: symbolsFrom bytes n (i + 1)
    else []

def symbolsOf (bytes : ByteArray) : List Symbol :=
  match String.fromUTF8? bytes with
  | some s => s.toList.map some
  | none => symbolsFrom bytes bytes.size 0

/-- The document that a byte sequence denotes. -/
def parseBytes? (bytes : ByteArray) : Option Json := ofSymbols? (symbolsOf bytes)

end TopicSync.Json
