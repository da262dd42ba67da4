import TopicSync.Api.Target
import TopicSync.Failure
import TopicSync.Json.Fields
import TopicSync.Json.Fragment
import TopicSync.Program

/-!
Requests to the API server and what its replies mean: a refusal, a document, or nothing usable.
-/
namespace TopicSync

inductive Method where
  | get
  | post
  | put
  | patch
  | delete
  deriving DecidableEq, Repr

def Method.text : Method → String
  | get => "GET"
  | post => "POST"
  | put => "PUT"
  | patch => "PATCH"
  | delete => "DELETE"

structure Request where
  method : Method
  path : String
  query : List (String × String)
  body : Option Json
  deriving Repr

/-- What comes back: a status and a text, or nothing. -/
inductive Reply where
  | answer (status : Nat) (body : String)
  | dropped
  deriving DecidableEq, Repr

abbrev httpInterface : Interface := ⟨Request, fun _ => Reply⟩

namespace Reply

/-- The standard phrases of the statuses that tell of a failure. -/
def phrases : List (Nat × String) :=
  [(400, "Bad Request"), (401, "Unauthorized"), (402, "Payment Required"), (403, "Forbidden"),
   (404, "Not Found"), (405, "Method Not Allowed"), (406, "Not Acceptable"),
   (407, "Proxy Authentication Required"), (408, "Request Timeout"), (409, "Conflict"),
   (410, "Gone"), (411, "Length Required"), (412, "Precondition Failed"),
   (413, "Payload Too Large"), (414, "URI Too Long"), (415, "Unsupported Media Type"),
   (416, "Range Not Satisfiable"), (417, "Expectation Failed"), (418, "I'm a teapot"),
   (421, "Misdirected Request"), (422, "Unprocessable Entity"), (423, "Locked"),
   (424, "Failed Dependency"), (425, "Too Early"), (426, "Upgrade Required"),
   (428, "Precondition Required"), (429, "Too Many Requests"),
   (431, "Request Header Fields Too Large"), (451, "Unavailable For Legal Reasons"),
   (500, "Internal Server Error"), (501, "Not Implemented"), (502, "Bad Gateway"),
   (503, "Service Unavailable"), (504, "Gateway Timeout"), (505, "HTTP Version Not Supported"),
   (506, "Variant Also Negotiates"), (507, "Insufficient Storage"), (508, "Loop Detected"),
   (510, "Not Extended"), (511, "Network Authentication Required")]

/-- A status as text, with its phrase. -/
def statusText (status : Nat) : String :=
  s!"{status} " ++ ((phrases.find? (·.1 = status)).map (·.2)).getD "<unknown status code>"

/-- The refusal that a document spells out. -/
def refusal? (j : Json) : Option Refusal := do
  let fields ← j.fields? ["status", "message", "reason", "code"]
  return {
    status := ← Json.required? fields "status" Json.asString?
    message := ← Json.defaulted? fields "message" "" Json.asString?
    reason := ← Json.defaulted? fields "reason" "" Json.asString?
    code := ← Json.required? fields "code" (Json.asNat? 65535) }

def refusalFormat : Json.Format Refusal where
  read := refusal?
  model := .object [("status", .string ""), ("message", .string ""), ("reason", .string ""),
    ("code", .integer 0)]

/-- What a refusal with this status and text says. One that spells nothing out is quoted. -/
def refusal (status : Nat) (body : String) : Refusal :=
  match (Json.parse? body).bind refusal? with
  | some r => r
  | none => ⟨statusText status, Text.quoted body, "Failed to parse error data", status⟩

/-- The text of a reply, unless it is a refusal or there is none. -/
def text : Reply → Except ApiError String
  | answer status body =>
    if 400 ≤ status ∧ status < 600 then .error (.refused (refusal status body)) else .ok body
  | dropped => .error .broken

/-- The value that a reply holds. -/
def value (f : Json → Option α) (r : Reply) : Except ApiError α :=
  match r.text with
  | .error e => .error e
  | .ok body =>
    match (Json.parse? body).bind f with
    | some a => .ok a
    | none => .error .broken

/-- The value that a reply holds, where a refusal because there is none counts as an answer. -/
def valueIfFound (f : Json → Option α) (r : Reply) : Except ApiError (Option α) :=
  match r.value f with
  | .ok a => .ok (some a)
  | .error (.refused x) => if x.reason = "NotFound" then .ok none else .error (.refused x)
  | .error .broken => .error .broken

end Reply

namespace Api

/-- A program that talks to the API server. -/
abbrev Session (α : Type) : Type := Program httpInterface α

/-- Make a request; nothing is sent if there is no target that is written like this. -/
def send (method : Method) (path : String) (parameters : Option (List (String × String)))
    (body : Option Json) : Session Reply :=
  match Target.ofText? (Target.text path parameters) with
  | some t => .ask ⟨method, t.path, t.query, body⟩ .done
  | none => .done .dropped

/-- Make a request about a named object; nothing is sent if the name is empty. -/
def sendAbout (name : String) (method : Method) (path : String)
    (parameters : Option (List (String × String))) (body : Option Json) : Session Reply :=
  if name.isEmpty then .done .dropped else send method path parameters body

end Api

end TopicSync
