import TopicSync.Api.Http
import TopicSync.Json.Printer

/-!
An API server that gives the replies it was told to give, one per request, and keeps the requests.
-/
namespace TopicSync.Api

structure Script where
  replies : List Reply
  /-- The requests made so far, the latest first. -/
  requests : List Request

namespace Script

def ofReplies (rs : List Reply) : Script := ⟨rs, []⟩

/-- The reply when no other is left. -/
def exhausted : Reply :=
  .answer 500 (Json.compact (.object [("kind", .string "Status"), ("status", .string "Failure"),
    ("code", .integer 500), ("message", .string "no response scripted"),
    ("reason", .string "InternalError")]))

def answer (r : Request) (s : Script) : Reply × Script :=
  match s.replies with
  | [] => (exhausted, { s with requests := r :: s.requests })
  | x :: xs => (x, ⟨xs, r :: s.requests⟩)

/-- What a program yields with the given replies, and the requests it makes. -/
def play (p : Session α) (rs : List Reply) : α × List Request :=
  let (a, s) := p.run answer (ofReplies rs)
  (a, s.requests.reverse)

end Script

end TopicSync.Api
