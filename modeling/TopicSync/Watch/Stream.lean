import TopicSync.Api.Change
import TopicSync.Api.Gateway
import TopicSync.Watch.Receiver
import TopicSync.Watch.ResourceView

/-!
Watching the resources of a namespace: list them all, page by page, then follow the changes that the
API server reports. After a failure there is a pause, then the request is repeated; when the server
has lost track of the changes, or reports one without its version, everything is listed again.
-/
namespace TopicSync

/-- What is asked for next. -/
inductive WatchPhase where
  /-- A list from its beginning. -/
  | list
  /-- The next page of a list. -/
  | nextPage
  /-- The changes since the list. -/
  | changes
  deriving DecidableEq, Repr

/-- What a watch meets. -/
inductive WatchStep where
  | event (e : WatchEvent)
  /-- Time passes, because the server takes its time or a failure is waited out. -/
  | pause
  deriving DecidableEq, Repr

namespace WatchPhase

/-- A text that is there and not empty. -/
def given (s : Option String) : Bool := s.any fun s => !s.isEmpty

/-- The steps and the next phase that follow from a page of a list. A page that neither has a
version nor is followed by another one is no use. -/
def page (r : Reply) : List WatchStep × WatchPhase :=
  match r.value (Api.Listing.ofJson? Resource.ofJson?) with
  | .error _ => ([.pause], list)
  | .ok l =>
    let listed := l.items.map fun r => WatchStep.event (.listed r)
    if given l.continue then (listed, nextPage)
    else if given l.resourceVersion then (listed ++ [.event .finished], changes)
    else ([.pause], list)

/-- The status with which a server refuses to report changes that it no longer knows. -/
def expired : Nat := 410

/-- The steps that follow from a stream of changes, up to the line at which they are lost. Any other
refusal, and a line that cannot be read, is waited out; the stream goes on after it. -/
def follow : List (Option (Api.Change Resource)) → List WatchStep × WatchPhase
  | [] => ([], changes)
  | none :: cs => (follow cs).map (.pause :: ·) id
  | some .mark :: cs => follow cs
  | some (.refused r) :: cs =>
    if r.code = expired then ([.pause], list) else (follow cs).map (.pause :: ·) id
  | some (.present r) :: cs =>
    if given r.metadata.resourceVersion then (follow cs).map (.event (.applied r) :: ·) id
    else ([.pause], list)
  | some (.gone r) :: cs =>
    if given r.metadata.resourceVersion then (follow cs).map (.event (.deleted r) :: ·) id
    else ([.pause], list)

/-- The steps and the next phase that follow from a reply. A stream of changes is read line by line
whatever its status is. -/
def take (p : WatchPhase) (r : Reply) : List WatchStep × WatchPhase :=
  match p with
  | list => (page r).map (.event .start :: ·) id
  | nextPage => page r
  | changes =>
    match r with
    | .dropped => ([.pause], changes)
    | .answer _ body => follow (Api.changes Resource.format body)

end WatchPhase

/-- A watch under way. -/
structure Watch where
  view : ResourceView
  phase : WatchPhase
  receiver : Receiver
  deriving DecidableEq, Repr

namespace Watch

def start (managed : Selector) (limit : Option Nat) : Watch :=
  ⟨.create managed, .list, .taking limit⟩

/-- The first request of a watch. -/
def firstRequest (g : Gateway) : Request :=
  ⟨.get, Gateway.collection g.namespace, [("labelSelector", g.managed.text)], none⟩

/-- Take steps: the triggers that are received, and the watch after them, unless the receiver is
gone. -/
def pass (w : Watch) : List WatchStep → List Trigger × Option Watch
  | [] => ([], some w)
  | .pause :: ss => pass { w with receiver := w.receiver.settle } ss
  | .event e :: ss =>
    let (ts, view) := w.view.observe e
    match w.receiver.send ts with
    | none => ([], none)
    | some next =>
      let rest := pass { w with view := view, receiver := next } ss
      (w.receiver.taken ts ++ rest.1, rest.2)

/-- Follow replies, each with the milliseconds that it takes, until they run out or the receiver is
gone: the triggers that are received, and whether the watch ended by itself. -/
def run (w : Watch) : List (Nat × Reply) → List Trigger × Bool
  | [] => ([], false)
  | (wait, r) :: rs =>
    let (steps, phase) := w.phase.take r
    match pass w (if 0 < wait then .pause :: steps else steps) with
    | (ts, none) => (ts, true)
    | (ts, some w) =>
      let rest := run { w with phase := phase } rs
      (ts ++ rest.1, rest.2)

end Watch

end TopicSync
