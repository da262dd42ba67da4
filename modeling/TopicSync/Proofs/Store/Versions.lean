import TopicSync.Proofs.Clients
import TopicSync.Proofs.Plan.Merge
import TopicSync.Proofs.Store.Tree

/-!
Updates of records that others change at the same time. The version of a node counts its writes
since its creation, so that an update finds the version that it has read just if nobody has touched
the record since, or if the record has been created anew and then written as often as the version
says. In any other case the update fails and changes nothing.
-/
namespace TopicSync

variable {I : Interface} {ι : Type}

section History

/-- What a call can make of a node. -/
inductive Node.Step : Option Node → Option Node → Prop where
  | kept (n : Option Node) : Step n n
  | created (data : String) : Step none (some ⟨data, 0⟩)
  | written (n : Node) (data : String) : Step (some n) (some ⟨data, n.version + 1⟩)
  | deleted (n : Node) : Step (some n) none

theorem NodeTree.step_create (t : NodeTree) (path data p : String) :
    Node.Step (t.nodes.get? p) ((t.create path data).2.nodes.get? p) := by
  have hnew (h : t.nodes.contains path = false) :
      Node.Step (t.nodes.get? p) ((t.nodes.insert path ⟨data, 0⟩).get? p) := by
    rw [TextMap.get?_insert]
    split
    next heq =>
      have hnone : t.nodes.get? p = none := by simpa [heq, TextMap.contains] using h
      rw [hnone]
      exact .created data
    next => exact .kept _
  rw [create]
  split
  next => exact .kept _
  next hcontains =>
    have hnone : t.nodes.contains path = false := by simpa using hcontains
    split
    next =>
      split
      next => exact hnew hnone
      next => exact .kept _
    next => exact hnew hnone

theorem NodeTree.step_set (t : NodeTree) (path data p : String) (version : Option Int) :
    Node.Step (t.nodes.get? p) ((t.set path data version).2.nodes.get? p) := by
  rw [set]
  cases hg : t.guarded path version with
  | error e => exact .kept _
  | ok n =>
    dsimp only
    rw [TextMap.get?_insert]
    split
    next heq =>
      rw [heq, get?_of_guarded hg]
      exact .written n data
    next => exact .kept _

theorem NodeTree.step_delete (t : NodeTree) (path p : String) (version : Option Int) :
    Node.Step (t.nodes.get? p) ((t.delete path version).2.nodes.get? p) := by
  rw [delete]
  cases hg : t.guarded path version with
  | error e => exact .kept _
  | ok n =>
    dsimp only
    split
    next =>
      rw [TextMap.get?_erase]
      split
      next heq =>
        rw [heq, get?_of_guarded hg]
        exact .deleted n
      next => exact .kept _
    next => exact .kept _

theorem NodeTree.step_answer (q : TreeCall) (t : NodeTree) (p : String) :
    Node.Step (t.nodes.get? p) ((answer q t).2.nodes.get? p) := by
  cases q with
  | create path data => exact t.step_create path data p
  | get path => exact .kept _
  | set path data version => exact t.step_set path data p version
  | delete path version => exact t.step_delete path p version
  | children path => exact .kept _

/-- The node that a deed meets at a path. -/
def Deed.found (e : Deed I treeInterface ι NodeTree) (p : String) : Option Node :=
  e.met.nodes.get? p

/-- The node that a deed leaves at a path. -/
def Deed.leaves (e : Deed I treeInterface ι NodeTree) (p : String) : Option Node :=
  (e.left NodeTree.answer).nodes.get? p

theorem Deed.step (e : Deed I treeInterface ι NodeTree) (p : String) :
    Node.Step (e.found p) (e.leaves p) := by
  obtain ⟨i, act, t⟩ := e
  cases act with
  | starts c => exact .kept _
  | asks q => exact t.step_answer q p
  | ends c r => exact .kept _

/-- No deed creates, changes or deletes the node. -/
def Intact (p : String) (es : List (Deed I treeInterface ι NodeTree)) : Prop :=
  ∀ e ∈ es, e.leaves p = e.found p

/-- The number of deeds that create, change or delete the node. -/
def touches (p : String) (es : List (Deed I treeInterface ι NodeTree)) : Nat :=
  es.countP fun e => e.leaves p ≠ e.found p

/-- The node is created, and from then on it is not deleted, but written as often as its version
says. -/
def Rebuilt (p : String) (version : Int) (es : List (Deed I treeInterface ι NodeTree)) : Prop :=
  ∃ early e late, es = early ++ e :: late ∧ e.found p = none ∧ e.leaves p ≠ none ∧
    (∀ e ∈ late, e.leaves p ≠ none) ∧ (touches p late : Int) = version

variable {p : String} {t t' : NodeTree} {es : List (Deed I treeInterface ι NodeTree)}

theorem touches_nil : touches p ([] : List (Deed I treeInterface ι NodeTree)) = 0 := rfl

theorem touches_cons (p : String) (e : Deed I treeInterface ι NodeTree)
    (es : List (Deed I treeInterface ι NodeTree)) :
    touches p (e :: es) = touches p es + if e.leaves p = e.found p then 0 else 1 := by
  simp only [touches, List.countP_cons, decide_eq_true_eq, ne_eq, ite_not]

theorem touches_eq_zero_iff : touches p es = 0 ↔ Intact p es := by
  simp [touches, Intact]

/-- As long as a node is not deleted, its version goes up by one with each deed that touches it. -/
theorem Chained.version (h : Chained NodeTree.answer t es t') {n : Node}
    (hn : t.nodes.get? p = some n) (hes : ∀ e ∈ es, e.leaves p ≠ none) :
    ∃ n', t'.nodes.get? p = some n' ∧ n'.version = n.version + touches p es := by
  induction es generalizing t n with
  | nil =>
    cases h
    exact ⟨n, hn, by simp [touches_nil]⟩
  | cons e es ih =>
    obtain ⟨hmet, hrest⟩ := h
    obtain ⟨hfirst, hlater⟩ := List.forall_mem_cons.1 hes
    have hfound : e.found p = some n := by rw [Deed.found, hmet, hn]
    have hstep := e.step p
    obtain ⟨m, hm⟩ := Option.ne_none_iff_exists'.1 hfirst
    obtain ⟨n', hn', hversion⟩ := ih hrest hm hlater
    refine ⟨n', hn', hversion.trans ?_⟩
    rw [touches_cons, hfound, hm]
    rw [hfound, hm] at hstep
    -- The node is there before and after, so that it has been kept or written.
    cases hstep with
    | kept => rw [if_pos rfl, Nat.add_zero]
    | written _ data =>
      have hne : some (⟨data, n.version + 1⟩ : Node) ≠ some n := by
        intro heq
        have hsame : n.version + 1 = n.version := congrArg Node.version (Option.some.inj heq)
        omega
      rw [if_neg hne]
      push_cast
      omega

/-- A node that is there at the end was there all along, or has been created and not been deleted
since. -/
theorem Chained.origin (h : Chained NodeTree.answer t es t') (hp : t'.nodes.get? p ≠ none) :
    (t.nodes.get? p ≠ none ∧ ∀ e ∈ es, e.leaves p ≠ none) ∨
    ∃ early e late, es = early ++ e :: late ∧ e.found p = none ∧ e.leaves p ≠ none ∧
      ∀ e ∈ late, e.leaves p ≠ none := by
  induction es generalizing t with
  | nil =>
    cases h
    exact .inl ⟨hp, by rintro e ⟨⟩⟩
  | cons e es ih =>
    obtain ⟨hmet, hrest⟩ := h
    rcases ih hrest with ⟨hfirst, hlater⟩ | ⟨early, e', late, rfl, hcreated⟩
    · by_cases hfound : e.found p = none
      · exact .inr ⟨[], e, es, rfl, hfound, hfirst, hlater⟩
      · exact .inl ⟨hmet ▸ hfound, List.forall_mem_cons.2 ⟨hfirst, hlater⟩⟩
    · exact .inr ⟨e :: early, e', late, rfl, hcreated⟩

theorem Chained.intact (h : Chained NodeTree.answer t es t') (hp : Intact p es) :
    t'.nodes.get? p = t.nodes.get? p := by
  induction es generalizing t with
  | nil =>
    cases h
    rfl
  | cons e es ih =>
    obtain ⟨hmet, hrest⟩ := h
    obtain ⟨hfirst, hlater⟩ := List.forall_mem_cons.1 hp
    exact (ih hrest hlater).trans (hfirst.trans (congrArg (·.nodes.get? p) hmet))

/-- What has been created has version zero, and goes on from there. -/
theorem Chained.version_of_created {early late : List (Deed I treeInterface ι NodeTree)}
    {e : Deed I treeInterface ι NodeTree}
    (h : Chained NodeTree.answer t (early ++ e :: late) t') (hfound : e.found p = none)
    (hleaves : e.leaves p ≠ none) (hlate : ∀ e ∈ late, e.leaves p ≠ none) :
    ∃ n, t'.nodes.get? p = some n ∧ n.version = touches p late := by
  obtain ⟨u, -, -, hrest⟩ := chained_append.1 h
  have hstep := e.step p
  obtain ⟨m, hm⟩ := Option.ne_none_iff_exists'.1 hleaves
  rw [hfound, hm] at hstep
  cases hstep with
  | created data =>
    obtain ⟨n, hn, hversion⟩ := hrest.version hm hlate
    exact ⟨n, hn, by simpa using hversion⟩

/-- A version is found again if the node has not been touched, or if it has been created anew and
brought up to this version. -/
theorem Chained.version_again_iff (h : Chained NodeTree.answer t es t') {n : Node}
    (hn : t.nodes.get? p = some n) :
    (∃ n', t'.nodes.get? p = some n' ∧ n'.version = n.version) ↔
      Intact p es ∨ Rebuilt p n.version es := by
  constructor
  · rintro ⟨n', hn', hversion⟩
    rcases h.origin (by simp [hn'] : t'.nodes.get? p ≠ none) with
      ⟨-, hes⟩ | ⟨early, e, late, rfl, hfound, hleaves, hlate⟩
    · obtain ⟨m, hm, hcount⟩ := h.version hn hes
      cases hn'.symm.trans hm
      exact .inl (touches_eq_zero_iff.1 (by omega))
    · obtain ⟨m, hm, hcount⟩ := h.version_of_created hfound hleaves hlate
      cases hn'.symm.trans hm
      exact .inr ⟨early, e, late, rfl, hfound, hleaves, hlate, hcount.symm.trans hversion⟩
  · rintro (hintact | ⟨early, e, late, rfl, hfound, hleaves, hlate, hcount⟩)
    · exact ⟨n, (h.intact hintact).trans hn, rfl⟩
    · obtain ⟨m, hm, hversion⟩ := h.version_of_created hfound hleaves hlate
      exact ⟨m, hm, hversion.trans hcount⟩

end History

section Update

/-- The client asks for the node once, and there is none. -/
def NoneFound (i : ι) (p : String) (es : List (Deed I treeInterface ι NodeTree)) : Prop :=
  ∃ early met late, es = early ++ ⟨i, .asks (TreeCall.get p), met⟩ :: late ∧
    Others i early ∧ Others i late ∧ met.nodes.get? p = none

/-- The client asks for the node once, and finds one. After the deeds between it makes a write on
the version that it has found. -/
def GuardedWrite (i : ι) (p data : String) (node : Node)
    (between es : List (Deed I treeInterface ι NodeTree)) : Prop :=
  ∃ early met met' late, es = early ++ ⟨i, .asks (TreeCall.get p), met⟩ ::
      (between ++ ⟨i, .asks (TreeCall.set p data (some node.version)), met'⟩ :: late) ∧
    Others i early ∧ Others i between ∧ Others i late ∧ met.nodes.get? p = some node

namespace HierarchicalStore

/-- What the deeds of an update say of its result. -/
structure Guarded (i : ι) (s : HierarchicalStore) (t : Topic)
    (es : List (Deed I treeInterface ι NodeTree)) (r : Except StoreError Unit) : Prop where
  course : NoneFound i (s.path t.name) es ∧ r = .error (.notFound t.name.text) ∨
    ∃ node between, GuardedWrite i (s.path t.name) (Record.encode t) node between es ∧
      (r = .ok () ↔
        Intact (s.path t.name) between ∨ Rebuilt (s.path t.name) node.version between)
  failure : r ≠ .ok () →
    (r = .error (.notFound t.name.text) ∨
      ∃ expected actual, r = .error (.badVersion t.name.text expected actual)) ∧
    ∀ e ∈ es, e.client = i → e.left NodeTree.answer = e.met

/-- What an update yields, given the answer to its write. -/
def updateResult (name : TopicName) : Except NodeError Int → Except StoreError Unit
  | .ok _ => .ok ()
  | .error (.noNode _) => .error (.notFound name.text)
  | .error (.badVersion _ expected actual) => .error (.badVersion name.text expected actual)
  | .error e => .error (backend e)

section Write

variable {tree : NodeTree} {p data : String} {version : Int} {name : TopicName}

/-- A write goes through just if the version that it asks for is there. -/
theorem updateResult_set_iff :
    updateResult name (tree.set p data (some version)).1 = .ok () ↔
      ∃ n, tree.nodes.get? p = some n ∧ n.version = version := by
  rw [NodeTree.set, NodeTree.guarded]
  cases tree.nodes.get? p with
  | none => simp [updateResult]
  | some n => by_cases hversion : version = n.version <;> simp [updateResult, hversion, eq_comm]

/-- A write that does not go through changes nothing. -/
theorem updateResult_of_ne (h : updateResult name (tree.set p data (some version)).1 ≠ .ok ()) :
    (updateResult name (tree.set p data (some version)).1 = .error (.notFound name.text) ∨
      ∃ actual, updateResult name (tree.set p data (some version)).1 =
        .error (.badVersion name.text version actual)) ∧
    (tree.set p data (some version)).2 = tree := by
  rw [NodeTree.set, NodeTree.guarded] at h ⊢
  cases hp : tree.nodes.get? p with
  | none => exact ⟨.inl rfl, rfl⟩
  | some n =>
    rw [hp] at h
    dsimp only at h ⊢
    by_cases hversion : version = n.version
    · rw [if_pos hversion] at h
      exact absurd rfl h
    · rw [if_neg hversion]
      exact ⟨.inr ⟨n.version, rfl⟩, rfl⟩

end Write

variable {s : HierarchicalStore} {t : Topic} {i : ι} {r : Except StoreError Unit}

theorem updateNode_guarded {start tree : NodeTree} {es : List (Deed I treeInterface ι NodeTree)}
    (h : Follows NodeTree.answer i (s.updateNode t) es (.done r))
    (hchain : Chained NodeTree.answer start es tree) : Guarded i s t es r := by
  have hget (met : NodeTree) : NodeTree.answer (.get (s.path t.name)) met =
      (.ok (met.nodes.get? (s.path t.name)), met) := rfl
  obtain ⟨early, met, rest, rfl, hearly, hrest⟩ := h.of_ask
  rw [hget] at hrest
  cases hfound : met.nodes.get? (s.path t.name) with
  | none =>
    rw [hfound] at hrest
    obtain ⟨hr, hlate⟩ := hrest.of_done
    cases hr
    refine ⟨.inl ⟨⟨early, met, rest, rfl, hearly, hlate, hfound⟩, rfl⟩, fun _ => ⟨.inl rfl, ?_⟩⟩
    exact hearly.forall_own rfl fun e he hi => absurd hi (hlate e he)
  | some node =>
    rw [hfound] at hrest
    obtain ⟨between, met', late, rfl, hbetween, hlast⟩ := hrest.of_ask
    have hset : NodeTree.answer (.set (s.path t.name) (Record.encode t) (some node.version)) met' =
        met'.set (s.path t.name) (Record.encode t) (some node.version) := rfl
    have hend : r = updateResult t.name (met'.set (s.path t.name) (Record.encode t)
        (some node.version)).1 ∧ Others i late := by
      rw [hset] at hlast
      generalize (met'.set (s.path t.name) (Record.encode t) (some node.version)).1 = a at hlast ⊢
      rcases a with (_ | _ | _ | _ | _) | _ <;>
      · obtain ⟨hr, hlate⟩ := hlast.of_done
        cases hr
        exact ⟨rfl, hlate⟩
    obtain ⟨rfl, hlate⟩ := hend
    -- Between the two requests the tree goes from the one that is read to the one that is written.
    have hbetween_chain : Chained NodeTree.answer met between met' := by
      obtain ⟨u, -, -, hchain⟩ := chained_append.1 hchain
      obtain ⟨u', hchain, rfl, -⟩ := chained_append.1 hchain
      exact hchain
    constructor
    · exact .inr ⟨node, between, ⟨early, met, met', late, rfl, hearly, hbetween, hlate, hfound⟩,
        updateResult_set_iff.trans (hbetween_chain.version_again_iff hfound)⟩
    · intro hfail
      obtain ⟨hcause, hkept⟩ := updateResult_of_ne hfail
      refine ⟨hcause.imp_right (Exists.intro node.version), hearly.forall_own rfl ?_⟩
      exact hbetween.forall_own hkept fun e he hi => absurd hi (hlate e he)

/-- However the requests of the clients of a tree follow one another, an update that ends has made
its own since it was started. It goes through just if nobody has touched the record between its read
and its write, or if the record has been created anew in between and brought up to the version that
was read; otherwise the update fails and changes nothing. The requests that make sure of a root are
made between two calls, as are any others. -/
theorem update_guarded [DecidableEq ι] (stores : ι → HierarchicalStore)
    {x y : Shared storeInterface treeInterface ι NodeTree}
    {before after : List (Deed storeInterface treeInterface ι NodeTree)} {tree : NodeTree}
    (hidle : x.clients i = .idle)
    (hrun : Shared.Run (fun j => (stores j).access) NodeTree.answer x
      (before ++ ⟨i, .ends (.update t) r, tree⟩ :: after) y) :
    ∃ early start during, before = early ++ ⟨i, .starts (StoreCall.update t), start⟩ :: during ∧
      Guarded i (stores i) t during r := by
  obtain ⟨early, start, during, rfl, hcall, hchain⟩ := hrun.of_ends hidle
  exact ⟨early, start, during, rfl, updateNode_guarded hcall hchain⟩

section Recreation

open Plan (ordersStored ordersResource ordersKafka)

def ordersStore : HierarchicalStore := .create "kafka-topic-store"

def ordersPath : String := ordersStore.path ordersStored.name

/-- The tree of a store with one record at a version, or with none. -/
def ordersTree (record : Option (Topic × Int)) : NodeTree :=
  let way : TextMap Node :=
    .ofList [("/kafka-topic-store", ⟨"", 0⟩), ("/kafka-topic-store/topics", ⟨"", 0⟩)]
  ⟨record.elim way fun (t, version) => way.insert ordersPath ⟨Record.encode t, version⟩⟩

/-- A client deletes a record and creates another in its place. -/
def recreation : List (Deed storeInterface treeInterface Bool NodeTree) :=
  [⟨true, .starts (.delete ordersStored.name), ordersTree (some (ordersStored, 0))⟩,
    ⟨true, .asks (TreeCall.delete ordersPath none), ordersTree (some (ordersStored, 0))⟩,
    ⟨true, .ends (.delete ordersStored.name) (.ok ()), ordersTree none⟩,
    ⟨true, .starts (.create ordersKafka), ordersTree none⟩,
    ⟨true, .asks (TreeCall.create ordersPath (Record.encode ordersKafka)), ordersTree none⟩,
    ⟨true, .ends (.create ordersKafka) (.ok ()), ordersTree (some (ordersKafka, 0))⟩]

/-- Another client has started to update the record before that, and writes it afterwards. -/
def updateAmidRecreation : List (Deed storeInterface treeInterface Bool NodeTree) :=
  ⟨false, .starts (StoreCall.update ordersResource), ordersTree (some (ordersStored, 0))⟩ ::
  ⟨false, .asks (TreeCall.get ordersPath), ordersTree (some (ordersStored, 0))⟩ ::
  (recreation ++
    [⟨false, .asks (TreeCall.set ordersPath (Record.encode ordersResource) (some 0)),
      ordersTree (some (ordersKafka, 0))⟩])

theorem run_updateAmidRecreation :
    ∃ y, Shared.Run (fun _ => ordersStore.access) NodeTree.answer
      ⟨ordersTree (some (ordersStored, 0)), fun _ => .idle⟩
      (updateAmidRecreation ++
        [⟨false, .ends (.update ordersResource) (.ok ()), ordersTree (some (ordersResource, 1))⟩])
      y :=
  ⟨_, .cons rfl (.start _) <| .cons rfl (.ask _ _ _) <|
    .cons rfl (.start _) <| .cons rfl (.ask _ _ _) <| .cons rfl (.finish _ _) <|
    .cons rfl (.start _) <| .cons rfl (.ask _ _ _) <| .cons rfl (.finish _ _) <|
    .cons rfl (.ask _ _ _) <| .cons rfl (.finish _ _) <| .nil _⟩

theorem update_guarded_amid_recreation :
    (∃ y, Shared.Run (fun _ => ordersStore.access) NodeTree.answer
      ⟨ordersTree (some (ordersStored, 0)), fun _ => .idle⟩
      (updateAmidRecreation ++
        [⟨false, .ends (.update ordersResource) (.ok ()), ordersTree (some (ordersResource, 1))⟩])
      y) ∧
    ∃ early start during,
      updateAmidRecreation =
        early ++ ⟨false, .starts (StoreCall.update ordersResource), start⟩ :: during ∧
      Guarded false ordersStore ordersResource during (.ok ()) := by
  obtain ⟨y, hrun⟩ := run_updateAmidRecreation
  exact ⟨⟨y, hrun⟩, update_guarded (fun _ => ordersStore) rfl hrun⟩

/-- The version does not tell a record from one that was created in its place. -/
theorem update_ok_amid_recreation :
    (∃ y, Shared.Run (fun _ => ordersStore.access) NodeTree.answer
      ⟨ordersTree (some (ordersStored, 0)), fun _ => .idle⟩
      (⟨false, .starts (StoreCall.update ordersResource), ordersTree (some (ordersStored, 0))⟩ ::
        ⟨false, .asks (TreeCall.get ordersPath), ordersTree (some (ordersStored, 0))⟩ ::
        (recreation ++
          [⟨false, .asks (TreeCall.set ordersPath (Record.encode ordersResource) (some 0)),
              ordersTree (some (ordersKafka, 0))⟩,
            ⟨false, .ends (.update ordersResource) (.ok ()),
              ordersTree (some (ordersResource, 1))⟩]))
      y) ∧ Others false recreation ∧ ¬ Intact ordersPath recreation := by
  refine ⟨run_updateAmidRecreation, ?_, ?_⟩
  · simp [Others, recreation]
  · intro h
    have hdeleted := h ⟨true, .asks (TreeCall.delete ordersPath none),
      ordersTree (some (ordersStored, 0))⟩ (.tail _ (.head _))
    cases hdeleted

end Recreation

end HierarchicalStore

end Update

end TopicSync
