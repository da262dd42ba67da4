import Mathlib.Data.List.Nodup
import TopicSync.Proofs.TextMap
import TopicSync.Proofs.Topic.Name
import TopicSync.Proofs.Watch.Feedback

/-!
What the triggers of a watch say of the resources that are in the view. Taken one after the other,
they tell which resource stands for which topic, through whatever events the watch has given, and
each says that a resource is new or that it is another only where that is so. A deletion takes one
resource out of the view. A complete listing settles the view: what it lacks is reported deleted,
once, and nothing else is left in the view.
-/
namespace TopicSync

namespace Trigger

/-- What a trigger makes of the topics that resources stand for. -/
def rebind (m : TextMap TopicName) : Trigger → TextMap TopicName
  | resourceAdded t r | resourceModified t r => m.insert r.text t
  | resourceDeleted _ r => m.erase r.text
  | _ => m

def rebindAll (m : TextMap TopicName) (ts : List Trigger) : TextMap TopicName := ts.foldl rebind m

/-- A resource is added only if it stands for no topic yet, and modified only if it does. -/
def Fits (m : TextMap TopicName) : Trigger → Prop
  | resourceAdded _ r => m.get? r.text = none
  | resourceModified _ r => (m.get? r.text).isSome
  | _ => True

/-- Each trigger fits what those before it have made of the topics. -/
def AllFit (m : TextMap TopicName) : List Trigger → Prop
  | [] => True
  | t :: ts => t.Fits m ∧ AllFit (t.rebind m) ts

theorem rebindAll_append (m : TextMap TopicName) (ts us : List Trigger) :
    rebindAll m (ts ++ us) = rebindAll (rebindAll m ts) us :=
  List.foldl_append

theorem allFit_append {m : TextMap TopicName} {ts us : List Trigger} :
    AllFit m (ts ++ us) ↔ AllFit m ts ∧ AllFit (rebindAll m ts) us := by
  induction ts generalizing m with
  | nil => simp [AllFit, rebindAll]
  | cons t ts ih => simp [AllFit, rebindAll, ih, and_assoc]

end Trigger

namespace ResourceView

open Trigger (rebind rebindAll AllFit)

variable {managed : Selector}

/-- The topics that the resources in the view stand for. -/
def bound (v : ResourceView) : TextMap TopicName := v.seen.map Seen.topic

/-- The events list a resource of this name. -/
def Lists (es : List WatchEvent) (name : String) : Prop := ∃ r, .listed r ∈ es ∧ r.nameText = name

/-- No listing begins or ends among the events. -/
def Uncut (es : List WatchEvent) : Prop := ∀ e ∈ es, e ≠ .start ∧ e ≠ .finished

/-- The end of a listing leaves no resource in the view that was not listed. If nothing else was
observed meanwhile, each resource is there as it was listed last, provided that it is managed then
and names a legal topic. What else was in the view is reported deleted, once, with the topic that it
stood for, and that is all that is reported. -/
structure Settles (managed : Selector) (during : List WatchEvent) (v w : ResourceView)
    (ts : List Trigger) : Prop where
  listed : ∀ name, (w.seen.get? name).isSome → Lists during name
  current : ∀ rs r rs' topic, during = (rs ++ r :: rs').map .listed →
    (∀ r' ∈ rs', r'.nameText ≠ r.nameText) → r.isManaged managed = true →
    r.topicName = .ok topic → w.seen.get? r.nameText = some ⟨topic, r.metadata.generation⟩
  gone : ∀ x, x ∈ ts ↔ ∃ name s, v.seen.get? name = some s ∧ ¬ Lists during name ∧
    x = .resourceDeleted s.topic ⟨name⟩
  once : (ts.map Trigger.resource?).Nodup

/-- The deletion of a resource takes it, and no other, out of the view. It is reported, once, with
the topic that was seen last; if the resource was not in the view, with the topic that the deleted
object names, and not at all if that is not legal. -/
structure Drops (v : ResourceView) (r : Resource) (w : ResourceView) (ts : List Trigger) :
    Prop where
  gone : w.seen.get? r.nameText = none
  others : ∀ name, name ≠ r.nameText → w.seen.get? name = v.seen.get? name
  seen : ∀ s, v.seen.get? r.nameText = some s → ts = [.resourceDeleted s.topic ⟨r.nameText⟩]
  named : ∀ topic, v.seen.get? r.nameText = none → r.topicName = .ok topic →
    ts = [.resourceDeleted topic ⟨r.nameText⟩]
  unnamed : ∀ e, v.seen.get? r.nameText = none → r.topicName = .error e → ts = []

theorem get?_bound (v : ResourceView) (name : String) :
    v.bound.get? name = (v.seen.get? name).map Seen.topic :=
  TextMap.get?_map ..

section Steps

/-- What is told of a resource that is there is what the view makes of it. -/
theorem rebind_apply (v : ResourceView) (r : Resource) :
    rebindAll v.bound (v.apply r).1.toList = (v.apply r).2.bound ∧
      AllFit v.bound (v.apply r).1.toList := by
  rw [apply]
  split
  · exact ⟨rfl, trivial⟩
  · split
    · exact ⟨rfl, trivial, trivial⟩
    next topic _ =>
      -- The resource stands for the topic afterwards, whether or not that is news.
      have hafter : ∀ now : Seen, ({ v with seen := v.seen.insert r.nameText now }).bound =
          v.bound.insert r.nameText now.topic := by
        intro now
        refine TextMap.ext fun k => ?_
        rw [get?_bound, TextMap.get?_insert, TextMap.get?_insert, get?_bound]
        split <;> rfl
      simp only [hafter]
      cases hseen : v.seen.get? r.nameText with
      | none =>
        exact ⟨rfl, by simp [AllFit, Trigger.Fits, get?_bound, hseen]⟩
      | some before =>
        by_cases hsame : before = ⟨topic, r.metadata.generation⟩
        · have hkept : v.bound.insert r.nameText topic = v.bound := by
            refine TextMap.ext fun k => ?_
            rw [TextMap.get?_insert]
            split
            next hk => rw [hk, get?_bound, hseen, hsame]; rfl
            next => rfl
          simp [hsame, hkept, rebindAll, AllFit]
        · simp [hsame, rebindAll, rebind, AllFit, Trigger.Fits, get?_bound, hseen]

theorem drops_remove (v : ResourceView) (r : Resource) :
    Drops v r (v.remove r).2 (v.remove r).1.toList where
  gone := (TextMap.get?_erase ..).trans (if_pos rfl)
  others name hne := (TextMap.get?_erase ..).trans (if_neg hne)
  seen s hs := by simp [remove, hs]
  named topic hnone ht := by
    have hnamed : TopicName.ofText? r.topicText = some topic :=
      TopicName.ofText?_eq_some_iff_ofText.2 ht
    simp [remove, hnone, hnamed]
  unnamed e hnone he := by
    have hunnamed : TopicName.ofText? r.topicText = none := by
      rw [Option.eq_none_iff_forall_ne_some]
      intro topic hnamed
      cases he.symm.trans (TopicName.ofText?_eq_some_iff_ofText.1 hnamed)
    simp [remove, hnone, hunnamed]

theorem rebind_remove (v : ResourceView) (r : Resource) :
    rebindAll v.bound (v.remove r).1.toList = (v.remove r).2.bound ∧
      AllFit v.bound (v.remove r).1.toList := by
  have hdrops := v.drops_remove r
  have hafter : (v.remove r).2.bound = v.bound.erase r.nameText := by
    refine TextMap.ext fun k => ?_
    rw [get?_bound, TextMap.get?_erase, get?_bound]
    split
    next hk => rw [hk, hdrops.gone]; rfl
    next hk => rw [hdrops.others k hk]
  rw [hafter]
  cases hseen : v.seen.get? r.nameText with
  | some s => simp [hdrops.seen s hseen, rebindAll, rebind, AllFit, Trigger.Fits]
  | none =>
    -- Nothing is unbound if the resource was not in the view.
    have hkept : v.bound.erase r.nameText = v.bound := by
      refine TextMap.ext fun k => ?_
      rw [TextMap.get?_erase]
      split
      next hk => rw [hk, get?_bound, hseen]; rfl
      next => rfl
    cases htopic : r.topicName with
    | ok topic =>
      simp [hdrops.named topic hseen htopic, rebindAll, rebind, AllFit, Trigger.Fits, hkept]
    | error e => simp [hdrops.unnamed e hseen htopic, rebindAll, AllFit, hkept]

/-- Reports of deletions take away just the resources that they name. -/
theorem rebindAll_deleted {ts : List Trigger}
    (h : ∀ t ∈ ts, ∃ topic name, t = .resourceDeleted topic name) (m : TextMap TopicName) :
    AllFit m ts ∧ ∀ k, (rebindAll m ts).get? k =
      if some ⟨k⟩ ∈ ts.map Trigger.resource? then none else m.get? k := by
  induction ts generalizing m with
  | nil => exact ⟨trivial, fun k => by simp [rebindAll]⟩
  | cons t ts ih =>
    obtain ⟨topic, name, rfl⟩ := h t (.head _)
    obtain ⟨hfit, hget⟩ := ih (fun t ht => h t (.tail _ ht)) (m.erase name.text)
    refine ⟨⟨trivial, hfit⟩, fun k => ?_⟩
    have hstep : rebindAll m (.resourceDeleted topic name :: ts) =
        rebindAll (m.erase name.text) ts := rfl
    rw [hstep, hget, TextMap.get?_erase]
    by_cases hname : k = name.text
    · simp [hname, Trigger.resource?]
    · have hne : (⟨k⟩ : ResourceName) ≠ name := fun h => hname (congrArg ResourceName.text h)
      simp [hname, hne, Trigger.resource?]

/-- The reports that close a listing: of each resource in the view that it lacks, that it is
gone. -/
theorem mem_finish {v : ResourceView} {names : List String} (hl : v.listing = some names)
    {x : Trigger} :
    x ∈ v.finish.1 ↔ ∃ name s, v.seen.get? name = some s ∧ name ∉ names ∧
      x = .resourceDeleted s.topic ⟨name⟩ := by
  simp only [finish, hl, List.mem_filterMap, Prod.exists, TextMap.get?_eq_some_iff]
  constructor
  · rintro ⟨name, s, hs, hx⟩
    split at hx
    · cases hx
    next hno => exact ⟨name, s, hs, by simpa using hno, (Option.some.inj hx).symm⟩
  · rintro ⟨name, s, hs, hno, rfl⟩
    exact ⟨name, s, hs, by simp [hno]⟩

theorem get?_finish {v : ResourceView} {names : List String} (hl : v.listing = some names)
    (k : String) :
    v.finish.2.seen.get? k = if k ∈ names then v.seen.get? k else none := by
  simp only [finish, hl, TextMap.get?_filter]
  by_cases hk : k ∈ names <;> cases v.seen.get? k <;> simp [hk]

theorem nodup_finish (v : ResourceView) : (v.finish.1.map Trigger.resource?).Nodup := by
  cases hl : v.listing with
  | none => simp [finish, hl]
  | some names =>
    have hsub : ∀ es : List (String × Seen),
        ((es.filterMap fun e => if names.contains e.1 then none
          else some (Trigger.resourceDeleted e.2.topic ⟨e.1⟩)).map Trigger.resource?).Sublist
          ((es.map (·.1)).map fun k => some ⟨k⟩) := by
      intro es
      induction es with
      | nil => exact .slnil
      | cons e es ih =>
        rw [List.filterMap_cons]
        split
        next => exact ih.cons _
        next hx =>
          split at hx
          · cases hx
          · cases hx
            exact ih.cons_cons _
    have hinj : Function.Injective fun k : String => some (⟨k⟩ : ResourceName) := by
      intro a b hab
      exact congrArg ResourceName.text (Option.some.inj hab)
    simp only [finish, hl]
    exact (hsub _).nodup (v.seen.nodup_keys.map hinj)

theorem rebind_finish (v : ResourceView) :
    rebindAll v.bound v.finish.1 = v.finish.2.bound ∧ AllFit v.bound v.finish.1 := by
  cases hl : v.listing with
  | none => simp [finish, hl, rebindAll, AllFit]
  | some names =>
    have hdeleted : ∀ t ∈ v.finish.1, ∃ topic name, t = .resourceDeleted topic name := by
      intro t ht
      obtain ⟨name, s, _, _, rfl⟩ := (mem_finish hl).1 ht
      exact ⟨_, _, rfl⟩
    have hnamed : ∀ k, some ⟨k⟩ ∈ v.finish.1.map Trigger.resource? ↔
        (v.seen.get? k).isSome ∧ k ∉ names := by
      intro k
      simp only [List.mem_map, mem_finish hl, Option.isSome_iff_exists]
      constructor
      · rintro ⟨x, ⟨name, s, hs, hno, rfl⟩, hx⟩
        cases hx
        exact ⟨⟨s, hs⟩, hno⟩
      · rintro ⟨⟨s, hs⟩, hno⟩
        exact ⟨_, ⟨k, s, hs, hno, rfl⟩, rfl⟩
    obtain ⟨hfit, hget⟩ := rebindAll_deleted hdeleted v.bound
    refine ⟨TextMap.ext fun k => ?_, hfit⟩
    rw [hget, get?_bound, get?_bound, get?_finish hl]
    by_cases hk : k ∈ names
    · simp [hnamed, hk]
    · cases hs : v.seen.get? k <;> simp [hnamed, hk, hs]

/-- The triggers of one event make of the topics before it those after it. -/
theorem rebind_observe (v : ResourceView) (e : WatchEvent) :
    rebindAll v.bound (v.observe e).1 = (v.observe e).2.bound ∧
      AllFit v.bound (v.observe e).1 := by
  cases e with
  | start => exact ⟨rfl, trivial⟩
  | listed r => exact rebind_apply { v with listing := v.listing.map (r.nameText :: ·) } r
  | finished => exact v.rebind_finish
  | applied r => exact v.rebind_apply r
  | deleted r => exact v.rebind_remove r

theorem rebind_observeAll (v : ResourceView) (es : List WatchEvent) :
    rebindAll v.bound (v.observeAll es).1 = (v.observeAll es).2.bound ∧
      AllFit v.bound (v.observeAll es).1 := by
  induction es generalizing v with
  | nil => exact ⟨rfl, trivial⟩
  | cons e es ih =>
    obtain ⟨hstep, hfit⟩ := v.rebind_observe e
    obtain ⟨hrest, hfits⟩ := ih (v.observe e).2
    simp only [observeAll]
    rw [Trigger.rebindAll_append, Trigger.allFit_append, hstep]
    exact ⟨hrest, hfit, hfits⟩

end Steps

section Listings

theorem listing_apply (v : ResourceView) (r : Resource) : (v.apply r).2.listing = v.listing := by
  rw [apply]
  split
  · rfl
  · split <;> rfl

/-- While a listing is under way, the names that it has given so far are kept. -/
theorem listing_observeAll {v : ResourceView} {names : List String} (hl : v.listing = some names)
    {es : List WatchEvent} (hes : Uncut es) :
    ∃ names', (v.observeAll es).2.listing = some names' ∧
      ∀ name, name ∈ names' ↔ name ∈ names ∨ Lists es name := by
  induction es generalizing v names with
  | nil => exact ⟨names, hl, by simp [Lists]⟩
  | cons e es ih =>
    have hrest : Uncut es := fun e' he' => hes e' (.tail _ he')
    -- An event that lists nothing leaves the names as they were.
    have hother : (v.observe e).2.listing = v.listing → (∀ r, e ≠ .listed r) →
        ∃ names', (v.observeAll (e :: es)).2.listing = some names' ∧
          ∀ name, name ∈ names' ↔ name ∈ names ∨ Lists (e :: es) name := by
      intro hsame hnot
      obtain ⟨names', hnames', hmem⟩ := ih (hsame.trans hl) hrest
      refine ⟨names', hnames', fun name => (hmem name).trans (or_congr_right ?_)⟩
      simp [Lists, (hnot _).symm]
    cases e with
    | start => exact absurd rfl (hes .start (.head _)).1
    | finished => exact absurd rfl (hes .finished (.head _)).2
    | applied r => exact hother (listing_apply v r) (by simp)
    | deleted r => exact hother rfl (by simp)
    | listed r =>
      have hstep : (v.observe (.listed r)).2.listing = some (r.nameText :: names) := by
        rw [observe]
        exact (listing_apply _ r).trans (by simp [hl])
      obtain ⟨names', hnames', hmem⟩ := ih hstep hrest
      refine ⟨names', hnames', fun name => (hmem name).trans ?_⟩
      simp [Lists, or_and_right, exists_or, or_assoc, eq_comm, or_left_comm]

/-- Taking in a resource matters to no other one. -/
theorem get?_apply_of_ne (v : ResourceView) {r : Resource} {name : String}
    (hne : r.nameText ≠ name) : (v.apply r).2.seen.get? name = v.seen.get? name := by
  rw [apply]
  split
  · rfl
  · split
    · rfl
    · simp [Ne.symm hne]

theorem get?_observeAll_listed_of_ne (v : ResourceView) {rs : List Resource} {name : String}
    (hne : ∀ r ∈ rs, r.nameText ≠ name) :
    (v.observeAll (rs.map .listed)).2.seen.get? name = v.seen.get? name := by
  induction rs generalizing v with
  | nil => rfl
  | cons r rs ih =>
    rw [List.map_cons, observeAll, ih _ fun r' hr' => hne r' (.tail _ hr')]
    exact get?_apply_of_ne { v with listing := _ } (hne r (.head _))

/-- A managed resource with a legal topic is in the view once it has been taken in. -/
theorem get?_apply_self {v : ResourceView} {r : Resource} {topic : TopicName}
    (hm : r.isManaged v.managed = true) (ht : r.topicName = .ok topic) :
    (v.apply r).2.seen.get? r.nameText = some ⟨topic, r.metadata.generation⟩ := by
  simp [apply, hm, ht]

/-- What was listed last of a name is in the view, if nothing but the listing was observed. -/
theorem get?_observeAll_listed (v : ResourceView) (rs rs' : List Resource) {r : Resource}
    {topic : TopicName} (hlast : ∀ r' ∈ rs', r'.nameText ≠ r.nameText)
    (hm : r.isManaged v.managed = true) (ht : r.topicName = .ok topic) :
    (v.observeAll ((rs ++ r :: rs').map .listed)).2.seen.get? r.nameText =
      some ⟨topic, r.metadata.generation⟩ := by
  rw [List.map_append, observeAll_append, List.map_cons]
  have hmanaged : r.isManaged (v.observeAll (rs.map .listed)).2.managed = true := by
    rwa [managed_observeAll]
  simp only [observeAll]
  rw [get?_observeAll_listed_of_ne _ hlast]
  exact get?_apply_self (v := { (v.observeAll (rs.map .listed)).2 with listing := _ }) hmanaged ht

theorem settles_finish (v : ResourceView) {during : List WatchEvent} (h : Uncut during) :
    let w := (v.observeAll (.start :: during)).2
    Settles v.managed during w (w.observe .finished).2 (w.observe .finished).1 := by
  intro w
  have hstart : (v.observe .start).2.listing = some [] := rfl
  obtain ⟨names, hnow, hnames⟩ := listing_observeAll hstart h
  have hl : w.listing = some names := hnow
  have hmem : ∀ name, name ∈ names ↔ Lists during name := fun name =>
    (hnames name).trans (by simp)
  refine ⟨fun name hname => ?_, ?_, fun x => ?_, nodup_finish w⟩
  case refine_1 =>
    have hthere : name ∈ names := by
      by_contra hno
      rw [observe, get?_finish hl, if_neg hno] at hname
      cases hname
    exact (hmem name).1 hthere
  case refine_2 =>
    rintro rs r rs' topic rfl hlast hm ht
    have hlisted : r.nameText ∈ names := (hmem _).2 ⟨r, by simp, rfl⟩
    rw [observe, get?_finish hl, if_pos hlisted]
    exact get?_observeAll_listed (v.observe .start).2 rs rs' hlast hm ht
  case refine_3 =>
    rw [observe, mem_finish hl]
    simp only [hmem]

end Listings

/-- For every sequence of events: the triggers, taken one after the other from nothing, bind each
resource in the view to its topic and no other, adding only what is not bound and modifying only
what is; whatever resource is deleted next is dropped; and whenever a listing ends, that settles the
view. -/
theorem triggers_of_events (managed : Selector) (es : List WatchEvent) :
    let ts := ((create managed).observeAll es).1
    let v := ((create managed).observeAll es).2
    rebindAll .empty ts = v.bound ∧ AllFit .empty ts ∧
      (∀ r, Drops v r (v.observe (.deleted r)).2 (v.observe (.deleted r)).1) ∧
      ∀ before during, es = before ++ .start :: during → Uncut during →
        Settles managed during v (v.observe .finished).2 (v.observe .finished).1 := by
  intro ts v
  have hnone : (create managed).bound = .empty := rfl
  obtain ⟨hbound, hfit⟩ := (create managed).rebind_observeAll es
  rw [hnone] at hbound hfit
  refine ⟨hbound, hfit, v.drops_remove, fun before during hes hduring => ?_⟩
  have hv : v = (((create managed).observeAll before).2.observeAll (.start :: during)).2 := by
    simp only [v, hes, observeAll_append]
  have hsettles := settles_finish ((create managed).observeAll before).2 hduring
  rw [managed_observeAll, ← hv] at hsettles
  exact hsettles

/-- A resource `orders` that was seen, and is missing from the next listing, is reported deleted, as
it is if its deletion is observed, with the topic that was seen. -/
theorem triggers_of_events_orders :
    let v := ((create .managed).observeAll [.applied freshOrders, .start]).2
    .resourceDeleted ⟨"orders", by decide⟩ ⟨"orders"⟩ ∈ (v.observe .finished).1 ∧
      (v.observe (.deleted freshOrders)).1 = [.resourceDeleted ⟨"orders", by decide⟩ ⟨"orders"⟩] ∧
      (v.observe (.deleted freshOrders)).2.seen.get? "orders" = none := by
  obtain ⟨-, -, hdrops, hsettles⟩ := triggers_of_events .managed [.applied freshOrders, .start]
  have hseen : (((create .managed).observeAll [.applied freshOrders, .start]).2.seen.get?
      "orders") = some ⟨⟨"orders", by decide⟩, some 1⟩ := by
    decide +kernel
  refine ⟨?_, (hdrops freshOrders).seen _ hseen, (hdrops freshOrders).gone⟩
  have hsettled := hsettles [.applied freshOrders] [] rfl (by simp [Uncut])
  exact (hsettled.gone _).2 ⟨"orders", _, hseen, by simp [Lists], rfl⟩

end ResourceView

end TopicSync
