import IndraMqtt.Kernel.Subscribe
import IndraMqtt.Router.Refinement

/-! The router entries of one client for one filter. A shared request is split before it
reaches the router, so the plain and the shared forms of a filter have one entry of the
client between them. -/
namespace IndraMqtt.Kernel

open Protocol Routing

variable {group : Str} (filter : TopicFilter)

def entriesAt (router : Router) (filter : TopicFilter) : SubscriptionSet :=
  TrieNode.subsAt filter.text.levels router.root

def sharedText (group inner : Str) : Str := "$share/".toList ++ (group ++ '/' :: inner)

theorem stripFront_append (front rest : Str) : stripFront front (front ++ rest) = some rest := by
  induction front with
  | nil => rfl
  | cons c front ih => rw [List.cons_append, stripFront, if_pos rfl, ih]

theorem splitOnce_append (inner : Str) (hSlash : '/' ∉ group) :
    splitOnce (group ++ '/' :: inner) = some (group, inner) := by
  induction group with
  | nil => rfl
  | cons c group ih => grind [splitOnce]

theorem topicFilter_new : TopicFilter.new filter.text = some (.ok filter) := by
  unfold TopicFilter.new
  split
  · next hNone => cases filter.valid.symm.trans hNone
  · rfl
  · next hError => cases filter.valid.symm.trans hError

/-- A shared request to a filter is itself accepted as a filter. -/
theorem validate_sharedText (hHash : '#' ∉ group) :
    TopicFilter.validate (sharedText group filter.text) = some (.ok ()) := by
  have hFront : '#' ∉ "$share/".toList ++ group := by
    rw [List.mem_append, not_or]
    exact ⟨by decide, hHash⟩
  apply (TopicFilter.validate_eq_ok_iff _).mpr
  refine ⟨List.cons_ne_nil _ _, ?_⟩
  have hShape (inner : Str) : sharedText group inner = ("$share/".toList ++ group) ++ '/' :: inner :=
    (List.append_assoc ..).symm
  rcases ((TopicFilter.validate_eq_ok_iff _).mp filter.valid).2 with hFree | hOne | ⟨init, hInit, hFree⟩
  · simp_all
  · right; right
    exact ⟨_, by rw [hOne]; exact hShape ['#'], hFront⟩
  · grind

theorem splitSharedFilter_sharedText {raw filter : TopicFilter}
    (hRaw : raw.text = sharedText group filter.text) (hSome : group ≠ []) (hSlash : '/' ∉ group) :
    splitSharedFilter raw = some (some (some group, filter)) := by
  have hInner : filter.text ≠ [] := ((TopicFilter.validate_eq_ok_iff _).mp filter.valid).1
  have hStrip : stripFront "$share/".toList raw.text = some (group ++ '/' :: filter.text) := by
    rw [hRaw]
    exact stripFront_append _ _
  simp_all [splitSharedFilter, splitOnce_append, topicFilter_new, Except.toOption]

theorem mem_entriesAt {router : Router} {live : Live} (h : Refines router live)
    (filter : TopicFilter) (sub : Subscription) :
    sub ∈ entriesAt router filter ↔ (filter, sub) ∈ live :=
  h.mem_subsAt filter sub

def FormsAgree (filter : TopicFilter) : Prop :=
  ∀ group, group ≠ [] → '/' ∉ group → '#' ∉ group →
    ∃ raw : TopicFilter, raw.text = sharedText group filter.text ∧
      splitSharedFilter raw = some (some (some group, filter))

theorem formsAgree : FormsAgree filter := by
  intro group hSome hSlash hHash
  exact ⟨⟨_, validate_sharedText filter hHash⟩, rfl,
    splitSharedFilter_sharedText rfl hSome hSlash⟩

/-- A granted request, plain or shared, takes the place of the entry that the client has
under the same filter in either form, and a removal takes out the entry of either form. The
entries of other filters, clients and tenants stay as they are. -/
theorem own_entry_replaced {shared next : Shared} {env : Env} {connId : Nat}
    {clientId tenant : Str} {entry : SubscribeEntry} {request : Requested} {code : UInt8}
    {grant : GrantedSub} (history : List RouterOp) (hRouter : shared.router = Router.run history)
    (hRequest : requested env entry = some (.ok request))
    (hEntry : subscribeEntry shared env connId clientId tenant entry =
      some (next, code, some grant)) :
    FormsAgree request.filter ∧
      (∀ filter sub, sub ∈ entriesAt next.router filter ↔
        if filter = request.filter ∧ sub.owned clientId tenant = true then
          sub = request.subscription clientId tenant connId
        else sub ∈ entriesAt shared.router filter) ∧
      ∀ filter sub,
        sub ∈ entriesAt (next.router.unsubscribeInTenant request.filter clientId tenant) filter ↔
          ¬(filter = request.filter ∧ sub.owned clientId tenant = true) ∧
            sub ∈ entriesAt next.router filter := by
  have hBefore := run_refines history
  rw [← hRouter] at hBefore
  have hStored : shared.router.subscribe request.filter
      (request.subscription clientId tenant connId) = (next.router, true) := by
    grind [subscribeEntry, Option.map_eq_some_iff, storeRequest]
  obtain ⟨hAfter, hAnswer⟩ :=
    hBefore.subscribe request.filter (request.subscription clientId tenant connId)
  rw [hStored] at hAfter hAnswer
  have hOwn : (request.subscription clientId tenant connId).owned clientId tenant = true := by
    simp [Subscription.owned, Requested.subscription]
  refine ⟨formsAgree request.filter, ?_, ?_⟩
  · intro filter sub
    rw [mem_entriesAt hAfter, mem_entriesAt hBefore]
    grind [Live.subscribe, Live.mem_unsubscribe, Subscription.owned]
  · intro filter sub
    have hRemoved := hAfter.unsubscribe request.filter clientId tenant
    rw [mem_entriesAt hRemoved, mem_entriesAt hAfter, Live.mem_unsubscribe, not_and,
      Bool.not_eq_true, and_comm]

def subscribeToBoth (first second : Str) : SubscribeIn where
  packetId := 10
  clientId := "meter".toList
  entries := [⟨first, 0, 0, false⟩, ⟨second, 0, 0, false⟩]
  packetId_ne_zero := by decide
  entries_le := by simp

def jobs : TopicFilter := ⟨"jobs".toList, rfl⟩

def groupsAfter (subscribe : SubscribeIn) : Option (List (Option Str)) :=
  (applySubscribe (.start .new) Env.plain 7 subscribe).map fun result =>
    (entriesAt result.1.router jobs).map (·.group)

/-- The form that is requested second is the only one left. -/
theorem second_form_replaces_first :
    groupsAfter (subscribeTo "meter".toList "jobs".toList 0) = some [none] ∧
      groupsAfter (subscribeToBoth "jobs".toList "$share/g/jobs".toList) = some [some "g".toList] ∧
      groupsAfter (subscribeToBoth "$share/g/jobs".toList "jobs".toList) = some [none] := by
  decide +kernel

def jobsRequest : Requested where
  filter := jobs
  group := none
  options :=
    { qos := .atMostOnce, noLocal := false, retainAsPublished := true, retainHandling := 0,
      subscriptionId := 0 }

theorem jobs_entry_removed :
    ∃ next code grant,
      subscribeEntry (.start .new) Env.plain 7 "meter".toList "default".toList
          ⟨"jobs".toList, 0, 0, false⟩ = some (next, code, some grant) ∧
        ∀ sub, sub.owned "meter".toList "default".toList = true →
          sub ∉ entriesAt (next.router.unsubscribeInTenant jobs "meter".toList "default".toList)
            jobs := by
  have hRequest : requested Env.plain ⟨"jobs".toList, 0, 0, false⟩ = some (.ok jobsRequest) := rfl
  have hGranted : ∃ next code grant,
      subscribeEntry (.start .new) Env.plain 7 "meter".toList "default".toList
        ⟨"jobs".toList, 0, 0, false⟩ = some (next, code, some grant) := ⟨_, _, _, rfl⟩
  obtain ⟨next, code, grant, hEntry⟩ := hGranted
  refine ⟨next, code, grant, hEntry, ?_⟩
  intro sub hOwned hMem
  have hRemoved := (own_entry_replaced [] rfl hRequest hEntry).2.2 jobs sub
  exact (hRemoved.mp hMem).1 ⟨rfl, hOwned⟩

end IndraMqtt.Kernel
