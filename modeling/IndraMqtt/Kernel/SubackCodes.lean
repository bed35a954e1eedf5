import IndraMqtt.Kernel.Subscribe
import IndraMqtt.Router.Refinement
import IndraMqtt.Wire.Suback

/-! Which codes a SUBACK of the kernel holds. The kernel answers without the protocol
version of the client in view, while a client of MQTT 3.1.1 knows only the granted
QoS levels and one failure code. -/
namespace IndraMqtt.Kernel

open Protocol Sessions Routing Wire

variable {env : Env} {codes : List UInt8} {connId : Nat} {router : Router} {after shared : Shared}
  {entry : SubscribeEntry} {sub : Subscription} {filter : TopicFilter}

/-! ### Room in the router -/

def newFilters (router : Router) (clientId tenant : Str) (filters : List TopicFilter) :
    Finset TopicFilter :=
  (filters.filter fun filter =>
    !terminalContains filter.text.levels router.root clientId tenant).toFinset

def Room (router : Router) (clientId tenant : Str) (filters : List TopicFilter) : Prop :=
  newFilters router clientId tenant filters = ∅ ∨
    router.subscriptionCount + (newFilters router clientId tenant filters).card ≤ maxSubscriptions

theorem subscribe_stored_iff (router : Router) (filter : TopicFilter) (sub : Subscription) :
    (router.subscribe filter sub).2 = true ↔
      terminalContains filter.text.levels router.root sub.clientId sub.tenant = true ∨
        router.subscriptionCount < maxSubscriptions := by
  grind [Router.subscribe, Router.noteTenant_root, Router.noteTenant_subscriptionCount]

/-- What a stored subscription changes: the client's entry for the filter is there
afterwards, and the counter goes up when it is new. -/
theorem subscribe_stored (hStored : (router.subscribe filter sub).2 = true) :
    (∀ other : TopicFilter, terminalContains other.text.levels (router.subscribe filter sub).1.root
        sub.clientId sub.tenant =
      (decide (other = filter) ||
        terminalContains other.text.levels router.root sub.clientId sub.tenant)) ∧
      (router.subscribe filter sub).1.subscriptionCount = router.subscriptionCount +
        if terminalContains filter.text.levels router.root sub.clientId sub.tenant then 0
        else 1 := by
  have hPath := Str.levels_ne_nil filter.text
  simp only [Router.subscribe, Router.noteTenant_root, Router.noteTenant_subscriptionCount]
    at hStored ⊢
  split at hStored
  · cases hStored
  · next hAccepted =>
    rw [if_neg hAccepted]
    refine ⟨?_, ?_⟩
    · intro other
      rw [terminalContains_eq _ _ _ _ (Str.levels_ne_nil _),
        terminalContains_eq _ _ _ _ (Str.levels_ne_nil _),
        subsAt_insertOwned _ _ _ _ hPath (hashLast_levels filter) (hashLast_levels other)]
      by_cases hSame : other = filter
      · simp [hSame, holds, Routing.replace, Subscription.owned]
      · simp [hSame, levels_eq_iff]
    · simp only [insertOwned_added _ _ _ hPath (hashLast_levels filter),
        ← terminalContains_eq _ _ _ _ hPath]
      cases terminalContains filter.text.levels router.root sub.clientId sub.tenant with
      | false => rfl
      | true => rfl

theorem room_of_refused (hRefused : (router.subscribe filter sub).2 = false)
    (filters : List TopicFilter) : ¬ Room router sub.clientId sub.tenant (filter :: filters) := by
  have hFull := mt (subscribe_stored_iff router filter sub).mpr (by simp [hRefused])
  simp only [not_or, Bool.not_eq_true, Nat.not_lt] at hFull
  have hNew : filter ∈ newFilters router sub.clientId sub.tenant (filter :: filters) := by
    simp [newFilters, hFull.1]
  have hCard := Finset.card_pos.mpr ⟨filter, hNew⟩
  intro hRoom
  obtain hNone | hFits := hRoom
  · rw [hNone] at hNew
    cases hNew
  · omega

theorem room_cons_iff (hStored : (router.subscribe filter sub).2 = true)
    (filters : List TopicFilter) : Room router sub.clientId sub.tenant (filter :: filters) ↔
      Room (router.subscribe filter sub).1 sub.clientId sub.tenant filters := by
  obtain ⟨hHeld, hCount⟩ := subscribe_stored hStored
  have hFits := (subscribe_stored_iff router filter sub).mp hStored
  unfold Room
  cases hOld : terminalContains filter.text.levels router.root sub.clientId sub.tenant with
  | true => grind [newFilters]
  | false =>
    have hInsert : newFilters router sub.clientId sub.tenant (filter :: filters) =
        insert filter
          (newFilters (router.subscribe filter sub).1 sub.clientId sub.tenant filters) := by
      ext other
      by_cases hOther : other = filter
      · simp [newFilters, hOther, hOld]
      · simp [newFilters, hHeld, hOther]
    have hFresh : filter ∉
        newFilters (router.subscribe filter sub).1 sub.clientId sub.tenant filters := by
      simp [newFilters, hHeld]
    grind

/-! ### The codes -/

theorem subackCode_toU8 (qos : QoS) : SubackCode qos.toU8 := by
  cases qos <;> simp [SubackCode, QoS.toU8]

/-- Every refusal of the request itself has the code of the entry's form. -/
theorem requested_error {code : UInt8} (hRequested : requested env entry = some (.error code)) :
    code = entry.invalidCode := by
  unfold requested at hRequested
  cases hOptions : entry.options with
  | error optionsCode => grind [SubscribeEntry.options, SubscribeEntry.invalidCode]
  | ok options =>
    grind [Option.bind_eq_some_iff, Option.map_eq_some_iff, SubscribeEntry.invalidCode,
      SubscribeEntry.options]

def subscriberName (shared : Shared) (tenant clientId : Str) : Option Str :=
  (shared.sessions.getInTenant tenant clientId).bind (·.username)

section

variable (shared : Shared) (connId : Nat) (clientId tenant : Str) (request : Requested)

theorem storeRequest_spec :
    let stored :=
      shared.router.subscribe request.filter (request.subscription clientId tenant connId)
    (storeRequest shared connId clientId tenant request).1.router = stored.1 ∧
      (storeRequest shared connId clientId tenant request).2.1 =
        if stored.2 then request.options.qos.toU8 else v5SubackQuotaExceeded := by
  grind [storeRequest]

end

/-- An entry that draws a code of MQTT 3.1.1, given room in the router: it is refused in
the legacy form, or its filter is allowed. -/
def EntryFits (env : Env) (tenant clientId : Str) (username : Option Str)
    (entry : SubscribeEntry) : Prop :=
  match requested env entry with
  | none => False
  | some (.error _) => entry.hasOptions = false
  | some (.ok request) => subscribeAllowed env tenant clientId username request.filter = some true

def requestedFilters (env : Env) (entries : List SubscribeEntry) : List TopicFilter :=
  entries.filterMap fun entry =>
    match requested env entry with
    | some (.ok request) => some request.filter
    | _ => none

section

variable {tenant clientId : Str} {entries : List SubscribeEntry} {grants : List GrantedSub}
  (hHandled : subscribeEntries env connId clientId tenant shared entries = some (after, codes, grants))
include hHandled

theorem subscribeEntries_codes_iff : (∀ code ∈ codes, SubackCode code) ↔
      (∀ entry ∈ entries,
        EntryFits env tenant clientId (subscriberName shared tenant clientId) entry) ∧
      Room shared.router clientId tenant (requestedFilters env entries) := by
  induction entries generalizing shared after codes grants with
  | nil => simp_all [subscribeEntries, Room, newFilters, requestedFilters]
  | cons entry entries ih =>
    obtain ⟨⟨next, code, grant⟩, hEntry, hRest⟩ := Option.bind_eq_some_iff.mp hHandled
    obtain ⟨⟨last, codes', grants'⟩, hEntries, hResult⟩ := Option.map_eq_some_iff.mp hRest
    obtain ⟨rfl, rfl, rfl⟩ :
        last = after ∧ code :: codes' = codes ∧ grant.toList ++ grants' = grants := by
      simpa using hResult
    obtain ⟨checked, hRequested, hChecked⟩ := Option.bind_eq_some_iff.mp hEntry
    rw [List.forall_mem_cons, List.forall_mem_cons, ih hEntries]
    cases checked with
    | error refusal =>
      obtain ⟨rfl, rfl, -⟩ : shared = next ∧ refusal = code ∧ none = grant := by
        simpa using hChecked
      have hFilters : requestedFilters env (entry :: entries) = requestedFilters env entries := by
        simp [requestedFilters, hRequested]
      have hFits : EntryFits env tenant clientId (subscriberName shared tenant clientId) entry ↔
          entry.hasOptions = false := by
        simp [EntryFits, hRequested]
      have hCode : SubackCode entry.invalidCode ↔ entry.hasOptions = false := by
        grind [SubscribeEntry.invalidCode, SubackCode, v5SubackUnspecified, v5SubackFilterInvalid]
      rw [hFilters, hFits, requested_error hRequested, hCode, and_assoc]
    | ok request =>
      obtain ⟨allowed, hAllowed, hStored⟩ := Option.map_eq_some_iff.mp hChecked
      have hFilters : requestedFilters env (entry :: entries) =
          request.filter :: requestedFilters env entries := by
        simp [requestedFilters, hRequested]
      have hFits : EntryFits env tenant clientId (subscriberName shared tenant clientId) entry ↔
          allowed = true := by grind [EntryFits, subscriberName]
      rw [hFilters, hFits]
      cases allowed with
      | false => grind [v5SubackNotAuthorized, SubackCode]
      | true =>
        simp only [if_true] at hStored
        obtain ⟨hRouter, hCode⟩ := storeRequest_spec shared connId clientId tenant request
        grind [storeRequest, subscriberName, SessionManager.addSubscriptionInTenant,
          SessionManager.getInTenant, SessionManager.putSession, Router.subscribe,
          Requested.subscription, room_of_refused, SubackCode, v5SubackQuotaExceeded, room_cons_iff,
          subackCode_toU8]

theorem subscribeEntries_length : codes.length = entries.length := by
  induction entries generalizing shared after codes grants with
  | nil => simp_all [subscribeEntries]
  | cons entry entries ih =>
    obtain ⟨⟨next, code, grant⟩, -, hRest⟩ := Option.bind_eq_some_iff.mp hHandled
    grind [Option.map_eq_some_iff]

end

/-- The SUBACK in the answer to a SUBSCRIBE holds the codes of the loop. -/
theorem applySubscribe_suback {subscribe : SubscribeIn} {effects : Effects} {packetId : UInt16}
    (hHandled : applySubscribe shared env connId subscribe = some (after, effects))
    (hSuback : effects.replies.head? = some (.subAckOut packetId codes)) :
    packetId = subscribe.packetId ∧
      ∃ granted grants, subscribeEntries env connId subscribe.clientId
        (sessionTenantForConn shared connId subscribe.clientId) shared subscribe.entries =
          some (granted, codes, grants) := by
  obtain ⟨⟨granted, codes', grants⟩, hEntries, hRest⟩ := Option.bind_eq_some_iff.mp hHandled
  obtain ⟨replayed, -, hResult⟩ := Option.map_eq_some_iff.mp hRest
  unfold newFrame at hResult
  by_cases hFits : 2 + codes'.length ≤ 65535 ∧ 0 ≤ 4294967295
  · grind
  · rw [if_neg hFits] at hResult
    obtain ⟨-, rfl⟩ := Prod.mk.inj hResult
    cases hSuback

/-- Which SUBSCRIBE frames get a SUBACK that a client of MQTT 3.1.1 can read. -/
theorem suback_valid_iff (shared after : Shared) (env : Env) (connId : Nat)
    (subscribe : SubscribeIn) (effects : Effects) (packetId : UInt16) (codes : List UInt8)
    (hHandled : applySubscribe shared env connId subscribe = some (after, effects))
    (hSuback : effects.replies.head? = some (.subAckOut packetId codes)) :
    ((∀ code ∈ codes, SubackCode code) ∧ ValidSuback (encodeSuback packetId codes 4) ∧
        (Edge.encodeSuback packetId codes).isSome) ↔
      let tenant := sessionTenantForConn shared connId subscribe.clientId
      (∀ entry ∈ subscribe.entries, EntryFits env tenant subscribe.clientId
        (subscriberName shared tenant subscribe.clientId) entry) ∧
      Room shared.router subscribe.clientId tenant (requestedFilters env subscribe.entries) := by
  obtain ⟨rfl, granted, grants, hEntries⟩ := applySubscribe_suback hHandled hSuback
  have hId := subscribe.packetId_ne_zero
  have hLength : 2 + codes.length ≤ Edge.maxRemaining := by
    rw [subscribeEntries_length hEntries]
    exact (Nat.add_le_add_left subscribe.entries_le 2).trans (by decide)
  grind [Edge.encodeSuback_isSome_iff, validSuback_encodeSuback, subscribeEntries_codes_iff]

def plainSubscribe (filter : Str) : SubscribeIn := subscribeTo "meter".toList filter 1

/-- Without rules the filter is granted and both front ends can answer. -/
theorem suback_valid_when_granted :
    (∀ code ∈ [(1 : UInt8)], SubackCode code) ∧ ValidSuback (encodeSuback 9 [1] 4) ∧
      (Edge.encodeSuback 9 [1]).isSome := by
  have hHandled : ∃ after effects, applySubscribe (.start .new) Env.plain 7
      (plainSubscribe "a/b".toList) = some (after, effects) ∧
        effects.replies.head? = some (.subAckOut 9 [1]) := by
    refine ⟨_, _, rfl, ?_⟩
    decide +kernel
  obtain ⟨after, effects, hSome, hSuback⟩ := hHandled
  apply (suback_valid_iff (.start .new) after Env.plain 7 (plainSubscribe "a/b".toList) effects 9
    [1] hSome hSuback).mpr
  refine ⟨?_, Or.inr (by decide +kernel)⟩
  intro entry hEntry
  obtain rfl : entry = ⟨"a/b".toList, 1, 0, false⟩ := by
    simpa [plainSubscribe, subscribeTo] using hEntry
  rfl

def denyAllEnv : Env :=
  { Env.plain with
    tenants := Dict.set ∅ Auth.defaultTenantId
      ⟨∅, [⟨"*".toList, .subscribe, "#".toList, false⟩]⟩ }

/-- A denied filter draws the code 0x87, on which the edge raises an error. -/
theorem suback_denied_breaks_edge :
    ((applySubscribe (.start .new) denyAllEnv 7 (plainSubscribe "a/b".toList)).map
        fun result => result.2.replies) = some [.subAckOut 9 [0x87]] ∧
      ¬ SubackCode 0x87 ∧ Edge.encodeSuback 9 [0x87] = none := by
  refine ⟨by decide +kernel, ?_, by decide⟩
  simp [SubackCode]

end IndraMqtt.Kernel
