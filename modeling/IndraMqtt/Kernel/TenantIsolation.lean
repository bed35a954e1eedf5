import IndraMqtt.Kernel.QuietRules
import IndraMqtt.Router.Refinement
import IndraMqtt.Router.SharedGroups

/-! Tenants are kept apart by the ingress pipeline. A message reaches the connections, the
sessions and the retained entries of its own tenant. What has no tenant (rules, CoAP observers
and peers of the cluster) sees the messages of the default tenant only. -/
namespace IndraMqtt.Kernel

open Protocol Sessions Routing

variable {env : Env} {message : Ingress} {now : Nat} {sessions : SessionManager} {shared : Shared}
  {sub : Subscription}

structure CoapObserver where
  peer : Str
  token : Payload
  deriving DecidableEq

/-- What a message can reach outside the node's own connections: the CoAP observers by topic,
when the gateway has a socket, and the peers of a cluster by the routes to them. -/
structure Beyond where
  coapSocket : Bool
  observers : Dict Str (List CoapObserver)
  resolveRoute : Option (Topic → Option (List Str))

def maybeNotifyCoapObservers (beyond : Beyond) (topic : Topic) (payload : Payload) :
    List (CoapObserver × Payload) :=
  if beyond.coapSocket then
    ((beyond.observers.get? topic.text).getD []).map fun observer => (observer, payload)
  else []

/-- A message to a peer of the cluster. It has no field for a tenant. -/
structure Forwarded where
  target : Str
  topic : Topic
  payload : Payload
  qos : QoS
  deriving DecidableEq

def forwardCluster (beyond : Beyond) (message : Ingress) : List Forwarded :=
  if Auth.isDefaultTenant message.tenant then
    match beyond.resolveRoute with
    | none => []
    | some resolve =>
      ((resolve message.topic).getD []).map fun target =>
        ⟨target, message.topic, message.payload, message.qos⟩
  else []

/-- What a message reaches: what the rules routed, the deliveries of the fan-out, the
notified observers and the forwards. -/
structure Reach where
  ruled : List (Nat × OutFrame)
  deliveries : List (Nat × OutFrame)
  notified : List (CoapObserver × Payload)
  forwarded : List Forwarded

/-- The ingress pipeline with its CoAP part, and the forward that follows it. -/
def publishIngress (shared : Shared) (env : Env) (beyond : Beyond) (message : Ingress) :
    Option (Shared × Reach) :=
  (ingressPipeline shared env message).map fun result =>
    (result.1,
      { ruled := result.2.1
        deliveries := result.2.2
        notified :=
          if Auth.isDefaultTenant message.tenant then
            maybeNotifyCoapObservers beyond message.topic message.payload
          else []
        forwarded := forwardCluster beyond message })

/-- Two ids of one tenant. The empty id is the default tenant. -/
def SameTenant (tenant tenant' : Str) : Prop :=
  tenant = tenant' ∨
    (Auth.isDefaultTenant tenant = true ∧ Auth.isDefaultTenant tenant' = true)

/-- The balancing of the environment is that of the router. -/
def Balances (env : Env) : Prop :=
  ∀ topic publisher, ∃ pick, env.balance topic publisher = balanceSharedGroups pick

/-- The connection on which a subscription is served: that of its session, or the one it was
made on when it has no session. -/
def ServedOn (sessions : SessionManager) (sub : Subscription) (connId : Nat) : Prop :=
  match sessions.sessions.get? { tenant := sub.tenant, clientId := sub.clientId } with
  | some session => session.connected = true ∧ session.connId = some connId
  | none => connId = sub.connId

def ServesTenant (shared : Shared) (tenant : Str) (connId : Nat) : Prop :=
  ∃ topic : Topic, ∃ sub, Reaches topic.text.levels shared.router.root sub ∧
    SameTenant sub.tenant tenant ∧ ServedOn shared.sessions sub connId

variable {after : SessionManager} {connId : Nat} {session : Session}
  {result : Shared × List (Nat × OutFrame)}

theorem SameViews.servedOn {before : SessionManager} (hSame : SameViews before after)
    (hServed : ServedOn after sub connId) : ServedOn before sub connId := by
  have hViews := hSame.views { tenant := sub.tenant, clientId := sub.clientId }
  unfold ServedOn at hServed ⊢
  cases hAfter : after.sessions.get? { tenant := sub.tenant, clientId := sub.clientId } with
  | none => simp_all
  | some session =>
    rw [hAfter] at hServed hViews
    obtain ⟨found, hFound, hView⟩ := Option.map_eq_some_iff.mp hViews.symm
    have hConnected : found.connected = session.connected := congrArg BindingView.connected hView
    have hConn : found.connId = session.connId := congrArg BindingView.connId hView
    rw [hFound]
    exact ⟨hConnected.trans hServed.1, hConn.trans hServed.2⟩

/-! ### Sessions -/

/-- Sessions and queue files that are not of the tenant stay as they are, and every session
keeps its connection. -/
structure Confined (tenant : Str) (before after : SessionManager) : Prop where
  views : SameViews before after
  sessions : ∀ key, ¬ SameTenant key.tenant tenant →
    after.sessions.get? key = before.sessions.get? key
  files : ∀ key, ¬ SameTenant key.tenant tenant → after.store.load key = before.store.load key

namespace Confined

variable {tenant : Str}

theorem refl (manager : SessionManager) : Confined tenant manager manager :=
  ⟨.refl manager, fun _ _ => rfl, fun _ _ => rfl⟩

theorem trans {first second third : SessionManager} (hFirst : Confined tenant first second)
    (hSecond : Confined tenant second third) : Confined tenant first third where
  views := hFirst.views.trans hSecond.views
  sessions key hOther := (hSecond.sessions key hOther).trans (hFirst.sessions key hOther)
  files key hOther := (hSecond.files key hOther).trans (hFirst.files key hOther)

/-- The two ids of a tenant are confined alike. -/
theorem congr {tenant' : Str} {before : SessionManager} (hConfined : Confined tenant before after)
    (hSame : ∀ other, SameTenant other tenant → SameTenant other tenant') :
    Confined tenant' before after where
  views := hConfined.views
  sessions key hOther := hConfined.sessions key fun hTenant => hOther (hSame _ hTenant)
  files key hOther := hConfined.files key fun hTenant => hOther (hSame _ hTenant)

end Confined

variable {tenant : Str}

theorem confined_deliverDetached {effective : QoS} {retain : Bool}
    (hStored : sessions.sessions.get? session.key = some session)
    (hTenant : session.tenantId = tenant) : Confined tenant sessions
      (deliverDetached sessions session message effective retain now) := by
  unfold deliverDetached
  split
  · exact .refl sessions
  · simp only
    have hView := view_pushOfflineWithLimit session sessions.store
      { topic := message.topic, qos := effective, retain, payload := message.payload,
        publishAtMs := none } sessions.maxOfflineQueue now
    have hKey := key_of_view hView
    constructor
    · exact ⟨(SameViews.putSession hStored hView).views, rfl⟩
    · intro key hOther
      have hNe : key ≠ session.key := by
        rintro rfl
        exact hOther (.inl hTenant)
      refine (KeyedMap.get?_put ..).trans (if_neg ?_)
      rw [hKey]
      exact hNe
    · intro key hOther
      apply Session.load_pushOfflineWithLimit_other
      rintro rfl
      exact hOther (.inl hTenant)

theorem confined_putSession {session' : Session}
    (hStored : sessions.sessions.get? session.key = some session)
    (hView : view session' = view session) (hTenant : session.tenantId = tenant) :
    Confined tenant sessions (sessions.putSession session') where
  views := .putSession hStored hView
  sessions key hOther := by
    refine (KeyedMap.get?_put ..).trans (if_neg ?_)
    rw [key_of_view hView]
    rintro rfl
    exact hOther (.inl hTenant)
  files _ _ := rfl

/-- One delivery: a session of the subscription's tenant changes, and the frame goes to the
connection that serves the subscription. -/
theorem deliver_confined {result : SessionManager × Option (Nat × OutFrame)}
    (hDeliver : deliver sessions message now sub = some result) :
    Confined sub.tenant sessions result.1 ∧
      ∀ delivery ∈ result.2, ServedOn sessions sub delivery.1 := by
  obtain rfl | ⟨session, connId, delivered, hFound, hConnected, hConn, -, hLive, rfl⟩ |
    ⟨session, hFound, -, rfl⟩ | ⟨hNone, out, -, -, rfl⟩ := deliver_cases hDeliver
  · exact ⟨.refl sessions, nofun⟩
  · have hTenant : session.tenantId = sub.tenant :=
      congrArg SessionKey.tenant (KeyedMap.key_of_get? hFound)
    refine ⟨confined_putSession (stored_of_get? hFound) (view_deliverLive hLive) hTenant, ?_⟩
    simp_all [ServedOn]
  · have hTenant : session.tenantId = sub.tenant :=
      congrArg SessionKey.tenant (KeyedMap.key_of_get? hFound)
    exact ⟨confined_deliverDetached (stored_of_get? hFound) hTenant, nofun⟩
  · refine ⟨.refl sessions, ?_⟩
    simp_all [ServedOn]

theorem deliverAll_confined {subs : SubscriptionSet}
    {result : SessionManager × List (Nat × OutFrame)} (hTenant : ∀ sub ∈ subs, sub.tenant = tenant)
    (hDeliver : deliverAll message now sessions subs = some result) :
    Confined tenant sessions result.1 ∧
      ∀ delivery ∈ result.2, ∃ sub ∈ subs, ServedOn sessions sub delivery.1 := by
  induction subs generalizing sessions result with
  | nil =>
    cases hDeliver
    exact ⟨.refl sessions, nofun⟩
  | cons sub subs ih =>
    rw [List.forall_mem_cons] at hTenant
    obtain ⟨first, hFirst, hRest⟩ := Option.bind_eq_some_iff.mp hDeliver
    obtain ⟨rest, hTail, rfl⟩ := Option.map_eq_some_iff.mp hRest
    obtain ⟨hConfined, hServed⟩ := deliver_confined hFirst
    obtain ⟨hConfinedRest, hServedRest⟩ := ih hTenant.2 hTail
    rw [hTenant.1] at hConfined
    refine ⟨hConfined.trans hConfinedRest, ?_⟩
    intro delivery hMem
    obtain hHead | hLater := List.mem_append.mp hMem
    · exact ⟨sub, List.mem_cons_self, hServed delivery (Option.mem_toList.mp hHead)⟩
    · obtain ⟨later, hSub, hLaterServed⟩ := hServedRest delivery hLater
      -- the connections are those before the loop, since a delivery moves none of them
      exact ⟨later, List.mem_cons_of_mem _ hSub, hConfined.views.servedOn hLaterServed⟩

theorem mem_matched (hBalances : Balances env) {root : TrieNode} {topic : Topic}
    {publisher : Option Str}
    (hMem : sub ∈ env.balance topic publisher (matchRecursiveInTenant topic.text.levels root
      tenant).1) : Reaches topic.text.levels root sub ∧ sub.tenant = tenant := by
  obtain ⟨pick, hPick⟩ := hBalances topic publisher
  rw [hPick] at hMem
  rw [← mem_matchRecursiveInTenant _ _ _ _ (Str.levels_ne_nil _) topic.level_ne_wildcard]
  exact balanceSharedGroups_subset pick _ hMem

/-- A fan-out. -/
theorem buildDownlinkFrames_confined (hBalances : Balances env)
    (hBuild : buildDownlinkFrames shared env message = some result) :
    result.1 = { shared with sessions := result.1.sessions } ∧
      Confined message.tenant shared.sessions result.1.sessions ∧
      ∀ delivery ∈ result.2, ServesTenant shared message.tenant delivery.1 := by
  obtain ⟨delivered, hDelivered, rfl⟩ := Option.map_eq_some_iff.mp hBuild
  have hOwn : ∀ sub ∈ env.balance message.topic message.publisher
      (matchRecursiveInTenant message.topic.text.levels shared.router.root message.tenant).1,
      sub.tenant = message.tenant := fun _ hMem => (mem_matched hBalances hMem).2
  obtain ⟨hConfined, hServed⟩ := deliverAll_confined hOwn hDelivered
  refine ⟨rfl, hConfined, ?_⟩
  intro delivery hMem
  obtain ⟨sub, hSub, hOn⟩ := hServed delivery hMem
  obtain ⟨hReaches, hTenant⟩ := mem_matched hBalances hSub
  exact ⟨message.topic, sub, hReaches, .inl hTenant, hOn⟩

theorem ServesTenant.before {before after : Shared} (hServes : ServesTenant after tenant connId)
    (hRouter : after.router = before.router) (hViews : SameViews before.sessions after.sessions) :
    ServesTenant before tenant connId := by
  obtain ⟨topic, sub, hReaches, hTenant, hOn⟩ := hServes
  rw [hRouter] at hReaches
  exact ⟨topic, sub, hReaches, hTenant, hViews.servedOn hOn⟩

theorem publishRuleOutputs_confined (hBalances : Balances env) {outputs : List RuleOutput}
    (hPublish : publishRuleOutputs env shared outputs = some result) :
    result.1.router = shared.router ∧ result.1.retained = shared.retained ∧
      Confined Sessions.defaultTenantId shared.sessions result.1.sessions ∧
      ∀ delivery ∈ result.2, ServesTenant shared Sessions.defaultTenantId delivery.1 := by
  induction outputs generalizing shared result with
  | nil =>
    cases hPublish
    exact ⟨rfl, rfl, .refl _, nofun⟩
  | cons output outputs ih =>
    obtain ⟨first, hFirst, hRest⟩ := Option.bind_eq_some_iff.mp hPublish
    obtain ⟨rest, hTail, rfl⟩ := Option.map_eq_some_iff.mp hRest
    obtain ⟨built, hBuilt, rfl⟩ := Option.map_eq_some_iff.mp hFirst
    obtain ⟨hBuiltShared, hConfined, hServes⟩ := buildDownlinkFrames_confined hBalances hBuilt
    obtain ⟨hRouter, hRetained, hConfinedRest, hServesRest⟩ := ih hTail
    rw [routeAll_conns] at hRouter hRetained hConfinedRest
    have hOwnRouter : built.1.router = shared.router := by rw [hBuiltShared]
    have hOwnRetained : built.1.retained = shared.retained := by rw [hBuiltShared]
    refine ⟨hRouter.trans hOwnRouter, hRetained.trans hOwnRetained,
      hConfined.trans hConfinedRest, ?_⟩
    intro delivery hMem
    obtain hHead | hLater := List.mem_append.mp hMem
    · exact hServes delivery (routeAll_subset _ _ hHead)
    · apply (hServesRest delivery hLater).before
      · rw [routeAll_conns]
        exact hOwnRouter
      · rw [routeAll_sessions]
        exact hConfined.views

/-! ### The retained store -/

/-- Retained stores with the same entries of one tenant, and equally many entries in all. -/
def SameRetained (tenant : Str) (retained retained' : Dict (Str × Topic) RetainedMessage) : Prop :=
  (∀ topic, retained'.get? (tenant, topic) = retained.get? (tenant, topic)) ∧
    retained'.entries.length = retained.entries.length

def Shared.withRetained (shared : Shared) (retained : Dict (Str × Topic) RetainedMessage) : Shared :=
  { shared with retained }

section

variable (shared : Shared) (retained : Dict (Str × Topic) RetainedMessage)

theorem Shared.route_withRetained (connId : Nat) (frame : OutFrame) :
    (shared.withRetained retained).route connId frame =
      ((shared.route connId frame).1.withRetained retained, (shared.route connId frame).2) := by
  grind [Shared.route, Shared.withRetained]

theorem routeAll_withRetained (deliveries : List (Nat × OutFrame)) :
    routeAll (shared.withRetained retained) deliveries =
      ((routeAll shared deliveries).1.withRetained retained, (routeAll shared deliveries).2) := by
  induction deliveries generalizing shared with
  | nil => rfl
  | cons delivery deliveries ih => simp [routeAll, Shared.route_withRetained, ih]

theorem buildDownlinkFrames_withRetained (env : Env) (message : Ingress) :
    buildDownlinkFrames (shared.withRetained retained) env message =
      (buildDownlinkFrames shared env message).map fun result =>
        (result.1.withRetained retained, result.2) := by
  simp only [buildDownlinkFrames, Option.map_map]
  rfl

end

theorem publishRuleOutputs_withRetained (env : Env) (shared : Shared)
    (retained : Dict (Str × Topic) RetainedMessage) (outputs : List RuleOutput) :
    publishRuleOutputs env (shared.withRetained retained) outputs =
      (publishRuleOutputs env shared outputs).map fun result =>
        (result.1.withRetained retained, result.2) := by
  induction outputs generalizing shared with
  | nil => rfl
  | cons output outputs ih =>
    simp only [publishRuleOutputs, publishRuleOutput, buildDownlinkFrames_withRetained,
      Option.map_map]
    cases buildDownlinkFrames shared env
        { topic := output.topic, qos := output.qos, retain := output.retain,
          payload := output.payload, publisher := none, tenant := Sessions.defaultTenantId,
          props := .empty } with
    | none => rfl
    | some built =>
      simp only [Option.map_some, Option.bind_some, Function.comp_apply, routeAll_withRetained,
        ih, Option.map_map]
      rfl

/-- Everything behind the retained store carries it along unread. -/
theorem publishIngress_withRetained (shared : Shared) (env : Env) (beyond : Beyond)
    (message : Ingress) (retained : Dict (Str × Topic) RetainedMessage) :
    publishIngress (shared.withRetained retained) env beyond message =
      (publishIngress shared env beyond message).map fun result =>
        (result.1.withRetained
          (storeRetained (shared.withRetained retained) env message).retained, result.2) := by
  have hStored : storeRetained (shared.withRetained retained) env message =
      (storeRetained shared env message).withRetained
        (storeRetained (shared.withRetained retained) env message).retained := by
    grind [storeRetained_retained, Shared.withRetained]
  generalize (storeRetained (shared.withRetained retained) env message).retained = stored at hStored
  simp only [publishIngress, ingressPipeline, hStored, publishRuleOutputs_withRetained]
  cases publishRuleOutputs env (storeRetained shared env message)
      (if Auth.isDefaultTenant message.tenant then
        env.rules message.topic message.payload message.qos else []) with
  | none => rfl
  | some ruled =>
    simp only [Option.map_some, Option.bind_some, buildDownlinkFrames_withRetained,
      Option.map_map]
    rfl

/-! ### The pipeline -/

theorem sameTenant_default (hDefault : Auth.isDefaultTenant tenant = true) (other : Str)
    (hSame : SameTenant other Sessions.defaultTenantId) : SameTenant other tenant := by
  obtain rfl | ⟨hOther, -⟩ := hSame
  · exact .inr ⟨rfl, hDefault⟩
  · exact .inr ⟨hOther, hDefault⟩

theorem ingressPipeline_confined {result : Shared × List (Nat × OutFrame) × List (Nat × OutFrame)}
    (hBalances : Balances env) (hPipeline : ingressPipeline shared env message = some result) :
    result.1.retained = (storeRetained shared env message).retained ∧
      Confined message.tenant shared.sessions result.1.sessions ∧
      ∀ delivery ∈ result.2.1 ++ result.2.2, ServesTenant shared message.tenant delivery.1 := by
  obtain ⟨ruled, hRuled, hBuilt⟩ := Option.bind_eq_some_iff.mp hPipeline
  obtain ⟨built, hBuild, rfl⟩ := Option.map_eq_some_iff.mp hBuilt
  obtain ⟨hShape, hConfined, hServes⟩ := buildDownlinkFrames_confined hBalances hBuild
  have hStored := storeRetained_retained shared env message
  have hRules : ruled.1.router = shared.router ∧
      ruled.1.retained = (storeRetained shared env message).retained ∧
      Confined message.tenant shared.sessions ruled.1.sessions ∧
      ∀ delivery ∈ ruled.2, ServesTenant shared message.tenant delivery.1 := by
    cases hDefault : Auth.isDefaultTenant message.tenant with
    | false =>
      rw [hDefault] at hRuled
      cases hRuled
      rw [hStored]
      exact ⟨rfl, rfl, .refl _, nofun⟩
    | true =>
      obtain ⟨hRouter, hRetained, hConfinedRules, hServesRules⟩ :=
        publishRuleOutputs_confined hBalances hRuled
      rw [hStored] at hRouter hConfinedRules hServesRules
      refine ⟨hRouter, hRetained, hConfinedRules.congr (sameTenant_default hDefault), ?_⟩
      intro delivery hMem
      obtain ⟨topic, sub, hReaches, hTenant, hOn⟩ := hServesRules delivery hMem
      exact ⟨topic, sub, hReaches, sameTenant_default hDefault _ hTenant, hOn⟩
  obtain ⟨hRouter, hRetained, hConfinedRules, hServesRules⟩ := hRules
  refine ⟨?_, hConfinedRules.trans hConfined, ?_⟩
  · rw [← hRetained, hShape]
  · intro delivery hMem
    obtain hRule | hDelivery := List.mem_append.mp hMem
    · exact hServesRules delivery hRule
    · exact (hServes delivery hDelivery).before hRouter hConfinedRules.views

/-- What the pipeline does with a message, seen from the tenants. -/
structure Isolated (shared : Shared) (env : Env) (beyond : Beyond) (message : Ingress)
    (after : Shared) (reach : Reach) : Prop where
  /-- Every frame goes to a connection that serves a subscription of the tenant. -/
  frames : ∀ delivery ∈ reach.ruled ++ reach.deliveries,
    ServesTenant shared message.tenant delivery.1
  /-- The sessions of other tenants, with their queues, stay as they are. -/
  sessions : ∀ key, ¬ SameTenant key.tenant message.tenant →
    after.sessions.sessions.get? key = shared.sessions.sessions.get? key ∧
      after.sessions.store.load key = shared.sessions.store.load key
  /-- The retained entries of other tenants stay as they are. -/
  written : ∀ tenant topic, tenant ≠ retainedTenant message.tenant →
    after.retained.get? (tenant, topic) = shared.retained.get? (tenant, topic)
  /-- Of the retained entries of other tenants only the number matters. -/
  read : ∀ retained, SameRetained (retainedTenant message.tenant) shared.retained retained →
    ∃ after', publishIngress (shared.withRetained retained) env beyond message =
        some (after.withRetained after', reach) ∧
      ∀ topic, after'.get? (retainedTenant message.tenant, topic) =
        after.retained.get? (retainedTenant message.tenant, topic)
  /-- Outside the default tenant no rule, observer or peer takes part. -/
  beyond : Auth.isDefaultTenant message.tenant = false →
    reach.ruled = [] ∧ reach.notified = [] ∧ reach.forwarded = [] ∧
      ∀ rules others, publishIngress shared { env with rules } others message = some (after, reach)

/-- A message stays in its tenant. -/
theorem publish_isolated {shared : Shared} {env : Env} {beyond : Beyond} {message : Ingress}
    {after : Shared} {reach : Reach} (hBalances : Balances env)
    (hPublish : publishIngress shared env beyond message = some (after, reach)) :
    Isolated shared env beyond message after reach := by
  obtain ⟨result, hPipeline, hResult⟩ := Option.map_eq_some_iff.mp hPublish
  obtain ⟨rfl, rfl⟩ := Prod.mk.inj hResult
  obtain ⟨hRetained, hConfined, hServes⟩ := ingressPipeline_confined hBalances hPipeline
  constructor
  · exact hServes
  · intro key hOther
    exact ⟨hConfined.sessions key hOther, hConfined.files key hOther⟩
  · grind [storeRetained]
  · intro retained hSame
    refine ⟨(storeRetained (shared.withRetained retained) env message).retained, ?_, ?_⟩
    · rw [publishIngress_withRetained, hPublish, Option.map_some]
    · grind [storeRetained, Shared.withRetained, SameRetained]
  · intro hForeign
    have hNoRules : result.2.1 = [] := by
      obtain ⟨ruled, hRuled, hBuilt⟩ := Option.bind_eq_some_iff.mp hPipeline
      obtain ⟨built, -, rfl⟩ := Option.map_eq_some_iff.mp hBuilt
      rw [hForeign] at hRuled
      cases hRuled
      rfl
    refine ⟨hNoRules, ?_, ?_, ?_⟩
    · simp [hForeign]
    · simp [forwardCluster, hForeign, Bool.false_eq_true]
    · intro rules others
      rw [← hPublish]
      simp only [publishIngress, ingressPipeline, forwardCluster, hForeign, Bool.false_eq_true,
        if_false]
      rfl

/-- A node that stores at most one retained message, with the first member of every group. -/
def oneRetained : Env :=
  { Env.plain with maxRetainedMessages := 1, balance := fun _ _ => balanceSharedGroups fun _ _ => 0 }

def alone : Beyond := { coapSocket := false, observers := ∅, resolveRoute := none }

def noticeTopic : Topic := ⟨"t".toList, rfl⟩

def postedNotice (tenant : Str) : Ingress :=
  { topic := noticeTopic, qos := .atMostOnce, retain := true, payload := [1], publisher := none
    tenant, props := .empty }

def storedFor (tenants : List Str) : Shared :=
  (Shared.start SessionManager.new).withRetained
    (tenants.foldl (fun retained tenant =>
      retained.set (tenant, noticeTopic) { topic := noticeTopic, qos := .atMostOnce, payload := [1] }) ∅)

def storesNotice (shared : Shared) (tenant entry : Str) : Option Bool :=
  (publishIngress shared oneRetained alone (postedNotice tenant)).map fun result =>
    (result.1.retained.get? (entry, noticeTopic)).isSome

theorem notice_isolated :
    ∃ after reach, Isolated (storedFor []) oneRetained alone (postedNotice "a".toList) after reach ∧
      (after.retained.get? ("a".toList, noticeTopic)).isSome = true := by
  have hStores : storesNotice (storedFor []) "a".toList "a".toList = some true := by decide
  obtain ⟨⟨after, reach⟩, hPublish, hSome⟩ := Option.map_eq_some_iff.mp hStores
  have hBalances : Balances oneRetained := fun _ _ => ⟨fun _ _ => 0, rfl⟩
  exact ⟨after, reach, publish_isolated hBalances hPublish, hSome⟩

/-- The number of messages of another tenant decides whether one is stored, and the message of
a tenant with too long an id is stored for the default tenant. -/
theorem retained_crosses :
    (storesNotice (storedFor []) "a".toList "a".toList = some true ∧
        storesNotice (storedFor ["b".toList]) "a".toList "a".toList = some false) ∧
      storesNotice (storedFor []) (List.replicate 129 'a') Sessions.defaultTenantId =
        some true := by
  decide +kernel

end IndraMqtt.Kernel
