import IndraMqtt.Kernel.Bind

/-! SUBSCRIBE handling: one code for each requested filter, the router entry and the
session's copy of each grant, and the retained messages that follow the SUBACK. -/
namespace IndraMqtt.Kernel

open Protocol Sessions Routing

/-- One entry of a decoded `SubscribeIn` frame. An entry in the extended form has an
options byte and an identifier, the legacy form only a QoS byte. -/
structure SubscribeEntry where
  filter : Str
  optsRaw : UInt8
  subscriptionId : Nat
  hasOptions : Bool
  deriving DecidableEq

/-- What `decode_subscribe_meta` accepts: it refuses packet id 0, and the count of the
entries has 16 bits. -/
structure SubscribeIn where
  packetId : UInt16
  clientId : Str
  entries : List SubscribeEntry
  packetId_ne_zero : packetId ≠ 0
  entries_le : entries.length ≤ 65535

def subscribeTo (clientId filter : Str) (qos : UInt8) : SubscribeIn where
  packetId := 9
  clientId := clientId
  entries := [{ filter, optsRaw := qos, subscriptionId := 0, hasOptions := false }]
  packetId_ne_zero := by decide
  entries_le := by simp

def v5SubackUnspecified : UInt8 := 0x80
def v5SubackNotAuthorized : UInt8 := 0x87
def v5SubackFilterInvalid : UInt8 := 0x8F
def v5SubackQuotaExceeded : UInt8 := 0x97

structure EntryOptions where
  qos : QoS
  noLocal : Bool
  retainAsPublished : Bool
  retainHandling : Nat
  subscriptionId : Nat

def SubscribeEntry.options (entry : SubscribeEntry) : Except UInt8 EntryOptions :=
  if entry.hasOptions then
    match decodeOptionsByte entry.optsRaw with
    | some (qos, noLocal, retainAsPublished, retainHandling) =>
      if maxSubscriptionId < entry.subscriptionId then .error v5SubackFilterInvalid
      else .ok { qos, noLocal, retainAsPublished, retainHandling,
                 subscriptionId := entry.subscriptionId }
    | none => .error v5SubackFilterInvalid
  else
    match QoS.tryFrom entry.optsRaw with
    | .ok qos =>
      .ok { qos, noLocal := false, retainAsPublished := true, retainHandling := 0,
            subscriptionId := 0 }
    | .error _ => .error v5SubackUnspecified

def SubscribeEntry.invalidCode (entry : SubscribeEntry) : UInt8 :=
  if entry.hasOptions then v5SubackFilterInvalid else v5SubackUnspecified

structure Requested where
  filter : TopicFilter
  group : Option Str
  options : EntryOptions

/-- The checks on the request itself: options, rewriting, the delayed prefix, the
filter with its shared group, and no-local on a shared group. The outer `none` is a
panic of the filter check. -/
def requested (env : Env) (entry : SubscribeEntry) : Option (Except UInt8 Requested) :=
  match entry.options with
  | .error code => some (.error code)
  | .ok options =>
    let text := (env.rewriteSubscribe entry.filter).getD entry.filter
    if (stripDelayedPrefix text).isSome then some (.error entry.invalidCode)
    else
      (TopicFilter.new text).bind fun checked =>
        match checked with
        | .error _ => some (.error entry.invalidCode)
        | .ok filter =>
          (splitSharedFilter filter).map fun split =>
            match split with
            | none => .error entry.invalidCode
            | some (group, inner) =>
              if options.noLocal && group.isSome then .error v5SubackFilterInvalid
              else .ok { filter := inner, group, options }

def subscribeAllowed (env : Env) (tenant clientId : Str) (username : Option Str)
    (filter : TopicFilter) : Option Bool :=
  (Auth.authorizeSubscribeInTenant env.tenants tenant clientId filter).map fun decision =>
    decision.isOk &&
      match env.dbAuth with
      | some db =>
        isLocalUser env tenant username ||
          db.authorizeSubscribe tenant (username.getD clientId) filter
      | none => true

structure GrantedSub where
  filter : TopicFilter
  qos : QoS
  subId : Nat
  sendRetained : Bool

def Requested.subscription (request : Requested) (clientId tenant : Str) (connId : Nat) :
    Subscription :=
  { clientId, connId, qos := request.options.qos, group := request.group, tenant,
    noLocal := request.options.noLocal, retainAsPublished := request.options.retainAsPublished,
    retainHandling := request.options.retainHandling,
    subscriptionId := request.options.subscriptionId }

def Requested.mirrored (request : Requested) : SubscriptionOptions :=
  { qos := request.options.qos, nl := request.options.noLocal.toNat,
    rap := request.options.retainAsPublished.toNat, rh := request.options.retainHandling }

/-- Stores an authorised request: the router first, and nothing when it is full. -/
def storeRequest (shared : Shared) (connId : Nat) (clientId tenant : Str) (request : Requested) :
    Shared × UInt8 × Option GrantedSub :=
  let existed := (shared.sessions.getInTenant tenant clientId).elim false fun session =>
    (session.subscriptions.get? request.filter).isSome
  let (router, stored) :=
    shared.router.subscribe request.filter (request.subscription clientId tenant connId)
  if stored then
    let sessions :=
      shared.sessions.addSubscriptionInTenant tenant clientId request.filter request.mirrored
    let sendRetained := match request.options.retainHandling with
      | 1 => !existed
      | 2 => false
      | _ => true
    ({ shared with router, sessions }, request.options.qos.toU8,
      some { filter := request.filter, qos := request.options.qos,
             subId := request.options.subscriptionId, sendRetained })
  else ({ shared with router }, v5SubackQuotaExceeded, none)

def subscribeEntry (shared : Shared) (env : Env) (connId : Nat) (clientId tenant : Str)
    (entry : SubscribeEntry) : Option (Shared × UInt8 × Option GrantedSub) :=
  (requested env entry).bind fun checked =>
    match checked with
    | .error code => some (shared, code, none)
    | .ok request =>
      let username := (shared.sessions.getInTenant tenant clientId).bind (·.username)
      (subscribeAllowed env tenant clientId username request.filter).map fun allowed =>
        if allowed then storeRequest shared connId clientId tenant request
        else (shared, v5SubackNotAuthorized, none)

def subscribeEntries (env : Env) (connId : Nat) (clientId tenant : Str) (shared : Shared) :
    List SubscribeEntry → Option (Shared × List UInt8 × List GrantedSub)
  | [] => some (shared, [], [])
  | entry :: entries =>
    (subscribeEntry shared env connId clientId tenant entry).bind fun first =>
      (subscribeEntries env connId clientId tenant first.1 entries).map fun rest =>
        (rest.1, first.2.1 :: rest.2.1, first.2.2.toList ++ rest.2.2)

def byteOrder : Str → Str → Bool
  | [], _ => true
  | _ :: _, [] => false
  | c :: text, d :: other => if c = d then byteOrder text other else decide (c.toNat < d.toNat)

def insertByTopic (message : RetainedMessage) : List RetainedMessage → List RetainedMessage
  | [] => [message]
  | first :: rest =>
    if byteOrder message.topic.text first.topic.text then message :: first :: rest
    else first :: insertByTopic message rest

/-- `find_matching_in_tenant` of the retained store, sorted by topic. -/
def retainedMatching (shared : Shared) (filter : TopicFilter) (tenant : Str) :
    List RetainedMessage :=
  let held := shared.retained.entries.filter fun entry =>
    entry.1.1 == retainedTenant tenant && filter.matches entry.1.2
  (held.map (·.2)).foldr insertByTopic []

def retainedFrame (message : RetainedMessage) (effective : QoS) (packetId : UInt16)
    (subId : Nat) : Option OutFrame :=
  let subscriptionId := if subId ≤ maxSubscriptionId then subId else 0
  newFrame (aliasMetaLength message.topic + if subscriptionId == 0 then 0 else 4)
    message.payload.length
    (.publishOut
      { topic := message.topic, packetId, qos := effective, retain := true, dup := false,
        topicAlias := 0, subscriptionId, props := .empty, payload := message.payload })

/-- The delivery of one retained message to the subscriber. Only QoS 2 is tracked. -/
def deliverRetained (shared : Shared) (key : Option SessionKey) (grant : GrantedSub)
    (message : RetainedMessage) : Option (Shared × Option OutFrame) :=
  let effective := QoS.min grant.qos message.qos
  match key.bind fun key => shared.sessions.sessions.get? key with
  | none =>
    some (shared, retainedFrame message effective
      (if effective == .atMostOnce then 0 else 1) grant.subId)
  | some session =>
    if v5EgressRefused session effective (Str.len message.topic.text)
        message.payload.length then
      some (shared, none)
    else
      (packetIdFor session effective).map fun allocated =>
        let (packetId, session) := allocated
        let session :=
          if effective == .exactlyOnce then
            (session.trackQos2Outbound
              { packetId, topic := message.topic, retain := true, payload := message.payload,
                recReceived := false }).1
          else session
        (shared.putSession session, retainedFrame message effective packetId grant.subId)

def deliverRetainedAll (key : Option SessionKey) (grant : GrantedSub) (shared : Shared) :
    List RetainedMessage → Option (Shared × List OutFrame)
  | [] => some (shared, [])
  | message :: messages =>
    (deliverRetained shared key grant message).bind fun first =>
      (deliverRetainedAll key grant first.1 messages).map fun rest =>
        (rest.1, first.2.toList ++ rest.2)

/-- The retained replay of `apply_subscribe` over the grants that ask for it. -/
def replayRetained (key : Option SessionKey) (tenant : Str) (shared : Shared) :
    List GrantedSub → Option (Shared × List OutFrame)
  | [] => some (shared, [])
  | grant :: grants =>
    (deliverRetainedAll key grant shared
      (if grant.sendRetained then retainedMatching shared grant.filter tenant else [])).bind
      fun first =>
        (replayRetained key tenant first.1 grants).map fun rest =>
          (rest.1, first.2 ++ rest.2)

/-- `apply_subscribe` on a decoded frame. The retained frames follow the SUBACK on the
same transport. -/
def applySubscribe (shared : Shared) (env : Env) (connId : Nat) (subscribe : SubscribeIn) :
    Option (Shared × Effects) :=
  let tenant := sessionTenantForConn shared connId subscribe.clientId
  (subscribeEntries env connId subscribe.clientId tenant shared subscribe.entries).bind
    fun granted =>
      let (shared, codes, grants) := granted
      let subscriber := replayTarget shared connId subscribe.clientId
      (replayRetained (subscriber.map (·.key))
        (subscriber.elim Sessions.defaultTenantId (·.tenantId)) shared grants).map fun replayed =>
          match newFrame (2 + codes.length) 0 (.subAckOut subscribe.packetId codes) with
          | some suback => (replayed.1, ⟨suback :: replayed.2, [], []⟩)
          | none => (replayed.1, .none)

end IndraMqtt.Kernel
