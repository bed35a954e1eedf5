import IndraMqtt.Kernel.Shared

/-! Local delivery of one message: the ingress pipeline with its retained store
and rules, and the fan-out to the matched subscriptions. An absent result is a
packet id allocation that does not return. -/
namespace IndraMqtt.Kernel

open Protocol Sessions Routing

structure Ingress where
  topic : Topic
  qos : QoS
  retain : Bool
  payload : Payload
  publisher : Option Str
  tenant : Str
  props : PublishV5Props
  deriving DecidableEq

def v5EgressOverheadBytes : Nat := 10

variable (sessions : SessionManager) (shared : Shared) (session : Session) (message : Ingress)

/-- `v5_egress_refused`, as a yes or no. -/
def v5EgressRefused (effective : QoS) (topicLength payloadLength : Nat) : Bool :=
  if session.protocolVersion != 5 then false
  else if effective != .atMostOnce &&
      max session.clientReceiveMax 1 ≤ session.inflight.length + session.inflightSpill.length then
    true
  else
    session.clientMaxPacketSize != 0 &&
      session.clientMaxPacketSize < topicLength + payloadLength + v5EgressOverheadBytes

/-- The aliases that a session may use towards its client, in order. -/
def outboundAliases : List Nat :=
  (List.range session.outboundAliasMax).map (· + 1)

/-- `outbound_alias_for` and then `assign_outbound_alias`: the alias that the topic
has, or else the least free one; 0 when the client allows none or the table is full. -/
def outboundAlias (topic : Topic) : Session × Nat :=
  match (outboundAliases session).find? fun a => session.outboundAliases.get? a == some topic with
  | some a => (session, a)
  | none =>
    match (outboundAliases session).find? fun a => (session.outboundAliases.get? a).isNone with
    | some a => ({ session with outboundAliases := session.outboundAliases.set a topic }, a)
    | none => (session, 0)

def packetIdFor (qos : QoS) : Option (UInt16 × Session) :=
  if qos == .atMostOnce then some (0, session) else session.allocatePacketId

def trackDelivery (effective : QoS) (retain : Bool) (packetId : UInt16) : Session :=
  match effective with
  | .atMostOnce => session
  | .atLeastOnce =>
    (session.trackInflightOrSpill
      { packetId, topic := message.topic, qos := effective, retain,
        payload := message.payload }).1
  | .exactlyOnce =>
    (session.trackQos2Outbound
      { packetId, topic := message.topic, retain, payload := message.payload,
        recReceived := false }).1

def deliverLive (effective : QoS) (retain : Bool)
    (subscriptionId : Nat) : Option (Session × Option OutFrame) :=
  (packetIdFor session effective).map fun allocated =>
    let tracked := trackDelivery allocated.2 message effective retain allocated.1
    let (session, topicAlias) := outboundAlias tracked message.topic
    (session, encodePublishOut
      { topic := message.topic, packetId := allocated.1, qos := effective, retain, dup := false,
        topicAlias, subscriptionId, props := message.props, payload := message.payload })

/-- Delivery to a session without a live connection: durable sessions queue the
message and the others drop it. -/
def deliverDetached (effective : QoS) (retain : Bool) (now : Nat) : SessionManager :=
  if session.dropsStateAtDisconnect then sessions
  else
    let (session, store, _) := session.pushOfflineWithLimit sessions.store
      { topic := message.topic, qos := effective, retain, payload := message.payload,
        publishAtMs := none } sessions.maxOfflineQueue now
    { sessions with sessions := sessions.sessions.put session, store }

/-- One round of the loop in `build_downlink_frames_with_publisher_and_props`. -/
def deliver (now : Nat) (sub : Subscription) : Option (SessionManager × Option (Nat × OutFrame)) :=
  let effective := QoS.min message.qos sub.qos
  let retain := sub.retainAsPublished && message.retain
  let key : SessionKey := { tenant := sub.tenant, clientId := sub.clientId }
  if sub.noLocal && message.publisher == some sub.clientId then some (sessions, none)
  else
    match sessions.sessions.get? key with
    | some session =>
      match session.connected, session.connId with
      | true, some connId =>
        if v5EgressRefused session effective (Str.len message.topic.text)
            message.payload.length then
          some (sessions, none)
        else
          (deliverLive session message effective retain sub.subscriptionId).map fun result =>
            (sessions.putSession result.1, result.2.map fun frame => (connId, frame))
      | _, _ => some (deliverDetached sessions session message effective retain now, none)
    | none =>
      -- the router still names a connection for a client without a session
      some (sessions,
        (encodePublishOut
          { topic := message.topic
            packetId := if effective == .atMostOnce then 0 else 1
            qos := effective, retain, dup := false, topicAlias := 0
            subscriptionId := sub.subscriptionId
            props := message.props, payload := message.payload }).map
          fun frame => (sub.connId, frame))

def deliverAll (message : Ingress) (now : Nat) (sessions : SessionManager) :
    SubscriptionSet → Option (SessionManager × List (Nat × OutFrame))
  | [] => some (sessions, [])
  | sub :: subs =>
    (deliver sessions message now sub).bind fun first =>
      (deliverAll message now first.1 subs).map fun rest =>
        (rest.1, first.2.toList ++ rest.2)

def buildDownlinkFrames (env : Env) (message : Ingress) : Option (Shared × List (Nat × OutFrame)) :=
  let matched := env.balance message.topic message.publisher
    (matchRecursiveInTenant message.topic.text.levels shared.router.root message.tenant).1
  (deliverAll message env.now shared.sessions matched).map fun result =>
    ({ shared with sessions := result.1 }, result.2)

def routeAll (shared : Shared) : List (Nat × OutFrame) → Shared × List (Nat × OutFrame)
  | [] => (shared, [])
  | delivery :: deliveries =>
    let (shared, taken) := shared.route delivery.1 delivery.2
    let (shared, rest) := routeAll shared deliveries
    (shared, if taken then delivery :: rest else rest)

/-- What handling a frame shows outside: the replies on the frame's own transport,
the frames that other connections took, and the messages that entered the ingress
pipeline. -/
structure Effects where
  replies : List OutFrame
  routed : List (Nat × OutFrame)
  ingress : List Ingress

namespace Effects

def none : Effects := ⟨[], [], []⟩

def reply (frame : Option OutFrame) : Effects := ⟨frame.toList, [], []⟩

end Effects

/-- The output of one rule: `InMemoryBrokerSink::publish`, in the default tenant. -/
def publishRuleOutput (env : Env) (output : RuleOutput) : Option (Shared × List (Nat × OutFrame)) :=
  (buildDownlinkFrames shared env
    { topic := output.topic, qos := output.qos, retain := output.retain,
      payload := output.payload, publisher := none, tenant := Sessions.defaultTenantId,
      props := .empty }).map fun result => routeAll result.1 result.2

def publishRuleOutputs (env : Env) (shared : Shared) :
    List RuleOutput → Option (Shared × List (Nat × OutFrame))
  | [] => some (shared, [])
  | output :: outputs =>
    (publishRuleOutput shared env output).bind fun first =>
      (publishRuleOutputs env first.1 outputs).map fun rest => (rest.1, first.2 ++ rest.2)

def hardMaxRetained : Nat := 100000

/-- `normalize_tenant_key` of the retained store. -/
def retainedTenant (tenant : Str) : Str :=
  if tenant.isEmpty || decide (128 < Str.len tenant) then Sessions.defaultTenantId else tenant

/-- The retained part of the pipeline: an empty payload clears, and a payload or a
new topic past the limits is not stored. -/
def storeRetained (env : Env) (message : Ingress) : Shared :=
  let key := (retainedTenant message.tenant, message.topic)
  if !message.retain then shared
  else if message.payload.isEmpty then { shared with retained := shared.retained.remove key }
  else
    let known := (shared.retained.get? key).isSome
    let count := shared.retained.entries.length
    let dropNew := env.maxRetainedPayload < message.payload.length ||
      (0 < env.maxRetainedMessages && !known && env.maxRetainedMessages ≤ count)
    if dropNew || (hardMaxRetained ≤ count && !known) then shared
    else
      { shared with
        retained := shared.retained.set key
          { topic := message.topic, qos := message.qos, payload := message.payload } }

/-- `ingress_pipeline_with_publisher_and_props`: retained store, rules of the default
tenant, fan-out. The first list holds what the rules already routed, the second the
deliveries that the caller has to route. -/
def ingressPipeline (env : Env) (message : Ingress) :
    Option (Shared × List (Nat × OutFrame) × List (Nat × OutFrame)) :=
  let shared := storeRetained shared env message
  let outputs :=
    if Auth.isDefaultTenant message.tenant then
      env.rules message.topic message.payload message.qos
    else []
  (publishRuleOutputs env shared outputs).bind fun ruled =>
    (buildDownlinkFrames ruled.1 env message).map fun built => (built.1, ruled.2, built.2)

end IndraMqtt.Kernel
