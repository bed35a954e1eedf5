import IndraMqtt.Kernel.Teardown

/-! Publications from clients: the admission of a `PublishIn` frame and the two
phases of an incoming QoS 2 exchange, and the acknowledgements of deliveries. -/
namespace IndraMqtt.Kernel

open Protocol Sessions Routing

structure PublishIn where
  topic : Str
  packetId : UInt16
  qos : UInt8
  retain : Bool
  topicAlias : Option Nat
  props : PublishV5Props
  payload : Payload

variable (shared : Shared) (env : Env) (connId : Nat) (packetId : UInt16)

/-- The session of a connection as every handler resolves it: the index entry, or
else the client id that some session still records for the connection, looked up in
the default tenant. -/
def resolveSession : Option Session :=
  (shared.sessions.sessionForConn connId).or
    ((shared.sessions.clientIdForConn connId).bind fun clientId =>
      shared.sessions.getInTenant Sessions.defaultTenantId clientId)

/-- `resolve_inbound_alias_topic`: the topic to route and the sessions after an alias
was registered; `none` rejects the alias. -/
def resolveInboundAliasTopic (raw : Str) (topicAlias : Nat) : Option (Shared × Str) :=
  if topicAlias == 0 then none
  else
    (resolveSession shared connId).bind fun session =>
      if session.inboundAliasMax == 0 || session.inboundAliasMax < topicAlias then none
      else if raw.isEmpty then
        (session.inboundAliases.get? topicAlias).map fun topic => (shared, topic.text)
      else
        (Topic.new raw).toOption.map fun topic =>
          (shared.putSession
            { session with inboundAliases := session.inboundAliases.set topicAlias topic },
            topic.text)

def quotasInTenant (tenant username : Str) : Option Auth.UserQuotas :=
  (env.tenants.get? (Auth.tenantKey tenant)).bind fun state =>
    (state.users.get? username).map (·.quotas)

def publishLimit (session : Session) : Option (Nat × Nat) :=
  session.username.bind fun username =>
    (quotasInTenant env session.tenantId username).bind fun quotas =>
      quotas.maxPublishRate.map fun rate => (rate, quotas.maxPublishBurst.getD rate)

def checkSessionQuota (session : Session) : Shared × Bool :=
  match publishLimit env session with
  | none => (shared, true)
  | some (rate, burst) =>
    let (sessions, granted) := shared.sessions.checkPublishBudgetInTenant session.tenantId
      session.clientId rate burst env.now
    ({ shared with sessions }, granted)

def checkPublishQuota : Shared × Bool :=
  (resolveSession shared connId).elim (shared, true) (checkSessionQuota shared env)

/-- `qos2_reply_with_reason` for a PUBREC; packet id 0 gets no reply. -/
def pubRecReply (reasonCode : UInt8) : Option OutFrame :=
  if packetId == 0 then none else some (.pubRecOut packetId reasonCode)

def pubCompReply : Option OutFrame :=
  if packetId == 0 then none else some (.pubCompOut packetId)

/-- The answer to a publication that goes no further, with the given return code for
QoS 1. QoS 2 completes its handshake. -/
def refusalReply (qos : QoS) (packetId : UInt16) (returnCode : UInt8) : Option OutFrame :=
  match qos with
  | .atMostOnce => none
  | .atLeastOnce => some (.pubAckOut packetId returnCode)
  | .exactlyOnce => pubRecReply packetId 0

def aliasRejectReply (qos : UInt8) (packetId : UInt16) : Option OutFrame :=
  if qos == 1 then some (.pubAckOut packetId 0x94)
  else if qos == 2 then pubRecReply packetId 0x94
  else none

/-- Runs the pipeline for one message and routes its deliveries. -/
def release (message : Ingress) : Option (Shared × Effects) :=
  (ingressPipeline shared env message).map fun result =>
    let (shared, routed) := routeAll result.1 result.2.2
    (shared, ⟨[], result.2.1 ++ routed, [message]⟩)

/-- Whether the installed offline store counted a failure between two states. -/
def persistFailedSince (before after : Shared) : Bool :=
  before.sessions.storeInstalled &&
    decide (before.sessions.store.persistFailed < after.sessions.store.persistFailed)

/-- A release whose acknowledgement is withheld when a queue file could not be
written. -/
def releaseAcked (message : Ingress) (ack : Option OutFrame) : Option (Shared × Effects) :=
  (release shared env message).map fun result =>
    let ack := if persistFailedSince shared result.1 then none else ack
    (result.1, { result.2 with replies := ack.toList })

def publishAck (qos : QoS) (packetId : UInt16) : Option OutFrame :=
  if qos == .atLeastOnce then some (.pubAckOut packetId 0) else none

def applyDelayedPublish (delay : Nat) (inner : Str)
    (qos : QoS) (publish : PublishIn) (tenant : Str) : Option (Shared × Effects) :=
  match Topic.new inner with
  | .error _ => some (shared, .none)
  | .ok topic =>
    let publisher := shared.sessions.clientIdForConn connId
    if delay == 0 then
      releaseAcked shared env
        { topic, qos, retain := publish.retain, payload := publish.payload, publisher,
          tenant, props := .empty } (publishAck qos publish.packetId)
    else
      let entry : DelayedEntry :=
        { deliverAtMs := env.now + delay * 1000, topic, qos, retain := publish.retain,
          payload := publish.payload, publisher, publisherTenant := tenant }
      if env.scheduleDelayed entry delay then
        some ({ shared with delayed := shared.delayed ++ [entry] },
          .reply (publishAck qos publish.packetId))
      else some (shared, .none)

/-- `apply_qos2_publish`. A repeated id answers PUBREC and stores nothing; a full
table answers nothing. -/
def applyQos2Publish (topic : Topic) (publish : PublishIn) : Shared × Effects :=
  if publish.packetId == 0 then (shared, .none)
  else
    match resolveSession shared connId with
    | none => (shared, .none)
    | some session =>
      if session.hasQos2Inbound publish.packetId then
        (shared, .reply (pubRecReply publish.packetId 0))
      else
        let (session, stored) := session.storeQos2Inbound publish.packetId
          { topic, retain := publish.retain, payload := publish.payload }
        if stored then (shared.putSession session, .reply (pubRecReply publish.packetId 0))
        else (shared, .none)

def routePublish (publisher : Option Session)
    (topic : Topic) (qos : QoS) (publish : PublishIn) : Option (Shared × Effects) :=
  let tenant := publisher.elim Sessions.defaultTenantId (·.tenantId)
  if qos == .exactlyOnce then some (applyQos2Publish shared connId topic publish)
  else
    match stripDelayedPrefix topic.text with
    | some (delay, inner) =>
      applyDelayedPublish shared env connId delay inner qos publish tenant
    | none =>
      releaseAcked shared env
        { topic, qos, retain := publish.retain, payload := publish.payload,
          publisher := publisher.map (·.clientId), tenant, props := publish.props }
        (publishAck qos publish.packetId)

/-- The checks of `apply_publish` on a topic that was resolved: authorisation of the
session that owns the connection, then its rate. A connection without a session
skips both. -/
def admitPublish (topic : Topic) (qos : QoS) (publish : PublishIn) : Option (Shared × Effects) :=
  let publisher := resolveSession shared connId
  let authorised := match publisher with
    | none => some true
    | some session =>
      publishAllowed env session.tenantId session.clientId session.username session.peerhost
        topic
  authorised.bind fun allowed =>
    if allowed then
      let (shared, granted) := checkPublishQuota shared env connId
      if granted then routePublish shared env connId publisher topic qos publish
      else some (shared, .reply (refusalReply qos publish.packetId 0x97))
    else some (shared, .reply (refusalReply qos publish.packetId 0x87))

def resolveTopic (publish : PublishIn) : Option (Shared × Str) :=
  match publish.topicAlias with
  | none => some (shared, publish.topic)
  | some topicAlias => resolveInboundAliasTopic shared connId publish.topic topicAlias

def applyPublish (publish : PublishIn) : Option (Shared × Effects) :=
  match resolveTopic shared connId publish with
  | none =>
    let (shared, routed) := orderAliasDisconnect shared env connId
    some (shared, ⟨(aliasRejectReply publish.qos publish.packetId).toList, routed, []⟩)
  | some (shared, raw) =>
    match Topic.new ((env.rewritePublish raw).getD raw), QoS.tryFrom publish.qos with
    | .ok topic, .ok qos => admitPublish shared env connId topic qos publish
    | _, _ => some (shared, .none)

/-- Puts a taken QoS 2 publication back after a failed release. The release may have
changed the session, so the session is looked up again. -/
def restoreQos2Inbound (key : SessionKey) (packetId : UInt16) (entry : Qos2InboundEntry) : Shared :=
  match shared.sessions.sessions.get? key with
  | some session =>
    shared.putSession (session.storeQos2Inbound packetId entry).1
  | none => shared

/-- The release of a stored QoS 2 publication: PUBCOMP, or the entry goes back and
PUBCOMP is withheld when a queue file could not be written. -/
def releaseQos2 (session : Session) (packetId : UInt16)
    (entry : Qos2InboundEntry) (topic : Topic) : Option (Shared × Effects) :=
  let message : Ingress :=
    { topic, qos := .exactlyOnce, retain := entry.retain, payload := entry.payload,
      publisher := some session.clientId, tenant := session.tenantId, props := .empty }
  (release shared env message).map fun result =>
    if persistFailedSince shared result.1 then
      (restoreQos2Inbound result.1 session.key packetId entry, result.2)
    else (result.1, { result.2 with replies := (pubCompReply packetId).toList })

/-- The part of `apply_qos2_pubrel` after the entry was taken: at once, or through the
delay store when the topic has the delayed prefix. -/
def releaseTaken (taken : Session) (packetId : UInt16)
    (entry : Qos2InboundEntry) : Option (Shared × Effects) :=
  match stripDelayedPrefix entry.topic.text with
  | none => releaseQos2 shared env taken packetId entry entry.topic
  | some (delay, inner) =>
    match Topic.new inner with
    | .error _ => some (shared, .reply (pubCompReply packetId))
    | .ok topic =>
      if delay == 0 then releaseQos2 shared env taken packetId entry topic
      else
        let delayed : DelayedEntry :=
          { deliverAtMs := env.now + delay * 1000, topic, qos := .exactlyOnce,
            retain := entry.retain, payload := entry.payload,
            publisher := some taken.clientId, publisherTenant := taken.tenantId }
        -- the answer does not depend on whether the entry was scheduled
        let shared :=
          if env.scheduleDelayed delayed delay then
            { shared with delayed := shared.delayed ++ [delayed] }
          else shared
        some (shared, .reply (pubCompReply packetId))

def applyQos2Pubrel : Option (Shared × Effects) :=
  let completed := some (shared, Effects.reply (pubCompReply packetId))
  if packetId == 0 then some (shared, .none)
  else
    match resolveSession shared connId with
    | none => completed
    | some session =>
      match session.takeQos2Inbound packetId with
      | (_, none) => completed
      | (taken, some entry) => releaseTaken (shared.putSession taken) env taken packetId entry

def applyPuback : Shared :=
  match resolveSession shared connId with
  | some session => shared.putSession (session.ackInflightTimed packetId).1
  | none => shared

/-- `apply_qos2_pubrec`: a known id is answered with PUBREL, also when its PUBREC is a
repetition. -/
def applyQos2Pubrec : Shared × Effects :=
  match resolveSession shared connId with
  | some session =>
    (shared.putSession (session.completeQos2Pubrec packetId).1,
      .reply (if session.qos2Outbound.any (·.packetId == packetId) then
        some (.pubRelOut packetId) else none))
  | none => (shared, .none)

def applyQos2Pubcomp : Shared :=
  match resolveSession shared connId with
  | some session => shared.putSession (session.ackQos2Pubcomp packetId).1
  | none => shared

end IndraMqtt.Kernel
