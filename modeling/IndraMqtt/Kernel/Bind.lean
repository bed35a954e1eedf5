import IndraMqtt.Kernel.Publish

/-! CONNECT handling: authentication, the connection quota, the resolution of the
session and the replay of what it still holds. -/
namespace IndraMqtt.Kernel

open Protocol Sessions

structure BindWill where
  topic : Str
  qos : UInt8
  retain : Bool
  payload : Payload

/-- The request of one bind frame. User properties stand in the order of their keys. -/
structure BindRequest where
  clientId : Str
  cleanStart : Bool
  keepaliveSecs : Nat
  username : Option Str
  password : Option Payload
  peerhost : Option Str
  clientAliasMax : Nat
  will : Option BindWill
  certCn : Option Str
  certSubject : Option Str
  certSans : List Str
  protocolVersion : Nat
  sessionExpiry : Nat
  receiveMaximum : Nat
  maxPacketSize : Nat
  userProperties : Option (List (Str × Str))

def plainRequest (clientId : Str) : BindRequest :=
  { clientId, cleanStart := false, keepaliveSecs := 60, username := none, password := none,
    peerhost := none, clientAliasMax := 0, will := none, certCn := none, certSubject := none,
    certSans := [], protocolVersion := 4, sessionExpiry := 0, receiveMaximum := 0,
    maxPacketSize := 0, userProperties := none }

def meter : SessionKey := { tenant := defaultTenantId, clientId := "meter".toList }

def topicA : Topic := ⟨"a".toList, rfl⟩

variable (shared : Shared) (env : Env) (connId : Nat) (req : BindRequest)

/-- `bind_tenant_for_req`. The binds carry no listener name. -/
def bindTenantForReq (principal : Option Str) : Str :=
  env.assignTenant
    { clientId := req.clientId, username := principal.or req.username, peerHost := req.peerhost,
      listener := [], certCn := req.certCn, certSubject := req.certSubject, certSans := req.certSans,
      userProperties := req.userProperties }

def serverV5ReceiveMaximum : Nat := 65535
def serverV5MaxPacketSize : Nat := 268435455
def maxV5BindUsers : Nat := 16
def maxV5BindString : Nat := 1024

/-- `v5_reason_string`, with the default of its callers. -/
def v5ReasonString (rc : UInt8) : String :=
  if rc == 0x86 then "Bad username or password"
  else if rc == 0x87 then "Not authorized"
  else if rc == 0x8A then "Client banned"
  else if rc == 0x82 then "Protocol error: malformed request"
  else if rc == 0x85 then "Client identifier not valid"
  else if rc == 0x97 || rc == 0x8B then "Quota exceeded: too many connections"
  else if rc == 0x95 then "Packet too large for the client maximum"
  else "Connection refused"

def successBindingV5 (grantedExpiry : Nat) : SessionBindingV5 :=
  { grantedExpiry, serverRecvMax := serverV5ReceiveMaximum, serverMaxPkt := serverV5MaxPacketSize,
    reason := "", userProperties := [] }

/-- `failure_binding_v5`: the user properties of the CONNECT come back, within their
bounds. -/
def failureBindingV5 (userProperties : List (Str × Str)) (rc : UInt8) : SessionBindingV5 :=
  { grantedExpiry := 0, serverRecvMax := serverV5ReceiveMaximum,
    serverMaxPkt := serverV5MaxPacketSize, reason := v5ReasonString rc
    userProperties := (userProperties.take maxV5BindUsers).filter fun pair =>
      !pair.1.isEmpty && pair.1.len ≤ maxV5BindString && pair.2.len ≤ maxV5BindString }

def refusalForReq (rc : UInt8) : OutFrame :=
  .sessionBinding 0 false rc shared.sessions.maxTopicAlias
    (if req.protocolVersion == 5 then
      some (failureBindingV5 (req.userProperties.getD []) rc) else none)

def refusalMalformed (looksV5 : Bool) : OutFrame :=
  if looksV5 then
    .sessionBinding 0 false 0x82 shared.sessions.maxTopicAlias (some (failureBindingV5 [] 0x82))
  else .sessionBinding 0 false 2 shared.sessions.maxTopicAlias none

/-- Who an accepted CONNECT is. External users have no local quota. -/
structure Identity where
  principal : Option Str
  subject : Option Str
  external : Bool
  deriving DecidableEq

def maxPasswordBytes : Nat := 8 * 1024

def hasUsers : Bool :=
  env.tenants.values.any fun state => !state.users.entries.isEmpty

def authenticateInTenant (tenant : Str) (username : Option Str)
    (password : Option Payload) : Bool :=
  let key := Auth.tenantKey tenant
  if !Auth.isDefaultTenant key && !Auth.isValidTenantId key then false
  else if !hasUsers env then true
  else
    match env.tenants.get? key, username, password with
    | some state, some username, some password =>
      match state.users.get? username with
      | some entry =>
        decide (password.length ≤ maxPasswordBytes) &&
          env.verifyPassword entry.verifier password
      | none => false
    | _, _, _ => false

def looksKerberos (password : Option Payload) : Bool :=
  match password with
  | some (first :: _) => first == 0x60 || first == 0x6E
  | _ => false

/-- The backends behind the built-in store, in their order. The first one that is
configured for this kind of password decides, and without any the broker is open
unless it has users of its own. -/
def verifyExternal (tenant : Str) : Option Identity :=
  let accept (verdict : Bool) : Option Identity :=
    if verdict then some ⟨none, none, true⟩ else none
  let token := req.password.getD []
  if env.jwks.isSome && req.password.elim false env.looksLikeJwt then
    (env.jwks.bind fun verify => verify tenant req.clientId token).map fun subject =>
      ⟨none, if subject.isEmpty then none else some subject, true⟩
  else if env.kerberos.isSome && looksKerberos req.password then
    (env.kerberos.bind fun verify => verify tenant req.clientId token).map fun principal =>
      ⟨some principal, none, true⟩
  else
    match env.ldap, env.dbAuth, env.webhook with
    | some authenticate, _, _ =>
      accept (authenticate tenant req.clientId req.username req.password)
    | none, some db, _ =>
      accept (db.authenticate tenant req.clientId req.username req.password)
    | none, none, some webhook =>
      accept (webhook.authenticate tenant req.clientId req.username req.password)
    | none, none, none =>
      if hasUsers env || env.kerberos.isSome || env.jwks.isSome then none
      else some ⟨none, none, false⟩

/-- The credential branches of `apply_bind_request`. -/
def verifyCredentials : Option Identity :=
  let tenant := bindTenantForReq env req none
  if hasUsers env && authenticateInTenant env tenant req.username req.password then
    some ⟨none, none, false⟩
  else verifyExternal env req tenant

def anonymousRefused : Bool :=
  hasUsers env || env.ldap.isSome || env.kerberos.isSome || env.jwks.isSome ||
    env.dbAuth.isSome || env.webhook.isSome

/-- Everything that `apply_bind_request` checks before the connection quota, with the
return code of the refusal. -/
def authenticate : Except UInt8 Identity :=
  if req.protocolVersion == 5 && req.receiveMaximum == 0 then .error 0x82
  else if env.isBanned req.clientId req.username req.peerhost then .error 0x8A
  else if !env.builtInAvailable then .error 0x86
  else if req.username.isNone then
    if anonymousRefused env then .error 0x87 else .ok ⟨none, none, false⟩
  else
    match verifyCredentials env req with
    | some identity => .ok identity
    | none => .error 0x86

def effectiveUsername (identity : Identity) : Option Str :=
  (identity.subject.or identity.principal).or req.username

def connectionCap (tenant username : Str) (identity : Identity) : Option Nat :=
  if identity.external then none
  else (quotasInTenant env tenant username).bind (·.maxConnections)

def alreadyLive (sessions : SessionManager) (tenant clientId : Str) : Bool :=
  (sessions.getInTenant tenant clientId).elim false (·.connected)

/-- The quota part of `apply_bind_request`. A live session of the client gives its
slot back first; anonymous clients are not counted. -/
def admitConnection (sessions : SessionManager) (env : Env) (req : BindRequest)
    (identity : Identity) : SessionManager × Bool :=
  match req.username, effectiveUsername req identity with
  | some _, some username =>
    let tenant := bindTenantForReq env req identity.principal
    let sessions :=
      if alreadyLive sessions tenant req.clientId then
        sessions.releaseConnectionSlotInTenant tenant username
      else sessions
    sessions.acquireConnectionSlotInTenant tenant username
      (connectionCap env tenant username identity)
  | _, _ => (sessions, true)

def willFromBind : Except String (Option StoredWill) :=
  match req.will with
  | none => .ok none
  | some will =>
    match Topic.new will.topic, QoS.tryFrom will.qos with
    | .ok topic, .ok qos =>
      .ok (some { tenant := Sessions.defaultTenantId, topic, qos, retain := will.retain,
                  payload := will.payload })
    | .error _, _ => .error "will topic invalid"
    | _, .error _ => .error "will qos invalid"

/-- The fields of the session that a bind writes after it is resolved and bound. -/
def stampSession (identity : Identity) (tenant : Str)
    (will : Option StoredWill) (session : Session) : Session :=
  { session with
    keepaliveSecs := req.keepaliveSecs
    inboundAliases := ∅
    inboundAliasMax := shared.sessions.maxTopicAlias
    outboundAliases := ∅
    outboundAliasMax := req.clientAliasMax
    lastWill := will.map fun will => { will with tenant := tenant }
    username := (identity.principal.or (identity.subject.or req.username)).or session.username
    peerhost := req.peerhost.or session.peerhost }

def modifySession (sessions : SessionManager) (key : SessionKey) (f : Session → Session) :
    SessionManager :=
  match sessions.sessions.get? key with
  | some session => sessions.putSession (f session)
  | none => sessions

/-- The expiry sweep of a bind: expired sessions of the tenant and their router
copies. -/
def sweepExpired (tenant : Str) : Shared :=
  let (sessions, victims) :=
    shared.sessions.pruneExpiredBounded tenant maxExpirySweep env.now
  victims.foldl (fun shared victim => shared.sweep victim.2 victim.1 tenant)
    { shared with sessions }

/-- The accepting part of `apply_bind_request`: resolution, binding and sweeps. -/
def acceptBind (identity : Identity) (will : Option StoredWill) : Shared × OutFrame :=
  let tenant := bindTenantForReq env req identity.principal
  let key : SessionKey := { tenant, clientId := req.clientId }
  let stale :=
    if req.cleanStart then shared.sessions.subscriptionFiltersInTenant tenant req.clientId
    else []
  let (sessions, session, present, expiredSwept) :=
    shared.sessions.getOrCreateV5InTenant tenant req.clientId req.cleanStart
      req.protocolVersion req.sessionExpiry req.receiveMaximum req.maxPacketSize env.now
  let session := { session with tenantId := tenant }
  let sessions := (sessions.putSession session).bindSession session connId env.now
  let sessions := modifySession sessions key (stampSession shared req identity tenant will)
  let shared := { shared with sessions }
  let shared := shared.sweep expiredSwept req.clientId tenant
  let shared := sweepExpired shared env tenant
  let shared := shared.sweep stale req.clientId tenant
  (shared, .sessionBinding session.id present 0 shared.sessions.maxTopicAlias
    (if req.protocolVersion == 5 then some (successBindingV5 session.sessionExpiry) else none))

/-- `apply_bind_request`. The slot is taken before the will is checked. -/
def applyBindRequest (parsed : Except String BindRequest) (looksV5 : Bool) : Shared × OutFrame :=
  match parsed with
  | .error _ => (shared, refusalMalformed shared looksV5)
  | .ok req =>
    match authenticate env req with
    | .error rc => (shared, refusalForReq shared req rc)
    | .ok identity =>
      let (sessions, admitted) := admitConnection shared.sessions env req identity
      let shared := { shared with sessions }
      if !admitted then
        (shared, refusalForReq shared req (if req.protocolVersion == 5 then 0x97 else 0x8B))
      else
        match willFromBind req with
        | .error _ =>
          (shared, refusalForReq shared req (if req.protocolVersion == 5 then 0x82 else 2))
        | .ok will => acceptBind shared env connId req identity will

def sessionForConnIfClient (clientId : Str) : Option Session :=
  (shared.sessions.sessionForConn connId).filter (·.clientId == clientId)

def sessionTenantForConn (clientId : Str) : Str :=
  ((sessionForConnIfClient shared connId clientId).or
    (shared.sessions.getInTenant Sessions.defaultTenantId clientId)).elim
      Sessions.defaultTenantId (·.tenantId)

/-- `apply_auto_subscribe`, for the configured entries one after the other. -/
def applyAutoSubscribe (connId : Nat) (clientId tenant : Str) (shared : Shared) :
    List AutoSubscription → Option Shared
  | [] => some shared
  | entry :: entries =>
    (TopicFilter.new entry.filter).bind fun checked =>
      match checked, QoS.tryFrom entry.qos with
      | .ok filter, .ok qos =>
        let (router, stored) := shared.router.subscribe filter
          { clientId, connId, qos, group := none, tenant, noLocal := entry.nl != 0,
            retainAsPublished := entry.rap != 0, retainHandling := entry.rh,
            subscriptionId := 0 }
        let shared :=
          if stored then
            { shared with
              router
              sessions := shared.sessions.addSubscriptionInTenant tenant clientId filter
                { qos, nl := entry.nl, rap := entry.rap, rh := entry.rh } }
          else shared
        applyAutoSubscribe connId clientId tenant shared entries
      | _, _ => applyAutoSubscribe connId clientId tenant shared entries

/-- The session whose backlog a bind replays: the one bound to the connection when it
has the client id of the request, or else the client's session in the default tenant. -/
def replayTarget (clientId : Str) : Option Session :=
  (sessionForConnIfClient shared connId clientId).or
    (shared.sessions.getInTenant Sessions.defaultTenantId clientId)

def replayInflight (held : InflightMessage) : Option OutFrame :=
  newFrame (plainMetaLength held.topic) held.payload.length
    (.publishOut
      { topic := held.topic, packetId := held.packetId, qos := held.qos, retain := held.retain,
        dup := true, topicAlias := 0, subscriptionId := 0, props := .empty,
        payload := held.payload })

def replayQos2 (held : Qos2OutboundEntry) : Option OutFrame :=
  if held.recReceived then some (.pubRelOut held.packetId)
  else
    newFrame (aliasMetaLength held.topic) held.payload.length
      (.publishOut
        { topic := held.topic, packetId := held.packetId, qos := .exactlyOnce,
          retain := held.retain, dup := true, topicAlias := 0, subscriptionId := 0,
          props := .empty, payload := held.payload })

/-- The unacknowledged deliveries in the order of their replay. The spill is looked at
only while its counter is nonzero. -/
def replayUnacked (session : Session) : List OutFrame :=
  session.inflight.filterMap replayInflight ++
    (if session.spillCount != 0 then session.inflightSpill.filterMap replayInflight else []) ++
    session.qos2Outbound.filterMap replayQos2

def queuedFrame (queued : QueuedMessage) (packetId : UInt16) : Option OutFrame :=
  newFrame (plainMetaLength queued.topic) queued.payload.length
    (.publishOut
      { topic := queued.topic, packetId, qos := queued.qos, retain := queued.retain,
        dup := false, topicAlias := 0, subscriptionId := 0, props := .empty,
        payload := queued.payload })

/-- The outcome of replaying a queue: the connection table, the session, the frames that
the connection took and the messages that it did not. -/
structure QueueReplay where
  shared : Shared
  session : Session
  routed : List (Nat × OutFrame)
  unrouted : List QueuedMessage

/-- The drain loop of `replay_offline_client`. Only QoS 2 messages are tracked after
they reached the mailbox. -/
def replayQueue (connId : Nat) (shared : Shared) (session : Session) :
    List QueuedMessage → Option QueueReplay
  | [] => some ⟨shared, session, [], []⟩
  | queued :: rest =>
    (packetIdFor session queued.qos).bind
      fun allocated =>
        let (packetId, session) := allocated
        match queuedFrame queued packetId with
        | none =>
          (replayQueue connId shared session rest).map fun replay =>
            { replay with unrouted := queued :: replay.unrouted }
        | some frame =>
          let (shared, taken) := shared.route connId frame
          if taken then
            let session :=
              if queued.qos == .exactlyOnce && packetId != 0 then
                (session.trackQos2Outbound
                  { packetId, topic := queued.topic, retain := queued.retain,
                    payload := queued.payload, recReceived := false }).1
              else session
            (replayQueue connId shared session rest).map fun replay =>
              { replay with routed := (connId, frame) :: replay.routed }
          else
            (replayQueue connId shared session rest).map fun replay =>
              { replay with unrouted := queued :: replay.unrouted }

def replayOfflineClient (clientId : Str) : Option (Shared × List (Nat × OutFrame)) :=
  match replayTarget shared connId clientId with
  | none => some (shared, [])
  | some session =>
    let (shared, first) :=
      routeAll shared ((replayUnacked session).map fun frame => (connId, frame))
    let (drained, queue) := session.takeOfflineRetained
    (replayQueue connId shared drained queue).map fun replay =>
      let (session, store) :=
        replay.session.confirmOfflineConsumed replay.shared.sessions.store replay.unrouted
      let sessions := { replay.shared.sessions.putSession session with store }
      ({ replay.shared with sessions }, first ++ replay.routed)

def returnCode : OutFrame → UInt8
  | .sessionBinding _ _ code _ _ => code
  | _ => 0

def autoSubscribed (reply : OutFrame) : Option Shared :=
  if returnCode reply == 0 then
    applyAutoSubscribe connId req.clientId (sessionTenantForConn shared connId req.clientId) shared
      (env.autoSubscribe req.clientId req.username)
  else some shared

/-- The bind branch of `handle_inbound_frame_with`. The connection is registered and the
backlog replayed whatever the reply says; only auto-subscriptions look at it. -/
def handleBind (parsed : Except String BindRequest) (looksV5 : Bool) : Option (Shared × Effects) :=
  let (shared, reply) := applyBindRequest shared env connId parsed looksV5
  let shared := shared.register connId
  match parsed with
  | .error _ => some (shared, ⟨[reply], [], []⟩)
  | .ok req =>
    (autoSubscribed shared env connId req reply).bind fun shared =>
      (replayOfflineClient shared connId req.clientId).map fun result =>
        (result.1, ⟨[reply], result.2, []⟩)

end IndraMqtt.Kernel
