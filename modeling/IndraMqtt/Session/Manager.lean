import IndraMqtt.Lib.KeyedMap
import IndraMqtt.Session.Offline
import Mathlib.Data.Rat.Defs

/-! The session manager: the session map, the index from connections to
sessions, the connection slots of each user and the publish budgets. The
two-level maps of the source are flat maps here, keyed by tenant and name. One
`now` stands for every clock read while one frame is handled. -/
namespace IndraMqtt.Sessions

open Protocol

def defaultMaxOfflineQueue : Nat := 10000
def maxTenants : Nat := 1024
def maxSessionsPerTenant : Nat := 100000
def endedSessionTtlSecs : Nat := 24 * 3600
def maxExpirySweep : Nat := 128

structure TokenBucket where
  ratePerSec : Nat
  burst : Nat
  tokens : Rat
  lastUpdate : Nat

namespace TokenBucket

def new (ratePerSec burst now : Nat) : TokenBucket :=
  { ratePerSec, burst, tokens := burst, lastUpdate := now }

def tryConsume (bucket : TokenBucket) (now : Nat) : TokenBucket × Bool :=
  let elapsed : Rat := ((now - bucket.lastUpdate : Nat) : Rat) / 1000
  let refilled := bucket.tokens + elapsed * (bucket.ratePerSec : Rat)
  let tokens := if refilled < (bucket.burst : Rat) then refilled else (bucket.burst : Rat)
  if 1 ≤ tokens then ({ bucket with tokens := tokens - 1, lastUpdate := now }, true)
  else ({ bucket with tokens := tokens, lastUpdate := now }, false)

end TokenBucket

/-- The session map: each session stands under its own tenant and client id. -/
abbrev SessionMap := KeyedMap Session.key

structure SessionManager where
  sessions : SessionMap
  nextSessionId : Nat
  connIndex : Dict Nat SessionKey
  connCounts : Dict (Str × Str) Nat
  buckets : Dict SessionKey TokenBucket
  connectedCount : Nat
  maxOfflineQueue : Option Nat
  maxQos1Inflight : Nat
  maxQos1Spill : Nat
  maxTopicAlias : Nat
  storeInstalled : Bool
  store : OfflineQueueStore

namespace SessionManager

/-- `SessionManager::new_with_all_limits`; the queue files are empty. -/
def newWithAllLimits (maxOfflineQueue : Option Nat) (maxQos1Inflight maxQos1Spill : Nat) :
    SessionManager where
  sessions := .empty
  nextSessionId := 1
  connIndex := ∅
  connCounts := ∅
  buckets := ∅
  connectedCount := 0
  maxOfflineQueue := maxOfflineQueue.map (max · 1)
  maxQos1Inflight := max maxQos1Inflight 1
  maxQos1Spill := max maxQos1Spill 1
  maxTopicAlias := defaultTopicAliasMaximum
  storeInstalled := false
  store := { files := ∅, persistFailed := 0, disk := [] }

def new : SessionManager :=
  newWithAllLimits (some defaultMaxOfflineQueue) defaultMaxQos1Inflight defaultMaxQos1Spill

variable (manager : SessionManager) (tenant clientId : Str)

def getInTenant : Option Session :=
  manager.sessions.get? { tenant, clientId }

/-- Replaces the session under its key. Session handles of the source are
shared, so every write through one is a write to the map. -/
def putSession (session : Session) : SessionManager :=
  { manager with sessions := manager.sessions.put session }

/-- `SessionManager::client_id_for_conn`: the index, or else a scan for a
session that still names the connection. -/
def clientIdForConn (connId : Nat) : Option Str :=
  match manager.connIndex.get? connId with
  | some owner => some owner.clientId
  | none =>
    (manager.sessions.values.find? fun session => session.connId == some connId).map
      (·.clientId)

def keyForConn (connId : Nat) : Option SessionKey :=
  manager.connIndex.get? connId

def sessionForConn (connId : Nat) : Option Session :=
  (manager.connIndex.get? connId).bind fun owner => manager.sessions.get? owner

def dropIndexEntry (connId : Nat) (owner : SessionKey) : SessionManager :=
  if manager.connIndex.get? connId = some owner then
    { manager with connIndex := manager.connIndex.remove connId }
  else manager

def bindSession (session : Session) (connId now : Nat) : SessionManager :=
  if session.connId = some connId then
    if manager.connIndex.get? connId = some session.key then manager
    else { manager with connIndex := manager.connIndex.set connId session.key }
  else
    let manager := manager.putSession
      { session with connId := some connId, connectedAtMs := some now }
    let manager := match session.connId with
      | some prev => manager.dropIndexEntry prev session.key
      | none => manager
    { manager with connIndex := manager.connIndex.set connId session.key }

def tenantSessions : List Session :=
  manager.sessions.values.filter (·.tenantId == tenant)

def oldest : List Session → Option Session
  | [] => none
  | session :: rest =>
    match oldest rest with
    | none => some session
    | some best => if session.id ≤ best.id then some session else some best

/-- `enforce_session_cap_locked`: past the cap, the oldest ended session without
state goes. -/
def enforceSessionCap : SessionManager :=
  let inner := manager.tenantSessions tenant
  if inner.length ≤ maxSessionsPerTenant then manager
  else
    match oldest (inner.filter (·.isEndedStateless)) with
    | some victim => { manager with sessions := manager.sessions.remove victim.key }
    | none => manager

def tenantNames : List Str :=
  (manager.sessions.values.map (·.tenantId)).dedup

/-- `enforce_tenant_cap_locked`: past the cap, the first other tenant whose
sessions are all ended and without state goes. -/
def enforceTenantCap : SessionManager :=
  if manager.tenantNames.length ≤ maxTenants then manager
  else
    match manager.tenantNames.find? fun name =>
        name != tenant && (manager.tenantSessions name).all (·.isEndedStateless) with
    | some victim =>
      { manager with
        sessions := manager.sessions.removeAll
          ((manager.tenantSessions victim).map (·.key)) }
    | none => manager

def freshSession (cleanStart : Bool) (now : Nat) : Session :=
  let session := Session.new manager.nextSessionId clientId cleanStart now
  let session := { session with tenantId := tenant }
  let session := session.applyQos1Limits manager.maxQos1Inflight manager.maxQos1Spill
  { session with
    inboundAliasMax := manager.maxTopicAlias
    offlineStore := manager.storeInstalled }

def insertFresh (cleanStart : Bool) (now : Nat) : SessionManager × Session :=
  let session := manager.freshSession tenant clientId cleanStart now
  let manager :=
    { manager with
      nextSessionId := manager.nextSessionId + 1
      sessions := manager.sessions.put session }
  ((manager.enforceSessionCap tenant).enforceTenantCap tenant, session)

def dropQueueFile (key : SessionKey) : SessionManager :=
  { manager with
    store := if manager.storeInstalled then manager.store.removeInTenant key else manager.store }

def dropSession (key : SessionKey) : SessionManager :=
  { manager.dropQueueFile key with sessions := manager.sessions.remove key }

/-- The clean-start branch of `get_or_create_in_tenant`: a fresh session takes the place
of the stored one, whose index entry goes. -/
def createClean (now : Nat) : SessionManager × Session :=
  let key : SessionKey := { tenant, clientId }
  let existing := manager.sessions.get? key
  let (manager, session) := (manager.dropQueueFile key).insertFresh tenant clientId true now
  let staleConnected := existing.elim false (·.connected)
  let manager :=
    { manager with
      connectedCount := manager.connectedCount + if staleConnected then 0 else 1 }
  ((existing.bind (·.connId)).elim manager (manager.dropIndexEntry · key), session)

def resume (existing : Session) (now : Nat) : Session :=
  let resumed :=
    if existing.connected then existing
    else { existing with connected := true, connectedAtMs := some now, endedAtMs := none }
  { resumed with offlineStore := manager.storeInstalled }

/-- `SessionManager::get_or_create_in_tenant`. A resumed session keeps its
clean-start flag. -/
def getOrCreateInTenant (cleanStart : Bool) (now : Nat) : SessionManager × Session × Bool :=
  if cleanStart then
    let (manager, session) := manager.createClean tenant clientId now
    (manager, session, false)
  else
    match manager.sessions.get? { tenant, clientId } with
    | some existing =>
      let resumed := manager.resume existing now
      ({ manager with
          sessions := manager.sessions.put resumed
          connectedCount := manager.connectedCount + if existing.connected then 0 else 1 },
        resumed, true)
    | none =>
      let (manager, session) := manager.insertFresh tenant clientId cleanStart now
      ({ manager with connectedCount := manager.connectedCount + 1 }, session, false)

def subscriptionFiltersInTenant : List TopicFilter :=
  (manager.getInTenant tenant clientId).elim [] (·.subscriptions.keys)

def resolveV5 (cleanStart : Bool)
    (version expiry receiveMax maxPacket now : Nat) : SessionManager × Session × Bool :=
  let (manager, session, present) := manager.getOrCreateInTenant tenant clientId cleanStart now
  let session := session.applyV5Connect version expiry (max receiveMax 1) maxPacket
  (manager.putSession session, session, present)

/-- `SessionManager::get_or_create_v5_in_tenant`. The returned filters are those
of an expired session that was dropped. -/
def getOrCreateV5InTenant (cleanStart : Bool)
    (version expiry receiveMax maxPacket now : Nat) :
    SessionManager × Session × Bool × List TopicFilter :=
  let key : SessionKey := { tenant, clientId }
  if cleanStart then
    let (manager, session, _) :=
      manager.resolveV5 tenant clientId true version expiry receiveMax maxPacket now
    (manager, session, false, [])
  else if (manager.getInTenant tenant clientId).elim false (·.sessionExpired now) then
    let swept := manager.subscriptionFiltersInTenant tenant clientId
    let (manager, session, _) :=
      (manager.dropSession key).resolveV5 tenant clientId false version expiry receiveMax maxPacket now
    (manager, session, false, swept)
  else
    let (manager, session, present) :=
      manager.resolveV5 tenant clientId false version expiry receiveMax maxPacket now
    (manager, session, present, [])

/-- `SessionManager::prune_expired_bounded`: the sessions reaped, with the filters
that their owner has to sweep from the router. -/
def pruneExpiredBounded (maxScan now : Nat) : SessionManager × List (Str × List TopicFilter) :=
  let victims := ((manager.tenantSessions tenant).take (max maxScan 1)).filter fun session =>
    session.protocolVersion == 5 && session.sessionExpired now
  ({ manager with
      sessions := manager.sessions.removeAll (victims.map (·.key))
      store :=
        if manager.storeInstalled then
          victims.foldl (fun store session => store.removeInTenant session.key) manager.store
        else manager.store },
    victims.map fun session => (session.clientId, session.subscriptions.keys))

def pruneEndedInTenant (now : Nat) : SessionManager :=
  let victims := (manager.tenantSessions tenant).filter fun session =>
    session.isEndedStateless &&
      decide (endedSessionTtlSecs * 1000 ≤ session.endedAtMs.elim 0 (now - ·))
  { manager with sessions := manager.sessions.removeAll (victims.map (·.key)) }

def slotCount (tenant username : Str) : Nat :=
  (manager.connCounts.get? (tenant, username)).getD 0

/-- `SessionManager::acquire_connection_slot_in_tenant`. Without a cap nothing is
counted. -/
def acquireConnectionSlotInTenant (tenant username : Str)
    (cap : Option Nat) : SessionManager × Bool :=
  match cap with
  | none => (manager, true)
  | some cap =>
    let count := manager.slotCount tenant username
    if cap ≤ count then (manager, false)
    else
      ({ manager with connCounts := manager.connCounts.set (tenant, username) (count + 1) },
        true)

/-- `SessionManager::release_connection_slot_in_tenant`, saturating at zero. -/
def releaseConnectionSlotInTenant (tenant username : Str) : SessionManager :=
  match manager.connCounts.get? (tenant, username) with
  | none => manager
  | some count =>
    { manager with connCounts := manager.connCounts.set (tenant, username) (count - 1) }

def checkPublishBudgetInTenant (rate burst now : Nat) : SessionManager × Bool :=
  let key : SessionKey := { tenant, clientId }
  let bucket := (manager.buckets.get? key).getD (.new rate burst now)
  let bucket :=
    if bucket.ratePerSec != rate || bucket.burst != burst then .new rate burst now else bucket
  let (bucket, granted) := bucket.tryConsume now
  ({ manager with buckets := manager.buckets.set key bucket }, granted)

def detached (session : Session) (now : Nat) : Session :=
  let session := { session with connId := none, connected := false }.clearAliases
  let session :=
    if session.dropsStateAtDisconnect then
      { session.clearInflight.clearQos2Inbound.clearQos2Outbound with subscriptions := ∅ }
    else session
  { session with endedAtMs := some now }

def ownedBy (key : SessionKey) (connId : Nat) : Option Session :=
  (manager.sessions.get? key).filter fun session => session.connId == some connId

def detach (session : Session) (now : Nat) : SessionManager :=
  let manager :=
    { manager with
      sessions := manager.sessions.put (detached session now)
      connectedCount := manager.connectedCount - if session.connected then 1 else 0 }
  session.username.elim manager (manager.releaseConnectionSlotInTenant tenant)

/-- `SessionManager::unbind_connection_in_tenant`. Only the connection that the
session is bound to detaches it; the filters of a session whose state is dropped
are returned for the router sweep. -/
def unbindConnectionInTenant (connId now : Nat) : SessionManager × List TopicFilter :=
  let key : SessionKey := { tenant, clientId }
  let owned := manager.ownedBy key connId
  let swept := owned.elim [] fun session =>
    if session.dropsStateAtDisconnect then session.subscriptions.keys else []
  let manager := (owned.elim manager (manager.detach tenant · now)).dropIndexEntry connId key
  let manager := { manager with buckets := manager.buckets.remove key }
  (manager.pruneEndedInTenant tenant now, swept)

def addSubscriptionInTenant
    (filter : TopicFilter) (options : SubscriptionOptions) : SessionManager :=
  match manager.getInTenant tenant clientId with
  | some session =>
    manager.putSession { session with subscriptions := session.subscriptions.set filter options }
  | none => manager

def removeSubscriptionInTenant (filter : TopicFilter) : SessionManager :=
  match manager.getInTenant tenant clientId with
  | some session =>
    manager.putSession { session with subscriptions := session.subscriptions.remove filter }
  | none => manager

end SessionManager

end IndraMqtt.Sessions
