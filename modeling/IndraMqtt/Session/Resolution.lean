import IndraMqtt.Session.Manager

/-! The resolution of a session for a CONNECT: what becomes of the session under its key, of
the other sessions, and of the records beside the map. -/
namespace IndraMqtt.Sessions.SessionManager

open Protocol KeyedMap

variable {manager : SessionManager} {existing session : Session} {now : Nat}

/-! ### Pruning -/

theorem mem_of_oldest {sessions : List Session}
    (hOldest : oldest sessions = some session) : session ∈ sessions := by
  induction sessions with
  | nil => cases hOldest
  | cons first rest ih => grind [oldest]

/-- Only ended sessions without state give way to a bound on the maps. -/
def Stateless (session : Session) : Prop := session.isEndedStateless = true

theorem enforceSessionCap_pruned (manager : SessionManager) (tenant : Str) :
    ∃ sessions, manager.enforceSessionCap tenant = { manager with sessions } ∧
      manager.sessions.Pruned Stateless sessions := by
  unfold enforceSessionCap
  simp only
  split
  · exact ⟨manager.sessions, rfl, .refl _⟩
  · split
    · next victim hVictim =>
      have hMem := mem_of_oldest hVictim
      rw [List.mem_filter, tenantSessions, List.mem_filter] at hMem
      refine ⟨_, rfl, ?_⟩
      show manager.sessions.Pruned Stateless
        (manager.sessions.removeAll ([victim].map Session.key))
      apply KeyedMap.Pruned.removeAll
      intro session hSession
      obtain rfl := List.mem_singleton.mp hSession
      exact ⟨hMem.1.1, hMem.2⟩
    · exact ⟨manager.sessions, rfl, .refl _⟩

theorem enforceTenantCap_pruned (manager : SessionManager) (tenant : Str) :
    ∃ sessions, manager.enforceTenantCap tenant = { manager with sessions } ∧
      manager.sessions.Pruned Stateless sessions := by
  unfold enforceTenantCap
  split
  · exact ⟨manager.sessions, rfl, .refl _⟩
  · split
    · next victim hVictim =>
      have hAll := List.find?_some hVictim
      rw [Bool.and_eq_true, List.all_eq_true] at hAll
      refine ⟨_, rfl, KeyedMap.Pruned.removeAll manager.sessions ?_⟩
      intro session hSession
      exact ⟨(List.mem_filter.mp hSession).1, hAll.2 session hSession⟩
    · exact ⟨manager.sessions, rfl, .refl _⟩

def Lapsed (now : Nat) (session : Session) : Prop :=
  Stateless session ∧ endedSessionTtlSecs * 1000 ≤ session.endedAtMs.elim 0 (now - ·)

theorem pruneEndedInTenant_lapsed (manager : SessionManager) (tenant : Str) (now : Nat) :
    manager.sessions.Pruned (Lapsed now) (manager.pruneEndedInTenant tenant now).sessions := by
  apply KeyedMap.Pruned.removeAll
  intro session hSession
  rw [List.mem_filter, Bool.and_eq_true, decide_eq_true_eq, tenantSessions,
    List.mem_filter] at hSession
  exact ⟨hSession.1.1, hSession.2⟩

def Expired (now : Nat) (session : Session) : Prop :=
  session.protocolVersion = 5 ∧ session.sessionExpired now = true

theorem pruneExpiredBounded_pruned (manager : SessionManager) (tenant : Str) (maxScan now : Nat) :
    manager.sessions.Pruned (Expired now)
      (manager.pruneExpiredBounded tenant maxScan now).1.sessions := by
  apply KeyedMap.Pruned.removeAll
  intro session hSession
  rw [List.mem_filter, Bool.and_eq_true, beq_iff_eq] at hSession
  have hTenant := List.mem_of_mem_take hSession.1
  rw [tenantSessions, List.mem_filter] at hTenant
  exact ⟨hTenant.1, hSession.2⟩

theorem Stateless.disconnected (hStateless : Stateless session) : session.connected = false := by
  simp_all [Stateless, Session.isEndedStateless]

theorem disconnected_of_expired (hExpired : session.sessionExpired now = true) :
    session.connected = false := by
  simp_all [Session.sessionExpired]

/-! ### Resolution -/

/-- Every indexed connection is the one that its session names, and a session that
names a connection is live. -/
structure Bound (manager : SessionManager) : Prop where
  index : ∀ connId key, manager.connIndex.get? connId = some key →
    ∃ session, manager.sessions.get? key = some session ∧ session.connId = some connId
  live : ∀ key session, manager.sessions.get? key = some session → session.connId.isSome →
    session.connected = true

theorem Bound.unbound (hBound : Bound manager) {key : SessionKey}
    (hGet : manager.sessions.get? key = some session) (hEnded : session.connected = false) :
    session.connId = none := by
  cases hConn : session.connId with
  | none => rfl
  | some connId =>
    have hLive := hBound.live key session hGet (by simp [hConn])
    rw [hEnded] at hLive
    cases hLive

/-- A session that a CONNECT resumes: only the fields of the connection are new. -/
def Resumed (existing session : Session) : Prop :=
  session =
    { existing with
      connected := true
      connectedAtMs := session.connectedAtMs
      endedAtMs := session.endedAtMs
      offlineStore := session.offlineStore
      protocolVersion := session.protocolVersion
      sessionExpiry := session.sessionExpiry
      clientReceiveMax := session.clientReceiveMax
      clientMaxPacketSize := session.clientMaxPacketSize }

theorem Resumed.key (hResumed : Resumed existing session) : session.key = existing.key := by
  rw [hResumed]
  rfl

theorem Resumed.applyV5Connect (hResumed : Resumed existing session)
    (version expiry receiveMax maxPacket : Nat) :
    Resumed existing (session.applyV5Connect version expiry receiveMax maxPacket) := by
  rw [hResumed]
  rfl

structure Fresh (session : Session) : Prop where
  connected : session.connected = true
  connId : session.connId = none
  username : session.username = none
  offlineQueue : session.offlineQueue = []
  inflight : session.inflight = []
  inflightSpill : session.inflightSpill = []
  qos2Inbound : session.qos2Inbound = ∅
  qos2Outbound : session.qos2Outbound = []

theorem Fresh.applyV5Connect (hFresh : Fresh session) (version expiry receiveMax maxPacket : Nat) :
    Fresh (session.applyV5Connect version expiry receiveMax maxPacket) :=
  ⟨hFresh.connected, hFresh.connId, hFresh.username, hFresh.offlineQueue, hFresh.inflight,
    hFresh.inflightSpill, hFresh.qos2Inbound, hFresh.qos2Outbound⟩

section

variable (manager : SessionManager) (tenant clientId : Str) (cleanStart : Bool) (now : Nat)

theorem fresh_freshSession : Fresh (manager.freshSession tenant clientId cleanStart now) :=
  ⟨rfl, rfl, rfl, rfl, rfl, rfl, rfl, rfl⟩

/-- Inserting a fresh session: it is stored, and the bounds remove only other ended
sessions without state. -/
theorem insertFresh_spec : ∃ sessions, (manager.insertFresh tenant clientId cleanStart now).1 =
        { manager with nextSessionId := manager.nextSessionId + 1, sessions } ∧
      (manager.sessions.put (manager.freshSession tenant clientId cleanStart now)).Pruned Stateless
        sessions := by
  let inserted : SessionManager :=
    { manager with
      nextSessionId := manager.nextSessionId + 1
      sessions := manager.sessions.put (manager.freshSession tenant clientId cleanStart now) }
  obtain ⟨first, hFirst, hPruned⟩ := enforceSessionCap_pruned inserted tenant
  obtain ⟨second, hSecond, hPruned'⟩ :=
    enforceTenantCap_pruned (inserted.enforceSessionCap tenant) tenant
  refine ⟨second, ?_, ?_⟩
  · grind [insertFresh]
  · rw [hFirst] at hPruned'
    exact hPruned.trans hPruned'

end

theorem dropIndexEntry_get? (manager : SessionManager) (stale connId : Nat) (owner : SessionKey) :
    (manager.dropIndexEntry stale owner).connIndex.get? connId =
      if connId = stale ∧ manager.connIndex.get? stale = some owner then none
      else manager.connIndex.get? connId := by
  grind [dropIndexEntry]

theorem dropIndexEntry_sessions (manager : SessionManager) (stale : Nat) (owner : SessionKey) :
    (manager.dropIndexEntry stale owner).sessions = manager.sessions := by
  unfold dropIndexEntry
  split <;> rfl

variable {before after : SessionManager} {key other : SessionKey}

/-- The arguments of `get_or_create_in_tenant`, and the negotiated values of
`get_or_create_v5_in_tenant` (version, expiry, receive maximum, packet size). -/
structure Resolution where
  key : SessionKey
  cleanStart : Bool
  v5 : Option (Nat × Nat × Nat × Nat)

def resolve (manager : SessionManager) (request : Resolution) (now : Nat) :
    SessionManager × Session :=
  match request.v5 with
  | none =>
    let (manager, session, _) := manager.getOrCreateInTenant request.key.tenant
      request.key.clientId request.cleanStart now
    (manager, session)
  | some (version, expiry, receiveMax, maxPacket) =>
    let (manager, session, _) := manager.getOrCreateV5InTenant request.key.tenant
      request.key.clientId request.cleanStart version expiry receiveMax maxPacket now
    (manager, session)

/-- With one more session under its key, the tenant or the manager is past its cap. -/
def PastCap (manager : SessionManager) (session : Session) : Prop :=
  maxSessionsPerTenant < ((manager.putSession session).tenantSessions session.tenantId).length ∨
    maxTenants < (manager.putSession session).tenantNames.length

/-- A session under another key stays, unless it ended without state and a cap was passed. -/
def Spares (before after : SessionManager) (key other : SessionKey) : Prop :=
  after.sessions.get? other = before.sessions.get? other ∨
    ∃ found, before.sessions.get? other = some found ∧ after.sessions.get? other = none ∧
      Stateless found ∧ ∃ session : Session, session.key = key ∧ PastCap before session

section

variable (hSpares : Spares before after key other)
include hSpares

theorem Spares.congr {before' after' : SessionManager}
    (hBefore : before'.sessions = before.sessions) (hAfter : after'.sessions = after.sessions) :
    Spares before' after' key other := by
  unfold Spares PastCap tenantSessions tenantNames putSession at hSpares ⊢
  rwa [hBefore, hAfter]

theorem Spares.old {found : Session} (hFound : after.sessions.get? other = some found) :
    before.sessions.get? other = some found := by
  obtain hSame | ⟨-, -, hGone, -⟩ := hSpares
  · rwa [← hSame]
  · cases hGone.symm.trans hFound

theorem Spares.kept {found : Session} (hFound : before.sessions.get? other = some found) :
    after.sessions.get? other = some found ∨ Stateless found := by
  obtain hSame | ⟨gone, hGone, -, hStateless, -⟩ := hSpares
  · exact .inl (hSame.trans hFound)
  · cases hGone.symm.trans hFound
    exact .inr hStateless

end

/-- The sessions, index entries and queue files of the other keys and the slots of the users
stay. -/
structure Frames (before after : SessionManager) (key : SessionKey) : Prop where
  others : ∀ other, other ≠ key → Spares before after key other
  index : ∀ connId, after.connIndex.get? connId = before.connIndex.get? connId ∨
    before.connIndex.get? connId = some key ∧ after.connIndex.get? connId = none
  files : ∀ other, other ≠ key → after.store.load other = before.store.load other
  slots : after.connCounts = before.connCounts

/-- What a resolution does to the records of the manager. The session is resumed, where a
version 5 request also looks at its expiry, or it is fresh, and then the one it replaced has no
index entry. -/
structure Settles (before after : SessionManager) (request : Resolution) (now : Nat)
    (session : Session) : Prop extends Frames before after request.key where
  stored : after.sessions.get? request.key = some session
  origin :
    (∃ existing, before.sessions.get? request.key = some existing ∧ request.cleanStart = false ∧
      (request.v5.isSome → existing.sessionExpired now = false) ∧ Resumed existing session) ∨
    (Fresh session ∧ (∀ connId, (before.sessions.get? request.key).bind (·.connId) = some connId →
        after.connIndex.get? connId ≠ some request.key) ∧
      (request.cleanStart = true ∨ ∀ existing, before.sessions.get? request.key = some existing →
        existing.sessionExpired now = true))
  counted : after.connectedCount + ((before.sessions.get? request.key).any (·.connected)).toNat =
    before.connectedCount + 1

theorem load_dropQueueFile (manager : SessionManager) (hOther : other ≠ key) :
    (manager.dropQueueFile key).store.load other = manager.store.load other := by
  unfold dropQueueFile
  split
  · have hRemoved := manager.store.load_rewriteInTenant key other []
    rwa [if_neg fun hSame => hOther hSame.1] at hRemoved
  · rfl

theorem enforceSessionCap_of_room {tenant : Str}
    (hRoom : (manager.tenantSessions tenant).length ≤ maxSessionsPerTenant) :
    manager.enforceSessionCap tenant = manager := if_pos hRoom

theorem enforceTenantCap_of_room (hRoom : manager.tenantNames.length ≤ maxTenants) (tenant : Str) :
    manager.enforceTenantCap tenant = manager := if_pos hRoom

/-- Under the caps a fresh session is only added. -/
theorem insertFresh_spares (manager : SessionManager) (key : SessionKey) (cleanStart : Bool)
    (now : Nat) (hOther : other ≠ key) :
    Spares manager (manager.insertFresh key.tenant key.clientId cleanStart now).1 key other := by
  let fresh := manager.freshSession key.tenant key.clientId cleanStart now
  have hPut : (manager.sessions.put fresh).get? other = manager.sessions.get? other :=
    get?_put_ne hOther
  by_cases hCap : PastCap manager fresh
  · obtain ⟨sessions, hInserted, hPruned⟩ :=
      insertFresh_spec manager key.tenant key.clientId cleanStart now
    rw [hInserted]
    obtain hSame | ⟨found, hFound, hGone, hStateless⟩ := hPruned.get? other
    · exact .inl (hSame.trans hPut)
    · exact .inr ⟨found, hPut.symm.trans hFound, hGone, hStateless, fresh, rfl, hCap⟩
  · left
    rw [PastCap, not_or, Nat.not_lt, Nat.not_lt] at hCap
    have hInserted : (manager.insertFresh key.tenant key.clientId cleanStart now).1 =
        { manager with
          nextSessionId := manager.nextSessionId + 1, sessions := manager.sessions.put fresh } := by
      rw [insertFresh]
      dsimp only
      rw [enforceSessionCap_of_room, enforceTenantCap_of_room]
      · exact hCap.2
      · exact hCap.1
    rw [hInserted]
    exact hPut

theorem dropIndexEntry_records (manager : SessionManager) (connId : Nat) (owner : SessionKey) :
    (manager.dropIndexEntry connId owner).maxOfflineQueue = manager.maxOfflineQueue ∧
      (manager.dropIndexEntry connId owner).connectedCount = manager.connectedCount ∧
      (manager.dropIndexEntry connId owner).store = manager.store ∧
      (manager.dropIndexEntry connId owner).connCounts = manager.connCounts := by
  unfold dropIndexEntry
  split <;> exact ⟨rfl, rfl, rfl, rfl⟩

theorem insertFresh_records (manager : SessionManager) (key : SessionKey) (cleanStart : Bool)
    (now : Nat) :
    let inserted := (manager.insertFresh key.tenant key.clientId cleanStart now).1
    inserted.sessions.get? key =
        some (manager.freshSession key.tenant key.clientId cleanStart now) ∧
      inserted.connIndex = manager.connIndex ∧ inserted.connectedCount = manager.connectedCount ∧
      inserted.store = manager.store ∧ inserted.connCounts = manager.connCounts := by
  obtain ⟨sessions, hInserted, hPruned⟩ :=
    insertFresh_spec manager key.tenant key.clientId cleanStart now
  simp only [hInserted]
  refine ⟨?_, trivial, trivial, trivial, trivial⟩
  obtain hKept | hGone := hPruned.kept key _ (get?_put_of_key _ rfl)
  · exact hKept
  · cases hGone.disconnected

/-- A fresh session took the place of the stored one, is counted in its stead, and the index
entry of the stored one is dropped. -/
theorem Settles.fresh {inserted : SessionManager}
    (hStored : inserted.sessions.get? key = some session) (hFresh : Fresh session)
    (hOthers : ∀ other, other ≠ key → Spares manager inserted key other)
    (hIndex : inserted.connIndex = manager.connIndex)
    (hCount : inserted.connectedCount = manager.connectedCount)
    (hFiles : ∀ other, other ≠ key → inserted.store.load other = manager.store.load other)
    (hSlots : inserted.connCounts = manager.connCounts) :
    let live := (manager.sessions.get? key).elim false (·.connected)
    let counted := { inserted with
      connectedCount := inserted.connectedCount + if live then 0 else 1 }
    Settles manager (((manager.sessions.get? key).bind (·.connId)).elim counted
      (counted.dropIndexEntry · key)) ⟨key, true, none⟩ now session := by
  intro live counted
  have hCounted : counted.connectedCount + ((manager.sessions.get? key).any (·.connected)).toNat =
      manager.connectedCount + 1 := by
    show inserted.connectedCount + (if live then 0 else 1) + _ = _
    rw [hCount]
    cases hGet : manager.sessions.get? key with
    | none => simp [live, hGet]
    | some existing => cases hLive : existing.connected <;> simp [live, hGet, hLive]
  have hSame : counted.connIndex = manager.connIndex := hIndex
  cases hStale : (manager.sessions.get? key).bind (·.connId) with
  | none =>
    refine ⟨⟨fun other hOther => (hOthers other hOther).congr rfl rfl, fun connId => .inl ?_, hFiles,
      hSlots⟩, hStored, .inr ⟨hFresh, fun connId hConn => ?_, .inl rfl⟩, hCounted⟩
    · rw [Option.elim_none, hSame]
    · cases hStale.symm.trans hConn
  | some stale =>
    obtain ⟨-, hCount, hStore, hCounts⟩ := counted.dropIndexEntry_records stale key
    have hGet (connId : Nat) := counted.dropIndexEntry_get? stale connId key
    rw [hSame] at hGet
    have hSessions := counted.dropIndexEntry_sessions stale key
    rw [Option.elim_some]
    refine ⟨⟨fun other hOther => (hOthers other hOther).congr rfl hSessions, fun connId => ?_,
      fun other hOther => ?_, hCounts.trans hSlots⟩, ?_, .inr ⟨hFresh, ?_, .inl rfl⟩, ?_⟩
    · rw [hGet]
      split
      · next hOwn => exact .inr ⟨hOwn.1 ▸ hOwn.2, rfl⟩
      · exact .inl rfl
    · rw [hStore]
      exact hFiles other hOther
    · rw [hSessions]
      exact hStored
    · intro connId hConn
      cases hStale.symm.trans hConn
      rw [hGet]
      split
      · exact nofun
      · next hOther => exact fun hEntry => hOther ⟨rfl, hEntry⟩
    · rw [hCount, hCounted]

section

variable (manager : SessionManager) (key : SessionKey)

theorem createClean_settles (now : Nat) :
    let created := manager.createClean key.tenant key.clientId now
    Settles manager created.1 ⟨key, true, none⟩ now created.2 := by
  let dropped := manager.dropQueueFile key
  obtain ⟨hStored, hIndex, hCount, hStore, hSlots⟩ := insertFresh_records dropped key true now
  have hFresh := fresh_freshSession dropped key.tenant key.clientId true now
  have hOthers (other : SessionKey) (hOther : other ≠ key) :
      Spares manager (dropped.insertFresh key.tenant key.clientId true now).1 key other :=
    (insertFresh_spares dropped key true now hOther).congr rfl rfl
  have hFiles (other : SessionKey) (hOther : other ≠ key) :
      (dropped.insertFresh key.tenant key.clientId true now).1.store.load other =
        manager.store.load other := by
    rw [hStore]
    exact load_dropQueueFile manager hOther
  exact Settles.fresh hStored hFresh hOthers hIndex hCount hFiles hSlots

theorem getOrCreateInTenant_settles (cleanStart : Bool) (now : Nat) :
    let resolved := manager.getOrCreateInTenant key.tenant key.clientId cleanStart now
    Settles manager resolved.1 ⟨key, cleanStart, none⟩ now resolved.2.1 := by
  cases cleanStart with
  | true => exact createClean_settles manager key now
  | false =>
    simp only [getOrCreateInTenant, Bool.false_eq_true, if_false]
    cases hExisting : manager.sessions.get? key with
    | none =>
      obtain ⟨hStored, hIndex, hCount, hStore, hSlots⟩ :=
        insertFresh_records manager key false now
      have hFresh := fresh_freshSession manager key.tenant key.clientId false now
      let inserted := (manager.insertFresh key.tenant key.clientId false now).1
      show Settles manager { inserted with connectedCount := inserted.connectedCount + 1 }
        ⟨key, false, none⟩ now (manager.freshSession key.tenant key.clientId false now)
      refine ⟨⟨fun _ hOther => (insertFresh_spares manager key false now hOther).congr rfl rfl,
        fun connId => .inl (congrArg (·.get? connId) hIndex),
        fun other _ => congrArg (·.load other) hStore, hSlots⟩, hStored,
        .inr ⟨hFresh, fun _ hConn => ?_, .inr fun _ hGet => ?_⟩, ?_⟩
      · rw [hExisting] at hConn
        cases hConn
      · cases hExisting.symm.trans hGet
      · rw [hExisting, Option.any_none]
        exact congrArg (· + 1) hCount
    | some existing =>
      dsimp only
      have hResumed : Resumed existing (manager.resume existing now) := by grind [resume, Resumed]
      have hKey : (manager.resume existing now).key = key := by
        rw [hResumed.key]
        exact key_of_get? hExisting
      refine ⟨⟨fun other hOther => .inl (get?_put_ne (by rwa [hKey])), fun _ => .inl rfl,
        fun _ _ => rfl, rfl⟩, get?_put_of_key _ hKey,
        .inl ⟨existing, hExisting, rfl, nofun, hResumed⟩, ?_⟩
      rw [hExisting]
      cases hLive : existing.connected <;> simp [hLive]

/-- Negotiated values are written to the resolved session, which has not expired. -/
theorem resolveV5_settles (cleanStart : Bool) (version expiry receiveMax maxPacket now : Nat)
    (hLive : cleanStart = false → ∀ existing, manager.sessions.get? key = some existing →
      existing.sessionExpired now = false) :
    let resolved := manager.resolveV5 key.tenant key.clientId cleanStart version expiry receiveMax
      maxPacket now
    Settles manager resolved.1 ⟨key, cleanStart, some (version, expiry, receiveMax, maxPacket)⟩ now
      resolved.2.1 := by
  have hSettles := getOrCreateInTenant_settles manager key cleanStart now
  let session := (manager.getOrCreateInTenant key.tenant key.clientId cleanStart now).2.1
  have hKey : session.key = key := key_of_get? hSettles.stored
  refine ⟨⟨fun other hOther => ?_, hSettles.index, hSettles.files, hSettles.slots⟩,
    get?_put_of_key _ hKey, ?_, hSettles.counted⟩
  · have hSame : ((manager.getOrCreateInTenant key.tenant key.clientId cleanStart now).1.sessions.put
        (session.applyV5Connect version expiry (max receiveMax 1) maxPacket)).get? other =
        (manager.getOrCreateInTenant key.tenant key.clientId cleanStart now).1.sessions.get? other :=
      get?_put_ne fun hNe => hOther (hNe.trans hKey)
    obtain hKept | ⟨found, hFound, hGone, hEvicted⟩ := hSettles.others other hOther
    · exact .inl (hSame.trans hKept)
    · exact .inr ⟨found, hFound, hSame.trans hGone, hEvicted⟩
  · obtain ⟨existing, hGet, hClean, -, hResumed⟩ | ⟨hFresh, hWhy⟩ := hSettles.origin
    · exact .inl ⟨existing, hGet, hClean, fun _ => hLive hClean existing hGet,
        hResumed.applyV5Connect ..⟩
    · exact .inr ⟨hFresh.applyV5Connect .., hWhy⟩

end

/-- A session is dropped before the resolution. -/
theorem Frames.of_dropSession (hFrames : Frames (manager.dropSession key) after key) :
    Frames manager after key := by
  refine ⟨fun other hOther => ?_, hFrames.index, fun other hOther =>
    (hFrames.files other hOther).trans (load_dropQueueFile manager hOther), hFrames.slots⟩
  have hSame : (manager.dropSession key).sessions.get? other = manager.sessions.get? other := by
    rw [dropSession, get?_remove, if_neg hOther]
  obtain hKept | ⟨found, hFound, hGone, hStateless, fresh, rfl, hCap⟩ := hFrames.others other hOther
  · exact .inl (hKept.trans hSame)
  · refine .inr ⟨found, hSame ▸ hFound, hGone, hStateless, fresh, rfl, ?_⟩
    have hPut : (manager.dropSession fresh.key).sessions.put fresh = manager.sessions.put fresh :=
      put_remove _ _
    simp only [PastCap, tenantSessions, tenantNames, putSession] at hCap ⊢
    rwa [hPut] at hCap

section

variable (manager : SessionManager) (request : Resolution) (now : Nat)

/-- A resolution starts from the manager, or from the manager without the expired session. -/
theorem resolve_settles : ∃ start, (start = manager ∨ start = manager.dropSession request.key ∧
        ∀ existing, manager.sessions.get? request.key = some existing →
          existing.sessionExpired now = true) ∧
      Settles start (manager.resolve request now).1 request now
        (manager.resolve request now).2 := by
  obtain ⟨key, cleanStart, v5⟩ := request
  cases v5 with
  | none => exact ⟨manager, .inl rfl, getOrCreateInTenant_settles manager key cleanStart now⟩
  | some values =>
    obtain ⟨version, expiry, receiveMax, maxPacket⟩ := values
    simp only [resolve, getOrCreateV5InTenant]
    cases cleanStart with
    | true => exact ⟨manager, .inl rfl, resolveV5_settles manager key true _ _ _ _ _ nofun⟩
    | false =>
      simp only [Bool.false_eq_true, if_false]
      split
      · next hExpired =>
        refine ⟨manager.dropSession key, .inr ⟨rfl, fun existing hGet => ?_⟩,
          resolveV5_settles (manager.dropSession key) key false _ _ _ _ _ fun _ existing hGet => ?_⟩
        · rwa [getInTenant, hGet] at hExpired
        · rw [dropSession, get?_remove, if_pos rfl] at hGet
          cases hGet
      · next hLive =>
        refine ⟨manager, .inl rfl,
          resolveV5_settles manager key false _ _ _ _ _ fun _ existing hGet => ?_⟩
        rw [getInTenant, hGet] at hLive
        exact Bool.eq_false_iff.mpr hLive

theorem resolve_frames : Frames manager (manager.resolve request now).1 request.key := by
  obtain ⟨start, rfl | ⟨rfl, -⟩, hSettles⟩ := resolve_settles manager request now
  · exact hSettles.toFrames
  · exact hSettles.toFrames.of_dropSession

end

/-- An expired session owns no connection, so that dropping it first makes no difference. -/
theorem Bound.settles (hBound : Bound manager) (request : Resolution) (now : Nat) :
    Settles manager (manager.resolve request now).1 request now
      (manager.resolve request now).2 := by
  obtain ⟨start, rfl | ⟨rfl, hExpired⟩, hSettles⟩ := resolve_settles manager request now
  · exact hSettles
  have hNone : (manager.dropSession request.key).sessions.get? request.key = none := by
    rw [SessionManager.dropSession, get?_remove, if_pos rfl]
  have hEnded : (manager.sessions.get? request.key).bind (·.connId) = none ∧
      (manager.sessions.get? request.key).any (·.connected) = false := by
    cases hGet : manager.sessions.get? request.key with
    | none => exact ⟨rfl, rfl⟩
    | some existing =>
      have hEnded := disconnected_of_expired (hExpired existing hGet)
      exact ⟨hBound.unbound hGet hEnded, hEnded⟩
  refine ⟨hSettles.toFrames.of_dropSession, hSettles.stored, .inr ⟨?_, ?_, .inr hExpired⟩, ?_⟩
  · obtain ⟨existing, hGet, -⟩ | ⟨hFresh, -⟩ := hSettles.origin
    · cases hNone.symm.trans hGet
    · exact hFresh
  · intro connId hConn
    cases hEnded.1.symm.trans hConn
  · have hCounted := hSettles.counted
    rw [hNone, Option.any_none] at hCounted
    rw [hEnded.2]
    exact hCounted

section Settled

variable {request : Resolution} (hSettles : Settles before after request now session)
include hSettles

theorem Settles.connected : session.connected = true := by
  obtain ⟨existing, -, -, -, hResumed⟩ | ⟨hFresh, -⟩ := hSettles.origin
  · rw [hResumed]
  · exact hFresh.connected

theorem Settles.entry_old {connId : Nat} {owner : SessionKey}
    (hEntry : after.connIndex.get? connId = some owner) :
    before.connIndex.get? connId = some owner := by
  obtain hSame | ⟨-, hNone⟩ := hSettles.index connId
  · rwa [← hSame]
  · cases hNone.symm.trans hEntry

theorem Settles.entry_kept {connId : Nat} {owner : SessionKey} (hOwner : owner ≠ request.key)
    (hEntry : before.connIndex.get? connId = some owner) :
    after.connIndex.get? connId = some owner := by
  obtain hSame | ⟨hOwn, -⟩ := hSettles.index connId
  · rw [hSame, hEntry]
  · exact absurd (Option.some.inj (hEntry.symm.trans hOwn)) hOwner

theorem Settles.bound (hBound : Bound before) : Bound after := by
  constructor
  · intro connId owner hEntry
    obtain ⟨found, hFound, hConn⟩ := hBound.index connId owner (hSettles.entry_old hEntry)
    by_cases hOwner : owner = request.key
    · subst hOwner
      refine ⟨session, hSettles.stored, ?_⟩
      obtain ⟨existing, hExisting, -, -, hResumed⟩ | ⟨-, hDropped, -⟩ := hSettles.origin
      · cases hExisting.symm.trans hFound
        rw [hResumed]
        exact hConn
      · exact absurd hEntry (hDropped connId (by rw [hFound, Option.bind_some, hConn]))
    · obtain hKept | hStateless := (hSettles.others owner hOwner).kept hFound
      · exact ⟨found, hKept, hConn⟩
      · cases (hBound.unbound hFound hStateless.disconnected).symm.trans hConn
  · intro owner found hFound hNamed
    by_cases hOwner : owner = request.key
    · subst hOwner
      cases hSettles.stored.symm.trans hFound
      exact hSettles.connected
    · exact hBound.live owner found ((hSettles.others owner hOwner).old hFound) hNamed

end Settled

/-- What the resolution of a session for a CONNECT does: the session stands under its
key, resumed or fresh, other keys lose at most ended sessions without state, and the
index loses at most the entries of a session that a fresh one replaced. -/
structure Resolves (before after : SessionManager) (key : SessionKey) (cleanStart : Bool)
    (now : Nat) (session : Session) : Prop where
  stored : after.sessions.get? key = some session
  kept : ∀ other found, other ≠ key → before.sessions.get? other = some found →
    after.sessions.get? other = some found ∨ Stateless found
  old : ∀ other found, other ≠ key → after.sessions.get? other = some found →
    before.sessions.get? other = some found
  index : ∀ connId other, after.connIndex.get? connId = some other →
    before.connIndex.get? connId = some other
  entries : ∀ connId other, other ≠ key → before.connIndex.get? connId = some other →
    after.connIndex.get? connId = some other
  origin :
    (∃ existing, before.sessions.get? key = some existing ∧ cleanStart = false ∧
      existing.sessionExpired now = false ∧ Resumed existing session) ∨
    (Fresh session ∧ (∀ connId, after.connIndex.get? connId ≠ some key) ∧
      (cleanStart = true ∨ ∀ existing, before.sessions.get? key = some existing →
        existing.sessionExpired now = true))

theorem Resolves.connected {cleanStart : Bool}
    (hResolves : Resolves before after key cleanStart now session) : session.connected = true := by
  obtain ⟨existing, -, -, -, hResumed⟩ | ⟨hFresh, -⟩ := hResolves.origin
  · rw [hResumed]
  · exact hFresh.connected

theorem getOrCreateV5InTenant_resolves (hBound : Bound manager) (tenant clientId : Str)
    (cleanStart : Bool) (version expiry receiveMax maxPacket now : Nat) :
    let resolved := manager.getOrCreateV5InTenant tenant clientId cleanStart version expiry
      receiveMax maxPacket now
    Resolves manager resolved.1 { tenant, clientId } cleanStart now resolved.2.1 ∧
      Bound resolved.1 := by
  let request : Resolution :=
    ⟨{ tenant, clientId }, cleanStart, some (version, expiry, receiveMax, maxPacket)⟩
  have hSettles := hBound.settles request now
  refine ⟨⟨hSettles.stored, fun other _ hOther => (hSettles.others other hOther).kept,
    fun other _ hOther => (hSettles.others other hOther).old, fun _ _ => hSettles.entry_old,
    fun _ _ => hSettles.entry_kept, ?_⟩, hSettles.bound hBound⟩
  obtain ⟨existing, hGet, hClean, hLive, hResumed⟩ | ⟨hFresh, hDropped, hWhy⟩ := hSettles.origin
  · exact .inl ⟨existing, hGet, hClean, hLive rfl, hResumed⟩
  · refine .inr ⟨hFresh, fun connId hEntry => ?_, hWhy⟩
    obtain ⟨existing, hGet, hConn⟩ := hBound.index connId _ (hSettles.entry_old hEntry)
    exact hDropped connId (by rw [hGet, Option.bind_some, hConn]) hEntry

end IndraMqtt.Sessions.SessionManager
