import IndraMqtt.Session.Registry

/-! What the operations of the session manager do to clients that they are not about, and which
sessions the expiry sweep takes. -/
namespace IndraMqtt.Sessions.SessionManager

open Protocol OfflineQueueStore

variable {after manager : SessionManager} {key other : SessionKey} {now : Nat}

section

variable (manager : SessionManager)

/-! ### Other keys -/

def queueOfflineInTenant (tenant clientId : Str)
    (message : QueuedMessage) (now : Nat) : SessionManager × Bool :=
  match manager.getInTenant tenant clientId with
  | some session =>
    let (session, store, queued) :=
      session.pushOfflineWithLimit manager.store message manager.maxOfflineQueue now
    ({ manager.putSession session with store }, queued)
  | none => (manager, false)

def takeCleanSubscriptionsInTenant (tenant clientId : Str) : SessionManager × List TopicFilter :=
  match manager.getInTenant tenant clientId with
  | some session =>
    if session.dropsStateAtDisconnect then
      (manager.putSession { session with subscriptions := ∅ }, session.subscriptions.keys)
    else (manager, [])
  | none => (manager, [])

inductive KeyOperation where
  | resolve (cleanStart : Bool) (v5 : Option (Nat × Nat × Nat × Nat))
  | bind (connId : Nat)
  | unbind (connId : Nat)
  | addSubscription (filter : TopicFilter) (options : SubscriptionOptions)
  | removeSubscription (filter : TopicFilter)
  | takeCleanSubscriptions
  | queueOffline (message : QueuedMessage)
  | checkPublishBudget (rate burst : Nat)

def keyStep (key : SessionKey) (now : Nat) : KeyOperation → SessionManager
  | .resolve cleanStart v5 => (manager.resolve ⟨key, cleanStart, v5⟩ now).1
  | .bind connId =>
    (manager.sessions.get? key).elim manager (manager.bindSession · connId now)
  | .unbind connId => (manager.unbindConnectionInTenant key.tenant key.clientId connId now).1
  | .addSubscription filter options =>
    manager.addSubscriptionInTenant key.tenant key.clientId filter options
  | .removeSubscription filter => manager.removeSubscriptionInTenant key.tenant key.clientId filter
  | .takeCleanSubscriptions => (manager.takeCleanSubscriptionsInTenant key.tenant key.clientId).1
  | .queueOffline message => (manager.queueOfflineInTenant key.tenant key.clientId message now).1
  | .checkPublishBudget rate burst =>
    (manager.checkPublishBudgetInTenant key.tenant key.clientId rate burst now).1

/-- Why an operation takes away the session of another key. -/
def Evicts (key : SessionKey) (now : Nat) (found : Session) : KeyOperation → Prop
  | .resolve _ _ => ∃ session : Session, session.key = key ∧ PastCap manager session
  | .unbind _ => Lapsed now found
  | _ => False

end

/-- What an operation on a key leaves of another key: its session, unless it ended without state
and gave way, its queue file, and its index entries but for that of a connection that is bound. -/
structure Leaves (manager after : SessionManager) (key other : SessionKey) (now : Nat)
    (operation : KeyOperation) : Prop where
  session : after.sessions.get? other = manager.sessions.get? other ∨
    ∃ found, manager.sessions.get? other = some found ∧ after.sessions.get? other = none ∧
      Stateless found ∧ Evicts manager key now found operation
  file : after.store.load other = manager.store.load other
  entries : ∀ connId, operation ≠ .bind connId → (after.connIndex.get? connId = some other ↔
    manager.connIndex.get? connId = some other)

/-- At most the session of the key is written, and no index entry. -/
theorem Leaves.of_put {operation : KeyOperation} (hOther : other ≠ key)
    (hSessions : after.sessions = manager.sessions ∨
      ∃ session : Session, session.key = key ∧ after.sessions = manager.sessions.put session)
    (hIndex : after.connIndex = manager.connIndex)
    (hFile : after.store.load other = manager.store.load other) :
    Leaves manager after key other now operation := by
  refine ⟨.inl ?_, hFile, fun connId _ => by rw [hIndex]⟩
  obtain hSame | ⟨session, rfl, hPut⟩ := hSessions
  · rw [hSame]
  · rw [hPut, KeyedMap.get?_put_ne hOther]

instance (now : Nat) (session : Session) : Decidable (Lapsed now session) :=
  inferInstanceAs (Decidable (session.isEndedStateless = true ∧ _))

/-- Detaching a connection that does not own the session changes nothing exactly when the client
has no rate-limit bucket, the index does not lead from the connection to the client, and no ended
session of the tenant is due. -/
theorem stale_unbind_unchanged_iff (manager : SessionManager) (tenant clientId : Str)
    (connId now : Nat) (hStale : manager.ownedBy { tenant, clientId } connId = none) :
    (manager.unbindConnectionInTenant tenant clientId connId now).1 = manager ↔
      manager.buckets.get? { tenant, clientId } = none ∧
      manager.connIndex.get? connId ≠ some { tenant, clientId } ∧
      ∀ session ∈ manager.tenantSessions tenant, ¬Lapsed now session := by
  let key : SessionKey := { tenant, clientId }
  let due := fun session : Session => session.isEndedStateless &&
    decide (endedSessionTtlSecs * 1000 ≤ session.endedAtMs.elim 0 (now - ·))
  have hDue (session : Session) : due session = true ↔ Lapsed now session := by
    simp [due, Lapsed, Stateless]
  let victims := (manager.tenantSessions tenant).filter due
  have hAfter : (manager.unbindConnectionInTenant tenant clientId connId now).1 =
      { manager.dropIndexEntry connId key with
        buckets := manager.buckets.remove key
        sessions := manager.sessions.removeAll (victims.map (·.key)) } := by
    simp only [unbindConnectionInTenant, hStale, Option.elim_none, pruneEndedInTenant,
      tenantSessions, dropIndexEntry, victims, due]
    split <;> rfl
  rw [hAfter]
  constructor
  · intro hSame
    have hIndex := congrArg connIndex hSame
    have hSessions := congrArg sessions hSame
    refine ⟨(Dict.remove_eq_self_iff _ _).mp (congrArg buckets hSame), fun hEntry => ?_, ?_⟩
    · simp only [dropIndexEntry, key, if_pos hEntry] at hIndex
      rw [(Dict.remove_eq_self_iff _ _).mp hIndex] at hEntry
      cases hEntry
    · intro session hMem hLapsed
      have hStored := (KeyedMap.mem_values_iff _ session).mp (List.mem_filter.mp hMem).1
      rw [← hSessions, KeyedMap.get?_removeAll, if_pos] at hStored
      · cases hStored
      · exact List.mem_map_of_mem (List.mem_filter.mpr ⟨hMem, (hDue _).mpr hLapsed⟩)
  · rintro ⟨hBucket, hEntry, hEnded⟩
    have hVictims : victims = [] := by simpa [victims, hDue] using hEnded
    rw [hVictims, (Dict.remove_eq_self_iff _ _).mpr hBucket, dropIndexEntry, if_neg hEntry]
    rfl

/-- The client a, connected on 7 and then on 8. -/
def takenOver : SessionManager :=
  (registryStep new (connectOn "a" 7)).registryStep (connectOn "a" 8)

theorem takenOver_unchanged :
    (takenOver.unbindConnectionInTenant defaultTenantId ['a'] 7 0).1 = takenOver :=
  (stale_unbind_unchanged_iff takenOver defaultTenantId ['a'] 7 0 (by decide +kernel)).mpr
    (by decide +kernel)

/-- The owner has spent its budget, and the detach of its old connection gives it a full one. -/
theorem stale_unbind_refills :
    let spent := (takenOver.checkPublishBudgetInTenant defaultTenantId ['a'] 1 1 0).1
    let after := (spent.unbindConnectionInTenant defaultTenantId ['a'] 7 0).1
    spent.ownedBy ⟨defaultTenantId, ['a']⟩ 7 = none ∧
      (spent.ownedBy ⟨defaultTenantId, ['a']⟩ 8).isSome = true ∧
      (spent.checkPublishBudgetInTenant defaultTenantId ['a'] 1 1 0).2 = false ∧
      (after.checkPublishBudgetInTenant defaultTenantId ['a'] 1 1 0).2 = true := by
  decide +kernel

/-! ### Expiry -/

/-- The expiry interval of a disconnected version 5 session has elapsed. An interval of 0 elapses
with the disconnect. -/
def Elapsed (now : Nat) (session : Session) : Prop :=
  session.connected = false ∧ session.protocolVersion = 5 ∧
    session.sessionExpiry ≠ sessionExpiryNever ∧
    (session.sessionExpiry = 0 ∨ ∃ endedAt, session.endedAtMs = some endedAt ∧
      session.sessionExpiry * 1000 < now - endedAt)

theorem expired_iff {now : Nat} {session : Session} :
    (session.protocolVersion == 5 && session.sessionExpired now) = true ↔ Elapsed now session := by
  unfold Session.sessionExpired Elapsed defaultSessionExpirySecs
  cases hLive : session.connected <;> cases hEnded : session.endedAtMs <;> grind

variable (keys : List SessionKey) (store : OfflineQueueStore)

theorem load_removeInTenant (key other : SessionKey) : (store.removeInTenant key).load other =
      if other = key ∧ hasPath key = true ∧
        store.disk.headD .done = .done then [] else store.load other :=
  store.load_rewriteInTenant key other []

theorem load_removeAll_of_notMem (hOther : other ∉ keys) :
    (keys.foldl removeInTenant store).load other = store.load other := by
  induction keys generalizing store with
  | nil => rfl
  | cons first keys ih =>
    rw [List.mem_cons, not_or] at hOther
    rw [List.foldl_cons, ih _ hOther.2, load_removeInTenant, if_neg fun hSame => hOther.1 hSame.1]

theorem load_removeAll_of_mem (hDisk : store.disk = [])
    (hPath : hasPath key = true) (hMem : key ∈ keys) :
    (keys.foldl removeInTenant store).load key = [] := by
  induction keys generalizing store with
  | nil => cases hMem
  | cons first keys ih =>
    have hRest : (store.removeInTenant first).disk = [] := by
      simp only [removeInTenant, answer, hDisk]
      split <;> simp [hDisk]
    by_cases hLater : key ∈ keys
    · exact ih _ hRest hLater
    · obtain rfl : key = first := (List.mem_cons.mp hMem).resolve_right hLater
      rw [List.foldl_cons, load_removeAll_of_notMem keys _ hLater, load_removeInTenant, if_pos]
      exact ⟨rfl, hPath, by rw [hDisk]; rfl⟩

/-- A sweep that scans the whole tenant removes the elapsed sessions of the tenant and no other
session, reports them with their filters, and removes their queue files. -/
theorem pruneExpiredBounded_exact (manager : SessionManager) (tenant : Str) {maxScan : Nat}
    (now : Nat) (hScan : (manager.tenantSessions tenant).length ≤ maxScan) :
    let pruned := manager.pruneExpiredBounded tenant maxScan now
    (∀ key session, manager.sessions.get? key = some session → key.tenant = tenant →
        Elapsed now session → pruned.1.sessions.get? key = none) ∧
      (∀ key, (∀ session, manager.sessions.get? key = some session →
          ¬ (key.tenant = tenant ∧ Elapsed now session)) →
        pruned.1.sessions.get? key = manager.sessions.get? key ∧
          pruned.1.store.load key = manager.store.load key) ∧
      (pruned.2.map (·.1)).Nodup ∧
      (∀ row, row ∈ pruned.2 ↔ ∃ session, manager.sessions.get? ⟨tenant, row.1⟩ = some session ∧
        Elapsed now session ∧ row.2 = session.subscriptions.keys) ∧
      (manager.storeInstalled = true → manager.store.disk = [] →
        ∀ row ∈ pruned.2, hasPath ⟨tenant, row.1⟩ = true →
          pruned.1.store.load ⟨tenant, row.1⟩ = []) := by
  intro pruned
  let victims := (manager.tenantSessions tenant).filter fun session =>
    session.protocolVersion == 5 && session.sessionExpired now
  let keys := victims.map (·.key)
  have hPruned : pruned = ({ manager with
      sessions := manager.sessions.removeAll keys
      store := if manager.storeInstalled then
          victims.foldl (fun store session => store.removeInTenant session.key) manager.store
        else manager.store }, victims.map fun session =>
          (session.clientId, session.subscriptions.keys)) := by
    simp only [pruned, pruneExpiredBounded, victims]
    rw [List.take_of_length_le (by omega)]
  have hVictim (session : Session) : session ∈ victims ↔
      manager.sessions.get? session.key = some session ∧ session.tenantId = tenant ∧
        Elapsed now session := by
    rw [List.mem_filter, expired_iff, tenantSessions, List.mem_filter, KeyedMap.mem_values_iff,
      beq_iff_eq, and_assoc]
  have hKeys (key : SessionKey) : key ∈ keys ↔
      ∃ session, manager.sessions.get? key = some session ∧ key.tenant = tenant ∧
        Elapsed now session := by
    rw [List.mem_map]
    constructor
    · rintro ⟨session, hMem, rfl⟩
      exact ⟨session, (hVictim session).mp hMem⟩
    · rintro ⟨session, hGet, hTenant⟩
      obtain rfl := KeyedMap.key_of_get? hGet
      exact ⟨session, (hVictim session).mpr ⟨hGet, hTenant⟩, rfl⟩
  have hSessions (key : SessionKey) : pruned.1.sessions.get? key =
      if key ∈ keys then none else manager.sessions.get? key := by
    rw [hPruned]
    exact KeyedMap.get?_removeAll ..
  have hStore : pruned.1.store = if manager.storeInstalled then
      keys.foldl removeInTenant manager.store
      else manager.store := by
    rw [hPruned, List.foldl_map]
  have hRows : pruned.2 = victims.map fun session =>
      (session.clientId, session.subscriptions.keys) := by rw [hPruned]
  have hRow (row : Str × List TopicFilter) : row ∈ pruned.2 ↔
      ∃ session, manager.sessions.get? ⟨tenant, row.1⟩ = some session ∧ Elapsed now session ∧
        row.2 = session.subscriptions.keys := by
    rw [hRows, List.mem_map]
    constructor
    · rintro ⟨session, hMem, rfl⟩
      obtain ⟨hGet, rfl, hElapsed⟩ := (hVictim session).mp hMem
      exact ⟨session, hGet, hElapsed, rfl⟩
    · rintro ⟨session, hGet, hElapsed, hFilters⟩
      have hKey : session.key = ⟨tenant, row.1⟩ := KeyedMap.key_of_get? hGet
      exact ⟨session, (hVictim session).mpr ⟨by rw [hKey, hGet], congrArg SessionKey.tenant hKey,
        hElapsed⟩, Prod.ext (congrArg SessionKey.clientId hKey) hFilters.symm⟩
  refine ⟨?_, ?_, ?_, hRow, ?_⟩
  · intro key session hGet hTenant hElapsed
    rw [hSessions, if_pos ((hKeys key).mpr ⟨session, hGet, hTenant, hElapsed⟩)]
  · intro key hKept
    have hNone : key ∉ keys := fun hMem => by
      obtain ⟨session, hGet, hGone⟩ := (hKeys key).mp hMem
      exact hKept session hGet hGone
    rw [hSessions, if_neg hNone, hStore]
    refine ⟨rfl, ?_⟩
    split
    · exact load_removeAll_of_notMem _ _ hNone
    · rfl
  · have hNodup : keys.Nodup :=
      manager.sessions.nodup_values.sublist
        ((List.filter_sublist.trans List.filter_sublist).map _)
    rw [hRows, List.map_map]
    have hIds := hNodup.map_on (f := SessionKey.clientId) ?_
    · rwa [List.map_map] at hIds
    · intro key hMem key' hMem' hSame
      obtain ⟨-, -, hTenant, -⟩ := (hKeys key).mp hMem
      obtain ⟨-, -, hTenant', -⟩ := (hKeys key').mp hMem'
      cases key
      cases key'
      simp_all
  · intro hInstalled hDisk row hMem hPath
    obtain ⟨session, hGet, hElapsed, -⟩ := (hRow row).mp hMem
    rw [hStore, if_pos hInstalled]
    exact load_removeAll_of_mem _ _ hDisk hPath ((hKeys _).mpr ⟨session, hGet, rfl, hElapsed⟩)

/-- A version 5 client whose session ends with its connection, behind its detach. -/
def endedAtOnce : SessionManager :=
  [.connect ⟨⟨defaultTenantId, ['a']⟩, true, some (5, 0, 10, 100)⟩ 7 0,
    .unbind ⟨defaultTenantId, ['a']⟩ 7 0].foldl registryStep new

theorem ended_pruned :
    (endedAtOnce.pruneExpiredBounded defaultTenantId 1 0).1.sessions.get?
      ⟨defaultTenantId, ['a']⟩ = none := by
  obtain ⟨session, hGet⟩ : ∃ session, endedAtOnce.sessions.get? ⟨defaultTenantId, ['a']⟩ =
      some session := Option.isSome_iff_exists.mp (by decide +kernel)
  have hFacts : (endedAtOnce.sessions.get? ⟨defaultTenantId, ['a']⟩).map (fun session =>
      (session.connected, session.protocolVersion, session.sessionExpiry)) =
      some (false, 5, 0) := by decide +kernel
  rw [hGet, Option.map_some, Option.some.injEq] at hFacts
  simp only [Prod.mk.injEq] at hFacts
  obtain ⟨hEnded, hVersion, hExpiry⟩ := hFacts
  refine (pruneExpiredBounded_exact endedAtOnce defaultTenantId 0 (by decide +kernel)).1 _ session
    hGet rfl ⟨hEnded, hVersion, ?_, .inl hExpiry⟩
  rw [hExpiry]
  decide

end IndraMqtt.Sessions.SessionManager
