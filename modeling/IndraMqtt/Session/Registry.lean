import IndraMqtt.Session.Binding

/-! The records of the session manager against each other: the session map, the index of the
connections and the counter of connected sessions, and what an operation on one client does to
the other clients. -/
namespace IndraMqtt.Sessions.SessionManager

open Protocol

variable {before after manager : SessionManager} {key other : SessionKey} {session : Session}
  {request : Resolution} {connId now : Nat}

/-! ### The index and the counter -/

/-- What happens to the records: a CONNECT that is resolved and bound, a detach, and the two
sweeps. -/
inductive RegistryEvent where
  | connect (request : Resolution) (connId now : Nat)
  | unbind (key : SessionKey) (connId now : Nat)
  | pruneExpired (tenant : Str) (maxScan now : Nat)
  | pruneEnded (tenant : Str) (now : Nat)

def registryStep (manager : SessionManager) : RegistryEvent → SessionManager
  | .connect request connId now =>
    let (resolved, session) := manager.resolve request now
    resolved.bindSession session connId now
  | .unbind key connId now => (manager.unbindConnectionInTenant key.tenant key.clientId connId now).1
  | .pruneExpired tenant maxScan now => (manager.pruneExpiredBounded tenant maxScan now).1
  | .pruneEnded tenant now => manager.pruneEndedInTenant tenant now

/-- The counter is right, and an indexed connection is the one of a connected session. -/
structure Registered (manager : SessionManager) : Prop where
  bound : Bound manager
  named : ∀ key session, manager.sessions.get? key = some session → session.connected = true →
    session.connId.isSome
  count : manager.connectedCount = manager.sessions.count (·.connected)

/-- Every session that names a connection has the index entry of it. -/
def Indexed (manager : SessionManager) : Prop :=
  ∀ key session connId, manager.sessions.get? key = some session →
    session.connId = some connId → manager.connIndex.get? connId = some key

/-- A CONNECT comes on a connection that no other session names. -/
def Free (manager : SessionManager) : RegistryEvent → Prop
  | .connect request connId _ => ∀ other found, other ≠ request.key →
    manager.sessions.get? other = some found → found.connId ≠ some connId
  | _ => True

theorem Registered.connect (hRegistered : Registered manager)
    (hSettles : Settles manager after request now session) (connId : Nat) :
    Registered (after.bindSession session connId now) := by
  have hKey : session.key = request.key := KeyedMap.key_of_get? hSettles.stored
  have hStored : after.sessions.get? session.key = some session := hKey ▸ hSettles.stored
  have hSessions := bindSession_sessions hStored connId now
  rw [hKey] at hSessions
  refine ⟨(hSettles.bound hRegistered.bound).bindSession hStored hSettles.connected connId now,
    ?_, ?_⟩
  · intro owner found hFound hLive
    rw [hSessions] at hFound
    split at hFound
    · cases hFound
      simp
    · next hOwner =>
      exact hRegistered.named owner found ((hSettles.others owner hOwner).old hFound) hLive
  · have hAgree (other : SessionKey) (hOther : other ≠ request.key) :
        ((after.bindSession session connId now).sessions.get? other).any (·.connected) =
          (manager.sessions.get? other).any (·.connected) := by
      rw [hSessions, if_neg hOther]
      obtain hSame | ⟨found, hFound, hGone, hStateless, -⟩ := hSettles.others other hOther
      · rw [hSame]
      · simp [hFound, hGone, hStateless.disconnected]
    have hCount := KeyedMap.count_add_of_agree hAgree
    have hCounted := hSettles.counted
    simp only [hSessions, if_true, Option.any_some, boundTo_connected, hSettles.connected,
      Bool.toNat_true] at hCount
    rw [(bindSession_records ..).1]
    have hBefore := hRegistered.count
    omega

theorem Registered.of_pruned (hRegistered : Registered before) {gone : Session → Prop}
    (hGone : ∀ session, gone session → session.connected = false)
    (hPruned : before.sessions.Pruned gone after.sessions)
    (hIndex : after.connIndex = before.connIndex)
    (hCount : after.connectedCount = before.connectedCount) : Registered after := by
  refine ⟨hRegistered.bound.of_pruned hGone hPruned fun _ _ hEntry => hIndex ▸ hEntry,
    fun key session hFound => hRegistered.named key session (hPruned.old key session hFound), ?_⟩
  rw [hCount, hRegistered.count]
  exact (KeyedMap.count_eq_of_agree (hPruned.any_eq fun _ found _ => hGone found)).symm

theorem unbind_records (manager : SessionManager) (key : SessionKey) (connId now : Nat) :
    let after := (manager.unbindConnectionInTenant key.tenant key.clientId connId now).1
    after.connectedCount = manager.connectedCount -
        ((manager.ownedBy key connId).any (·.connected)).toNat ∧
      after.store = manager.store ∧ after.maxOfflineQueue = manager.maxOfflineQueue := by
  let left := (manager.ownedBy key connId).elim manager (manager.detach key.tenant · now)
  have hLeft : left.connectedCount = manager.connectedCount -
      ((manager.ownedBy key connId).any (·.connected)).toNat ∧
      left.store = manager.store ∧ left.maxOfflineQueue = manager.maxOfflineQueue := by
    simp only [left]
    cases manager.ownedBy key connId with
    | none => exact ⟨rfl, rfl, rfl⟩
    | some session =>
      cases hLive : session.connected <;> cases hUser : session.username <;>
        simp [detach, hLive, hUser, releaseConnectionSlotInTenant] <;> split <;>
        exact ⟨rfl, rfl, rfl⟩
  obtain ⟨hLimit, hCount, hStore, -⟩ := left.dropIndexEntry_records connId key
  exact ⟨hCount.trans hLeft.1, hStore.trans hLeft.2.1, hLimit.trans hLeft.2.2⟩

theorem Registered.unbind (hRegistered : Registered manager) (key : SessionKey) (connId now : Nat) :
    Registered (manager.unbindConnectionInTenant key.tenant key.clientId connId now).1 := by
  refine ⟨hRegistered.bound.unbindConnectionInTenant key.tenant key.clientId connId now,
    unbind_named hRegistered.named key.tenant key.clientId connId now, ?_⟩
  have hCount : _ + ((manager.ownedBy key connId).any (·.connected)).toNat = _ :=
    count_unbind (fun _ _ _ hEnded => hEnded) (detached_connected · now) key.tenant key.clientId
      connId
  have hBefore := hRegistered.count
  rw [(unbind_records manager key connId now).1]
  exact Nat.sub_eq_of_eq_add (by rw [hBefore, ← hCount])

theorem Registered.step (hRegistered : Registered manager) (event : RegistryEvent) :
    Registered (manager.registryStep event) := by
  cases event with
  | connect request connId now =>
    exact hRegistered.connect (hRegistered.bound.settles request now) connId
  | unbind key connId now => exact hRegistered.unbind key connId now
  | pruneExpired tenant maxScan now =>
    exact hRegistered.of_pruned (fun _ hExpired => disconnected_of_expired hExpired.2)
      (pruneExpiredBounded_pruned manager tenant maxScan now) rfl rfl
  | pruneEnded tenant now =>
    exact hRegistered.of_pruned (fun _ hLapsed => hLapsed.1.disconnected)
      (pruneEndedInTenant_lapsed manager tenant now) rfl rfl

theorem Indexed.connect (hIndexed : Indexed manager)
    (hSettles : Settles manager after request now session)
    (hFree : ∀ other found, other ≠ request.key → manager.sessions.get? other = some found →
      found.connId ≠ some connId) : Indexed (after.bindSession session connId now) := by
  have hKey : session.key = request.key := KeyedMap.key_of_get? hSettles.stored
  intro owner found target hFound hConn
  rw [bindSession_sessions (hKey ▸ hSettles.stored), hKey] at hFound
  rw [bindSession_connIndex, hKey]
  split at hFound
  · next hOwner =>
    cases hFound
    rw [boundTo_connId] at hConn
    rw [if_pos (Option.some.inj hConn).symm, hOwner]
  · next hOwner =>
    have hOld := (hSettles.others owner hOwner).old hFound
    have hEntry := hIndexed owner found target hOld hConn
    have hTarget : target ≠ connId := fun hSame => hFree owner found hOwner hOld (hSame ▸ hConn)
    have hKept := hSettles.entry_kept hOwner hEntry
    rw [if_neg hTarget, if_neg, hKept]
    rintro ⟨-, hOwn⟩
    exact hOwner (Option.some.inj (hKept.symm.trans hOwn))

theorem Indexed.step (hIndexed : Indexed manager) (hRegistered : Registered manager)
    {event : RegistryEvent} (hFree : Free manager event) :
    Indexed (manager.registryStep event) := by
  cases event with
  | connect request connId now =>
    exact hIndexed.connect (hRegistered.bound.settles request now) hFree
  | unbind key connId now =>
    have hUnbinds := unbindConnectionInTenant_unbinds manager key.tenant key.clientId connId now
    intro owner found target hFound hConn
    obtain ⟨session, hOld, rfl⟩ := hUnbinds.old owner found hFound
    show (manager.unbindConnectionInTenant key.tenant key.clientId connId now).1.connIndex.get?
      target = some owner
    rw [hUnbinds.index, dropIndexEntry_get?]
    grind [released, detached_connId, hIndexed owner session target hOld]
  | pruneExpired tenant maxScan now =>
    exact fun owner found target hFound => hIndexed owner found target
      ((pruneExpiredBounded_pruned manager tenant maxScan now).old owner found hFound)
  | pruneEnded tenant now =>
    exact fun owner found target hFound => hIndexed owner found target
      ((pruneEndedInTenant_lapsed manager tenant now).old owner found hFound)

/-- No CONNECT of a history comes on a connection that another session names. -/
def AllFree (manager : SessionManager) : List RegistryEvent → Prop
  | [] => True
  | event :: events => Free manager event ∧ AllFree (manager.registryStep event) events

/-- After every history the counter is the number of connected sessions, and an indexed
connection is the one that its session is connected on. While no CONNECT comes on a connection
that another session names, the index has the entry of every connected session. -/
theorem registry_agrees (maxOfflineQueue : Option Nat) (maxQos1Inflight maxQos1Spill : Nat)
    (events : List RegistryEvent) :
    let start := newWithAllLimits maxOfflineQueue maxQos1Inflight maxQos1Spill
    let manager := events.foldl registryStep start
    manager.connectedCount = manager.sessions.count (·.connected) ∧
      (∀ connId key, manager.connIndex.get? connId = some key →
        ∃ session, manager.sessions.get? key = some session ∧ session.connected = true ∧
          session.connId = some connId) ∧
      (AllFree start events → ∀ connId key, manager.connIndex.get? connId = some key ↔
        ∃ session, manager.sessions.get? key = some session ∧ session.connected = true ∧
          session.connId = some connId) := by
  intro start manager
  have hRun : ∀ (events : List RegistryEvent) (start : SessionManager), Registered start →
      Registered (events.foldl registryStep start) ∧ (Indexed start → AllFree start events →
        Indexed (events.foldl registryStep start)) := by
    intro events
    induction events with
    | nil => exact fun _ hRegistered => ⟨hRegistered, fun hIndexed _ => hIndexed⟩
    | cons event events ih =>
      intro start hRegistered
      obtain ⟨hAfter, hIndexes⟩ := ih _ (hRegistered.step event)
      exact ⟨hAfter, fun hIndexed hFree => hIndexes (hIndexed.step hRegistered hFree.1) hFree.2⟩
  have hStart : Registered start := by
    refine ⟨⟨?_, ?_⟩, ?_, rfl⟩
    · intro connId key hEntry
      cases hEntry
    · intro key session hFound
      cases hFound
    · intro key session hFound
      cases hFound
  obtain ⟨hRegistered, hIndexes⟩ := hRun events start hStart
  have hSound (connId : Nat) (key : SessionKey) (hEntry : manager.connIndex.get? connId = some key) :
      ∃ session, manager.sessions.get? key = some session ∧ session.connected = true ∧
        session.connId = some connId := by
    obtain ⟨session, hFound, hConn⟩ := hRegistered.bound.index connId key hEntry
    exact ⟨session, hFound, hRegistered.bound.live key session hFound (by simp [hConn]), hConn⟩
  refine ⟨hRegistered.count, hSound, fun hFree connId key => ⟨hSound connId key, ?_⟩⟩
  rintro ⟨session, hFound, -, hConn⟩
  exact hIndexes (fun _ _ _ hNone => nomatch hNone) hFree key session connId hFound hConn

def connectOn (clientId : String) (connId : Nat) : RegistryEvent :=
  .connect ⟨⟨defaultTenantId, clientId.toList⟩, false, none⟩ connId 0

/-- The clients a and b connect on one connection. The session of a stays connected on it, and
the index leads to b alone. -/
theorem reused_connection :
    let manager := [connectOn "a" 7, connectOn "b" 7].foldl registryStep new
    manager.connIndex.get? 7 = some ⟨defaultTenantId, "b".toList⟩ ∧
      (manager.sessions.get? ⟨defaultTenantId, "a".toList⟩).map
        (fun session => (session.connected, session.connId)) = some (true, some 7) := by
  decide +kernel

end IndraMqtt.Sessions.SessionManager
