import IndraMqtt.Session.Resolution

/-! The index from connections to sessions. The operations that create, bind and
detach sessions keep it sound: an indexed connection is the one that its session
names, and a session that names a connection is live. -/
namespace IndraMqtt.Sessions

open Protocol KeyedMap

variable {other : SessionKey} {after manager : SessionManager}

namespace SessionManager

/-- The index only loses entries and the map only ended sessions. -/
theorem Bound.of_pruned {before : SessionManager} (hBound : Bound before) {gone : Session → Prop}
    (hGone : ∀ session, gone session → session.connected = false)
    (hPruned : before.sessions.Pruned gone after.sessions)
    (hIndex : ∀ connId key, after.connIndex.get? connId = some key → before.connIndex.get? connId =
      some key) : Bound after := by
  constructor
  · intro connId key hEntry
    obtain ⟨session, hGet, hConn⟩ := hBound.index connId key (hIndex connId key hEntry)
    obtain hKept | hDropped := hPruned.kept key session hGet
    · exact ⟨session, hKept, hConn⟩
    · rw [hBound.unbound hGet (hGone session hDropped)] at hConn
      cases hConn
  · intro key session hGet
    exact hBound.live key session (hPruned.old key session hGet)

def boundTo (session : Session) (connId now : Nat) : Session :=
  if session.connId = some connId then session
  else { session with connId := some connId, connectedAtMs := some now }

section

variable (session : Session) (connId now : Nat)

@[simp] theorem boundTo_connId : (boundTo session connId now).connId = some connId := by
  unfold boundTo
  split
  · assumption
  · rfl

@[simp] theorem boundTo_key : (boundTo session connId now).key = session.key := by
  unfold boundTo
  split <;> rfl

@[simp] theorem boundTo_connected : (boundTo session connId now).connected = session.connected := by
  unfold boundTo
  split <;> rfl

end

variable {session found : Session} {key : SessionKey} {connId : Nat}

theorem bindSession_sessions (hStored : manager.sessions.get? session.key = some session)
    (connId now : Nat) (key : SessionKey) :
    (manager.bindSession session connId now).sessions.get? key =
      if key = session.key then some (boundTo session connId now)
      else manager.sessions.get? key := by
  unfold bindSession boundTo
  by_cases hSame : session.connId = some connId
  · grind
  · simp only [if_neg hSame]
    cases session.connId with
    | none => exact get?_put ..
    | some prev =>
      simp only [dropIndexEntry_sessions]
      exact get?_put ..

theorem bindSession_connIndex (manager : SessionManager) (session : Session)
    (connId now other : Nat) : (manager.bindSession session connId now).connIndex.get? other =
      if other = connId then some session.key
      else if session.connId = some other ∧ manager.connIndex.get? other = some session.key then
        none
      else manager.connIndex.get? other := by
  unfold bindSession
  by_cases hSame : session.connId = some connId
  · grind
  · grind [putSession, dropIndexEntry_get?]

theorem bindSession_records (manager : SessionManager) (session : Session) (connId now : Nat) :
    (manager.bindSession session connId now).connectedCount = manager.connectedCount ∧
      (manager.bindSession session connId now).store = manager.store ∧
      (manager.bindSession session connId now).connCounts = manager.connCounts := by
  unfold bindSession
  split
  · split <;> exact ⟨rfl, rfl, rfl⟩
  · cases session.connId with
    | none => exact ⟨rfl, rfl, rfl⟩
    | some prev => exact (dropIndexEntry_records ..).2

theorem Bound.bindSession (hBound : Bound manager)
    (hStored : manager.sessions.get? session.key = some session)
    (hConnected : session.connected = true) (connId now : Nat) :
    Bound (manager.bindSession session connId now) := by
  constructor
  · intro other owner hEntry
    rw [bindSession_connIndex] at hEntry
    split at hEntry
    · grind [bindSession_sessions, boundTo_connId]
    · split at hEntry
      · cases hEntry
      · next hKept =>
        obtain ⟨found, hGet, hConn⟩ := hBound.index other owner hEntry
        grind [bindSession_sessions]
  · intro owner found hGet hNamed
    rw [bindSession_sessions hStored] at hGet
    split at hGet
    · cases hGet
      rw [boundTo_connected, hConnected]
    · exact hBound.live owner found hGet hNamed

theorem ownedBy_eq_some_iff : manager.ownedBy key connId = some session ↔
      manager.sessions.get? key = some session ∧ session.connId = some connId := by
  rw [ownedBy, Option.filter_eq_some_iff, beq_iff_eq]

theorem ownedBy_eq_none (hOwned : manager.ownedBy key connId = none)
    (hGet : manager.sessions.get? key = some session) : session.connId ≠ some connId := by
  grind [ownedBy_eq_some_iff]

section

variable (manager : SessionManager)

@[simp] theorem releaseConnectionSlotInTenant_sessions (tenant username : Str) :
    (manager.releaseConnectionSlotInTenant tenant username).sessions = manager.sessions := by
  unfold releaseConnectionSlotInTenant
  split <;> rfl

@[simp] theorem releaseConnectionSlotInTenant_connIndex (tenant username : Str) :
    (manager.releaseConnectionSlotInTenant tenant username).connIndex = manager.connIndex := by
  unfold releaseConnectionSlotInTenant
  split <;> rfl

end

section

variable (session : Session) (now : Nat)

@[simp] theorem detached_key : (detached session now).key = session.key := by
  unfold detached
  simp only
  split <;> rfl

@[simp] theorem detached_connId : (detached session now).connId = none := by
  unfold detached
  simp only
  split <;> rfl

theorem detached_connected : (detached session now).connected = false := by
  unfold detached
  simp only
  split <;> rfl

end

theorem detached_of_durable (hDurable : session.dropsStateAtDisconnect = false) (now : Nat) :
    detached session now =
      { session with
        connId := none
        connected := false
        inboundAliases := ∅
        outboundAliases := ∅
        endedAtMs := some now } := by
  have hDetached : ({ session with connId := none, connected := false } :
      Session).clearAliases.dropsStateAtDisconnect = false := hDurable
  simp only [detached, hDetached, Bool.false_eq_true, if_false]
  rfl

theorem detached_qos2Inbound (session : Session) (now : Nat) : (detached session now).qos2Inbound =
      if session.dropsStateAtDisconnect then ∅ else session.qos2Inbound := by
  cases hDrops : session.dropsStateAtDisconnect with
  | false =>
    rw [detached_of_durable hDrops]
    rfl
  | true =>
    have hDetached : ({ session with connId := none, connected := false } :
        Session).clearAliases.dropsStateAtDisconnect = true := hDrops
    simp only [detached, hDetached, if_true]
    rfl

section

variable (manager : SessionManager) (tenant clientId : Str) (connId now : Nat)

/-- What detaching a connection makes of the session under a key. -/
def released (key : SessionKey) (connId now : Nat) (owner : SessionKey) (session : Session) :
    Session :=
  if owner = key ∧ session.connId = some connId then detached session now else session

/-- Detaching a connection drops its index entry and then removes only ended sessions without
state past their time to live. -/
structure Unbinds (before after : SessionManager) (key : SessionKey) (connId now : Nat) :
    Prop where
  kept : ∀ owner session, before.sessions.get? owner = some session →
    after.sessions.get? owner = some (released key connId now owner session) ∨
      Lapsed now (released key connId now owner session)
  old : ∀ owner found, after.sessions.get? owner = some found →
    ∃ session, before.sessions.get? owner = some session ∧
      found = released key connId now owner session
  index : after.connIndex = (before.dropIndexEntry connId key).connIndex

theorem unbindConnectionInTenant_unbinds :
    Unbinds manager (manager.unbindConnectionInTenant tenant clientId connId now).1
      { tenant, clientId } connId now := by
  let key : SessionKey := { tenant, clientId }
  let left := (manager.ownedBy key connId).elim manager (manager.detach tenant · now)
  have hLeft : (∀ owner, left.sessions.get? owner =
      (manager.sessions.get? owner).map (released key connId now owner)) ∧
      left.connIndex = manager.connIndex := by
    simp only [left]
    cases hOwned : manager.ownedBy key connId with
    | none =>
      refine ⟨fun owner => ?_, rfl⟩
      cases hGet : manager.sessions.get? owner with
      | none => simp [hGet]
      | some session => grind [released, ownedBy_eq_none]
    | some session =>
      obtain ⟨hGet, hConn⟩ := ownedBy_eq_some_iff.mp hOwned
      have hDetach : (manager.detach tenant session now).sessions =
          manager.sessions.put (detached session now) ∧
          (manager.detach tenant session now).connIndex = manager.connIndex := by
        unfold detach
        cases session.username with
        | none => exact ⟨rfl, rfl⟩
        | some username => exact ⟨releaseConnectionSlotInTenant_sessions ..,
            releaseConnectionSlotInTenant_connIndex ..⟩
      refine ⟨fun owner => ?_, hDetach.2⟩
      rw [Option.elim_some, hDetach.1, get?_put, detached_key, key_of_get? hGet]
      split
      · next hOwner => simp [hOwner, hGet, released, hConn]
      · next hOwner => cases manager.sessions.get? owner <;> simp [released, hOwner]
  let dropped := left.dropIndexEntry connId key
  have hPruned := pruneEndedInTenant_lapsed
    { dropped with buckets := dropped.buckets.remove key } tenant now
  have hSame : dropped.sessions = left.sessions := dropIndexEntry_sessions left connId key
  constructor
  case kept =>
    intro owner session hGet
    refine hPruned.kept owner _ ?_
    show dropped.sessions.get? owner = _
    rw [hSame, hLeft.1, hGet]
    rfl
  case old =>
    intro owner found hFound
    have hOld : dropped.sessions.get? owner = some found := hPruned.old owner found hFound
    rw [hSame, hLeft.1] at hOld
    obtain ⟨session, hGet, rfl⟩ := Option.map_eq_some_iff.mp hOld
    exact ⟨session, hGet, rfl⟩
  case index =>
    show (left.dropIndexEntry connId key).connIndex = (manager.dropIndexEntry connId key).connIndex
    simp [dropIndexEntry, hLeft.2, apply_ite SessionManager.connIndex]

end

theorem unbind_named
    (hNamed : ∀ key session, manager.sessions.get? key = some session → session.connected = true →
      session.connId.isSome = true) (tenant clientId : Str) (connId now : Nat) (key : SessionKey)
    (session : Session)
    (hGet : (manager.unbindConnectionInTenant tenant clientId connId now).1.sessions.get? key =
      some session) (hLive : session.connected = true) : session.connId.isSome = true := by
  obtain ⟨found, hFound, rfl⟩ :=
    (unbindConnectionInTenant_unbinds manager tenant clientId connId now).old key session hGet
  grind [released, detached_connected]

/-- What ended sessions do not have is lost by the detached session alone. -/
theorem count_unbind {p : Session → Bool} {now : Nat}
    (hEnded : ∀ key session, manager.sessions.get? key = some session → session.connected = false →
      p session = false) (hDetached : ∀ session, p (detached session now) = false)
    (tenant clientId : Str) (connId : Nat) :
    (manager.unbindConnectionInTenant tenant clientId connId now).1.sessions.count p +
      ((manager.ownedBy { tenant, clientId } connId).any p).toNat = manager.sessions.count p := by
  have hUnbinds := unbindConnectionInTenant_unbinds manager tenant clientId connId now
  let after := (manager.unbindConnectionInTenant tenant clientId connId now).1.sessions
  have hAfter : ∀ owner, (after.get? owner).any p =
      (manager.sessions.get? owner).any fun session =>
        p (released { tenant, clientId } connId now owner session) := by
    intro owner
    cases hFound : after.get? owner with
    | some found =>
      obtain ⟨session, hGet, rfl⟩ := hUnbinds.old owner found hFound
      rw [hGet]
      rfl
    | none =>
      cases hGet : manager.sessions.get? owner with
      | none => rfl
      | some session =>
        have hKept := hUnbinds.kept owner session hGet
        grind [released, Lapsed, Stateless.disconnected]
  have hSplit : after.count p + _ = manager.sessions.count p + _ :=
    count_add_of_agree fun owner (hNe : owner ≠ { tenant, clientId }) => by
      simp [hAfter, released, hNe]
  rw [hAfter] at hSplit
  rw [ownedBy]
  cases hGet : manager.sessions.get? { tenant, clientId } with
  | none => simpa [hGet] using hSplit
  | some session =>
    by_cases hConn : session.connId = some connId
    · simpa [hGet, Option.filter, released, hConn, hDetached] using hSplit
    · simpa [hGet, Option.filter, released, hConn] using hSplit

theorem unbindConnectionInTenant_get? (hGet : manager.sessions.get? key = some session)
    (hConn : session.connId = some connId) (now : Nat) :
    (manager.unbindConnectionInTenant key.tenant key.clientId connId now).1.sessions.get? key =
      some (detached session now) := by
  have hKept := (unbindConnectionInTenant_unbinds manager key.tenant key.clientId connId now).kept
    key session hGet
  rw [released, if_pos ⟨rfl, hConn⟩] at hKept
  refine hKept.resolve_right fun hLapsed => ?_
  have hNow : (detached session now).endedAtMs = some now := rfl
  have hAge := hLapsed.2
  rw [hNow, Option.elim_some, Nat.sub_self] at hAge
  exact absurd hAge (by decide)

theorem Bound.unbindConnectionInTenant (hBound : Bound manager) (tenant clientId : Str)
    (connId now : Nat) : Bound (manager.unbindConnectionInTenant tenant clientId connId now).1 := by
  have hUnbinds := unbindConnectionInTenant_unbinds manager tenant clientId connId now
  constructor
  · intro other owner hEntry
    rw [hUnbinds.index, dropIndexEntry_get?] at hEntry
    split at hEntry
    · cases hEntry
    · next hKept =>
      obtain ⟨found, hGet, hConn⟩ := hBound.index other owner hEntry
      -- The connection of the detached session had its own entry.
      have hSame : released { tenant, clientId } connId now owner found = found := by grind [released]
      obtain hStays | hLapsed := hSame ▸ hUnbinds.kept owner found hGet
      · exact ⟨found, hStays, hConn⟩
      · rw [hBound.unbound hGet hLapsed.1.disconnected] at hConn
        cases hConn
  · intro owner found hGet hNamed
    obtain ⟨session, hOld, rfl⟩ := hUnbinds.old owner found hGet
    grind [released, detached_connId, hBound.live owner session hOld]

theorem Bound.pruneExpiredBounded (hBound : Bound manager) (tenant : Str) (maxScan now : Nat) :
    Bound (manager.pruneExpiredBounded tenant maxScan now).1 :=
  hBound.of_pruned (fun _ hExpired => disconnected_of_expired hExpired.2)
    (pruneExpiredBounded_pruned manager tenant maxScan now) fun _ _ hEntry => hEntry

/-- The manager after a resolved session was bound, stored once more as `accepted`, and
the expired sessions of the tenant were reaped. -/
def rebound (resolved : SessionManager) (session accepted : Session) (tenant : Str)
    (connId maxScan now : Nat) : SessionManager :=
  ((((resolved.putSession session).bindSession session connId now).putSession
    accepted).pruneExpiredBounded tenant maxScan now).1

/-- What an accepted CONNECT leaves: its session as it was stamped, and of the others those that
had not ended. -/
structure Rebinds (before after : SessionManager) (key : SessionKey) (now connId : Nat)
    (accepted : Session) : Prop where
  self : after.sessions.get? key = some accepted
  kept : ∀ other found, other ≠ key → before.sessions.get? other = some found →
    after.sessions.get? other = some found ∨ Stateless found ∨ Expired now found
  old : ∀ other found, other ≠ key → after.sessions.get? other = some found →
    before.sessions.get? other = some found
  entry : after.connIndex.get? connId = some key
  entries : ∀ connId' other, other ≠ key → connId' ≠ connId →
    before.connIndex.get? connId' = some other → after.connIndex.get? connId' = some other

theorem Resolves.rebinds {before resolved : SessionManager} {key : SessionKey} {cleanStart : Bool}
    {now : Nat} {session accepted : Session}
    (hResolves : Resolves before resolved key cleanStart now session)
    (hKey : accepted.key = session.key) (hConnected : accepted.connected = session.connected)
    (tenant : Str) (connId maxScan : Nat) :
    Rebinds before (rebound resolved session accepted tenant connId maxScan now) key now connId
      accepted := by
  have hOwn : session.key = key := key_of_get? hResolves.stored
  have hStored : (resolved.putSession session).sessions.get? session.key = some session :=
    get?_put_self _ _
  have hPruned := pruneExpiredBounded_pruned
    (((resolved.putSession session).bindSession session connId now).putSession accepted) tenant
    maxScan now
  -- Other keys are not touched before the reaping.
  have hOther : ∀ other ≠ key, (((resolved.putSession session).bindSession session connId
      now).putSession accepted).sessions.get? other = resolved.sessions.get? other := by
    intro other hNe
    have hNe' : other ≠ session.key := by rwa [hOwn]
    show (put _ _).get? other = _
    rw [get?_put_ne (by rwa [hKey]), bindSession_sessions hStored, if_neg hNe']
    exact get?_put_ne hNe'
  constructor
  case self =>
    obtain hKept | hExpired := hPruned.kept key accepted (get?_put_of_key _ (hKey.trans hOwn))
    · exact hKept
    · rw [hResolves.connected, disconnected_of_expired hExpired.2] at hConnected
      cases hConnected
  case kept =>
    intro other found hNe hGet
    obtain hKept | hGone := hResolves.kept other found hNe hGet
    · exact (hPruned.kept other found ((hOther other hNe).trans hKept)).imp_right Or.inr
    · exact Or.inr (Or.inl hGone)
  case old =>
    intro other found hNe hGet
    exact hResolves.old other found hNe ((hOther other hNe).symm.trans (hPruned.old _ _ hGet))
  case entry =>
    show ((resolved.putSession session).bindSession session connId now).connIndex.get? connId = _
    rw [bindSession_connIndex, if_pos rfl, hOwn]
  case entries =>
    intro connId' other hNe hConn hEntry
    have hKept := hResolves.entries connId' other hNe hEntry
    show ((resolved.putSession session).bindSession session connId now).connIndex.get? connId' = _
    rw [bindSession_connIndex, if_neg hConn, if_neg]
    · exact hKept
    · rintro ⟨-, hOwned⟩
      change resolved.connIndex.get? connId' = some session.key at hOwned
      rw [hKept, hOwn] at hOwned
      exact hNe (Option.some.inj hOwned)

end SessionManager

end IndraMqtt.Sessions
