import IndraMqtt.Kernel.Lifecycle
import IndraMqtt.Kernel.RefusedBind

/-! The connection slots of users over whole runs. A slot is taken before a session is
resolved, under the name that the CONNECT was verified for, and it is given back under the
name that the session holds. The counts are right as long as these are the same name and
a refused CONNECT gives back what it took. -/
namespace IndraMqtt.Kernel

open Protocol Sessions Runs
open SessionManager (Bound Stateless Expired boundTo boundTo_connId)

variable {session : Session} {key : SessionKey}

def servesUser (tenant username : Str) (session : Session) : Bool :=
  session.tenantId == tenant && session.connId.isSome && session.username == some username

def boundConnections (sessions : SessionManager) (tenant username : Str) : Nat :=
  sessions.sessions.count (servesUser tenant username)

theorem servesUser_of_unbound (hConn : session.connId = none) (tenant username : Str) :
    servesUser tenant username session = false := by
  simp [servesUser, hConn]

variable {session' : Session} {env : Env} {req : BindRequest} {sessions : SessionManager}
  {username : Str} {capped : Str → Str → Bool}

theorem servesUser_congr (hKey : session'.key = session.key)
    (hConn : session'.connId = session.connId) (hUser : session'.username = session.username)
    (tenant username : Str) :
    servesUser tenant username session' = servesUser tenant username session := by
  have hTenant : session'.tenantId = session.tenantId := congrArg SessionKey.tenant hKey
  simp [servesUser, hTenant, hConn, hUser]

/-! ### Who moves the counts -/

section Counts

open SessionManager

/-- After its slot is taken, an accepted CONNECT leaves the counts alone. -/
theorem slotCount_acceptBind {shared : Shared} (hBound : Bound shared.sessions) (env : Env)
    (connId : Nat) (req : BindRequest) (identity : Identity) (will : Option StoredWill)
    (tenant username : Str) :
    (acceptBind shared env connId req identity will).1.sessions.slotCount tenant username =
      shared.sessions.slotCount tenant username := by
  obtain ⟨-, hSessions⟩ := acceptBind_rebound hBound env connId req identity will
  have hCounts : (acceptBind shared env connId req identity will).1.sessions.connCounts =
      shared.sessions.connCounts := by
    rw [hSessions]
    exact (bindSession_records _ _ connId env.now).2.2.trans (hBound.settles
      ⟨requestKey env req identity, req.cleanStart, some (req.protocolVersion, req.sessionExpiry,
        req.receiveMaximum, req.maxPacketSize)⟩ env.now).slots
  rw [slotCount, hCounts, slotCount]

/-- A detached session gives one slot back, under the name that it holds. -/
theorem slotCount_detach (manager : SessionManager) (tenant : Str) (session : Session) (now : Nat)
    (tenant' username : Str) : (manager.detach tenant session now).slotCount tenant' username =
      if tenant' = tenant ∧ session.username = some username then
        manager.slotCount tenant' username - 1
      else manager.slotCount tenant' username := by
  simp only [detach]
  generalize hLeft : ({ manager with
    sessions := manager.sessions.put (detached session now)
    connectedCount := manager.connectedCount - if session.connected then 1 else 0 } :
      SessionManager) = left
  have hSame : ∀ tenant' username,
      left.slotCount tenant' username = manager.slotCount tenant' username := by
    subst hLeft
    exact fun _ _ => rfl
  cases session.username with
  | none => simp [hSame]
  | some name => grind [slotCount_release]

theorem slotCount_unbind (manager : SessionManager) (tenant clientId : Str) (connId now : Nat)
    (tenant' username : Str) :
    (manager.unbindConnectionInTenant tenant clientId connId now).1.slotCount tenant' username =
      if tenant' = tenant ∧
          (manager.ownedBy { tenant, clientId } connId).bind (·.username) = some username then
        manager.slotCount tenant' username - 1
      else manager.slotCount tenant' username := by
  let key : SessionKey := { tenant, clientId }
  let left := (manager.ownedBy key connId).elim manager (manager.detach tenant · now)
  have hLeft : (manager.unbindConnectionInTenant tenant clientId connId now).1.slotCount tenant'
      username = left.slotCount tenant' username :=
    congrArg (fun counts => ((counts.get? (tenant', username)).getD 0))
      (dropIndexEntry_records left connId key).2.2.2
  rw [hLeft]
  simp only [left, key]
  cases manager.ownedBy { tenant, clientId } connId with
  | none => simp
  | some session => exact slotCount_detach manager tenant session now tenant' username

end Counts

/-! ### The invariant -/

/-- The counts of the users with a cap are the numbers of their connections, the other
users are not counted, and a live session has a connection. -/
structure Counted (capped : Str → Str → Bool) (sessions : SessionManager) : Prop where
  bound : Bound sessions
  owned : ∀ key session, sessions.sessions.get? key = some session → session.connected = true →
    session.connId.isSome = true
  counts : ∀ tenant username, sessions.slotCount tenant username =
    if capped tenant username then boundConnections sessions tenant username else 0

def KeepsCounted (capped : Str → Str → Bool) (before after : SessionManager) : Prop :=
  Counted capped before → Counted capped after

section Invariant

variable {capped : Str → Str → Bool} {manager : SessionManager}

theorem Counted.putSession (hCounted : Counted capped manager)
    (hStored : manager.sessions.get? session.key = some session)
    (hKey : session'.key = session.key) (hConn : session'.connId = session.connId)
    (hConnected : session'.connected = session.connected)
    (hUser : session'.username = session.username) :
    Counted capped (manager.putSession session') := by
  refine ⟨bound_putSession hCounted.bound hStored hKey hConn hConnected, ?_, ?_⟩
  · intro key found hGet hLive
    change (manager.sessions.put session').get? key = some found at hGet
    rw [KeyedMap.get?_put] at hGet
    split at hGet
    · cases hGet
      rw [hConn]
      rw [hConnected] at hLive
      exact hCounted.owned _ session hStored hLive
    · exact hCounted.owned key found hGet hLive
  · intro tenant username
    have hSame : boundConnections (manager.putSession session') tenant username =
        boundConnections manager tenant username := by
      apply KeyedMap.count_eq_of_agree
      intro key
      show ((manager.sessions.put session').get? key).any _ = _
      grind [servesUser_congr]
    rw [hSame]
    exact hCounted.counts tenant username

theorem keepsCounted_quiet (capped : Str → Str → Bool) : QuietRule (KeepsCounted capped) :=
  .ofEdit (fun _ hCounted => hCounted) (fun _ _ _ hFirst hSecond hCounted => hSecond (hFirst hCounted))
    (fun _ _ _ hStored hView hCounted =>
      hCounted.putSession hStored (key_of_view hView) (congrArg BindingView.connId hView)
        (congrArg BindingView.connected hView) (congrArg BindingView.username hView))
    (fun _ _ hCounted =>
      ⟨⟨hCounted.bound.index, hCounted.bound.live⟩, hCounted.owned, hCounted.counts⟩)
    (fun _ _ hCounted =>
      ⟨⟨hCounted.bound.index, hCounted.bound.live⟩, hCounted.owned, hCounted.counts⟩)

section

variable (hCounted : Counted capped manager) (hGet : manager.sessions.get? key = some session)
include hCounted hGet

theorem Counted.ended (hEnded : session.connected = false) (tenant username : Str) :
    servesUser tenant username session = false :=
  servesUser_of_unbound (hCounted.bound.unbound hGet hEnded) tenant username

/-- A stored session serves a user if it is live and holds the name. -/
theorem Counted.servesUser_iff (tenant username : Str) : servesUser tenant username session = true ↔
      session.connected = true ∧ tenant = key.tenant ∧ session.username = some username := by
  have hTenant : session.tenantId = key.tenant :=
    congrArg SessionKey.tenant (KeyedMap.key_of_get? hGet)
  have hLive : session.connId.isSome = true ↔ session.connected = true :=
    ⟨hCounted.bound.live key session hGet, hCounted.owned key session hGet⟩
  simp only [servesUser, hTenant, Bool.and_eq_true, beq_iff_eq, hLive]
  tauto

end

theorem Counted.unbind (hCounted : Counted capped manager) (tenant clientId : Str)
    (connId now : Nat) :
    Counted capped (manager.unbindConnectionInTenant tenant clientId connId now).1 := by
  refine ⟨hCounted.bound.unbindConnectionInTenant tenant clientId connId now,
    SessionManager.unbind_named hCounted.owned tenant clientId connId now, ?_⟩
  · intro tenant' username
    have hConnections : boundConnections
        (manager.unbindConnectionInTenant tenant clientId connId now).1 tenant' username + _ =
          boundConnections manager tenant' username :=
      SessionManager.count_unbind (fun _ _ hGet hEnded => hCounted.ended hGet hEnded tenant' username)
        (fun session => servesUser_of_unbound (SessionManager.detached_connId session now) _ _)
        tenant clientId connId
    have hBefore := hCounted.counts tenant' username
    rw [slotCount_unbind]
    have hServes : (manager.ownedBy { tenant, clientId } connId).any
        (servesUser tenant' username) = decide (tenant' = tenant ∧
          (manager.ownedBy { tenant, clientId } connId).bind (·.username) = some username) := by
      cases hOwned : manager.ownedBy { tenant, clientId } connId with
      | none => simp
      | some session =>
        obtain ⟨hGet, hConn⟩ := SessionManager.ownedBy_eq_some_iff.mp hOwned
        have hTenant : session.tenantId = tenant :=
          congrArg SessionKey.tenant (KeyedMap.key_of_get? hGet)
        grind [servesUser]
    grind

theorem keepsCounted_inbound (capped : Str → Str → Bool) (env : Env) :
    InboundRule env (fun _ => True) (KeepsCounted capped) where
  toFrameRule := (keepsCounted_quiet capped).toFrameRule
  dropWill _ _ _ _ hStored _ hCounted := hCounted.putSession hStored rfl rfl rfl rfl
  unbind connId _ _ tenant clientId hCounted := hCounted.unbind tenant clientId connId env.now
  inbound _ _ _ hStored hCounted := hCounted.putSession hStored rfl rfl rfl rfl

end Invariant

/-! ### CONNECT -/

/-- A CONNECT under which the counts stay right. Refused, it gives back what it took.
Accepted for a user, it finds the cap that the user always has, and a live session that it
takes over is one of the user. Accepted without a user, it does not change whether a capped
user's session is bound. -/
structure SlotOrder (capped : Str → Str → Bool) (shared : Shared) (env : Env)
    (req : BindRequest) : Prop where
  refused : accepts shared env req = none → SlotsKept shared.sessions env req
  named : ∀ identity will name username, accepts shared env req = some (identity, will) →
    req.username = some name → effectiveUsername req identity = some username →
    (connectionCap env (bindTenantForReq env req identity.principal) username identity).isSome =
        capped (bindTenantForReq env req identity.principal) username ∧
      ∀ existing, shared.sessions.sessions.get? (requestKey env req identity) = some existing →
        existing.connected = true → existing.username = some username
  anonymous : ∀ identity will existing username,
    accepts shared env req = some (identity, will) → req.username = none →
    shared.sessions.sessions.get? (requestKey env req identity) = some existing →
    existing.username = some username →
    capped (bindTenantForReq env req identity.principal) username = true →
    if existing.connected then req.cleanStart = false
    else req.cleanStart = true ∨ existing.sessionExpired env.now = true

/-- A verified identity is the subject of a token or the principal of a ticket, not both, so
the session holds the name that the slot was taken for. -/
theorem effectiveUsername_eq {identity : Identity}
    (hIdentity : authenticate env req = .ok identity) :
    effectiveUsername req identity = identity.principal.or (identity.subject.or req.username) := by
  have hOne : identity.subject.isSome → identity.principal = none := by
    intro hSubject
    obtain ⟨-, rfl⟩ | ⟨-, hCredentials⟩ := authenticate_inv hIdentity
    · rfl
    · grind [verifyCredentials, verifyExternal_subject]
  unfold effectiveUsername
  cases hSubject : identity.subject with
  | none => simp
  | some subject =>
    rw [hOne (by simp [hSubject])]
    rfl

section Accept

variable {shared : Shared} {env : Env} {connId : Nat} {req : BindRequest} {identity : Identity}
  {will : Option StoredWill}

theorem acceptedSession_username (session : Session) :
    (acceptedSession shared env connId req identity will session).username =
      (identity.principal.or (identity.subject.or req.username)).or session.username := by
  have hBoundTo : (boundTo session connId env.now).username = session.username := by
    unfold boundTo
    split <;> rfl
  show (identity.principal.or (identity.subject.or req.username)).or _ = _
  rw [hBoundTo]

def leftBy (shared : Shared) (env : Env) (connId : Nat) (req : BindRequest) (identity : Identity)
    (will : Option StoredWill) : Session :=
  acceptedSession shared env connId req identity will
    (resolvedFor shared.sessions env req identity).2.1

section

variable (hBound : Bound shared.sessions)
include hBound

theorem get?_acceptBind : (acceptBind shared env connId req identity will).1.sessions.sessions.get?
        (requestKey env req identity) = some (leftBy shared env connId req identity will) :=
  (acceptBind_rebinds hBound env connId req identity will).2.self

/-- An accepted CONNECT changes the connections of users by the session under its key. -/
theorem boundConnections_acceptBind (tenant username : Str) :
    boundConnections (acceptBind shared env connId req identity will).1.sessions tenant username +
        ((shared.sessions.sessions.get? (requestKey env req identity)).any
          (servesUser tenant username)).toNat =
      boundConnections shared.sessions tenant username +
        (servesUser tenant username (leftBy shared env connId req identity will)).toNat := by
  let after := (acceptBind shared env connId req identity will).1.sessions.sessions
  have hOthers : ∀ key, key ≠ requestKey env req identity →
      (after.get? key).any (servesUser tenant username) =
        (shared.sessions.sessions.get? key).any (servesUser tenant username) := by
    intro key hNe
    have hRebinds := (acceptBind_rebinds hBound env connId req identity will).2
    cases hAfter : after.get? key with
    | some found => rw [hRebinds.old key found hNe hAfter]
    | none =>
      cases hBefore : shared.sessions.sessions.get? key with
      | none => rfl
      | some found =>
        have hEnded := hRebinds.kept key found hNe hBefore
        grind [servesUser_of_unbound, Bound.unbound, Stateless.disconnected,
          SessionManager.disconnected_of_expired, Expired]
  have hSplit := KeyedMap.count_add_of_agree hOthers
  rw [get?_acceptBind hBound, Option.any_some] at hSplit
  exact hSplit

theorem servesUser_leftBy (tenant username : Str) :
    servesUser tenant username (leftBy shared env connId req identity will) = true ↔
      tenant = bindTenantForReq env req identity.principal ∧
        (leftBy shared env connId req identity will).username = some username := by
  have hKey : (leftBy shared env connId req identity will).key = requestKey env req identity :=
    KeyedMap.key_of_get? (get?_acceptBind hBound)
  have hTenant : (leftBy shared env connId req identity will).tenantId =
      bindTenantForReq env req identity.principal := congrArg SessionKey.tenant hKey
  have hConn : (leftBy shared env connId req identity will).connId = some connId :=
    boundTo_connId _ connId env.now
  rw [servesUser, hTenant, hConn]
  simp [eq_comm (a := tenant)]

end

end Accept

theorem slotCount_granted {tenant : Str} {cap : Option Nat}
    (hGranted : (sessions.acquireConnectionSlotInTenant tenant username cap).2 = true)
    (tenant' username' : Str) :
    (sessions.acquireConnectionSlotInTenant tenant username cap).1.slotCount tenant' username' =
      sessions.slotCount tenant' username' +
        (cap.isSome && (tenant', username') == (tenant, username)).toNat := by
  cases cap with
  | none => rfl
  | some cap => grind [SessionManager.acquireConnectionSlotInTenant, slotCount_acquire, acquired]

section Connect

variable {capped : Str → Str → Bool} {before : Shared} {env : Env} {req : BindRequest}
  {identity : Identity} {will : Option StoredWill}

theorem admitted_get? (key : SessionKey) :
    (admitted before env req identity).sessions.sessions.get? key =
      before.sessions.sessions.get? key := by
  obtain ⟨counts, hCounts⟩ := countsOnly_admitConnection before.sessions env req identity
  rw [admitted, hCounts]

theorem boundConnections_admitted (tenant username : Str) :
    boundConnections (admitted before env req identity).sessions tenant username =
      boundConnections before.sessions tenant username :=
  KeyedMap.count_eq_of_agree fun key => by rw [admitted_get?]

section Slots

variable {tenant name username : Str} (hTenant : bindTenantForReq env req identity.principal = tenant)
  (hName : req.username = some name) (hUser : effectiveUsername req identity = some username)
include hTenant hName hUser

/-- The slot of an accepted CONNECT: that of a live session is given back before. -/
theorem slotCount_admitted (hGranted : (admitConnection before.sessions env req identity).2 = true)
    (tenant' username' : Str) :
    (admitted before env req identity).sessions.slotCount tenant' username' =
      before.sessions.slotCount tenant' username' -
          (alreadyLive before.sessions tenant req.clientId &&
            (tenant', username') == (tenant, username)).toNat +
        ((connectionCap env tenant username identity).isSome &&
          (tenant', username') == (tenant, username)).toNat := by
  grind [admitted, admitConnection, slotCount_granted, slotCount_release]

variable (hCounted : Counted capped before.sessions) (hOrder : SlotOrder capped before env req)
  (hAccepts : accepts before env req = some (identity, will))
include hCounted hOrder hAccepts

/-- The session that a user's CONNECT replaces serves that user if it is live. -/
theorem SlotOrder.served (tenant' username' : Str) :
    (before.sessions.sessions.get? (requestKey env req identity)).any
        (servesUser tenant' username') =
      (alreadyLive before.sessions tenant req.clientId &&
        (tenant', username') == (tenant, username)) := by
  obtain ⟨-, hSame⟩ := hOrder.named identity will name username hAccepts hName hUser
  have hLive : alreadyLive before.sessions tenant req.clientId =
      (before.sessions.sessions.get? (requestKey env req identity)).elim false (·.connected) := by
    rw [requestKey, hTenant]
    rfl
  rw [hLive]
  cases hGet : before.sessions.sessions.get? (requestKey env req identity) with
  | none => rfl
  | some existing =>
    have hKey : (requestKey env req identity).tenant = tenant := hTenant
    grind [Counted.servesUser_iff]

end Slots

section Left

variable (hCounted : Counted capped before.sessions)
include hCounted

theorem Counted.bound_admitted (env : Env) (req : BindRequest) (identity : Identity) :
    Bound (admitted before env req identity).sessions :=
  keepsBound_views.countsOnly (countsOnly_admitConnection _ env req identity) hCounted.bound

theorem Counted.boundConnections_connect (env : Env) (connId : Nat) (req : BindRequest)
    (identity : Identity) (will : Option StoredWill) (tenant' username' : Str) :
    boundConnections (acceptBind (admitted before env req identity) env connId req identity
        will).1.sessions tenant' username' +
      ((before.sessions.sessions.get? (requestKey env req identity)).any
        (servesUser tenant' username')).toNat =
      boundConnections before.sessions tenant' username' +
        (servesUser tenant' username'
          (leftBy (admitted before env req identity) env connId req identity will)).toNat := by
  have hSplit := @boundConnections_acceptBind (admitted before env req identity) env connId req
    identity will (hCounted.bound_admitted env req identity) tenant' username'
  rw [admitted_get?, boundConnections_admitted] at hSplit
  exact hSplit

end Left

section Accepted

variable (hCounted : Counted capped before.sessions) (hOrder : SlotOrder capped before env req)
  (hAccepts : accepts before env req = some (identity, will)) (connId : Nat)
include hCounted hOrder hAccepts

/-- The counts after the CONNECT of a user. -/
theorem SlotOrder.counts_named {name : Str} (hName : req.username = some name)
    (hUser : effectiveUsername req identity = some username) (tenant' username' : Str) :
    (admitted before env req identity).sessions.slotCount tenant' username' =
      if capped tenant' username' then
        boundConnections (acceptBind (admitted before env req identity) env connId req identity
          will).1.sessions tenant' username'
      else 0 := by
  obtain ⟨tenant, hTenant⟩ : ∃ tenant, bindTenantForReq env req identity.principal = tenant :=
    ⟨_, rfl⟩
  obtain ⟨hIdentity, hGranted, -⟩ := accepts_inv hAccepts
  obtain ⟨hCap, -⟩ := hOrder.named identity will name username hAccepts hName hUser
  have hLeft : (leftBy (admitted before env req identity) env connId req identity will).username =
      some username := by
    rw [leftBy, acceptedSession_username, ← effectiveUsername_eq hIdentity, hUser]
    rfl
  have hServes : servesUser tenant' username'
      (leftBy (admitted before env req identity) env connId req identity will) =
        ((tenant', username') == (tenant, username)) := by
    grind [servesUser_leftBy, Counted.bound_admitted]
  have hConnections := hCounted.boundConnections_connect env connId req identity will tenant'
    username'
  have hServed := hOrder.served hTenant hName hUser hCounted hAccepts tenant' username'
  have hPositive : (alreadyLive before.sessions tenant req.clientId &&
      (tenant', username') == (tenant, username)) = true →
        0 < boundConnections before.sessions tenant' username' := by
    rw [← hServed]
    exact KeyedMap.count_pos
  have hBefore := hCounted.counts tenant' username'
  rw [hTenant] at hCap
  rw [slotCount_admitted hTenant hName hUser hGranted, hCap]
  rw [hServed, hServes] at hConnections
  by_cases hOwn : (tenant', username') = (tenant, username)
  · obtain ⟨rfl, rfl⟩ := Prod.mk.inj hOwn
    grind
  · grind

/-- An anonymous CONNECT leaves the sessions of capped users bound as they were. -/
theorem SlotOrder.serves_anonymous (hName : req.username = none) {tenant' username' : Str}
    (hCapped : capped tenant' username' = true) :
    (before.sessions.sessions.get? (requestKey env req identity)).any
        (servesUser tenant' username') =
      servesUser tenant' username'
        (leftBy (admitted before env req identity) env connId req identity will) := by
  obtain ⟨hIdentity, -, -⟩ := accepts_inv hAccepts
  have hAnonymous : identity = ⟨none, none, false⟩ := by
    obtain ⟨-, hIdentity⟩ | ⟨hNamed, -⟩ := authenticate_inv hIdentity
    · exact hIdentity
    · exact absurd hName hNamed
  have hBound := hCounted.bound_admitted env req identity
  have hLeft : (leftBy (admitted before env req identity) env connId req identity will).username =
      (resolvedFor (admitted before env req identity).sessions env req identity).2.1.username := by
    rw [leftBy, acceptedSession_username, hName, hAnonymous]
    rfl
  -- A capped user's session stays live, or is ended and makes room.
  have hTurn : ∀ existing, before.sessions.sessions.get? (requestKey env req identity) =
      some existing → tenant' = bindTenantForReq env req identity.principal →
      existing.username = some username' →
      if existing.connected then req.cleanStart = false
      else req.cleanStart = true ∨ existing.sessionExpired env.now = true := by
    rintro existing hGet rfl hUser
    exact hOrder.anonymous identity will existing username' hAccepts hName hGet hUser hCapped
  rw [Bool.eq_iff_iff, servesUser_leftBy hBound, hLeft, Option.any_eq_true]
  obtain ⟨⟨resolved, hResolves⟩, -⟩ := acceptBind_rebinds hBound env connId req identity will
  obtain ⟨existing, hGet, hClean, hUnexpired, hResumed⟩ | ⟨hFresh, -, hWhy⟩ := hResolves.origin
  · rw [admitted_get?] at hGet
    have hUser : (resolvedFor (admitted before env req identity).sessions env req
        identity).2.1.username = existing.username := by
      rw [hResumed]
    rw [hUser]
    constructor
    · rintro ⟨found, hFound, hServes⟩
      obtain rfl := Option.some.inj (hFound.symm.trans hGet)
      exact ((hCounted.servesUser_iff hGet tenant' username').mp hServes).2
    · rintro ⟨rfl, hNamed⟩
      have hLive : existing.connected = true := by simp_all
      exact ⟨existing, hGet, (hCounted.servesUser_iff hGet _ _).mpr ⟨hLive, rfl, hNamed⟩⟩
  · rw [hFresh.username]
    constructor
    · rintro ⟨existing, hGet, hServes⟩
      obtain ⟨hLive, hTenant, hNamed⟩ := (hCounted.servesUser_iff hGet _ _).mp hServes
      have hStays := hTurn existing hGet hTenant hNamed
      grind [SessionManager.disconnected_of_expired, admitted_get?]
    · rintro ⟨-, hNone⟩
      cases hNone

/-- The counts after an anonymous CONNECT. -/
theorem SlotOrder.counts_anonymous (hName : req.username = none) (tenant' username' : Str) :
    (admitted before env req identity).sessions.slotCount tenant' username' =
      if capped tenant' username' then
        boundConnections (acceptBind (admitted before env req identity) env connId req identity
          will).1.sessions tenant' username'
      else 0 := by
  have hSlots : (admitted before env req identity).sessions.slotCount tenant' username' =
      before.sessions.slotCount tenant' username' := by
    simp [admitted, admitConnection, hName]
  rw [hSlots, hCounted.counts tenant' username']
  cases hCapped : capped tenant' username' with
  | false => rw [if_neg Bool.false_ne_true, if_neg Bool.false_ne_true]
  | true =>
    have hConnections := hCounted.boundConnections_connect env connId req identity will tenant'
      username'
    grind [SlotOrder.serves_anonymous]

theorem SlotOrder.accept : Counted capped
      (acceptBind (admitted before env req identity) env connId req identity will).1.sessions := by
  have hBound := hCounted.bound_admitted env req identity
  refine ⟨bound_acceptBind hBound env connId req identity will, ?_, ?_⟩
  · intro key session hGet hLive
    by_cases hOwn : key = requestKey env req identity
    · rw [hOwn, get?_acceptBind hBound] at hGet
      cases hGet
      have hConn : (leftBy (admitted before env req identity) env connId req identity
          will).connId = some connId := boundTo_connId _ connId env.now
      rw [hConn]
      rfl
    · have hOld := (acceptBind_rebinds hBound env connId req identity will).2.old key session hOwn hGet
      rw [admitted_get?] at hOld
      exact hCounted.owned key session hOld hLive
  · intro tenant' username'
    rw [slotCount_acceptBind hBound]
    cases hName : req.username with
    | none => exact hOrder.counts_anonymous hCounted hAccepts connId hName tenant' username'
    | some name => grind [effectiveUsername, SlotOrder.counts_named]

end Accepted

end Connect

/-! ### Runs -/

theorem SlotOrder.applyBindRequest {before : Shared} (hOrder : SlotOrder capped before env req)
    (hCounted : Counted capped before.sessions) (connId : Nat) (looksV5 : Bool) :
    Counted capped (applyBindRequest before env connId (.ok req) looksV5).1.sessions := by
  cases hAccepts : accepts before env req with
  | some accepted =>
    obtain ⟨identity, will⟩ := accepted
    rw [applyBindRequest_of_accepts hAccepts]
    exact hOrder.accept hCounted hAccepts connId
  | none =>
    obtain ⟨-, hCode⟩ := applyBindRequest_of_refused hAccepts connId looksV5
    obtain ⟨sessions, hState, ⟨counts, rfl⟩, hSlots⟩ := applyBindRequest_refused hCode
    have hKept := hSlots.mpr (hOrder.refused hAccepts)
    rw [hState]
    refine ⟨⟨hCounted.bound.index, hCounted.bound.live⟩, hCounted.owned, ?_⟩
    intro tenant username
    exact (hKept tenant username).trans (hCounted.counts tenant username)

/-- One frame, when a CONNECT is in order. -/
theorem counted_step {t : Handled} (hCounted : Counted capped t.before.sessions)
    (hStep : t.IsStep step)
    (hOrder : ∀ connId req looksV5, t.input.2 = .bind connId (.ok req) looksV5 →
      SlotOrder capped (t.before.withEnv t.input.1) t.input.1 req) :
    Counted capped t.after.sessions := by
  obtain ⟨before, ⟨env, event⟩, effects, after⟩ := t
  by_cases hBind : ∃ connId req looksV5, event = .bind connId (.ok req) looksV5
  · obtain ⟨connId, req, looksV5, rfl⟩ := hBind
    have hEnv := (keepsCounted_quiet capped).withEnv before env hCounted
    have hHandled : handleBind (before.withEnv env) env connId (.ok req) looksV5 =
      some (after, effects) := hStep
    exact (keepsCounted_quiet capped).handleBind hHandled
      (fun hBefore => (hOrder connId req looksV5 rfl).applyBindRequest hBefore connId looksV5) hEnv
  · push Not at hBind
    exact (keepsCounted_inbound capped env).step hStep hBind (fun _ _ => trivial)
      (fun _ => keepsCounted_quiet capped) hCounted

theorem Booted.counted (hBooted : Booted sessions) (hNone : sessions.connCounts = ∅)
    (capped : Str → Str → Bool) : Counted capped sessions := by
  refine ⟨hBooted.bound, ?_, ?_⟩
  · intro key session hGet hLive
    rw [(hBooted.detached key session hGet).2] at hLive
    cases hLive
  · intro tenant username
    have hSlots : sessions.slotCount tenant username = 0 := by
      rw [SessionManager.slotCount, hNone]
      rfl
    have hUnbound : boundConnections sessions tenant username = 0 := by
      apply List.countP_eq_zero.mpr
      intro session hMem
      have hGet := (KeyedMap.mem_values_iff _ _).mp hMem
      rw [servesUser_of_unbound (hBooted.detached _ session hGet).1]
      exact Bool.false_ne_true
    rw [hSlots, hUnbound, ite_self]

/-- In every run whose CONNECTs are in order, the count of a user with a connection cap is the
number of connections bound for the user, and users without a cap are not counted. -/
theorem slotCount_eq_boundConnections {sessions : SessionManager} (hBooted : Booted sessions)
    (hNone : sessions.connCounts = ∅) (capped : Str → Str → Bool) {run : List Handled}
    {shared : Shared} (hRun : Run step (.start sessions) run shared)
    (hOrder : ∀ t ∈ run, ∀ connId req looksV5, t.input.2 = .bind connId (.ok req) looksV5 →
      SlotOrder capped (t.before.withEnv t.input.1) t.input.1 req) (tenant username : Str) :
    shared.sessions.slotCount tenant username =
      if capped tenant username then boundConnections shared.sessions tenant username else 0 := by
  have hCounted : Counted capped shared.sessions :=
    hRun.history (P := fun _ shared => Counted capped shared.sessions)
      (hBooted.counted hNone capped)
      fun _ t hMem hStep hBefore => counted_step hBefore hStep (hOrder t hMem)
  exact hCounted.counts tenant username

def quotaEnv : Env :=
  let user (maxConnections : Option Nat) : Auth.UserEntry :=
    ⟨.locked, ⟨maxConnections, none, none⟩⟩
  let users : Dict Str Auth.UserEntry :=
    Dict.set (Dict.set (Dict.set ∅ "ann".toList (user (some 1))) "bob".toList (user (some 1)))
      "eve".toList (user none)
  { Env.plain with
    tenants := Dict.set ∅ defaultTenantId { users, rules := [] }
    verifyPassword := fun _ _ => true }

def logsIn (connId : Nat) (username : String) : Env × Event :=
  (quotaEnv, .bind connId (.ok { plainRequest "meter".toList with
    username := some username.toList, password := some [] }) false)

theorem ann_in_order : SlotOrder (fun _ username => username == "ann".toList)
      ((Shared.start .new).withEnv quotaEnv) quotaEnv
      { plainRequest "meter".toList with
        username := some "ann".toList, password := some [] } := by
  have hAccepts : accepts ((Shared.start .new).withEnv quotaEnv) quotaEnv
      { plainRequest "meter".toList with
        username := some "ann".toList, password := some [] } =
      some (⟨none, none, false⟩, none) := by rfl
  constructor
  · intro hNone
    cases hAccepts.symm.trans hNone
  · intro identity will name username hSome _ hUser
    obtain ⟨rfl, rfl⟩ := Prod.mk.inj (Option.some.inj (hAccepts.symm.trans hSome))
    obtain rfl := Option.some.inj hUser
    exact ⟨by decide +kernel, fun existing hGet => nomatch hGet⟩
  · intro _ _ _ _ _ hNone
    cases hNone

/-- `ann` logs in and is counted. -/
theorem ann_counted :
    ∃ (run : List Handled) (last : Shared), Run step (.start .new) run last ∧
      run.map (·.input) = [logsIn 7 "ann"] ∧
      last.sessions.slotCount defaultTenantId "ann".toList =
        boundConnections last.sessions defaultTenantId "ann".toList ∧
      boundConnections last.sessions defaultTenantId "ann".toList = 1 := by
  obtain ⟨⟨run, last⟩, hExec, hOne⟩ : ∃ result ∈ exec step (.start .new) [logsIn 7 "ann"],
      boundConnections result.2.sessions defaultTenantId "ann".toList = 1 := by decide +kernel
  refine ⟨run, last, Run.of_exec hExec, inputs_of_exec hExec, ?_, hOne⟩
  have hSlots := slotCount_eq_boundConnections booted_new rfl
    (fun _ username => username == "ann".toList) (Run.of_exec hExec) ?_ defaultTenantId "ann".toList
  · rw [if_pos (by decide)] at hSlots
    exact hSlots
  · obtain ⟨next, output, rest, -, hTail, rfl⟩ := exec_cons hExec
    cases hTail
    intro t hMem connId req looksV5 hEvent
    obtain rfl := List.mem_singleton.mp hMem
    cases hEvent
    exact ann_in_order

/-- A user without a cap is not counted. Where `bob` takes over the session of `ann`, the
slot of `ann` stays taken. -/
theorem slots_differ :
    (∃ shared, Reachable shared ∧
      shared.sessions.slotCount defaultTenantId "eve".toList = 0 ∧
      boundConnections shared.sessions defaultTenantId "eve".toList = 1) ∧
    ∃ shared, Reachable shared ∧
      shared.sessions.slotCount defaultTenantId "ann".toList = 1 ∧
      boundConnections shared.sessions defaultTenantId "ann".toList = 0 := by
  obtain ⟨⟨run, last⟩, hExec, hUncapped⟩ : ∃ result ∈ exec step (.start .new) [logsIn 7 "eve"],
      result.2.sessions.slotCount defaultTenantId "eve".toList = 0 ∧
      boundConnections result.2.sessions defaultTenantId "eve".toList = 1 := by decide +kernel
  obtain ⟨⟨run', last'⟩, hExec', hTakeover⟩ :
      ∃ result ∈ exec step (.start .new) [logsIn 7 "ann", logsIn 8 "bob"],
        result.2.sessions.slotCount defaultTenantId "ann".toList = 1 ∧
        boundConnections result.2.sessions defaultTenantId "ann".toList = 0 := by decide +kernel
  exact ⟨⟨last, ⟨.new, run, booted_new, Run.of_exec hExec⟩, hUncapped⟩,
    last', ⟨.new, run', booted_new, Run.of_exec hExec'⟩, hTakeover⟩

end IndraMqtt.Kernel
