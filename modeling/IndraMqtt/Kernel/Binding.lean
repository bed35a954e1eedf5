import IndraMqtt.Kernel.HandlerRules
import IndraMqtt.Session.Binding

/-! The connection index over whole runs. It stays sound under every frame, so that a
connection with a session of its own has a live one. -/
namespace IndraMqtt.Kernel

open Protocol Sessions
open SessionManager (Bound Resolves boundTo bindSession_sessions boundTo_key)

variable {shared : Shared}

/-! ### An accepted CONNECT -/

theorem sweepExpired_sessions (shared : Shared) (env : Env) (tenant : Str) :
    (sweepExpired shared env tenant).sessions =
      (shared.sessions.pruneExpiredBounded tenant maxExpirySweep env.now).1 := by
  have hFold (victims : List (Str × List TopicFilter)) (swept : Shared) :
      (victims.foldl (fun shared victim => shared.sweep victim.2 victim.1 tenant)
        swept).sessions = swept.sessions := by
    induction victims generalizing swept with
    | nil => rfl
    | cons victim victims ih => exact ih _
  exact hFold _ _

def resolvedFor (sessions : SessionManager) (env : Env) (req : BindRequest) (identity : Identity) :
    SessionManager × Session × Bool × List TopicFilter :=
  sessions.getOrCreateV5InTenant (bindTenantForReq env req identity.principal) req.clientId
    req.cleanStart req.protocolVersion req.sessionExpiry req.receiveMaximum req.maxPacketSize
    env.now

def requestKey (env : Env) (req : BindRequest) (identity : Identity) : SessionKey :=
  { tenant := bindTenantForReq env req identity.principal, clientId := req.clientId }

def acceptedSession (shared : Shared) (env : Env) (connId : Nat) (req : BindRequest)
    (identity : Identity) (will : Option StoredWill) (session : Session) : Session :=
  stampSession shared req identity (bindTenantForReq env req identity.principal) will
    (boundTo session connId env.now)

section

variable (hBound : Bound shared.sessions) (env : Env) (connId : Nat) (req : BindRequest)
  (identity : Identity) (will : Option StoredWill)
include hBound

/-- What an accepted CONNECT does to the sessions: one is resolved, bound to the
connection and stamped, and then the expired ones of the tenant go. -/
theorem acceptBind_rebound :
    let resolved := (resolvedFor shared.sessions env req identity).1
    let session := (resolvedFor shared.sessions env req identity).2.1
    Resolves shared.sessions resolved (requestKey env req identity) req.cleanStart env.now
        session ∧
      (acceptBind shared env connId req identity will).1.sessions =
        resolved.rebound session (acceptedSession shared env connId req identity will session)
          (bindTenantForReq env req identity.principal) connId maxExpirySweep env.now := by
  intro resolved session
  let tenant := bindTenantForReq env req identity.principal
  have hResolves : Resolves shared.sessions resolved (requestKey env req identity) req.cleanStart
      env.now session :=
    (SessionManager.getOrCreateV5InTenant_resolves hBound tenant req.clientId req.cleanStart
      req.protocolVersion req.sessionExpiry req.receiveMaximum req.maxPacketSize env.now).1
  have hKey : session.key = requestKey env req identity := KeyedMap.key_of_get? hResolves.stored
  have hTenant : { session with tenantId := tenant } = session := by
    have hOwn : session.tenantId = tenant := congrArg SessionKey.tenant hKey
    rw [← hOwn]
  refine ⟨hResolves, ?_⟩
  have hStored : (resolved.putSession session).sessions.get? session.key = some session :=
    KeyedMap.get?_put_self _ _
  let stamp := stampSession shared req identity tenant will
  let owned := (resolved.putSession session).bindSession session connId env.now
  have hModified : modifySession owned (requestKey env req identity) stamp =
      owned.putSession (stamp (boundTo session connId env.now)) := by
    rw [modifySession, bindSession_sessions hStored, if_pos hKey.symm]
  have hSwept : (acceptBind shared env connId req identity will).1.sessions =
      ((modifySession ((resolved.putSession { session with tenantId := tenant }).bindSession
        { session with tenantId := tenant } connId env.now) (requestKey env req identity)
          stamp).pruneExpiredBounded tenant maxExpirySweep env.now).1 :=
    sweepExpired_sessions _ env tenant
  rw [hSwept, hTenant, hModified]
  rfl

theorem acceptBind_rebinds :
    let session := (resolvedFor shared.sessions env req identity).2.1
    (∃ resolved, Resolves shared.sessions resolved (requestKey env req identity) req.cleanStart
        env.now session) ∧
      SessionManager.Rebinds shared.sessions
        (acceptBind shared env connId req identity will).1.sessions (requestKey env req identity)
        env.now connId (acceptedSession shared env connId req identity will session) := by
  intro session
  obtain ⟨hResolves, hSessions⟩ := acceptBind_rebound hBound env connId req identity will
  rw [hSessions]
  refine ⟨⟨_, hResolves⟩, hResolves.rebinds ?_ ?_ _ _ _⟩
  · exact boundTo_key session connId env.now
  · exact SessionManager.boundTo_connected session connId env.now

end

section

variable (shared : Shared) (env : Env) (connId : Nat) (req : BindRequest) (identity : Identity)
  (will : Option StoredWill) (session : Session)

theorem acceptedSession_connected :
    (acceptedSession shared env connId req identity will session).connected =
      session.connected :=
  SessionManager.boundTo_connected session connId env.now

end

/-! ### Soundness of the index -/

theorem bound_putSession {manager : SessionManager} (hBound : Bound manager)
    {session session' : Session} (hStored : manager.sessions.get? session.key = some session)
    (hKey : session'.key = session.key) (hConn : session'.connId = session.connId)
    (hConnected : session'.connected = session.connected) :
    Bound (manager.putSession session') := by
  constructor
  · intro connId owner hEntry
    obtain ⟨found, hGet, hNamed⟩ := hBound.index connId owner hEntry
    show ∃ session, (manager.sessions.put session').get? owner = some session ∧ _
    grind
  · intro owner found hGet hNamed
    change (manager.sessions.put session').get? owner = some found at hGet
    rw [KeyedMap.get?_put, hKey] at hGet
    split at hGet
    · cases hGet
      rw [hConnected]
      rw [hConn] at hNamed
      exact hBound.live _ _ hStored hNamed
    · exact hBound.live owner found hGet hNamed

theorem bound_acceptBind (hBound : Bound shared.sessions) (env : Env) (connId : Nat)
    (req : BindRequest) (identity : Identity) (will : Option StoredWill) :
    Bound (acceptBind shared env connId req identity will).1.sessions := by
  obtain ⟨hResolves, hSessions⟩ := acceptBind_rebound hBound env connId req identity will
  have hAfter : Bound (resolvedFor shared.sessions env req identity).1 :=
    (SessionManager.getOrCreateV5InTenant_resolves hBound _ req.clientId req.cleanStart
      req.protocolVersion req.sessionExpiry req.receiveMaximum req.maxPacketSize env.now).2
  rw [hSessions]
  generalize (resolvedFor shared.sessions env req identity).1 = resolved at *
  generalize (resolvedFor shared.sessions env req identity).2.1 = session at *
  have hStored : (resolved.putSession session).sessions.get? session.key = some session :=
    KeyedMap.get?_put_self _ _
  have hResolved : Bound (resolved.putSession session) :=
    bound_putSession hAfter (stored_of_get? hResolves.stored) rfl rfl rfl
  have hBind := hResolved.bindSession hStored hResolves.connected connId env.now
  have hBoundTo : ((resolved.putSession session).bindSession session connId env.now).sessions.get?
      (boundTo session connId env.now).key = some (boundTo session connId env.now) := by
    rw [bindSession_sessions hStored, boundTo_key, if_pos rfl]
  have hAccepted : Bound (((resolved.putSession session).bindSession session connId
      env.now).putSession (acceptedSession shared env connId req identity will session)) :=
    bound_putSession hBind hBoundTo rfl rfl rfl
  exact hAccepted.pruneExpiredBounded _ _ _

/-- The index stays sound from one manager to the next. -/
def KeepsBound (before after : SessionManager) : Prop := Bound before → Bound after

theorem SameViews.bound {before after : SessionManager} (hSame : SameViews before after)
    (hBound : Bound before) : Bound after := by
  constructor
  · intro connId key hEntry
    rw [hSame.index] at hEntry
    obtain ⟨session, hGet, hConn⟩ := hBound.index connId key hEntry
    obtain ⟨session', hGet', hView⟩ := hSame.get? hGet
    exact ⟨session', hGet', (congrArg BindingView.connId hView).trans hConn⟩
  · intro key session hGet hNamed
    obtain ⟨session', hGet', hView⟩ := hSame.symm.get? hGet
    have hConn : session'.connId = session.connId := congrArg BindingView.connId hView
    have hConnected : session'.connected = session.connected :=
      congrArg BindingView.connected hView
    rw [← hConn] at hNamed
    rw [← hConnected]
    exact hBound.live key session' hGet' hNamed

theorem keepsBound_views : ViewRule KeepsBound where
  trans _ _ _ hFirst hSecond hBound := hSecond (hFirst hBound)
  views _ _ hSame hBound := hSame.bound hBound

theorem keepsBound_quiet : QuietRule KeepsBound := keepsBound_views.quiet

theorem keepsBound_unbind (env : Env) : UnbindRule env (fun _ => True) KeepsBound where
  toFrameRule := keepsBound_quiet.toFrameRule
  dropWill _ _ _ _ hStored _ hBound := bound_putSession hBound hStored rfl rfl rfl
  unbind connId _ _ tenant clientId hBound :=
    hBound.unbindConnectionInTenant tenant clientId connId env.now

theorem keepsBound_inbound (env : Env) : InboundRule env (fun _ => True) KeepsBound where
  toUnbindRule := keepsBound_unbind env
  inbound _ _ _ hStored hBound := bound_putSession hBound hStored rfl rfl rfl

theorem bound_step {after : Shared} {input : Env × Event} {effects : Effects}
    (hBound : Bound shared.sessions) (hStep : step shared input = some (after, effects)) :
    Bound after.sessions := by
  obtain ⟨env, event⟩ := input
  by_cases hBind : ∃ connId req looksV5, event = .bind connId (.ok req) looksV5
  · obtain ⟨connId, req, looksV5, rfl⟩ := hBind
    change handleBind (shared.withEnv env) env connId (.ok req) looksV5 = _ at hStep
    have hRule : BindRule env req KeepsBound :=
      { toEditRule := keepsBound_quiet.toEditRule
        counts _ _ := keepsBound_views.countsOnly
        accept _ connId identity will _ hBound :=
          bound_acceptBind hBound env connId req identity will }
    exact hRule.handleBind keepsBound_quiet hStep
      (keepsBound_quiet.withEnv shared env hBound)
  · push Not at hBind
    exact (keepsBound_inbound env).step hStep hBind (fun _ _ => trivial)
      (fun _ => keepsBound_quiet)
      hBound

theorem Booted.bound {sessions : SessionManager} (hBooted : Booted sessions) : Bound sessions := by
  constructor
  · intro connId key hEntry
    rw [hBooted.index connId] at hEntry
    cases hEntry
  · intro key session hGet hNamed
    rw [(hBooted.detached key session hGet).1] at hNamed
    cases hNamed

/-- The index is sound in every state that a run of frames reaches. -/
theorem Reachable.bound (hReachable : Reachable shared) : Bound shared.sessions := by
  obtain ⟨sessions, run, hBooted, hRun⟩ := hReachable
  exact (hRun.invariant (fun _ _ _ _ => bound_step) hBooted.bound :)

/-- No session is indexed under two connections. -/
theorem indexed_once (shared : { s // Reachable s }) (key : SessionKey) :
    {connId | shared.1.sessions.connIndex.get? connId = some key}.Subsingleton := by
  intro connId hEntry connId' hEntry'
  have hBound := shared.2.bound.index
  grind [hBound connId key hEntry, hBound connId' key hEntry']

end IndraMqtt.Kernel
