import IndraMqtt.Kernel.Carries

/-! The life of one session. An accepted CONNECT sets its terms, binds it and registers
its will. Every other frame leaves the terms alone, and leaves the connection and the
will alone unless it may unbind that connection. -/
namespace IndraMqtt.Kernel

open Protocol Sessions
open SessionManager (Bound boundTo detached_connId unbindConnectionInTenant_unbinds boundTo_connId)

/-! ### Accepted CONNECTs -/

variable {connId : Nat} {connect : Connect} {session session' : Session} {key : SessionKey}
  {manager : SessionManager}

variable {env : Env} {req : BindRequest} {looksV5 : Bool} {t : Handled}
  {first second third : Session}

/-- What follows the request of a CONNECT is quiet. -/
theorem handleBind_views {shared : Shared} {result : Shared × Effects}
    (hBind : handleBind shared env connId (.ok req) looksV5 = some result) :
    SameViews (applyBindRequest shared env connId (.ok req) looksV5).1.sessions
      result.1.sessions := by
  obtain ⟨subscribed, hSubscribed, hReplayed⟩ := Option.bind_eq_some_iff.mp hBind
  obtain ⟨replayed, hReplay, rfl⟩ := Option.map_eq_some_iff.mp hReplayed
  have hAuto := sameViews_quiet.autoSubscribed hSubscribed
  exact hAuto.trans (sameViews_quiet.replayOfflineClient hReplay)

/-- An accepted CONNECT: its connection, the key of its session, the request, and the will
that it registers. -/
structure Connect where
  connId : Nat
  key : SessionKey
  request : BindRequest
  will : Option StoredWill

def connectOf (t : Handled) : Option Connect :=
  match t.input.2 with
  | .bind connId (.ok req) _ =>
    (accepts (t.before.withEnv t.input.1) t.input.1 req).map fun accepted =>
      { connId, key := requestKey t.input.1 req accepted.1, request := req
        will := accepted.2.map fun will =>
          { will with tenant := bindTenantForReq t.input.1 req accepted.1.principal } }
  | _ => none

theorem connectOf_inv (hConnect : connectOf t = some connect) : ∃ looksV5 identity will,
      t.input.2 = .bind connect.connId (.ok connect.request) looksV5 ∧
      accepts (t.before.withEnv t.input.1) t.input.1 connect.request = some (identity, will) ∧
      connect.key = requestKey t.input.1 connect.request identity ∧
      connect.will = will.map fun will =>
        { will with tenant := bindTenantForReq t.input.1 connect.request identity.principal } := by
  grind [connectOf, Option.map_eq_some_iff]

/-- The connection slot is counted beside the sessions. -/
theorem admitted_sessions (before : Shared) (env : Env) (req : BindRequest) (identity : Identity) :
    (admitted (before.withEnv env) env req identity).sessions.sessions =
      before.sessions.sessions := by
  obtain ⟨counts, hCounts⟩ :=
    countsOnly_admitConnection (before.withEnv env).sessions env req identity
  rw [admitted, hCounts]
  rfl

/-- Every frame, for a relation that accepted CONNECTs keep as well. -/
theorem InboundRule.everyStep {Detaches : Nat → Prop} {T : SessionManager → SessionManager → Prop}
    (hT : InboundRule t.input.1 Detaches T) (hViews : ViewRule T)
    (hStep : Kernel.step t.before t.input = some (t.after, t.output))
    (hDetaches : ∀ connId, t.input.2.unbinds (t.before.withEnv t.input.1) connId = true →
      Detaches connId) (hAccept : ∀ connect, connectOf t = some connect → ∀ shared identity will,
      shared.sessions.sessions = t.before.sessions.sessions →
      requestKey t.input.1 connect.request identity = connect.key →
        T shared.sessions
          (acceptBind shared t.input.1 connect.connId connect.request identity will).1.sessions) :
    T t.before.sessions t.after.sessions := by
  obtain ⟨before, ⟨env, event⟩, effects, after⟩ := t
  by_cases hBind : ∃ connId req looksV5, event = .bind connId (.ok req) looksV5
  · obtain ⟨connId, req, looksV5, rfl⟩ := hBind
    have hHandled : handleBind (before.withEnv env) env connId (.ok req) looksV5 =
      some (after, effects) := hStep
    refine hT.trans _ _ _ (hT.withEnv before env)
      (hViews.quiet.handleBind hHandled ?_)
    cases hAccepts : accepts (before.withEnv env) env req with
    | none => grind [applyBindRequest_of_refused, ViewRule.countsOnly]
    | some accepted =>
      obtain ⟨identity, will⟩ := accepted
      rw [applyBindRequest_of_accepts hAccepts]
      have hAdmit : T (before.withEnv env).sessions
          (admitted (before.withEnv env) env req identity).sessions :=
        hViews.countsOnly (countsOnly_admitConnection _ env req identity)
      exact hT.trans _ _ _ hAdmit
        (hAccept _ (congrArg (Option.map _) hAccepts) _ identity will
          (admitted_sessions before env req identity) rfl)
  · push Not at hBind
    exact hT.step hStep hBind hDetaches fun _ => hViews.quiet

/-! ### What other frames leave -/

structure Terms where
  cleanStart : Bool
  protocolVersion : Nat
  sessionExpiry : Nat
  clientReceiveMax : Nat

def terms (session : Session) : Terms where
  cleanStart := session.cleanStart
  protocolVersion := session.protocolVersion
  sessionExpiry := session.sessionExpiry
  clientReceiveMax := session.clientReceiveMax

theorem terms_of_view (hView : view session' = view session) : terms session' = terms session := by
  simp only [view, BindingView.mk.injEq] at hView
  simp [terms, hView]

theorem terms_boundTo (session : Session) (connId now : Nat) :
    terms (boundTo session connId now) = terms session := by
  unfold boundTo
  split <;> rfl

/-- The terms of a session after a CONNECT. The version and the properties are those of the
request. A resumed session keeps its clean-start flag. -/
def settled (existing : Option Session) (now : Nat) (req : BindRequest) : Terms where
  cleanStart := req.cleanStart ||
    existing.any fun session => !session.sessionExpired now && session.cleanStart
  protocolVersion := req.protocolVersion
  sessionExpiry :=
    if req.protocolVersion == 5 then req.sessionExpiry else defaultSessionExpirySecs
  clientReceiveMax :=
    if req.protocolVersion == 5 then max (max req.receiveMaximum 1) 1
    else defaultClientReceiveMaximum

/-- A resolved session is clean if the CONNECT asks for it, or if it is a resumed one that
was clean. -/
theorem getOrCreateInTenant_cleanStart (manager : SessionManager) (tenant clientId : Str)
    (cleanStart : Bool) (now : Nat) :
    (manager.getOrCreateInTenant tenant clientId cleanStart now).2.1.cleanStart =
      (cleanStart || (manager.sessions.get? { tenant, clientId }).any (·.cleanStart)) := by
  cases cleanStart with
  | true => rfl
  | false =>
    simp only [SessionManager.getOrCreateInTenant, Bool.false_eq_true, if_false, Bool.false_or]
    cases manager.sessions.get? { tenant, clientId } with
    | none => rfl
    | some existing => grind [SessionManager.resume]

theorem terms_resolveV5 (manager : SessionManager) (tenant : Str) (req : BindRequest) (now : Nat) :
    let session := (manager.resolveV5 tenant req.clientId req.cleanStart req.protocolVersion
      req.sessionExpiry req.receiveMaximum req.maxPacketSize now).2.1
    terms session =
      { settled none now req with
        cleanStart := req.cleanStart ||
          (manager.sessions.get? { tenant, clientId := req.clientId }).any (·.cleanStart) } := by
  intro session
  have hClean : session.cleanStart = _ :=
    getOrCreateInTenant_cleanStart manager tenant req.clientId req.cleanStart now
  rw [terms, hClean]
  rfl

theorem terms_resolvedFor (sessions : SessionManager) (env : Env) (req : BindRequest)
    (identity : Identity) : terms (resolvedFor sessions env req identity).2.1 =
      settled (sessions.sessions.get? (requestKey env req identity)) env.now req := by
  let tenant := bindTenantForReq env req identity.principal
  have hResolve (manager : SessionManager) := terms_resolveV5 manager tenant req env.now
  cases hClean : req.cleanStart with
  | true => grind [settled, resolvedFor, SessionManager.getOrCreateV5InTenant]
  | false =>
    simp only [hClean, Bool.false_or, settled] at hResolve
    simp only [resolvedFor, SessionManager.getOrCreateV5InTenant, hClean, Bool.false_eq_true,
      if_false, settled, Bool.false_or, SessionManager.getInTenant]
    cases hGet : sessions.sessions.get? (requestKey env req identity) with
    | none =>
      change sessions.sessions.get? { tenant, clientId := req.clientId } = none at hGet
      grind
    | some existing =>
      change sessions.sessions.get? { tenant, clientId := req.clientId } = some existing at hGet
      grind [SessionManager.dropSession]

/-- A session and what became of it without a CONNECT of its own: the terms are the same,
and the connection and the will are the same or gone. -/
structure Outlives (session session' : Session) : Prop where
  terms : terms session' = terms session
  connId : session'.connId = session.connId ∨ session'.connId = none
  lastWill : session'.lastWill = session.lastWill ∨ session'.lastWill = none

namespace Outlives

theorem refl (session : Session) : Outlives session session := ⟨rfl, Or.inl rfl, Or.inl rfl⟩

theorem trans (hFirst : Outlives first second) (hSecond : Outlives second third) :
    Outlives first third := by
  refine ⟨hSecond.terms.trans hFirst.terms, ?_, ?_⟩
  · obtain hSame | hNone := hSecond.connId
    · rw [hSame]
      exact hFirst.connId
    · exact Or.inr hNone
  · obtain hSame | hNone := hSecond.lastWill
    · rw [hSame]
      exact hFirst.lastWill
    · exact Or.inr hNone

theorem bound (hOutlives : Outlives session session') (hConn : session'.connId = some connId) :
    session.connId = some connId := by
  obtain hSame | hNone := hOutlives.connId
  · exact hSame.symm.trans hConn
  · rw [hNone] at hConn
    cases hConn

theorem detached (session : Session) (now : Nat) :
    Outlives session (SessionManager.detached session now) := by
  refine ⟨?_, Or.inr (detached_connId session now), Or.inl ?_⟩
  all_goals
    unfold SessionManager.detached
    simp only
    split
    · rfl
    · rfl

end Outlives

def Descends (key : SessionKey) (before after : SessionManager) : Prop :=
  Bound before → Bound after ∧ ∀ session', after.sessions.get? key = some session' →
    ∃ session, before.sessions.get? key = some session ∧ Outlives session session'

theorem Descends.trans {first second third : SessionManager} (hFirst : Descends key first second)
    (hSecond : Descends key second third) : Descends key first third := by
  intro hBound
  obtain ⟨hMiddle, hOld⟩ := hFirst hBound
  obtain ⟨hLast, hOld'⟩ := hSecond hMiddle
  refine ⟨hLast, ?_⟩
  intro session'' hGet''
  obtain ⟨session', hGet', hOutlives'⟩ := hOld' session'' hGet''
  obtain ⟨session, hGet, hOutlives⟩ := hOld session' hGet'
  exact ⟨session, hGet, hOutlives.trans hOutlives'⟩

theorem Descends.putSession (hStored : manager.sessions.get? session.key = some session)
    (hKey : session'.key = session.key)
    (hBound : Bound manager → Bound (manager.putSession session'))
    (hOutlives : Outlives session session') :
    Descends key manager (manager.putSession session') := by
  intro hBefore
  refine ⟨hBound hBefore, ?_⟩
  intro found hGet
  change (manager.sessions.put session').get? key = some found at hGet
  rw [KeyedMap.get?_put, hKey] at hGet
  split at hGet
  · simp_all
  · exact ⟨found, hGet, .refl found⟩

theorem descends_views (key : SessionKey) : ViewRule (Descends key) := by
  refine ⟨fun _ _ _ hFirst hSecond => hFirst.trans hSecond, ?_⟩
  intro before after hSame hBound
  refine ⟨hSame.bound hBound, ?_⟩
  intro session' hGet'
  obtain ⟨session, hGet, hView⟩ := hSame.symm.get? hGet'
  exact ⟨session, hGet, terms_of_view hView.symm, .inl (congrArg BindingView.connId hView.symm),
    .inl (congrArg BindingView.lastWill hView.symm)⟩

theorem descends_inbound (env : Env) (key : SessionKey) :
    InboundRule env (fun _ => True) (Descends key) where
  toFrameRule := (descends_views key).quiet.toFrameRule
  dropWill connId hDetaches manager session hStored hConn :=
    .putSession hStored rfl
      ((keepsBound_unbind env).dropWill connId hDetaches manager session hStored hConn)
      ⟨rfl, Or.inl rfl, Or.inr rfl⟩
  unbind connId _ manager tenant clientId hBound := by
    refine ⟨hBound.unbindConnectionInTenant tenant clientId connId env.now, ?_⟩
    intro session' hGet'
    obtain ⟨session, hOld, rfl⟩ := (unbindConnectionInTenant_unbinds manager tenant clientId connId
      env.now).old key session' hGet'
    refine ⟨session, hOld, ?_⟩
    unfold SessionManager.released
    split
    · exact .detached session env.now
    · exact .refl session
  inbound manager session inbound hStored :=
    .putSession hStored rfl ((keepsBound_inbound env).inbound manager session inbound hStored)
      ⟨rfl, Or.inl rfl, Or.inl rfl⟩

def LiveOn (connId : Nat) (session : Session) : Prop :=
  session.connId = some connId ∧ session.connected = true

theorem LiveOn.not_stateless (hLive : LiveOn connId session) :
    ¬ SessionManager.Stateless session := by
  intro hStateless
  have hConnected := hLive.2
  rw [hStateless.disconnected] at hConnected
  cases hConnected

theorem LiveOn.unexpired (hLive : LiveOn connId session) (now : Nat) :
    session.sessionExpired now = false := by
  rw [Session.sessionExpired, if_pos hLive.2]

def SameWill (session session' : Session) : Prop := session'.lastWill = session.lastWill

theorem SameWill.refl (session : Session) : SameWill session session := rfl

theorem SameWill.trans (hFirst : SameWill first second) (hSecond : SameWill second third) :
    SameWill first third :=
  Eq.trans hSecond hFirst

abbrev StaysBound (connId : Nat) (key : SessionKey) : SessionManager → SessionManager → Prop :=
  Carries Bound (LiveOn connId) SameWill key

theorem staysBound_views (connId : Nat) (key : SessionKey) : ViewRule (StaysBound connId key) := by
  refine ⟨fun _ _ _ hFirst hSecond =>
    hFirst.trans (fun _ _ _ hWill hWill' => hWill.trans hWill') hSecond, ?_⟩
  intro before after hSame hBound
  refine ⟨hSame.bound hBound, ?_⟩
  intro session hGet hLive
  obtain ⟨session', hGet', hView⟩ := hSame.get? hGet
  have hLive' : LiveOn connId session' :=
    ⟨(congrArg BindingView.connId hView).trans hLive.1,
      (congrArg BindingView.connected hView).trans hLive.2⟩
  exact ⟨session', hGet', hLive', congrArg BindingView.lastWill hView⟩

theorem staysBound_inbound (env : Env) (connId : Nat) (key : SessionKey) :
    InboundRule env (· ≠ connId) (StaysBound connId key) where
  toFrameRule := (staysBound_views connId key).quiet.toFrameRule
  dropWill other hOther manager session hStored hConn := by
    refine Carries.putSession SameWill.refl
      ((keepsBound_unbind env).dropWill other trivial manager session hStored hConn) hStored rfl ?_
    intro _ hLive
    exact absurd (Option.some.inj (hConn.symm.trans hLive.1)) hOther
  unbind other hOther manager tenant clientId := by
    refine Carries.unbind SameWill.refl
      (fun hBound => hBound.unbindConnectionInTenant tenant clientId other env.now)
      (fun _ hLive => hLive.not_stateless) ?_
    intro session hLive hConn
    exact absurd (Option.some.inj (hConn.symm.trans hLive.1)) hOther
  inbound manager session inbound hStored :=
    Carries.putSession SameWill.refl
      ((keepsBound_inbound env).inbound manager session inbound hStored) hStored rfl
      (fun _ hLive => ⟨hLive, rfl⟩)

/-- The connection of the session has an entry that leads to it. -/
def Indexed (key : SessionKey) (manager : SessionManager) : Prop :=
  ∀ session connId, manager.sessions.get? key = some session → session.connId = some connId →
    manager.connIndex.get? connId = some key

theorem Indexed.putSession (hIndexed : Indexed key manager)
    (hStored : manager.sessions.get? session.key = some session) (hKey : session'.key = session.key)
    (hSame : session'.connId = session.connId) : Indexed key (manager.putSession session') := by
  intro found connId hGet hConn
  change (manager.sessions.put session').get? key = some found at hGet
  rw [KeyedMap.get?_put, hKey] at hGet
  split at hGet
  · next hOwner =>
    cases hGet
    rw [hSame] at hConn
    exact hIndexed session connId (by rwa [hOwner]) hConn
  · exact hIndexed found connId hGet hConn

theorem unbound_connId {tenant clientId : Str} {now : Nat}
    (hGet : (manager.unbindConnectionInTenant tenant clientId connId now).1.sessions.get?
      { tenant, clientId } = some session) : session.connId ≠ some connId := by
  obtain ⟨found, -, rfl⟩ :=
    (unbindConnectionInTenant_unbinds manager tenant clientId connId now).old _ session hGet
  grind [SessionManager.released, detached_connId]

def KeepsIndexed (key : SessionKey) (before after : SessionManager) : Prop :=
  Bound before ∧ Indexed key before → Bound after ∧ Indexed key after

theorem keepsIndexed_views (key : SessionKey) : ViewRule (KeepsIndexed key) where
  trans _ _ _ hFirst hSecond hBefore := hSecond (hFirst hBefore)
  views _ _ hSame hBefore := by
    refine ⟨hSame.bound hBefore.1, fun session connId hGet hConn => ?_⟩
    obtain ⟨session', hGet', hView⟩ := hSame.symm.get? hGet
    rw [hSame.index]
    exact hBefore.2 session' connId hGet' ((congrArg BindingView.connId hView).trans hConn)

theorem keepsIndexed_inbound (env : Env) (key : SessionKey) :
    InboundRule env (fun _ => True) (KeepsIndexed key) where
  toFrameRule := (keepsIndexed_views key).quiet.toFrameRule
  dropWill connId hDetaches manager session hStored hConn hBefore :=
    ⟨(keepsBound_unbind env).dropWill connId hDetaches manager session hStored hConn hBefore.1,
      hBefore.2.putSession hStored rfl rfl⟩
  unbind other _ manager tenant clientId hBefore := by
    refine ⟨hBefore.1.unbindConnectionInTenant tenant clientId other env.now, ?_⟩
    intro session connId hGet hConn
    have hEntry : manager.connIndex.get? connId = some key := by
      obtain ⟨-, hOld⟩ := (descends_inbound env key).unbind other trivial manager tenant clientId
        hBefore.1
      obtain ⟨found, hFound, hOutlives⟩ := hOld session hGet
      exact hBefore.2 found connId hFound (hOutlives.bound hConn)
    rw [(unbindConnectionInTenant_unbinds manager tenant clientId other env.now).index,
      SessionManager.dropIndexEntry_get?, if_neg, hEntry]
    -- Only the entry of the session itself could go, and then it lost the connection.
    rintro ⟨rfl, hOwned⟩
    rw [hEntry] at hOwned
    cases hOwned
    exact unbound_connId hGet hConn
  inbound manager session inbound hStored hBefore :=
    ⟨(keepsBound_inbound env).inbound manager session inbound hStored hBefore.1,
      hBefore.2.putSession hStored rfl rfl⟩

/-! ### One frame -/

section Step

variable {t : Handled} {key : SessionKey} (hBound : Bound t.before.sessions)
  (hStep : t.IsStep step)
include hBound hStep

/-- A frame that is no accepted CONNECT of the session leaves at most what it found. -/
theorem descends_step (hOther : ∀ connect, connectOf t = some connect → connect.key ≠ key)
    (hGet' : t.after.sessions.sessions.get? key = some session') :
    ∃ session, t.before.sessions.sessions.get? key = some session ∧ Outlives session session' := by
  refine ((descends_inbound t.input.1 key).everyStep (descends_views key) hStep
    (fun _ _ => trivial) ?_ hBound).2 session' hGet'
  intro connect hConnect shared identity will _ hKey hBefore
  refine ⟨bound_acceptBind hBefore _ _ _ _ _, ?_⟩
  intro found hFound
  have hNe : key ≠ requestKey t.input.1 connect.request identity := by
    rw [hKey]
    exact (hOther connect hConnect).symm
  exact ⟨found, (acceptBind_rebinds hBefore _ _ _ _ _).2.old key found hNe hFound, .refl found⟩

/-- A bound session survives every frame that neither is its CONNECT nor may unbind it. -/
theorem staysBound_step (hGet : t.before.sessions.sessions.get? key = some session)
    (hConn : session.connId = some connId)
    (hOther : ∀ connect, connectOf t = some connect → connect.key ≠ key)
    (hUnbinds : t.input.2.unbinds (t.before.withEnv t.input.1) connId = false) :
    ∃ session', t.after.sessions.sessions.get? key = some session' ∧
      session'.connId = some connId ∧ session'.lastWill = session.lastWill := by
  have hStays : StaysBound connId key t.before.sessions t.after.sessions := by
    refine (staysBound_inbound t.input.1 connId key).everyStep (staysBound_views connId key) hStep
      ?_ ?_
    · rintro other hUnbound rfl
      rw [hUnbinds] at hUnbound
      cases hUnbound
    · grind [Carries.accept, SameWill.refl, bound_acceptBind, LiveOn.not_stateless,
        LiveOn.unexpired]
  have hLive : LiveOn connId session := ⟨hConn, hBound.live key session hGet (by simp [hConn])⟩
  obtain ⟨session', hGet', hLive', hWill⟩ := (hStays hBound).2 session hGet hLive
  exact ⟨session', hGet', hLive'.1, hWill⟩

/-- A session keeps its entry unless another client CONNECTs on its connection. -/
theorem indexed_step (hIndexed : Indexed key t.before.sessions)
    (hOther : ∀ connect, connectOf t = some connect → connect.key ≠ key → ∀ session,
      t.before.sessions.sessions.get? key = some session →
        session.connId ≠ some connect.connId) : Indexed key t.after.sessions := by
  refine ((keepsIndexed_inbound t.input.1 key).everyStep (keepsIndexed_views key) hStep
    (fun _ _ => trivial) ?_ ⟨hBound, hIndexed⟩).2
  rintro connect hConnect shared identity will hSame hKey ⟨hBefore, hBeforeIndexed⟩
  refine ⟨bound_acceptBind hBefore _ _ _ _ _, ?_⟩
  obtain ⟨-, hRebinds⟩ :=
    acceptBind_rebinds hBefore t.input.1 connect.connId connect.request identity will
  intro found connId hFound hConn
  by_cases hAnother : key = requestKey t.input.1 connect.request identity
  · rw [hAnother, hRebinds.self] at hFound
    cases hFound
    have hBoundTo : connect.connId = connId :=
      Option.some.inj ((boundTo_connId _ connect.connId t.input.1.now).symm.trans hConn)
    rw [hAnother, ← hBoundTo]
    exact hRebinds.entry
  · have hFound' := hRebinds.old key found hAnother hFound
    refine hRebinds.entries connId key hAnother ?_ (hBeforeIndexed found connId hFound' hConn)
    grind

section

variable (hConnect : connectOf t = some connect)
include hConnect

/-- An accepted CONNECT leaves the session that it resolved, bound and stamped. -/
theorem connect_view :
    ∃ shared identity will session, shared.sessions.sessions = t.before.sessions.sessions ∧
      requestKey t.input.1 connect.request identity = connect.key ∧
      (will.map fun will =>
        { will with tenant := bindTenantForReq t.input.1 connect.request identity.principal }) =
          connect.will ∧
      t.after.sessions.sessions.get? connect.key = some session ∧
      view session = view (acceptedSession shared t.input.1 connect.connId connect.request identity
        will (resolvedFor shared.sessions t.input.1 connect.request identity).2.1) ∧
      t.after.sessions.connIndex.get? connect.connId = some connect.key := by
  obtain ⟨looksV5, identity, will, hEvent, hAccepts, hOwn, hWill⟩ := connectOf_inv hConnect
  obtain ⟨before, ⟨env, event⟩, effects, after⟩ := t
  obtain ⟨connId, key, req, registered⟩ := connect
  simp only at hEvent hAccepts hOwn hWill
  subst hEvent hOwn hWill
  let slotted := admitted (before.withEnv env) env req identity
  have hViews : SameViews (applyBindRequest (before.withEnv env) env connId (.ok req)
      looksV5).1.sessions after.sessions := handleBind_views hStep
  rw [applyBindRequest_of_accepts hAccepts] at hViews
  have hSlotted : Bound slotted.sessions :=
    keepsBound_views.countsOnly (countsOnly_admitConnection _ env req identity)
      (keepsBound_quiet.withEnv before env hBound)
  have hSame : slotted.sessions.sessions = before.sessions.sessions :=
    admitted_sessions before env req identity
  obtain ⟨-, hRebinds⟩ := acceptBind_rebinds hSlotted env connId req identity will
  obtain ⟨session', hGet', hView⟩ := hViews.get? hRebinds.self
  have hEntry : after.sessions.connIndex.get? connId = some (requestKey env req identity) := by
    rw [hViews.index]
    exact hRebinds.entry
  exact ⟨slotted, identity, will, session', hSame, rfl, rfl, hGet', hView, hEntry⟩

/-- An accepted CONNECT binds its session and registers its will. -/
theorem connect_step : ∃ session, t.after.sessions.sessions.get? connect.key = some session ∧
      session.connId = some connect.connId ∧ session.lastWill = connect.will ∧
      t.after.sessions.connIndex.get? connect.connId = some connect.key := by
  obtain ⟨shared, identity, will, session, -, -, hWill, hGet, hView, hEntry⟩ :=
    connect_view hBound hStep hConnect
  refine ⟨session, hGet, ?_, ?_, hEntry⟩
  · exact (congrArg BindingView.connId hView).trans
      (boundTo_connId _ connect.connId t.input.1.now)
  · exact (congrArg BindingView.lastWill hView).trans hWill

/-- The terms that an accepted CONNECT leaves. -/
theorem connect_terms (hGet : t.after.sessions.sessions.get? connect.key = some session) :
    terms session = settled (t.before.sessions.sessions.get? connect.key) t.input.1.now
      connect.request := by
  obtain ⟨shared, identity, will, found, hSame, hKey, -, hFound, hView, -⟩ :=
    connect_view hBound hStep hConnect
  rw [hGet] at hFound
  cases hFound
  rw [terms_of_view hView, ← hKey, ← hSame]
  exact (terms_boundTo _ connect.connId t.input.1.now).trans (terms_resolvedFor ..)

end

end Step

end IndraMqtt.Kernel
