import IndraMqtt.Kernel.Carries

/-! The QoS 2 publications that sessions took and have not released. Only a PUBLISH adds
one, and a session loses them only together with its state. -/
namespace IndraMqtt.Kernel

open Sessions
open SessionManager (Bound Stateless boundTo)

variable {session session' : Session}

def heldInbound (sessions : SessionManager) (key : SessionKey) (packetId : UInt16) :
    Option Qos2InboundEntry :=
  (sessions.sessions.get? key).bind (·.qos2Inbound.get? packetId)

def NoGain (before after : SessionManager) : Prop :=
  Bound before → Bound after ∧ ∀ key packetId entry,
    heldInbound after key packetId = some entry → heldInbound before key packetId = some entry

variable {key : SessionKey} {packetId : UInt16} {entry : Qos2InboundEntry}
  {manager before after first second third : SessionManager}

theorem heldInbound_eq_some_iff {sessions : SessionManager} :
    heldInbound sessions key packetId = some entry ↔
      ∃ session, sessions.sessions.get? key = some session ∧
        session.qos2Inbound.get? packetId = some entry :=
  Option.bind_eq_some_iff

theorem heldInbound_putSession (manager : SessionManager) (session : Session) (key : SessionKey)
    (packetId : UInt16) : heldInbound (manager.putSession session) key packetId =
      if key = session.key then session.qos2Inbound.get? packetId
      else heldInbound manager key packetId := by
  show ((manager.sessions.put session).get? key).bind _ = _
  rw [KeyedMap.get?_put]
  split <;> rfl

theorem heldInbound_putSession_same (hStored : manager.sessions.get? session.key = some session)
    (hKey : session'.key = session.key)
    (hSame : key = session.key → session'.qos2Inbound.get? packetId = session.qos2Inbound.get?
      packetId) :
    heldInbound (manager.putSession session') key packetId = heldInbound manager key packetId := by
  rw [heldInbound_putSession, hKey]
  simp_all [heldInbound]

theorem heldInbound_of_views (hSame : SameViews before after) (key : SessionKey)
    (packetId : UInt16) : heldInbound after key packetId = heldInbound before key packetId := by
  have hShown (manager : SessionManager) : heldInbound manager key packetId =
      ((manager.sessions.get? key).map view).bind (·.qos2Inbound.get? packetId) := by
    rw [heldInbound]
    cases manager.sessions.get? key with
    | none => rfl
    | some session => rfl
  rw [hShown, hShown, hSame.views]

theorem NoGain.trans (hFirst : NoGain first second) (hSecond : NoGain second third) :
    NoGain first third := by
  intro hBound
  obtain ⟨hMiddle, hOld⟩ := hFirst hBound
  obtain ⟨hLast, hOld'⟩ := hSecond hMiddle
  exact ⟨hLast, fun key packetId entry hHeld => hOld _ _ _ (hOld' key packetId entry hHeld)⟩

theorem noGain_views : ViewRule NoGain := by
  refine ⟨fun _ _ _ hFirst hSecond => hFirst.trans hSecond, ?_⟩
  intro before after hSame hBound
  grind [SameViews.bound, heldInbound_of_views]

theorem noGain_quiet : QuietRule NoGain := noGain_views.quiet

variable (env : Env) (Detaches : Prop) (req : BindRequest)

theorem noGain_unbind : UnbindRule env (fun _ => True) NoGain where
  toFrameRule := noGain_quiet.toFrameRule
  dropWill connId hDetaches manager session hStored hConn hBound := by
    have hBound' := (keepsBound_unbind env).dropWill connId hDetaches manager session hStored hConn
      hBound
    refine ⟨hBound', ?_⟩
    intro key packetId entry hHeld
    have hSame : heldInbound (manager.putSession { session with lastWill := none }) key packetId =
        heldInbound manager key packetId :=
      heldInbound_putSession_same hStored rfl (fun _ => rfl)
    exact hSame.symm.trans hHeld
  unbind connId _ manager tenant clientId hBound := by
    refine ⟨hBound.unbindConnectionInTenant tenant clientId connId env.now, ?_⟩
    intro key packetId entry hHeld
    obtain ⟨found, hGet, hEntry⟩ := heldInbound_eq_some_iff.mp hHeld
    obtain ⟨session, hOld, rfl⟩ := (SessionManager.unbindConnectionInTenant_unbinds manager tenant
      clientId connId env.now).old key found hGet
    refine heldInbound_eq_some_iff.mpr ⟨session, hOld, ?_⟩
    unfold SessionManager.released at hEntry
    split at hEntry
    · rw [SessionManager.detached_qos2Inbound] at hEntry
      split at hEntry
      · cases hEntry
      · exact hEntry
    · exact hEntry

theorem acceptedSession_qos2Inbound (shared : Shared) (env : Env) (connId : Nat)
    (req : BindRequest) (identity : Identity) (will : Option StoredWill) (session : Session) :
    (acceptedSession shared env connId req identity will session).qos2Inbound =
      session.qos2Inbound := by
  show (boundTo session connId env.now).qos2Inbound = _
  unfold boundTo
  split <;> rfl

theorem noGain_bind : BindRule env req NoGain where
  toEditRule := noGain_quiet.toEditRule
  counts _ _ := noGain_views.countsOnly
  accept shared connId identity will _ hBound := by
    refine ⟨bound_acceptBind hBound env connId req identity will, ?_⟩
    obtain ⟨⟨resolved, hResolves⟩, hRebinds⟩ :=
      acceptBind_rebinds hBound env connId req identity will
    intro key packetId entry hHeld
    obtain ⟨found, hGet, hEntry⟩ := heldInbound_eq_some_iff.mp hHeld
    by_cases hOwner : key = requestKey env req identity
    · rw [hOwner, hRebinds.self] at hGet
      cases hGet
      rw [acceptedSession_qos2Inbound] at hEntry
      obtain ⟨existing, hExisting, -, -, hResumed⟩ | ⟨hFresh, -⟩ := hResolves.origin
      · rw [hResumed] at hEntry
        rw [hOwner]
        exact heldInbound_eq_some_iff.mpr ⟨existing, hExisting, hEntry⟩
      · rw [hFresh.qos2Inbound] at hEntry
        cases hEntry
    · exact heldInbound_eq_some_iff.mpr ⟨found, hRebinds.old key found hOwner hGet, hEntry⟩

/-! ### What a session keeps -/

theorem sessionExpired_of_view (hView : view session' = view session) (now : Nat) :
    session'.sessionExpired now = session.sessionExpired now := by
  simp only [view, BindingView.mk.injEq] at hView
  simp only [Session.sessionExpired, hView]

theorem dropsState_of_view (hView : view session' = view session) :
    session'.dropsStateAtDisconnect = session.dropsStateAtDisconnect := by
  simp only [view, BindingView.mk.injEq] at hView
  simp only [Session.dropsStateAtDisconnect, hView]

def HoldsOn (good : Session → Prop) (key : SessionKey) (packetId : UInt16)
    (entry : Qos2InboundEntry) (sessions : SessionManager) : Prop :=
  ∃ session, sessions.sessions.get? key = some session ∧ good session ∧
    session.qos2Inbound.get? packetId = some entry

def KeepsHeld (good : Session → Prop) (key : SessionKey) (packetId : UInt16)
    (entry : Qos2InboundEntry) (before after : SessionManager) : Prop :=
  Bound before → Bound after ∧
    (HoldsOn good key packetId entry before → HoldsOn good key packetId entry after)

section KeepsHeld

variable {good : Session → Prop} {key : SessionKey} {packetId : UInt16} {entry : Qos2InboundEntry}

/-- A change of one session that keeps its standing and the publication. -/
theorem HoldsOn.putSession (hHolds : HoldsOn good key packetId entry manager)
    (hStored : manager.sessions.get? session.key = some session)
    (hKey : session'.key = session.key)
    (hKept : key = session.key → good session → session.qos2Inbound.get? packetId = some entry →
      good session' ∧ session'.qos2Inbound.get? packetId = some entry) :
    HoldsOn good key packetId entry (manager.putSession session') := by
  obtain ⟨found, hGet, hGood, hEntry⟩ := hHolds
  show ∃ session, (manager.sessions.put session').get? key = some session ∧ _
  grind

theorem KeepsHeld.trans (hFirst : KeepsHeld good key packetId entry first second)
    (hSecond : KeepsHeld good key packetId entry second third) :
    KeepsHeld good key packetId entry first third := by
  intro hBound
  obtain ⟨hMiddle, hKeeps⟩ := hFirst hBound
  obtain ⟨hLast, hKeeps'⟩ := hSecond hMiddle
  exact ⟨hLast, fun hHolds => hKeeps' (hKeeps hHolds)⟩

theorem keepsHeld_of_carries (hCarries : Carries Bound
      (fun session => good session ∧ session.qos2Inbound.get? packetId = some entry)
      (fun _ _ => True) key before after) : KeepsHeld good key packetId entry before after := by
  intro hBound
  obtain ⟨hAfter, hCarried⟩ := hCarries hBound
  refine ⟨hAfter, ?_⟩
  rintro ⟨session, hGet, hGood⟩
  obtain ⟨session', hGet', hGood', -⟩ := hCarried session hGet hGood
  exact ⟨session', hGet', hGood'⟩

theorem keepsHeld_views
    (hView : ∀ session session', view session' = view session → good session → good session') :
    ViewRule (KeepsHeld good key packetId entry) := by
  refine ⟨fun _ _ _ hFirst hSecond => hFirst.trans hSecond, ?_⟩
  intro before after hSame hBound
  refine ⟨hSame.bound hBound, ?_⟩
  rintro ⟨session, hGet, hGood, hEntry⟩
  obtain ⟨session', hGet', hShown⟩ := hSame.get? hGet
  have hInbound : session'.qos2Inbound = session.qos2Inbound :=
    congrArg BindingView.qos2Inbound hShown
  exact ⟨session', hGet', hView session session' hShown hGood, by rwa [hInbound]⟩

end KeepsHeld

/-- A session that holds a publication is not without state. -/
theorem not_stateless_of_held (hEntry : session.qos2Inbound.get? packetId = some entry) :
    ¬ Stateless session := by
  intro hStateless
  simp only [Stateless, Session.isEndedStateless, Bool.and_eq_true, List.isEmpty_iff] at hStateless
  simp_all [Dict.get?_eq_some_iff]

variable (key : SessionKey) (packetId : UInt16) (entry : Qos2InboundEntry)

theorem keepsHeld_durable :
    QuietRule (KeepsHeld (fun session => Detaches → session.dropsStateAtDisconnect = false) key
      packetId entry) :=
  (keepsHeld_views fun _ _ hView hDurable hDetaches =>
    (dropsState_of_view hView).trans (hDurable hDetaches)).quiet

theorem keepsHeld_unexpired (now : Nat) (key : SessionKey) (packetId : UInt16)
    (entry : Qos2InboundEntry) :
    ViewRule (KeepsHeld (fun session => session.sessionExpired now = false) key packetId entry) :=
  keepsHeld_views fun _ _ hView hUnexpired => (sessionExpired_of_view hView now).trans hUnexpired

theorem keepsHeld_unbind : UnbindRule env (fun _ => Detaches) (KeepsHeld
      (fun session => Detaches → session.dropsStateAtDisconnect = false) key packetId entry) where
  toFrameRule := (keepsHeld_durable Detaches key packetId entry).toFrameRule
  dropWill connId _ manager session hStored hConn hBound := by
    have hBound' := (keepsBound_unbind env).dropWill connId trivial manager session hStored hConn
      hBound
    refine ⟨hBound', ?_⟩
    intro hHolds
    exact hHolds.putSession hStored rfl fun _ hDurable hEntry => ⟨hDurable, hEntry⟩
  unbind connId hDetaches manager tenant clientId := by
    refine keepsHeld_of_carries (Carries.unbind (fun _ => trivial)
      (fun hBound => hBound.unbindConnectionInTenant tenant clientId connId env.now)
      (fun _ hGood => not_stateless_of_held hGood.2) ?_)
    rintro session ⟨hDurable, hEntry⟩ _
    rw [SessionManager.detached_of_durable (hDurable hDetaches)]
    exact ⟨⟨hDurable, hEntry⟩, trivial⟩

theorem unexpired_of_connected (hConnected : session.connected = true) (now : Nat) :
    session.sessionExpired now = false := by
  unfold Session.sessionExpired
  rw [if_pos hConnected]

/-- A CONNECT keeps the publications of unexpired sessions, unless it asks for a clean
start of the session that holds them. -/
theorem keepsHeld_bind
    (hResumes : ∀ identity, authenticate env req = .ok identity →
      requestKey env req identity = key → req.cleanStart = false) : BindRule env req
      (KeepsHeld (fun session => session.sessionExpired env.now = false) key packetId entry) where
  toEditRule := (keepsHeld_unexpired env.now key packetId entry).quiet.toEditRule
  counts _ _ := (keepsHeld_unexpired env.now key packetId entry).countsOnly
  accept shared connId identity will hIdentity := by
    refine keepsHeld_of_carries (Carries.accept (fun _ => trivial)
      (fun hBound => ⟨hBound, bound_acceptBind hBound env connId req identity will⟩)
      (hResumes identity hIdentity)
      (fun _ hGood => ⟨not_stateless_of_held hGood.2, hGood.1⟩) ?_)
    rintro - session resumed ⟨-, hEntry⟩ hResumed
    have hConnected : (acceptedSession shared env connId req identity will resumed).connected =
        true := by
      rw [acceptedSession_connected, hResumed]
    refine ⟨⟨unexpired_of_connected hConnected env.now, ?_⟩, trivial⟩
    rw [acceptedSession_qos2Inbound, hResumed]
    exact hEntry

end IndraMqtt.Kernel
