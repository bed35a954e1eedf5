import IndraMqtt.Kernel.QuietRules

/-! Relations between session managers that every handler keeps. On top of the changes
of a frame a relation has to be kept by the two operations that touch the binding of a
session: frames other than CONNECT only unbind connections, and CONNECT only accepts. -/
namespace IndraMqtt.Kernel

open Protocol Sessions

variable {looksV5 : Bool} {event : Event} {identity : Identity} {publish : PublishIn}
  {result : Shared × Effects}

/-- Frames that neither bind a session nor touch the QoS 2 publications it took. -/
def Event.isPlain : Event → Bool
  | .bind _ (.ok _) _ => false
  | .publish _ _ => false
  | .pubrel _ _ => false
  | _ => true

theorem Event.kinds (event : Event) :
    (∃ connId req looksV5, event = .bind connId (.ok req) looksV5) ∨
      (∃ connId publish, event = .publish connId publish) ∨
      (∃ connId packetId, event = .pubrel connId packetId) ∨ event.isPlain = true := by
  cases event with
  | bind connId parsed looksV5 =>
    cases parsed with
    | ok req => exact Or.inl ⟨connId, req, looksV5, rfl⟩
    | error text => exact Or.inr (Or.inr (Or.inr rfl))
  | publish connId publish => exact Or.inr (Or.inl ⟨connId, publish, rfl⟩)
  | pubrel connId packetId => exact Or.inr (Or.inr (Or.inl ⟨connId, packetId, rfl⟩))
  | _ => exact Or.inr (Or.inr (Or.inr rfl))

/-- The frames that can unbind a connection. A PUBLISH does when its alias is rejected. -/
def Event.detaches : Event → Bool
  | .publish _ frame => frame.topicAlias.isSome
  | .disconnect _ _ => true
  | .unbind _ _ _ => true
  | .transportLost _ => true
  | _ => false

def Event.unbinds (shared : Shared) : Event → Nat → Bool
  | .publish sender frame, connId =>
    sender == connId && (resolveTopic shared sender frame).isNone
  | .disconnect sender _, connId => sender == connId
  | .unbind sender _ _, connId => sender == connId
  | .transportLost bound, connId => bound.any (·.2 == connId)
  | _, _ => false

variable {shared : Shared} {connId : Nat} {env : Env} {req : BindRequest}

theorem Event.unbinds_of_rejected (hRejected : resolveTopic shared connId publish = none) :
    (Event.publish connId publish).unbinds shared connId = true := by
  simp [Event.unbinds, hRejected]

theorem Event.detaches_of_unbinds (hUnbinds : event.unbinds shared connId = true) :
    event.detaches = true := by
  cases event with
  | publish sender frame =>
    obtain ⟨-, hRejected⟩ := Bool.and_eq_true_iff.mp hUnbinds
    show frame.topicAlias.isSome = true
    grind [resolveTopic]
  | disconnect sender clientId => rfl
  | unbind sender clientId withWill => rfl
  | transportLost bound => rfl
  | _ => cases hUnbinds

/-- The acknowledgements of a QoS 2 delivery. -/
def Event.acknowledges : Event → Bool
  | .pubrec _ _ => true
  | .pubcomp _ _ => true
  | _ => false

/-- A relation kept by frame changes and by the unbinds of one frame, for the connections
that it may unbind. The will of a session goes before its connection. -/
structure UnbindRule (env : Env) (Detaches : Nat → Prop)
    (T : SessionManager → SessionManager → Prop) : Prop extends FrameRule T where
  dropWill : ∀ connId, Detaches connId → ∀ manager session,
    manager.sessions.get? session.key = some session → session.connId = some connId →
    T manager (manager.putSession { session with lastWill := none })
  unbind : ∀ connId, Detaches connId → ∀ manager tenant clientId,
    T manager (manager.unbindConnectionInTenant tenant clientId connId env.now).1

/-! ### CONNECT -/

def accepts (shared : Shared) (env : Env) (req : BindRequest) :
    Option (Identity × Option StoredWill) :=
  match authenticate env req with
  | .error _ => none
  | .ok identity =>
    if (admitConnection shared.sessions env req identity).2 then
      match willFromBind req with
      | .error _ => none
      | .ok will => some (identity, will)
    else none

def admitted (shared : Shared) (env : Env) (req : BindRequest) (identity : Identity) : Shared :=
  { shared with sessions := (admitConnection shared.sessions env req identity).1 }

theorem authenticate_error_ne {rc : UInt8} (hError : authenticate env req = .error rc) :
    rc ≠ 0 := by
  grind [authenticate]

/-- An accepted CONNECT is anonymous, or its credentials were verified. -/
theorem authenticate_inv (hIdentity : authenticate env req = .ok identity) :
    (req.username = none ∧ identity = ⟨none, none, false⟩) ∨
      (req.username ≠ none ∧ verifyCredentials env req = some identity) := by
  unfold authenticate at hIdentity
  split at hIdentity
  · cases hIdentity
  · split at hIdentity
    · cases hIdentity
    · grind [Option.isNone_iff_eq_none]

variable {tenant : Str} {will : Option StoredWill} {T : SessionManager → SessionManager → Prop}
  {qos : QoS} {after : Shared} {effects : Effects}

/-- An identity with a subject comes from the JWT verifier. -/
theorem verifyExternal_subject (hVerified : verifyExternal env req tenant = some identity)
    (hSubject : identity.subject.isSome) :
    identity.principal = none ∧ ∃ verify subject, env.jwks = some verify ∧
      verify tenant req.clientId (req.password.getD []) = some subject := by
  grind [verifyExternal, Option.map_eq_some_iff, Option.bind_eq_some_iff]

section Accepts

variable {shared : Shared} {env : Env} {req : BindRequest}

theorem accepts_inv (hAccepts : accepts shared env req = some (identity, will)) :
    authenticate env req = .ok identity ∧
      (admitConnection shared.sessions env req identity).2 = true ∧
      willFromBind req = .ok will := by
  grind [accepts]

theorem applyBindRequest_of_accepts (hAccepts : accepts shared env req = some (identity, will))
    (connId : Nat) (looksV5 : Bool) : applyBindRequest shared env connId (.ok req) looksV5 =
      acceptBind (admitted shared env req identity) env connId req identity will := by
  obtain ⟨hIdentity, hAdmitted, hWill⟩ := accepts_inv hAccepts
  simp_all [applyBindRequest, admitted]

/-- A refused CONNECT leaves everything but the counts as it was, and says so. -/
theorem applyBindRequest_of_refused (hRefused : accepts shared env req = none) (connId : Nat)
    (looksV5 : Bool) : (∃ sessions, (applyBindRequest shared env connId (.ok req) looksV5).1 =
        { shared with sessions } ∧ CountsOnly shared.sessions sessions) ∧
      returnCode (applyBindRequest shared env connId (.ok req) looksV5).2 ≠ 0 := by
  cases hIdentity : authenticate env req with
  | error rc =>
    simp only [applyBindRequest, hIdentity]
    exact ⟨⟨shared.sessions, rfl, shared.sessions.connCounts, rfl⟩,
      authenticate_error_ne hIdentity⟩
  | ok identity =>
    have hCounts := countsOnly_admitConnection shared.sessions env req identity
    simp only [accepts, hIdentity] at hRefused
    cases hAdmitted : (admitConnection shared.sessions env req identity).2 with
    | false =>
      simp only [applyBindRequest, hIdentity, hAdmitted, Bool.not_false, if_true]
      refine ⟨⟨_, rfl, hCounts⟩, ?_⟩
      show (if req.protocolVersion == 5 then (0x97 : UInt8) else 0x8B) ≠ 0
      split <;> decide
    | true =>
      simp only [hAdmitted, if_true] at hRefused
      cases hWill : willFromBind req with
      | error text =>
        simp only [applyBindRequest, hIdentity, hAdmitted, hWill, Bool.not_true,
          Bool.false_eq_true, if_false]
        refine ⟨⟨_, rfl, hCounts⟩, ?_⟩
        show (if req.protocolVersion == 5 then (0x82 : UInt8) else 2) ≠ 0
        split <;> decide
      | ok will =>
        simp only [hWill] at hRefused
        cases hRefused

end Accepts

/-- A CONNECT up to the replay of the backlog, when the relation is kept by the request. -/
theorem EditRule.beforeReplay (hT : EditRule T)
    (hBind : handleBind shared env connId (.ok req) looksV5 = some result)
    (hRequest : T shared.sessions (applyBindRequest shared env connId (.ok req) looksV5).1.sessions)
    : ∃ subscribed replayed, T shared.sessions subscribed.sessions ∧
      replayOfflineClient subscribed connId req.clientId = some replayed ∧
      result.1 = replayed.1 ∧ result.2.routed = replayed.2 := by
  obtain ⟨subscribed, hSubscribed, hReplayed⟩ := Option.bind_eq_some_iff.mp hBind
  obtain ⟨replayed, hReplay, rfl⟩ := Option.map_eq_some_iff.mp hReplayed
  have hAuto := hT.autoSubscribed hSubscribed
  exact ⟨subscribed, replayed, hT.trans _ _ _ hRequest hAuto, hReplay, rfl, rfl⟩

/-- A whole CONNECT, when the relation is kept by the request. -/
theorem QuietRule.handleBind (hT : QuietRule T)
    (hBind : handleBind shared env connId (.ok req) looksV5 = some result)
    (hRequest : T shared.sessions (applyBindRequest shared env connId (.ok req) looksV5).1.sessions)
    : T shared.sessions result.1.sessions := by
  obtain ⟨subscribed, replayed, hBefore, hReplay, hResult, -⟩ :=
    hT.toEditRule.beforeReplay hBind hRequest
  rw [hResult]
  exact hT.trans _ _ _ hBefore (hT.replayOfflineClient hReplay)

/-- A relation kept by minor changes, by changes of the connection counts and by the
accepting part of one CONNECT. -/
structure BindRule (env : Env) (req : BindRequest) (T : SessionManager → SessionManager → Prop) :
    Prop extends EditRule T where
  counts : ∀ before after, CountsOnly before after → T before after
  accept : ∀ shared connId identity will, authenticate env req = .ok identity →
    T shared.sessions (acceptBind shared env connId req identity will).1.sessions

namespace BindRule

variable {env : Env} {req : BindRequest} {T : SessionManager → SessionManager → Prop}
  (hT : BindRule env req T)
include hT

theorem applyBindRequest (shared : Shared) (connId : Nat) (looksV5 : Bool) :
    T shared.sessions (applyBindRequest shared env connId (.ok req) looksV5).1.sessions := by
  cases hAccepts : accepts shared env req with
  | none =>
    obtain ⟨⟨sessions, hSessions, hCounts⟩, -⟩ :=
      applyBindRequest_of_refused hAccepts connId looksV5
    rw [hSessions]
    exact hT.counts _ _ hCounts
  | some accepted =>
    obtain ⟨identity, will⟩ := accepted
    rw [applyBindRequest_of_accepts hAccepts]
    have hAdmit := hT.counts _ _ (countsOnly_admitConnection shared.sessions env req identity)
    have hAccept := hT.accept (admitted shared env req identity) connId identity will
      (accepts_inv hAccepts).1
    exact hT.trans _ _ _ hAdmit hAccept

theorem handleBind (hQuiet : QuietRule T)
    (hBind : handleBind shared env connId (.ok req) looksV5 = some result) :
    T shared.sessions result.1.sessions :=
  hQuiet.handleBind hBind (hT.applyBindRequest shared connId looksV5)

end BindRule

namespace UnbindRule

variable {env : Env} {Detaches : Nat → Prop} {T : SessionManager → SessionManager → Prop}
  (hT : UnbindRule env Detaches T)
include hT

section Detaching

variable {connId : Nat} (hDetaches : Detaches connId)
include hDetaches

section

variable (shared : Shared) (key : SessionKey)

theorem takeLastWill : T shared.sessions (shared.takeLastWill key connId).sessions := by
  unfold Shared.takeLastWill
  split
  · next session hGet =>
    split
    · next hOwner =>
      exact hT.dropWill connId hDetaches _ session (stored_of_get? hGet) (beq_iff_eq.mp hOwner)
    · exact hT.refl _
  · exact hT.refl _

theorem unbindAndSweep : T shared.sessions (shared.unbindAndSweep env key connId).sessions :=
  hT.unbind connId hDetaches shared.sessions key.tenant key.clientId

theorem takeAndUnbind :
    T shared.sessions ((shared.takeLastWill key connId).unbindAndSweep env key connId).sessions :=
  hT.trans _ _ _ (hT.takeLastWill hDetaches shared key) (hT.unbindAndSweep hDetaches _ key)

end

theorem applyUnbind (shared : Shared) (clientId : Option Str) :
    T shared.sessions (applyUnbind shared env connId clientId).sessions := by
  cases clientId with
  | none => exact hT.refl _
  | some clientId => exact hT.takeAndUnbind hDetaches shared _

theorem orderAliasDisconnect (shared : Shared) :
    T shared.sessions (orderAliasDisconnect shared env connId).1.sessions := by
  have hRouted := routeAll_sessions shared [(connId, .connClose 0x94)]
  simp only [Kernel.orderAliasDisconnect]
  rw [← hRouted]
  split
  · exact hT.unbindAndSweep hDetaches _ _
  · split
    · exact hT.unbindAndSweep hDetaches _ _
    · exact hT.refl _

theorem applyDisconnect {clientId : Option Str} :
    Keeps T shared.sessions (applyDisconnect shared env connId clientId) := by
  unfold Kernel.applyDisconnect
  split
  · exact .done (hT.refl _)
  · simp only
    split
    · exact .done (hT.refl _)
    · next session hSession =>
      split
      · exact .done (hT.refl _)
      · have hUnbound := hT.takeAndUnbind hDetaches shared session.key
        split
        · exact .done hUnbound
        · refine .after fun allowed => ?_
          split
          · intro _ hAllowed
            obtain ⟨piped, hPiped, rfl⟩ := Option.map_eq_some_iff.mp hAllowed
            have hPipeline := hT.ingressPipeline hPiped
            show T shared.sessions (routeAll piped.1 piped.2.2).1.sessions
            rw [routeAll_sessions]
            exact hT.trans _ _ _ hUnbound hPipeline
          · exact .done hUnbound

end Detaching

theorem detachAll (shared : Shared) (bound : List (SessionKey × Nat))
    (hDetaches : ∀ first ∈ bound, Detaches first.2) :
    T shared.sessions (detachAll env shared bound).sessions := by
  induction bound generalizing shared with
  | nil => exact hT.refl _
  | cons first bound ih =>
    rw [List.forall_mem_cons] at hDetaches
    have hFirst := hT.unbindAndSweep hDetaches.1 (shared.unregister first.2) first.1
    exact hT.trans _ _ _ hFirst (ih _ hDetaches.2)

theorem releaseAcked {message : Ingress} {ack : Option OutFrame} :
    Keeps T shared.sessions (releaseAcked shared env message ack) :=
  hT.release.map fun _ => rfl

theorem applyDelayedPublish {delay : Nat} {inner : Str} : Keeps T shared.sessions
      (applyDelayedPublish shared env connId delay inner qos publish tenant) := by
  unfold Kernel.applyDelayedPublish
  split
  · exact .done (hT.refl _)
  · simp only
    split
    · exact hT.releaseAcked
    · split <;> exact .done (hT.refl _)

/-- A publication past its checks, when the relation is also kept by the storing of a
QoS 2 one. -/
theorem routePublish {publisher : Option Session} {topic : Topic}
    (hStore : ∀ shared topic, T shared.sessions (applyQos2Publish shared connId topic
      publish).1.sessions) :
    Keeps T shared.sessions (routePublish shared env connId publisher topic qos publish) := by
  unfold Kernel.routePublish
  simp only
  split
  · exact .done (hStore _ _)
  · split
    · exact hT.applyDelayedPublish
    · exact hT.releaseAcked

/-- Publications, when the relation is also kept by the storing of a QoS 2 one. -/
theorem applyPublish (hPublish : applyPublish shared env connId publish = some result)
    (hDetaches : resolveTopic shared connId publish = none → Detaches connId)
    (hStore : ∀ shared topic, T shared.sessions (applyQos2Publish shared connId topic
      publish).1.sessions) : T shared.sessions result.1.sessions := by
  unfold Kernel.applyPublish at hPublish
  split at hPublish
  · grind [orderAliasDisconnect]
  · next aliased raw hTopic =>
    have hAliased := hT.resolveTopic hTopic
    split at hPublish
    · next topic qos =>
      obtain ⟨allowed, -, hAllowed⟩ := Option.bind_eq_some_iff.mp hPublish
      have hQuota := hT.checkPublishQuota aliased env connId
      split at hAllowed
      · simp only at hAllowed
        split at hAllowed
        · have hRoute := hT.routePublish hStore hAllowed
          exact hT.trans _ _ _ hAliased (hT.trans _ _ _ hQuota hRoute)
        · cases hAllowed
          exact hT.trans _ _ _ hAliased hQuota
      · cases hAllowed
        exact hAliased
    · cases hPublish
      exact hAliased

theorem plainStep (hStep : step shared (env, event) = some (after, effects))
    (hPlain : event.isPlain = true)
    (hDetaches : ∀ connId, event.unbinds (shared.withEnv env) connId = true → Detaches connId)
    (hAcknowledges : event.acknowledges = true → QuietRule T) :
    T shared.sessions after.sessions := by
  refine hT.trans _ _ _ (hT.withEnv shared env) ?_
  cases event with
  | bind connId parsed looksV5 =>
    cases parsed with
    | error text =>
      cases hStep
      exact hT.refl _
    | ok req => cases hPlain
  | subscribe connId subscribe => exact hT.applySubscribe hStep
  | publish connId publish => cases hPlain
  | puback connId packetId =>
    cases hStep
    exact hT.applyPuback _ connId packetId
  | pubrec connId packetId =>
    obtain ⟨rfl, rfl⟩ := Prod.mk.inj (Option.some.inj hStep)
    exact (hAcknowledges rfl).applyQos2Pubrec _ connId packetId
  | pubrel connId packetId => cases hPlain
  | pubcomp connId packetId =>
    cases hStep
    exact (hAcknowledges rfl).applyQos2Pubcomp _ connId packetId
  | disconnect connId clientId =>
    exact hT.applyDisconnect (hDetaches connId (beq_self_eq_true connId)) hStep
  | unbind connId clientId withWill =>
    have hOwn := hDetaches connId (beq_self_eq_true connId)
    cases withWill with
    | true => exact hT.applyDisconnect hOwn hStep
    | false =>
      cases hStep
      exact hT.applyUnbind hOwn _ clientId
  | transportLost bound =>
    cases hStep
    refine hT.detachAll _ bound ?_
    intro first hMem
    exact hDetaches first.2 (List.any_eq_true.mpr ⟨first, hMem, beq_self_eq_true first.2⟩)
  | mailboxClosed connId =>
    cases hStep
    unfold closeMailbox
    split <;> exact hT.refl _
  | ingress message => exact hT.release hStep

end UnbindRule

theorem storeQos2Inbound_inbound (session : Session) (packetId : UInt16)
    (entry : Qos2InboundEntry) : ∃ inbound, (session.storeQos2Inbound packetId entry).1 =
      { session with qos2Inbound := inbound } := by
  unfold Session.storeQos2Inbound
  split
  · exact ⟨session.qos2Inbound, rfl⟩
  · split
    · exact ⟨session.qos2Inbound, rfl⟩
    · exact ⟨_, rfl⟩

/-- A relation that is also kept by changes of the QoS 2 publications that a session took. -/
structure InboundRule (env : Env) (Detaches : Nat → Prop)
    (T : SessionManager → SessionManager → Prop) : Prop extends UnbindRule env Detaches T where
  inbound : ∀ manager session inbound, manager.sessions.get? session.key = some session →
    T manager (manager.putSession { session with qos2Inbound := inbound })

namespace InboundRule

variable {env : Env} {Detaches : Nat → Prop} {T : SessionManager → SessionManager → Prop}
  (hT : InboundRule env Detaches T)
include hT

theorem applyQos2Publish (shared : Shared) (connId : Nat) (topic : Topic) (publish : PublishIn) :
    T shared.sessions (applyQos2Publish shared connId topic publish).1.sessions := by
  unfold Kernel.applyQos2Publish
  split
  · exact hT.refl _
  · split
    · exact hT.refl _
    · next session hSession =>
      obtain ⟨inbound, hInbound⟩ := storeQos2Inbound_inbound session publish.packetId
        { topic, retain := publish.retain, payload := publish.payload }
      simp only [hInbound]
      split
      · exact hT.refl _
      · split
        · exact hT.inbound _ session inbound (resolveSession_stored hSession)
        · exact hT.refl _

theorem restoreQos2Inbound (shared : Shared) (key : SessionKey) (packetId : UInt16)
    (entry : Qos2InboundEntry) :
    T shared.sessions (restoreQos2Inbound shared key packetId entry).sessions := by
  unfold Kernel.restoreQos2Inbound
  split
  · next session hGet =>
    obtain ⟨inbound, hInbound⟩ := storeQos2Inbound_inbound session packetId entry
    rw [hInbound]
    exact hT.inbound _ session inbound (stored_of_get? hGet)
  · exact hT.refl _

/-- Every frame but an accepted CONNECT, when the relation is also kept by the
acknowledgements of QoS 2 deliveries. -/
theorem step (hStep : step shared (env, event) = some (after, effects))
    (hBind : ∀ connId req looksV5, event ≠ .bind connId (.ok req) looksV5)
    (hDetaches : ∀ connId, event.unbinds (shared.withEnv env) connId = true → Detaches connId)
    (hAcknowledges : event.acknowledges = true → QuietRule T) :
    T shared.sessions after.sessions := by
  have hEnv := hT.withEnv shared env
  obtain ⟨connId, req, looksV5, rfl⟩ | ⟨connId, publish, rfl⟩ | ⟨connId, packetId, rfl⟩ | hPlain :=
    event.kinds
  · exact absurd rfl (hBind connId req looksV5)
  · have hPublish : T (shared.withEnv env).sessions after.sessions := by
      refine hT.applyPublish hStep ?_
        (fun shared topic => hT.applyQos2Publish shared connId topic publish)
      intro hRejected
      exact hDetaches connId (Event.unbinds_of_rejected hRejected)
    exact hT.trans _ _ _ hEnv hPublish
  · have hPubrel : T (shared.withEnv env).sessions after.sessions := by
      apply hT.applyQos2Pubrel hStep
      intro session entry hSession _
      exact ⟨hT.inbound _ session _ (resolveSession_stored hSession), fun released =>
        hT.restoreQos2Inbound released session.key packetId entry⟩
    exact hT.trans _ _ _ hEnv hPubrel
  · exact hT.plainStep hStep hPlain hDetaches hAcknowledges

end InboundRule

end IndraMqtt.Kernel
