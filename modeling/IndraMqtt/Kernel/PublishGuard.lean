import IndraMqtt.Kernel.Inbound

/-! Which publications are passed on. The checks of a PUBLISH are made for the session
that the kernel resolves for its connection; a connection without one is not checked. -/
namespace IndraMqtt.Kernel

open Protocol Sessions Runs

variable {env : Env} {connId : Nat} {publish : PublishIn} {shared : Shared}
  {resolved : Shared × Str}

/-- The session that the kernel resolves for the connection is bound to it. -/
def OwnsSession (shared : Shared) (connId : Nat) : Prop :=
  ∃ session, resolveSession shared connId = some session ∧ session.connId = some connId

/-- The topic of a publication after its alias and the rewrite rules. -/
def publishTopic (shared : Shared) (env : Env) (connId : Nat) (publish : PublishIn) :
    Option Topic :=
  (resolveTopic shared connId publish).bind fun resolved =>
    (Topic.new ((env.rewritePublish resolved.2).getD resolved.2)).toOption

/-- The connection is bound to a live session, and the publication passed the ban, the
access rules and the rate of that session. -/
structure Guarded (shared : Shared) (env : Env) (connId : Nat) (publish : PublishIn)
    (session : Session) (topic : Topic) : Prop where
  resolved : resolveSession shared connId = some session
  bound : session.connId = some connId
  live : session.connected = true
  named : publishTopic shared env connId publish = some topic
  allowed : publishAllowed env session.tenantId session.clientId session.username
    session.peerhost topic = some true
  granted : (checkSessionQuota shared env session).2 = true

/-- The publication went further than its checks: it entered the pipeline, the delay
store or the QoS 2 publications of a session. -/
def PassedOn (t : Handled) : Prop :=
  t.output.ingress ≠ [] ∨ t.after.delayed ≠ t.before.delayed ∨
    ∃ key packetId, heldInbound t.before.sessions key packetId = none ∧
      (heldInbound t.after.sessions key packetId).isSome

variable {session session' : Session} {topic : Topic} {after : Shared} {effects : Effects}

/-- The client id that is found for a connection after a write to a session with the
client id found before. -/
theorem clientIdForConn_putSession {sessions : SessionManager} {clientId : Str}
    (hStored : sessions.sessions.get? session.key = some session)
    (hKey : session'.key = session.key) (hConn : session'.connId = session.connId)
    (hFound : sessions.clientIdForConn connId = some clientId)
    (hName : session.clientId = clientId) :
    (sessions.putSession session').clientIdForConn connId = some clientId := by
  unfold SessionManager.clientIdForConn at hFound ⊢
  simp only [SessionManager.putSession]
  cases hIndex : sessions.connIndex.get? connId with
  | some owner => simpa only [hIndex] using hFound
  | none =>
    simp only [hIndex] at hFound ⊢
    cases hNames : session'.connId == some connId with
    | true =>
      have hFirst : (sessions.sessions.put session').values.find?
          (fun session => session.connId == some connId) = some session' :=
        List.find?_cons_of_pos hNames
      have hSame : session'.clientId = session.clientId := congrArg SessionKey.clientId hKey
      rw [hFirst, Option.map_some, hSame, hName]
    | false =>
      have hSame : (sessions.sessions.put session').values.find?
          (fun session => session.connId == some connId) =
          sessions.sessions.values.find? (fun session => session.connId == some connId) := by
        have hOld : ∀ old, sessions.sessions.get? session'.key = some old →
            (old.connId == some connId) = false := by simp_all
        exact Dict.find?_values_set_of_neg sessions.sessions.dict hNames hOld
      rwa [hSame]

/-- A write to the resolved session that keeps its connection is what the next
resolution finds. -/
theorem resolveSession_putSession (hResolve : resolveSession shared connId = some session)
    (hKey : session'.key = session.key) (hConn : session'.connId = session.connId) :
    resolveSession (shared.putSession session') connId = some session' := by
  have hStored := resolveSession_stored hResolve
  have hPut : (shared.sessions.sessions.put session').get? session.key = some session' :=
    KeyedMap.get?_put_of_key _ hKey
  rw [resolveSession, Option.or_eq_some_iff] at hResolve ⊢
  obtain hOwner | ⟨hNone, hNamed⟩ := hResolve
  · left
    obtain ⟨owner, hEntry, hGet⟩ := Option.bind_eq_some_iff.mp hOwner
    have hOwn : session.key = owner := KeyedMap.key_of_get? hGet
    refine Option.bind_eq_some_iff.mpr ⟨owner, hEntry, ?_⟩
    show (shared.sessions.sessions.put session').get? owner = some session'
    rw [← hOwn, hPut]
  · right
    obtain ⟨clientId, hFound, hGet⟩ := Option.bind_eq_some_iff.mp hNamed
    have hOwn : session.key = { tenant := Sessions.defaultTenantId, clientId } :=
      KeyedMap.key_of_get? hGet
    have hFound' := clientIdForConn_putSession hStored hKey hConn hFound
      (congrArg SessionKey.clientId hOwn)
    refine ⟨?_, Option.bind_eq_some_iff.mpr ⟨clientId, hFound', ?_⟩⟩
    · unfold SessionManager.sessionForConn at hNone ⊢
      rw [Option.bind_eq_none_iff] at hNone ⊢
      intro owner hEntry
      show (shared.sessions.sessions.put session').get? owner = none
      have hAbsent := hNone owner hEntry
      grind
    · show (shared.sessions.sessions.put session').get? _ = some session'
      rw [← hOwn, hPut]

theorem resolveTopic_session (hTopic : resolveTopic shared connId publish = some resolved) :
    resolved.1 = shared ∨ ∃ session aliases, resolveSession shared connId = some session ∧
      resolved.1 = shared.putSession { session with inboundAliases := aliases } := by
  unfold resolveTopic at hTopic
  grind [resolveInboundAliasTopic, Option.bind_eq_some_iff, Option.map_eq_some_iff]

/-- The rate check reads only the user and the budgets, which an alias does not touch. -/
theorem checkSessionQuota_putSession (shared : Shared) (env : Env) (session : Session)
    (aliases : Dict Nat Topic) :
    (checkSessionQuota (shared.putSession { session with inboundAliases := aliases }) env
      { session with inboundAliases := aliases }).2 = (checkSessionQuota shared env session).2 := by
  have hLimit : publishLimit env { session with inboundAliases := aliases } =
      publishLimit env session := rfl
  unfold checkSessionQuota
  rw [hLimit]
  cases publishLimit env session with
  | none => rfl
  | some limit => rfl

def PassesChecks (shared : Shared) (env : Env) (connId : Nat) (topic : Topic) : Prop :=
  ∀ session, resolveSession shared connId = some session →
    publishAllowed env session.tenantId session.clientId session.username session.peerhost topic =
        some true ∧
      (checkSessionQuota shared env session).2 = true

/-- The checks run after the alias was looked up and have the outcome that they would
have had before. -/
theorem passesChecks_of_resolved (hTopic : resolveTopic shared connId publish = some resolved)
    (hChecks : PassesChecks resolved.1 env connId topic) :
    PassesChecks shared env connId topic := by
  obtain hSame | ⟨session, aliases, hSession, hWritten⟩ := resolveTopic_session hTopic
  · rwa [hSame] at hChecks
  · intro found hFound
    rw [hSession] at hFound
    cases hFound
    have hResolve : resolveSession resolved.1 connId =
        some { session with inboundAliases := aliases } := by
      rw [hWritten]
      exact resolveSession_putSession hSession rfl rfl
    obtain ⟨hAllowed, hGranted⟩ := hChecks _ hResolve
    simp_all [checkSessionQuota_putSession]

/-- A publication that was held back leaves no trace in the pipeline, the delay store or
the publications of sessions. -/
structure HeldBack (before after : Shared) (effects : Effects) : Prop where
  ingress : effects.ingress = []
  delayed : after.delayed = before.delayed
  sessions : NoGain before.sessions after.sessions

theorem admitPublish_outcome {qos : QoS}
    (hAdmit : admitPublish shared env connId topic qos publish = some (after, effects)) :
    PassesChecks shared env connId topic ∨ HeldBack shared after effects := by
  obtain ⟨allowed, hAllowed, hRest⟩ := Option.bind_eq_some_iff.mp hAdmit
  cases allowed with
  | false =>
    obtain ⟨rfl, rfl⟩ := Prod.mk.inj (Option.some.inj hRest)
    exact Or.inr ⟨rfl, rfl, noGain_quiet.refl _⟩
  | true =>
    cases hGranted : (checkPublishQuota shared env connId).2 with
    | false =>
      simp only [if_true, hGranted, Bool.false_eq_true, if_false] at hRest
      obtain ⟨rfl, rfl⟩ := Prod.mk.inj (Option.some.inj hRest)
      exact Or.inr ⟨rfl, by grind [checkPublishQuota, checkSessionQuota],
        noGain_quiet.checkPublishQuota shared env connId⟩
    | true =>
      left
      intro session hSession
      simp_all [checkPublishQuota]

theorem applyPublish_outcome
    (hPublish : applyPublish shared env connId publish = some (after, effects)) :
    (∃ topic, publishTopic shared env connId publish = some topic ∧
      PassesChecks shared env connId topic) ∨ HeldBack shared after effects := by
  unfold applyPublish at hPublish
  split at hPublish
  · obtain ⟨rfl, rfl⟩ := Prod.mk.inj (Option.some.inj hPublish)
    exact Or.inr ⟨rfl,
      by grind [Shared.unbindAndSweep, Shared.sweep],
      (noGain_unbind env).orderAliasDisconnect trivial shared⟩
  · next aliased raw hTopic =>
    have hDelayed : aliased.delayed = shared.delayed := by
      obtain rfl | ⟨session, aliases, -, rfl⟩ := resolveTopic_session hTopic <;> rfl
    have hSessions := noGain_quiet.resolveTopic hTopic
    split at hPublish
    · next topic qos hName hQos =>
      obtain hChecks | hHeld := admitPublish_outcome hPublish
      · left
        refine ⟨topic, ?_, passesChecks_of_resolved hTopic hChecks⟩
        rw [publishTopic, hTopic, Option.bind_some, hName]
        rfl
      · exact Or.inr ⟨hHeld.ingress, hHeld.delayed.trans hDelayed,
          noGain_quiet.trans _ _ _ hSessions hHeld.sessions⟩
    · obtain ⟨rfl, rfl⟩ := Prod.mk.inj (Option.some.inj hPublish)
      exact Or.inr ⟨rfl, hDelayed, hSessions⟩

/-- In every run, a publication that is passed on was checked for the live session of its
connection exactly when the connection is bound to the session it resolves to. -/
theorem publish_guarded_iff {sessions : SessionManager} (hBooted : Booted sessions)
    {run : List Handled} {last : Shared} (hRun : Run step (.start sessions) run last)
    {t : Handled} (hMem : t ∈ run) {env : Env} {connId : Nat} {publish : PublishIn}
    (hInput : t.input = (env, .publish connId publish)) (hPassed : PassedOn t) :
    (∃ session topic, Guarded (t.before.withEnv env) env connId publish session topic) ↔
      OwnsSession t.before connId := by
  constructor
  · rintro ⟨session, topic, hGuarded⟩
    exact ⟨session, hGuarded.resolved, hGuarded.bound⟩
  · rintro ⟨session, hResolve, hConn⟩
    obtain ⟨hBound, hStep⟩ := Run.invariant_before
      (fun _ _ _ _ hBound hStep => bound_step hBound hStep) hRun hBooted.bound t hMem
    have hLive : session.connected = true :=
      hBound.live session.key session (resolveSession_stored hResolve) (by simp [hConn])
    rw [hInput] at hStep
    obtain ⟨topic, hTopic, hChecks⟩ | hHeld := applyPublish_outcome hStep
    · obtain ⟨hAllowed, hGranted⟩ := hChecks session hResolve
      exact ⟨session, topic, hResolve, hConn, hLive, hTopic, hAllowed, hGranted⟩
    · obtain hIngress | hDelayed | ⟨key, packetId, hNone, hSome⟩ := hPassed
      · exact absurd hHeld.ingress hIngress
      · exact absurd hHeld.delayed hDelayed
      · obtain ⟨entry, hEntry⟩ := Option.isSome_iff_exists.mp hSome
        obtain ⟨-, hOld⟩ := hHeld.sessions (keepsBound_quiet.withEnv t.before env hBound)
        have hBefore : heldInbound t.before.sessions key packetId = some entry :=
          hOld key packetId entry hEntry
        rw [hNone] at hBefore
        cases hBefore

/-- A client that connects and publishes is checked. -/
theorem boundPublish_guarded :
    ∃ (t : Handled) (session : Session) (topic : Topic),
      t.input = (Env.plain, .publish 7 reading) ∧
        Guarded (t.before.withEnv Env.plain) Env.plain 7 reading session topic := by
  obtain ⟨⟨run, middle⟩, hExec, hConn, next, hStep, hIngress⟩ :
      ∃ result ∈ exec step (.start .new) [connects Env.plain 7 "meter"],
        (∃ session ∈ resolveSession result.2 7, session.connId = some 7) ∧
        ∃ next ∈ step result.2 (Env.plain, .publish 7 reading), next.2.ingress ≠ [] := by
    decide +kernel
  let t : Handled := ⟨middle, (Env.plain, .publish 7 reading), next.2, next.1⟩
  have hMem : t ∈ run ++ [t] := List.mem_append_right run List.mem_cons_self
  obtain ⟨session, topic, hGuarded⟩ := (publish_guarded_iff booted_new
    ((Run.of_exec hExec).snoc hStep) hMem rfl (Or.inl hIngress)).mpr hConn
  exact ⟨t, session, topic, rfl, hGuarded⟩

def watcher : List (Env × Event) :=
  [connects Env.plain 1 "watch",
    (Env.plain, .subscribe 1 (subscribeTo "watch".toList "a".toList 0))]

def refusedFrames : List (Env × Event) :=
  [connects bannedEnv 7 "meter"]

def supersededFrames : List (Env × Event) :=
  [connects Env.plain 7 "meter", connects Env.plain 8 "meter"]

def aliasDisconnectedFrames : List (Env × Event) :=
  [connects Env.plain 7 "meter", (Env.plain, .publish 7 { reading with topicAlias := some 0 })]

/-- Whether connection 7 has a session after the given frames, and how many frames its
publication puts into mailboxes while every client is banned. -/
def publishAfter (inputs : List (Env × Event)) : Option (Bool × Nat) :=
  (exec step (.start .new) inputs).bind fun result =>
    (step result.2 (bannedEnv, .publish 7 reading)).map fun next =>
      ((resolveSession result.2 7).isSome, next.2.routed.length)

/-- After `frames` a publication of connection 7 reaches a subscriber although every
client is banned. -/
def RoutedUnguarded (frames : List (Env × Event)) : Prop :=
  ∃ (run : List Handled) (last : Shared) (t : Handled),
    Run step (.start .new) run last ∧
      run.map (·.input) = frames ++ [(bannedEnv, .publish 7 reading)] ∧
      t ∈ run ∧ t.input = (bannedEnv, .publish 7 reading) ∧ t.output.routed ≠ [] ∧
      ¬ ∃ session topic, Guarded (t.before.withEnv bannedEnv) bannedEnv 7 reading session topic

theorem routedUnguarded_of_publishAfter {frames : List (Env × Event)}
    (hAfter : publishAfter frames = some (false, 1)) : RoutedUnguarded frames := by
  obtain ⟨⟨run, middle⟩, hExec, hRest⟩ := Option.bind_eq_some_iff.mp hAfter
  obtain ⟨⟨last, effects⟩, hStep, hResult⟩ := Option.map_eq_some_iff.mp hRest
  obtain ⟨hNone, hRouted⟩ := Prod.mk.inj hResult
  refine ⟨_, last, ⟨middle, _, effects, last⟩, (Run.of_exec hExec).snoc hStep, ?_,
    List.mem_append_right run List.mem_cons_self, rfl, ?_, ?_⟩
  · rw [List.map_append, inputs_of_exec hExec]
    rfl
  · grind
  · rintro ⟨session, topic, hGuarded⟩
    have hSome : resolveSession middle 7 = some session := hGuarded.resolved
    rw [hSome] at hNone
    cases hNone

/-- A refused, a superseded and an alias-disconnected connection all get a publication
routed while no check lets their client through. -/
theorem unboundPublish_routed :
    RoutedUnguarded (watcher ++ refusedFrames) ∧
      RoutedUnguarded (watcher ++ supersededFrames) ∧
      RoutedUnguarded (watcher ++ aliasDisconnectedFrames) :=
  ⟨routedUnguarded_of_publishAfter (by decide +kernel),
    routedUnguarded_of_publishAfter (by decide +kernel),
    routedUnguarded_of_publishAfter (by decide +kernel)⟩

end IndraMqtt.Kernel
