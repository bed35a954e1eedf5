import IndraMqtt.Kernel.Lifecycle

/-! Last wills over whole runs. A death notice publishes the will that the last accepted
CONNECT of the client registered, on the connection that still owns the session, and once.
Connections that end in another way than by such a notice lose their will. -/
namespace IndraMqtt.Kernel

open Protocol Sessions Runs
open SessionManager (Bound)

variable {session : Session} {will : StoredWill}

/-! ### Death notices -/

def notice : Event → Option (Nat × Str)
  | .disconnect connId (some clientId) => some (connId, clientId)
  | .unbind connId (some clientId) true => some (connId, clientId)
  | _ => none

def isCleanUnbind (connId : Nat) : Event → Bool
  | .unbind sender (some _) false => sender == connId
  | _ => false

def noticeSession (shared : Shared) (connId : Nat) (clientId : Str) : Option Session :=
  ((shared.sessions.sessionForConn connId).filter (·.clientId == clientId)).or
    (shared.sessions.getInTenant Sessions.defaultTenantId clientId)

variable {shared : Shared} {connId : Nat} {key : SessionKey} {t : Handled}

variable {clientId : Str} {front : List Handled}

theorem noticeSession_stored (hSession : noticeSession shared connId clientId = some session) :
    shared.sessions.sessions.get? session.key = some session ∧ session.clientId = clientId := by
  rw [noticeSession, Option.or_eq_some_iff] at hSession
  obtain hOwner | ⟨-, hNamed⟩ := hSession
  · grind [Option.filter_eq_some_iff, sessionForConn_stored]
  · exact ⟨stored_of_get? hNamed, congrArg SessionKey.clientId (KeyedMap.key_of_get? hNamed)⟩

def willMessage (session : Session) (will : StoredWill) : Ingress :=
  { topic := will.topic, qos := will.qos, retain := will.retain, payload := will.payload
    publisher := some session.clientId, tenant := session.tenantId, props := .empty }

/-- The checks that a will passes like any publication of its client. -/
def willAllowed (env : Env) (session : Session) (will : StoredWill) : Option Bool :=
  publishAllowed env session.tenantId session.clientId session.username session.peerhost will.topic

/-- The node after a notice took the will and unbound the connection. -/
def afterNotice (shared : Shared) (env : Env) (key : SessionKey) (connId : Nat) : Shared :=
  ((shared.takeLastWill key connId).unbindAndSweep env key connId).unregister connId

section Notice

variable {shared : Shared} {env : Env} {connId : Nat} {clientId : Str} {result : Shared × Effects}
  (hDisconnect : applyDisconnect shared env connId (some clientId) = some result)
include hDisconnect

theorem notice_silent (hStale : ∀ session, noticeSession shared connId clientId = some session →
      session.connId ≠ some connId) : result.2.ingress = [] := by
  simp only [applyDisconnect] at hDisconnect
  cases hSession : noticeSession shared connId clientId with
  | none =>
    rw [noticeSession] at hSession
    rw [hSession] at hDisconnect
    cases hDisconnect
    rfl
  | some session =>
    have hNe : (session.connId != some connId) = true := by simpa using hStale session hSession
    rw [noticeSession] at hSession
    rw [hSession] at hDisconnect
    simp only [hNe, if_true] at hDisconnect
    cases hDisconnect
    rfl

theorem notice_takes (hSession : noticeSession shared connId clientId = some session)
    (hConn : session.connId = some connId) :
    (session.lastWill = none ∧ result = (afterNotice shared env session.key connId, .none)) ∨
      ∃ will allowed, session.lastWill = some will ∧
        willAllowed env session will = some allowed ∧
        if allowed then
          ∃ piped, ingressPipeline (afterNotice shared env session.key connId) env
              (willMessage session will) = some piped ∧
            result.1.sessions = piped.1.sessions ∧
            result.2.ingress = [willMessage session will]
        else result = (afterNotice shared env session.key connId, .none) := by
  obtain ⟨-, rfl⟩ := noticeSession_stored hSession
  rw [noticeSession] at hSession
  simp only [applyDisconnect] at hDisconnect
  rw [hSession] at hDisconnect
  simp only [hConn, bne_self_eq_false, Bool.false_eq_true, if_false] at hDisconnect
  cases hWill : session.lastWill with
  | none =>
    rw [hWill] at hDisconnect
    exact Or.inl ⟨rfl, (Option.some.inj hDisconnect).symm⟩
  | some will =>
    rw [hWill] at hDisconnect
    obtain ⟨allowed, hAllowed, hRest⟩ := Option.bind_eq_some_iff.mp hDisconnect
    refine Or.inr ⟨will, allowed, rfl, hAllowed, ?_⟩
    cases allowed with
    | false => exact (Option.some.inj hRest).symm
    | true =>
      obtain ⟨piped, hPiped, rfl⟩ := Option.map_eq_some_iff.mp hRest
      exact ⟨piped, hPiped, routeAll_sessions _ _, rfl⟩

end Notice

theorem notice_step (hStep : t.IsStep step) (hNotice : notice t.input.2 = some (connId, clientId)) :
    applyDisconnect (t.before.withEnv t.input.1) t.input.1 connId (some clientId) =
      some (t.after, t.output) := by
  obtain ⟨before, ⟨env, event⟩, effects, after⟩ := t
  unfold notice at hNotice
  split at hNotice
  · next sender named hEvent =>
    cases hNotice
    simp only at hEvent
    subst hEvent
    exact hStep
  · next sender named hEvent =>
    cases hNotice
    simp only at hEvent
    subst hEvent
    exact hStep
  · cases hNotice

/-! ### Publications of a will -/

/-- The frame is a death notice that publishes the will of the session. -/
def fires (key : SessionKey) (t : Handled) : Bool :=
  (notice t.input.2).any fun named => !t.output.ingress.isEmpty &&
    (noticeSession t.before named.1 named.2).any (·.key == key)

section Step

variable {t : Handled} {key : SessionKey} (hBound : Bound t.before.sessions)
  (hStep : t.IsStep step)
include hBound hStep

/-- A will is published by a notice of the connection that the session is bound to, and the
session is not bound to it any more afterwards. -/
theorem fires_spec (hFires : fires key t = true) :
    ∃ session connId will, notice t.input.2 = some (connId, key.clientId) ∧
      t.before.sessions.sessions.get? key = some session ∧ session.connId = some connId ∧
      session.lastWill = some will ∧ t.output.ingress = [willMessage session will] ∧
      ∀ session', t.after.sessions.sessions.get? key = some session' →
        session'.connId ≠ some connId := by
  obtain ⟨⟨connId, clientId⟩, hNotice, hRest⟩ := (Option.any_eq_true _ _).mp hFires
  obtain ⟨hSome, hKey⟩ := Bool.and_eq_true_iff.mp hRest
  obtain ⟨session, hSession, hOwn⟩ := (Option.any_eq_true _ _).mp hKey
  have hPublished : t.output.ingress ≠ [] := by simpa using hSome
  obtain ⟨hGet, rfl⟩ := noticeSession_stored hSession
  obtain rfl : session.key = key := beq_iff_eq.mp hOwn
  have hDisconnect := notice_step hStep hNotice
  have hConn : session.connId = some connId := by
    by_contra hStale
    refine hPublished (notice_silent hDisconnect ?_)
    intro found hFound
    cases hSession.symm.trans hFound
    exact hStale
  refine ⟨session, connId, ?_⟩
  obtain ⟨-, hNone⟩ | ⟨will, allowed, hWill, -, hAllowed⟩ :=
    notice_takes hDisconnect hSession hConn
  · exact absurd (congrArg (fun result => result.2.ingress) hNone) hPublished
  · cases allowed with
    | false => exact absurd (congrArg (fun result => result.2.ingress) hAllowed) hPublished
    | true =>
      obtain ⟨piped, hPiped, hSessions, hIngress⟩ := hAllowed
      refine ⟨will, hNotice, hGet, hConn, hWill, hIngress, ?_⟩
      intro session' hGet' hConn'
      have hLeft : Bound (afterNotice (t.before.withEnv t.input.1) t.input.1 session.key
          connId).sessions :=
        (keepsBound_unbind t.input.1).takeAndUnbind trivial _ session.key
          (keepsBound_quiet.withEnv t.before t.input.1 hBound)
      obtain ⟨-, hOld⟩ := (descends_views session.key).quiet.ingressPipeline hPiped hLeft
      simp only at hSessions
      rw [hSessions] at hGet'
      obtain ⟨left, hLeftGet, hOutlives⟩ := hOld session' hGet'
      exact unbound_connId hLeftGet (hOutlives.bound hConn')

omit hBound in
theorem cleanUnbind_connId (hClean : isCleanUnbind connId t.input.2 = true)
    (hEntry : t.before.sessions.connIndex.get? connId = some key) {session' : Session}
    (hGet' : t.after.sessions.sessions.get? key = some session') :
    session'.connId ≠ some connId := by
  obtain ⟨before, ⟨env, event⟩, effects, after⟩ := t
  unfold isCleanUnbind at hClean
  split at hClean
  · next sender named hEvent =>
    simp only at hEvent
    subst hEvent
    obtain rfl : sender = connId := beq_iff_eq.mp hClean
    have hAfter : applyUnbind (before.withEnv env) env sender (some named) = after :=
      congrArg Prod.fst (Option.some.inj hStep)
    have hOwner : ownerOrNamed (before.withEnv env) sender named = key := by
      show (before.sessions.connIndex.get? sender).getD _ = key
      rw [hEntry]
      rfl
    rw [← hAfter] at hGet'
    simp only [applyUnbind, hOwner] at hGet'
    exact unbound_connId hGet'
  · cases hClean

end Step

/-- The frame is a CONNECT of another client on the connection that the session is bound to.
Both transports close a connection that sends a second CONNECT. -/
def sharesConnection (key : SessionKey) (t : Handled) : Bool :=
  (connectOf t).any fun connect => connect.key != key &&
    (t.before.sessions.sessions.get? key).any (·.connId == some connect.connId)

theorem connId_ne_of_not_shares (hAlone : sharesConnection key t = false) {connect : Connect}
    (hConnect : connectOf t = some connect) (hOther : connect.key ≠ key)
    (hGet : t.before.sessions.sessions.get? key = some session) :
    session.connId ≠ some connect.connId := by
  simpa [sharesConnection, hConnect, hOther, hGet] using hAlone

/-- An accepted CONNECT of the client registered the will on the connection. Since then no
other CONNECT of the client was accepted, no will of it was published, and the connection
did not unbind cleanly. -/
def Registered (key : SessionKey) (connId : Nat) (will : StoredWill) (front : List Handled) :
    Prop :=
  ∃ earlier t between connect, front = earlier ++ t :: between ∧ connectOf t = some connect ∧
    connect.key = key ∧ connect.connId = connId ∧ connect.will = some will ∧
    ∀ v ∈ between, (∀ other, connectOf v = some other → other.key ≠ key) ∧
      fires key v = false ∧ isCleanUnbind connId v.input.2 = false

/-- A stored will of a bound session is registered. -/
def Armed (key : SessionKey) (front : List Handled) (shared : Shared) : Prop :=
  ∀ session connId will, shared.sessions.sessions.get? key = some session →
    session.connId = some connId → session.lastWill = some will →
      Registered key connId will front

theorem Registered.snoc (hRegistered : Registered key connId will front)
    (hOther : ∀ connect, connectOf t = some connect → connect.key ≠ key)
    (hFires : fires key t = false) (hClean : isCleanUnbind connId t.input.2 = false) :
    Registered key connId will (front ++ [t]) := by
  obtain ⟨earlier, first, between, connect, rfl, hConnect, hKey, hConn, hWill, hBetween⟩ :=
    hRegistered
  refine ⟨earlier, first, between ++ [t], connect, ?_, hConnect, hKey, hConn, hWill, ?_⟩
  · rw [List.append_assoc, List.cons_append]
  · grind

theorem armed_step (hBound : Bound t.before.sessions) (hIndexed : Indexed key t.before.sessions)
    (hStep : t.IsStep step) (hArmed : Armed key front t.before) :
    Armed key (front ++ [t]) t.after := by
  intro session' connId will hGet' hConn' hWill'
  by_cases hOwn : ∃ connect, connectOf t = some connect ∧ connect.key = key
  · obtain ⟨connect, hConnect, rfl⟩ := hOwn
    obtain ⟨session, hGet, hConn, hWill, -⟩ := connect_step hBound hStep hConnect
    cases hGet.symm.trans hGet'
    exact ⟨front, t, [], connect, rfl, hConnect, rfl, Option.some.inj (hConn.symm.trans hConn'),
      hWill.symm.trans hWill', fun _ hMem => nomatch hMem⟩
  · push Not at hOwn
    obtain ⟨session, hGet, hOutlives⟩ := descends_step hBound hStep hOwn hGet'
    have hConn := hOutlives.bound hConn'
    refine (hArmed session connId will hGet hConn (by grind [hOutlives.lastWill])).snoc hOwn ?_ ?_
    -- A publication or a clean unbind would have left the session without the connection.
    · grind [fires_spec]
    · rw [Bool.eq_false_iff]
      intro hClean
      exact cleanUnbind_connId hStep hClean (hIndexed session connId hGet hConn) hGet' hConn'

variable {sessions : SessionManager}

theorem Booted.indexed (hBooted : Booted sessions) (key : SessionKey) : Indexed key sessions := by
  intro session connId hGet hConn
  rw [(hBooted.detached key session hGet).1] at hConn
  cases hConn

def willRequest (clientId : String) : BindRequest :=
  { plainRequest clientId.toList with
    will := some { topic := "a".toList, qos := 0, retain := false, payload := [42] } }

def connectsWithWill (connId : Nat) (clientId : String) : Env × Event :=
  (Env.plain, .bind connId (.ok (willRequest clientId)) false)

def diesOn (connId : Nat) (clientId : String) : Env × Event :=
  (Env.plain, .disconnect connId (some clientId.toList))

/-- The frame ends the connection of the client: it may unbind it, or it is an accepted
CONNECT of the client on another one. -/
def ends (key : SessionKey) (connId : Nat) (t : Handled) : Bool :=
  t.input.2.unbinds (t.before.withEnv t.input.1) connId ||
    (connectOf t).any fun connect => connect.key == key && connect.connId != connId

/-- The frame ends a connection with a stored will, and is neither its clean unbind nor a
death notice of its client on it. -/
def endsUnnoticed (key : SessionKey) (t : Handled) : Bool :=
  (t.before.sessions.sessions.get? key).any fun session =>
    session.connId.any fun connId => session.lastWill.isSome && ends key connId t &&
      !isCleanUnbind connId t.input.2 && notice t.input.2 != some (connId, key.clientId)

def HoldsWill (key : SessionKey) (connId : Nat) (will : StoredWill) (shared : Shared) : Prop :=
  ∃ session, shared.sessions.sessions.get? key = some session ∧
    session.connId = some connId ∧ session.lastWill = some will

theorem holdsWill_step (hBound : Bound t.before.sessions)
    (hStep : t.IsStep step) (hEnds : ends key connId t = false)
    (hOther : ∀ connect, connectOf t = some connect → connect.key ≠ key)
    (hHolds : HoldsWill key connId will t.before) : HoldsWill key connId will t.after := by
  obtain ⟨session, hGet, hConn, hWill⟩ := hHolds
  obtain ⟨hUnbinds, -⟩ := Bool.or_eq_false_iff.mp hEnds
  obtain ⟨session', hGet', hConn', hWill'⟩ :=
    staysBound_step hBound hStep hGet hConn hOther hUnbinds
  exact ⟨session', hGet', hConn', hWill'.trans hWill⟩

/-- The will of the session is published by the frame, unless the checks of a publication
refuse it. -/
def WillPublished (session : Session) (will : StoredWill) (t : Handled) : Prop :=
  t.output.ingress = [willMessage session will] ∨
    willAllowed t.input.1 session will = some false

theorem willPublished_of_notice (hStep : t.IsStep step)
    (hNotice : notice t.input.2 = some (connId, key.clientId))
    (hEntry : t.before.sessions.connIndex.get? connId = some key)
    (hGet : t.before.sessions.sessions.get? key = some session)
    (hConn : session.connId = some connId) (hWill : session.lastWill = some will) :
    WillPublished session will t := by
  have hSession : noticeSession (t.before.withEnv t.input.1) connId key.clientId = some session := by
    have hClient : session.clientId = key.clientId :=
      congrArg SessionKey.clientId (KeyedMap.key_of_get? hGet)
    simp_all [SessionManager.sessionForConn, noticeSession, Shared.withEnv]
  obtain ⟨hNone, -⟩ | ⟨found, allowed, hFound, hAllowed, hOutcome⟩ :=
    notice_takes (notice_step hStep hNotice) hSession hConn
  · rw [hWill] at hNone
    cases hNone
  · cases hWill.symm.trans hFound
    cases allowed with
    | false => exact Or.inr hAllowed
    | true =>
      obtain ⟨piped, -, -, hIngress⟩ := hOutcome
      exact Or.inl hIngress

/-- In every run where connections with a will end by their clean unbind or by a death notice
of their client, an accepted connection with a will that ends without a clean unbind has its
will published by the frame that ends it. -/
theorem will_published_at_end (hBooted : Booted sessions)
    {earlier between back : List Handled} {t u : Handled} {last : Shared}
    (hRun : Run step (.start sessions) (earlier ++ t :: (between ++ u :: back)) last)
    (key : SessionKey) (hNoticed : ∀ v ∈ earlier ++ t :: (between ++ u :: back),
      endsUnnoticed key v = false ∧ sharesConnection key v = false) {connect : Connect}
    {will : StoredWill} (hConnect : connectOf t = some connect) (hKey : connect.key = key)
    (hWill : connect.will = some will) (hOpen : ∀ v ∈ between, ends key connect.connId v = false ∧
      ∀ other, connectOf v = some other → other.key ≠ key)
    (hEnds : ends key connect.connId u = true)
    (hUnclean : isCleanUnbind connect.connId u.input.2 = false) :
    ∃ session, u.before.sessions.sessions.get? key = some session ∧
      session.connId = some connect.connId ∧ WillPublished session will u := by
  obtain ⟨hFront, hConnectStep⟩ := hRun.before
  obtain ⟨hBetween, hEndStep⟩ := hRun.after.before
  have hIndexedStep : ∀ v ∈ earlier ++ t :: (between ++ u :: back), Bound v.before.sessions →
      step v.before v.input = some (v.after, v.output) → Indexed key v.before.sessions →
        Indexed key v.after.sessions := by grind [indexed_step, connId_ne_of_not_shares]
  have hStart : Bound t.before.sessions ∧ Indexed key t.before.sessions := by
    refine hFront.history (P := fun _ shared => Bound shared.sessions ∧
      Indexed key shared.sessions) ⟨hBooted.bound, hBooted.indexed key⟩ ?_
    grind [bound_step]
  have hRegistered : HoldsWill key connect.connId will t.after := by
    obtain ⟨session, hGet, hConn, hLast, -⟩ := connect_step hStart.1 hConnectStep hConnect
    rw [hKey] at hGet
    exact ⟨session, hGet, hConn, hLast.trans hWill⟩
  have hEnd : Bound u.before.sessions ∧ Indexed key u.before.sessions ∧
      HoldsWill key connect.connId will u.before := by
    refine hBetween.history (P := fun _ shared => Bound shared.sessions ∧
      Indexed key shared.sessions ∧ HoldsWill key connect.connId will shared) ?_ ?_
    · grind [bound_step]
    · grind [bound_step, holdsWill_step]
  obtain ⟨-, hIndexed, session, hGet, hConn, hLast⟩ := hEnd
  have hNotice : notice u.input.2 = some (connect.connId, key.clientId) := by
    have hHeard := (hNoticed u (by simp)).1
    simpa [endsUnnoticed, hGet, hConn, hLast, hEnds, hUnclean] using hHeard
  exact ⟨session, hGet, hConn, willPublished_of_notice hEndStep hNotice
    (hIndexed session connect.connId hGet hConn) hGet hConn hLast⟩

/-- The socket of connection 7 is lost, and its notice publishes the will. -/
theorem lost_socket_published :
    ∃ (t u : Handled) (last : Shared) (session : Session) (will : StoredWill),
      Run step (.start .new) [t, u] last ∧ t.input = connectsWithWill 7 "meter" ∧
      u.input = diesOn 7 "meter" ∧ WillPublished session will u := by
  have hFacts : (step (.start .new) (connectsWithWill 7 "meter")).bind (fun first =>
      (step first.1 (diesOn 7 "meter")).bind fun second =>
        let t : Handled := ⟨.start .new, connectsWithWill 7 "meter", first.2, first.1⟩
        let u : Handled := ⟨first.1, diesOn 7 "meter", second.2, second.1⟩
        (connectOf t).bind fun connect => connect.will.map fun _ =>
          ([t, u].all fun v => !endsUnnoticed meter v && !sharesConnection meter v,
            connect.key == meter, ends meter connect.connId u)) = some (true, true, true) := by
    decide +kernel
  obtain ⟨⟨middle, first⟩, hFirst, hRest⟩ := Option.bind_eq_some_iff.mp hFacts
  obtain ⟨⟨last, second⟩, hSecond, hRest⟩ := Option.bind_eq_some_iff.mp hRest
  obtain ⟨connect, hConnect, hRest⟩ := Option.bind_eq_some_iff.mp hRest
  obtain ⟨will, hWill, hResult⟩ := Option.map_eq_some_iff.mp hRest
  obtain ⟨hAll, hRest⟩ := Prod.mk.inj hResult
  obtain ⟨hKey, hEnds⟩ := Prod.mk.inj hRest
  have hRun : Run step (.start .new)
      ([] ++ ⟨.start .new, connectsWithWill 7 "meter", first, middle⟩ ::
        ([] ++ ⟨middle, diesOn 7 "meter", second, last⟩ :: [])) last :=
    .cons hFirst (.cons hSecond (.nil last))
  obtain ⟨session, -, -, hPublished⟩ := will_published_at_end booted_new hRun meter
    (fun v hMem => by simpa using List.all_eq_true.mp hAll v hMem) hConnect
    (beq_iff_eq.mp hKey) hWill (fun _ hMem => nomatch hMem) hEnds rfl
  exact ⟨_, _, last, session, will, hRun, rfl, rfl, hPublished⟩

/-- A frame that ends connection 7 of `meter`, is not its clean unbind, and finds a will that
the checks allow. -/
def endsWithWill (u : Handled) : Bool :=
  ends meter 7 u && !isCleanUnbind 7 u.input.2 &&
    (u.before.sessions.sessions.get? meter).any fun session => session.connId == some 7 &&
      session.lastWill.any fun will => willAllowed u.input.1 session will == some true

/-- Connection 7 of `meter` ends with a will, and no frame publishes anything. -/
def SilentEnd (frames : List (Env × Event)) : Prop :=
  ∃ (run : List Handled) (last : Shared), Run step (.start .new) run last ∧
    run.map (·.input) = frames ∧ (∃ u ∈ run, endsWithWill u = true) ∧
    ∀ v ∈ run, v.output.ingress = []

def aliasClose : List (Env × Event) :=
  [connectsWithWill 7 "meter", (Env.plain, .publish 7 { reading with topicAlias := some 0 }),
    diesOn 7 "meter"]

def takenOver : List (Env × Event) :=
  [connectsWithWill 7 "meter", connects Env.plain 8 "meter", diesOn 7 "meter"]

/-- The will is not published after a close for an alias error or after a takeover, not even
by a later notice of the connection. -/
theorem closed_and_superseded_wills_lost : SilentEnd aliasClose ∧ SilentEnd takenOver :=
  ⟨Run.exists_of_exec _ (by decide +kernel), Run.exists_of_exec _ (by decide +kernel)⟩

end IndraMqtt.Kernel
