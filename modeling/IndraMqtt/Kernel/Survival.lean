import IndraMqtt.Kernel.Lifecycle

/-! What decides whether a session survives a disconnect. The version and the expiry are
those of its latest CONNECT. The clean-start flag is the one that the session was created
with. -/
namespace IndraMqtt.Kernel

open Sessions Runs
open SessionManager (Bound detached)

variable {t : Handled} {key : SessionKey}

def Terms.dropsState (terms : Terms) : Bool :=
  if terms.protocolVersion == 5 then terms.sessionExpiry == defaultSessionExpirySecs
  else terms.cleanStart

theorem dropsStateAtDisconnect_eq (session : Session) :
    session.dropsStateAtDisconnect = (terms session).dropsState := rfl

/-- A CONNECT asks for a session that survives the disconnect: version 5 by an expiry,
version 4 by a clear clean-session flag. -/
def BindRequest.survives (req : BindRequest) : Bool :=
  if req.protocolVersion == 5 then req.sessionExpiry != defaultSessionExpirySecs
  else !req.cleanStart

def latestConnect (key : SessionKey) (run : List Handled) : Option Connect :=
  (run.filterMap connectOf).reverse.find? (·.key = key)

variable {run : List Handled} {connect : Connect}

/-- The frame is a version 4 CONNECT without clean session that resumes a session with the
clean-start flag. -/
def resumesClean (t : Handled) : Bool :=
  (connectOf t).any fun connect =>
    connect.request.protocolVersion != 5 && !connect.request.cleanStart &&
      (t.before.sessions.sessions.get? connect.key).any fun session =>
        !session.sessionExpired t.input.1.now && session.cleanStart

/-- A bound session has had a CONNECT, and its terms are what the latest one asked for. -/
def Decided (key : SessionKey) (run : List Handled) (shared : Shared) : Prop :=
  ∀ session, shared.sessions.sessions.get? key = some session →
    match latestConnect key run with
    | none => session.connId = none
    | some connect => session.dropsStateAtDisconnect = !connect.request.survives

theorem decided_step {front : List Handled} (hBound : Bound t.before.sessions)
    (hStep : t.IsStep step) (hClean : resumesClean t = false)
    (hDecided : Decided key front t.before) : Decided key (front ++ [t]) t.after := by
  intro session' hGet'
  by_cases hOwn : ∃ connect, connectOf t = some connect ∧ connect.key = key
  · obtain ⟨connect, hConnect, rfl⟩ := hOwn
    rw [show latestConnect connect.key (front ++ [t]) = some connect by simp [latestConnect, hConnect]]
    show session'.dropsStateAtDisconnect = _
    rw [dropsStateAtDisconnect_eq, connect_terms hBound hStep hConnect hGet']
    grind [settled, Terms.dropsState, BindRequest.survives, resumesClean]
  · have hOther : ∀ connect, connectOf t = some connect → connect.key ≠ key := by
      intro connect hConnect hKey
      exact hOwn ⟨connect, hConnect, hKey⟩
    obtain ⟨session, hGet, hOutlives⟩ := descends_step hBound hStep hOther hGet'
    have hBefore := hDecided session hGet
    rw [show latestConnect key (front ++ [t]) = latestConnect key front by grind [latestConnect]]
    cases hLatest : latestConnect key front with
    | none =>
      rw [hLatest] at hBefore
      cases hConn : session'.connId with
      | none => rfl
      | some connId => grind [Outlives.bound]
    | some connect =>
      rw [hLatest] at hBefore
      show session'.dropsStateAtDisconnect = _
      rw [dropsStateAtDisconnect_eq, hOutlives.terms]
      exact hBefore

/-- The session has left its connection with its whole state. -/
def Survived (session session' : Session) (now : Nat) : Prop :=
  session' =
    { session with
      connId := none
      connected := false
      inboundAliases := ∅
      outboundAliases := ∅
      endedAtMs := some now }

/-- The session has left its connection without its state. -/
structure Emptied (session' : Session) : Prop where
  subscriptions : session'.subscriptions = ∅
  inflight : session'.inflight = []
  inflightSpill : session'.inflightSpill = []
  qos2Inbound : session'.qos2Inbound = ∅
  qos2Outbound : session'.qos2Outbound = []

theorem emptied_detached {session : Session} (hDrops : session.dropsStateAtDisconnect = true)
    (now : Nat) : Emptied (detached session now) := by
  have hDetached : ({ session with connId := none, connected := false } :
      Session).clearAliases.dropsStateAtDisconnect = true := hDrops
  constructor <;> simp only [detached, hDetached, if_true] <;> rfl

/-- In every run without a CONNECT that resumes a clean session, the latest CONNECT of a
bound session decides what its disconnect leaves of it. -/
theorem latest_connect_decides {sessions : SessionManager} (hBooted : Booted sessions)
    {run : List Handled} {last : Shared} (hRun : Run step (.start sessions) run last)
    (hClean : ∀ t ∈ run, resumesClean t = false) (key : SessionKey) {session : Session}
    {connId : Nat} (hGet : last.sessions.sessions.get? key = some session)
    (hConn : session.connId = some connId) (now : Nat) :
    ∃ connect session', latestConnect key run = some connect ∧
      (last.sessions.unbindConnectionInTenant key.tenant key.clientId connId
        now).1.sessions.get? key = some session' ∧
      if connect.request.survives then Survived session session' now else Emptied session' := by
  have hAll : Bound last.sessions ∧ Decided key run last := by
    refine hRun.history (P := fun run shared => Bound shared.sessions ∧ Decided key run shared)
      ⟨hBooted.bound, fun session hGet => (hBooted.detached key session hGet).1⟩ ?_
    grind [bound_step, decided_step]
  have hDecided := hAll.2 session hGet
  cases hLatest : latestConnect key run with
  | none => simp_all
  | some connect =>
    rw [hLatest] at hDecided
    have hDrops : session.dropsStateAtDisconnect = !connect.request.survives := hDecided
    refine ⟨connect, detached session now, rfl,
      SessionManager.unbindConnectionInTenant_get? hGet hConn now, ?_⟩
    cases hSurvives : connect.request.survives with
    | true =>
      rw [hSurvives] at hDrops
      exact SessionManager.detached_of_durable hDrops now
    | false =>
      rw [hSurvives] at hDrops
      exact emptied_detached hDrops now

def subscribes (connId : Nat) : Env × Event :=
  (Env.plain, .subscribe connId (subscribeTo "meter".toList "a".toList 1))

/-- `meter` keeps its subscription when it asks for a durable session. -/
theorem durable_meter_survives :
    ∃ (run : List Handled) (last : Shared) (session session' : Session),
      Run step (.start .new) run last ∧
      run.map (·.input) = [connects Env.plain 7 "meter", subscribes 7] ∧
      session.subscriptions.keys ≠ [] ∧
      (last.sessions.unbindConnectionInTenant meter.tenant meter.clientId 7
        0).1.sessions.get? meter = some session' ∧ Survived session session' 0 := by
  obtain ⟨⟨run, last⟩, hExec, hClean, session, hGet, hConn, hKeys, latest, hLatest, hSurvives⟩ :
      ∃ result ∈ exec step (.start .new) [connects Env.plain 7 "meter", subscribes 7],
        (∀ t ∈ result.1, resumesClean t = false) ∧
        ∃ session ∈ result.2.sessions.sessions.get? meter, session.connId = some 7 ∧
          session.subscriptions.keys ≠ [] ∧
          ∃ connect ∈ latestConnect meter result.1, connect.request.survives = true := by
    decide +kernel
  have hRun := Run.of_exec hExec
  obtain ⟨connect, session', hLatest', hGet', hLeft⟩ :=
    latest_connect_decides booted_new hRun hClean meter hGet hConn 0
  obtain rfl : latest = connect := Option.some.inj (hLatest.symm.trans hLatest')
  rw [hSurvives, if_pos rfl] at hLeft
  exact ⟨run, last, session, session', hRun, inputs_of_exec hExec, hKeys, hGet', hLeft⟩

def connectsClean (connId : Nat) : Env × Event :=
  (Env.plain, .bind connId (.ok { plainRequest "meter".toList with cleanStart := true }) false)

/-- `meter` comes back for a durable session after a clean one, and still loses its
subscription at the disconnect. -/
theorem resumed_clean_emptied :
    ∃ (run : List Handled) (last : Shared) (connect : Connect) (session session' : Session),
      Run step (.start .new) run last ∧
      run.map (·.input) = [connectsClean 7, (Env.plain, .unbind 7 (some "meter".toList) false),
        connects Env.plain 8 "meter", subscribes 8] ∧
      latestConnect meter run = some connect ∧ connect.request.survives = true ∧
      last.sessions.sessions.get? meter = some session ∧ session.connId = some 8 ∧
      session.subscriptions.keys ≠ [] ∧
      (last.sessions.unbindConnectionInTenant meter.tenant meter.clientId 8
        0).1.sessions.get? meter = some session' ∧ Emptied session' := by
  obtain ⟨⟨run, last⟩, hExec, session, hGet, hConn, hKeys, hDrops, connect, hLatest, hAsked⟩ :
      ∃ result ∈ exec step (.start .new) [connectsClean 7,
        (Env.plain, .unbind 7 (some "meter".toList) false), connects Env.plain 8 "meter",
          subscribes 8],
        ∃ session ∈ result.2.sessions.sessions.get? meter, session.connId = some 8 ∧
          session.subscriptions.keys ≠ [] ∧ session.dropsStateAtDisconnect = true ∧
          ∃ connect ∈ latestConnect meter result.1, connect.request.survives = true := by
    decide +kernel
  exact ⟨run, last, connect, session, detached session 0, Run.of_exec hExec, inputs_of_exec hExec,
    hLatest, hAsked, hGet, hConn, hKeys, SessionManager.unbindConnectionInTenant_get? hGet hConn 0,
    emptied_detached hDrops 0⟩

end IndraMqtt.Kernel
