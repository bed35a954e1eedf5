import IndraMqtt.Kernel.Binding

/-! One session followed through the handlers. A session in good standing is carried
over when it is still there afterwards, still in good standing and related to what it
was. Unbinding carries durable sessions with state, and a CONNECT carries the unexpired
ones that it does not start anew. -/
namespace IndraMqtt.Kernel

open Protocol Sessions
open SessionManager (Bound Resumed Stateless detached released unbindConnectionInTenant_unbinds)

/-- The session under the key is carried over, as long as the managers meet `Inv`. -/
def Carries (Inv : SessionManager → Prop) (good : Session → Prop) (R : Session → Session → Prop)
    (key : SessionKey) (before after : SessionManager) : Prop :=
  Inv before → Inv after ∧ ∀ session, before.sessions.get? key = some session → good session →
    ∃ session', after.sessions.get? key = some session' ∧ good session' ∧ R session session'

namespace Carries

variable {Inv : SessionManager → Prop} {good : Session → Prop} {R : Session → Session → Prop}
  {key : SessionKey}

theorem trans (hTrans : ∀ first second third, R first second → R second third → R first third)
    {first second third : SessionManager} (hFirst : Carries Inv good R key first second)
    (hSecond : Carries Inv good R key second third) : Carries Inv good R key first third := by
  intro hInv
  obtain ⟨hMiddle, hCarried⟩ := hFirst hInv
  obtain ⟨hLast, hCarried'⟩ := hSecond hMiddle
  grind

theorem of_sessions (hRefl : ∀ session, R session session) {before after : SessionManager}
    (hInv : Inv before → Inv after) (hSessions : after.sessions = before.sessions) :
    Carries Inv good R key before after := by
  intro hBefore
  simp_all

variable {manager : SessionManager} {connId : Nat}

theorem putSession (hRefl : ∀ session, R session session) {session session' : Session}
    (hInv : Inv manager → Inv (manager.putSession session'))
    (hStored : manager.sessions.get? session.key = some session)
    (hKey : session'.key = session.key)
    (hCarried : session.key = key → good session → good session' ∧ R session session') :
    Carries Inv good R key manager (manager.putSession session') := by
  intro hBefore
  refine ⟨hInv hBefore, ?_⟩
  intro found hGet hGood
  show ∃ session'', (manager.sessions.put session').get? key = some session'' ∧ _
  grind

theorem unbind (hRefl : ∀ session, R session session) {tenant clientId : Str} {now : Nat}
    (hInv : Inv manager → Inv (manager.unbindConnectionInTenant tenant clientId connId now).1)
    (hState : ∀ session, good session → ¬ Stateless session)
    (hCarried : ∀ session, good session → session.connId = some connId →
      good (detached session now) ∧ R session (detached session now))
    : Carries Inv good R key manager
      (manager.unbindConnectionInTenant tenant clientId connId now).1 := by
  intro hBefore
  refine ⟨hInv hBefore, ?_⟩
  intro session hGet hGood
  have hLeft : good (released { tenant, clientId } connId now key session) ∧
      R session (released { tenant, clientId } connId now key session) := by
    grind [released]
  obtain hKept | hLapsed :=
    (unbindConnectionInTenant_unbinds manager tenant clientId connId now).kept key session hGet
  · exact ⟨_, hKept, hLeft⟩
  · exact absurd hLapsed.1 (hState _ hLeft.1)

/-- The accepting part of a CONNECT. -/
theorem accept (hRefl : ∀ session, R session session) {shared : Shared} {env : Env}
    {req : BindRequest} {identity : Identity} {will : Option StoredWill}
    (hInv : Inv shared.sessions →
      Bound shared.sessions ∧ Inv (acceptBind shared env connId req identity will).1.sessions)
    (hResumes : requestKey env req identity = key → req.cleanStart = false)
    (hState : ∀ session, good session →
      ¬ Stateless session ∧ session.sessionExpired env.now = false)
    (hCarried : requestKey env req identity = key → ∀ session session', good session →
      Resumed session session' →
        good (acceptedSession shared env connId req identity will session') ∧
          R session (acceptedSession shared env connId req identity will session')) :
    Carries Inv good R key shared.sessions
      (acceptBind shared env connId req identity will).1.sessions := by
  intro hBefore
  obtain ⟨hBound, hAfter⟩ := hInv hBefore
  refine ⟨hAfter, ?_⟩
  intro found hGet hGood
  obtain ⟨hLaden, hUnexpired⟩ := hState found hGood
  obtain ⟨⟨resolved, hResolves⟩, hRebinds⟩ := acceptBind_rebinds hBound env connId req identity will
  by_cases hOwner : key = requestKey env req identity
  · rw [hOwner, hRebinds.self]
    rw [hOwner] at hGet
    obtain ⟨existing, hExisting, -, -, hResumed⟩ | ⟨-, -, hClean | hExpired⟩ := hResolves.origin
    · grind
    · rw [hResumes hOwner.symm] at hClean
      cases hClean
    · rw [hExpired found hGet] at hUnexpired
      cases hUnexpired
  · obtain hKept | hGone | hExpired := hRebinds.kept key found hOwner hGet
    · exact ⟨found, hKept, hGood, hRefl found⟩
    · exact absurd hGone hLaden
    · rw [hExpired.2] at hUnexpired
      cases hUnexpired

end Carries

end IndraMqtt.Kernel
