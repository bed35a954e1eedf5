import IndraMqtt.Edge.Pipelining

/-! The bind frames of one connection. A CONNECT sends the first one, `resend_bind` repeats it to a
replacement core during the handshake, and `start_rebind` binds an established session to a new
core. Each of the three is built from other saved data: the theorem compares every repeated bind
with the last first bind before it, over every run of a connection. -/
namespace IndraMqtt.Edge

variable {conn : Conn (Option Pending)} {frame : LinkFrame} {frames : List LinkFrame}
  {process : Process}

/-! ### Agreement -/

def LinkFrame.firstBind (frame : LinkFrame) : Option (BindInfo (List UInt8)) :=
  match frame.body with
  | .bind .first info => some info
  | _ => none

def lastFirst (frames : List LinkFrame) : Option (BindInfo (List UInt8)) :=
  (frames.filterMap LinkFrame.firstBind).getLast?

/-- What a repeated bind shares with the first one, the clean-start flag apart. -/
structure SameClient (first info : BindInfo (List UInt8)) : Prop where
  clientId : info.clientId = first.clientId
  will : info.will = first.will

structure SameCredentials (first info : BindInfo (List UInt8)) : Prop extends
    SameClient first info where
  username : info.username = first.username
  password : info.password = first.password

def Agrees (before : List LinkFrame) : LinkBody → Prop
  | .bind .first _ => True
  | .bind .resend info =>
    ∃ first, lastFirst before = some first ∧ SameCredentials first info ∧ info.cleanStart = false
  | .bind .rebind info =>
    ∃ first, lastFirst before = some first ∧ SameClient first info ∧ info.cleanStart = false
  | .request _ _ _ => True

def Agreed (frames : List LinkFrame) : Prop :=
  ∀ before frame after, frames = before ++ frame :: after → Agrees before frame.body

theorem Agreed.snoc (hAgreed : Agreed frames) (hAgrees : Agrees frames frame.body) :
    Agreed (frames ++ [frame]) := by
  intro before found after hSplit
  cases List.eq_nil_or_concat after with
  | inl hNil => simp_all
  | inr hConcat =>
    obtain ⟨after, last, rfl⟩ := hConcat
    rw [List.concat_eq_append, ← List.cons_append, ← List.append_assoc] at hSplit
    exact hAgreed before found after (List.append_inj' hSplit rfl).1

theorem Agreed.send_first (hAgreed : Agreed conn.frames) (info : BindInfo (List UInt8)) :
    Agreed (conn.send (.bind .first info)).frames :=
  Agreed.snoc hAgreed trivial

theorem lastFirst_snoc_other (hOther : frame.firstBind = none) :
    lastFirst (frames ++ [frame]) = lastFirst frames := by
  simp [lastFirst, hOther]

variable {next : List LinkFrame} {pending : Pending}

/-- Requests neither break the agreement nor change what it refers to. -/
theorem Agreed.addsRequests (hAdds : AddsRequests frames next) (hAgreed : Agreed frames) :
    Agreed next ∧ lastFirst next = lastFirst frames := by
  obtain ⟨new, rfl, hNew⟩ := hAdds
  induction new using List.reverseRecOn with
  | nil =>
    rw [List.append_nil]
    exact ⟨hAgreed, rfl⟩
  | append_singleton new frame ih =>
    have hBefore := ih fun found hFound => hNew found (List.mem_append_left _ hFound)
    have hRequest : frame.isRequest = true := hNew frame (by simp)
    obtain ⟨broker, seq, body⟩ := frame
    cases body with
    | request opcode metadata payload =>
      rw [← List.append_assoc, lastFirst_snoc_other rfl]
      exact ⟨hBefore.1.snoc trivial, hBefore.2⟩
    | bind kind info => cases hRequest

/-! ### The invariant -/

def Pending.AnnouncedIn (pending : Pending) (frames : List LinkFrame) : Prop :=
  ∃ first, lastFirst frames = some first ∧
    ∀ cleanStart peer cert, SameCredentials first (pending.bindInfo cleanStart peer cert)

def Session.AnnouncedIn (session : Session) (frames : List LinkFrame) : Prop :=
  ∃ first, lastFirst frames = some first ∧
    session.clientId = first.clientId ∧ session.will = first.will

/-- The invariant of a connection. -/
structure Process.Coherent (process : Process) : Prop where
  agreed : Agreed process.frames
  pending : ∀ pending ∈ process.pending, pending.AnnouncedIn process.frames
  session : ∀ session ∈ process.session, session.AnnouncedIn process.frames

theorem FirstBind.announcedIn {info : BindInfo (List UInt8)} (hFirst : FirstBind pending info)
    (frames : List LinkFrame) (broker seq : Nat) :
    pending.AnnouncedIn (frames ++ [{ broker, seq, body := .bind .first info }]) := by
  obtain ⟨cleanStart, peer, cert, rfl⟩ := hFirst
  refine ⟨pending.bindInfo cleanStart peer cert, by simp [lastFirst, LinkFrame.firstBind], ?_⟩
  intro _ _ _
  exact { clientId := rfl, will := rfl, username := rfl, password := rfl }

/-- The events of a bound session keep the agreement. -/
theorem coherent_of_carries {conn : Conn Session} (hCarries : process.Carries conn)
    (hAgreed : Agreed conn.frames) (hSession : conn.state.AnnouncedIn conn.frames) :
    process.Coherent := by
  obtain ⟨hNext, hLast⟩ := hAgreed.addsRequests hCarries.frames
  constructor
  · exact hNext
  · simp [hCarries.pending]
  · intro session hFound
    obtain ⟨first, hFirst, hClient, hWill⟩ := hSession
    refine ⟨first, hLast.trans hFirst, ?_, ?_⟩
    · exact (hCarries.clientId session hFound).trans hClient
    · exact (hCarries.will session hFound).trans hWill

/-- A rebind repeats the client id and the will of the session. -/
theorem coherent_of_rebinds {conn next : Conn Session} (hRebinds : Rebinds conn next)
    (hAgreed : Agreed conn.frames) (hSession : conn.state.AnnouncedIn conn.frames) :
    (Process.awaitCore next).Coherent := by
  obtain ⟨first, hFirst, hClient, hWill⟩ := hSession
  have hFrames : Agreed next.frames ∧ lastFirst next.frames = lastFirst conn.frames := by
    rcases hRebinds.frames with hSame | ⟨broker, seq, peer, cert, hSent⟩
    · rw [hSame]
      exact ⟨hAgreed, rfl⟩
    · rw [hSent]
      refine ⟨hAgreed.snoc ⟨first, hFirst, ⟨hClient, hWill⟩, rfl⟩, ?_⟩
      exact lastFirst_snoc_other rfl
  constructor
  · exact hFrames.1
  · simp [Process.pending]
  · intro session hFound
    cases hFound
    refine ⟨first, hFrames.2.trans hFirst, ?_, ?_⟩
    · exact hRebinds.clientId.trans hClient
    · exact hRebinds.will.trans hWill

theorem coherent_of_boundSteps {conn : Conn Session} (hSteps : BoundSteps conn process)
    (hAgreed : Agreed conn.frames) (hSession : conn.state.AnnouncedIn conn.frames) :
    process.Coherent := by
  cases hSteps with
  | follows hCarries => exact coherent_of_carries hCarries hAgreed hSession
  | rebinds hRebinds => exact coherent_of_rebinds hRebinds hAgreed hSession

/-- The announcement of a core during the handshake repeats what is pending. -/
theorem coherent_of_resends {next : Conn (Option Pending)} (hResends : Resends conn next)
    (hCoherent : (Process.awaitConnect conn).Coherent) : (Process.awaitConnect next).Coherent := by
  have hFrames : Agreed next.frames ∧ lastFirst next.frames = lastFirst conn.frames := by
    rcases hResends.frames with hSame | ⟨pending, broker, seq, peer, cert, hPending, hSent⟩
    · rw [hSame]
      exact ⟨hCoherent.agreed, rfl⟩
    · obtain ⟨first, hFirst, hSame⟩ := hCoherent.pending pending hPending
      rw [hSent]
      refine ⟨hCoherent.agreed.snoc ⟨first, hFirst, hSame false peer cert, rfl⟩, ?_⟩
      exact lastFirst_snoc_other rfl
  constructor
  · exact hFrames.1
  · intro pending hFound
    have hBefore : conn.state = some pending := hResends.state.symm.trans hFound
    obtain ⟨first, hFirst, hSame⟩ := hCoherent.pending pending hBefore
    exact ⟨first, hFrames.2.trans hFirst, hSame⟩
  · simp [Process.session]

theorem coherent_ended (hAgreed : Agreed frames) (cause : Option StopCause)
    (writes : List (List UInt8)) : (Process.ended cause frames writes).Coherent :=
  ⟨hAgreed, by simp [Process.pending], by simp [Process.session]⟩

theorem coherent_of_awaitSteps (hSteps : AwaitSteps conn process)
    (hCoherent : (Process.awaitConnect conn).Coherent) : process.Coherent := by
  cases hSteps with
  | ended cause writes => exact coherent_ended hCoherent.agreed cause writes
  | waits hResends => exact coherent_of_resends hResends hCoherent
  | unsent cause writes hFirst =>
    exact coherent_ended (Agreed.send_first hCoherent.agreed _) cause writes
  | binds hFirst hFrames hState =>
    constructor
    · rw [Process.frames, hFrames]
      exact Agreed.send_first hCoherent.agreed _
    · intro pending hFound
      rw [Process.pending, hState] at hFound
      cases hFound
      rw [Process.frames, hFrames]
      exact hFirst.announcedIn _ _ _
    · simp [Process.session]
  | bound hPending hFrames hClient hWill hCarries =>
    obtain ⟨first, hFirst, hSame⟩ := hCoherent.pending _ hPending
    have hKept := hSame false none none
    apply coherent_of_carries hCarries
    · rw [hFrames]
      exact hCoherent.agreed
    · rw [hFrames]
      exact ⟨first, hFirst, hClient.trans hKept.clientId, hWill.trans hKept.will⟩

/-! ### Runs -/

theorem handleEvent_coherent (env : Env) (hCoherent : process.Coherent) (event : Event) :
    (handleEvent env process event).Coherent := by
  cases process with
  | awaitConnect conn => exact coherent_of_awaitSteps (stepAwaitConnect_steps env event conn) hCoherent
  | connected conn =>
    have hSession := hCoherent.session conn.state rfl
    exact coherent_of_boundSteps (stepConnected_steps env event conn) hCoherent.agreed hSession
  | awaitCore conn =>
    have hSession := hCoherent.session conn.state rfl
    exact coherent_of_boundSteps (stepAwaitCore_steps env event conn) hCoherent.agreed hSession
  | ended cause frames writes => exact hCoherent

theorem run_coherent (env : Env) (events : List Event) (hCoherent : process.Coherent) :
    (run env events process).Coherent := by
  induction events generalizing process with
  | nil => exact hCoherent
  | cons event events ih => exact ih (handleEvent_coherent env hCoherent event)

/-- In every run of a connection, a bind that is sent again during the handshake carries the client
id, the credentials and the will of the first bind, a bind of an established session carries its
client id and will, and neither asks for a clean start. -/
theorem repeated_binds_agree (env : Env) (connId : Nat) (shards : List Nat)
    (identity : Option (List UInt8)) (events : List Event) :
    Agreed (run env events (.awaitConnect (.init connId shards identity))).frames := by
  refine (run_coherent env events ⟨?_, ?_, ?_⟩).agreed
  · intro before frame after hSplit
    simp [Process.frames, Conn.init] at hSplit
  · simp [Process.pending, Conn.init]
  · simp [Process.session]

def connectAsU : List UInt8 :=
  [0x10, 19, 0, 4, 0x4D, 0x51, 0x54, 0x54, 4, 0xC2, 0, 60, 0, 1, 0x61, 0, 1, 0x75, 0, 1, 0x70]

structure BindFlags where
  kind : BindKind
  cleanStart : Bool
  username : Option (List UInt8)
  password : Option (List UInt8)
  deriving DecidableEq

def LinkFrame.bindFlags (frame : LinkFrame) : Option BindFlags :=
  match frame.body with
  | .bind kind info => some ⟨kind, info.cleanStart, info.username, info.password⟩
  | .request _ _ _ => none

/-- A core is replaced during the handshake, and again after the binding: the second bind drops the
clean start, the third one the credentials as well. -/
theorem repeated_binds_differ :
    (run .steady [.tcp connectAsU, .brokerUp 2 false none, .brokerFrame .sessionBinding boundMeta,
        .brokerUp 3 false none] (.awaitConnect (.init 0 [1] none))).frames.map LinkFrame.bindFlags =
      [some ⟨.first, true, some [0x75], some [0x70]⟩,
        some ⟨.resend, false, some [0x75], some [0x70]⟩, some ⟨.rebind, false, none, none⟩] := by
  decide +kernel

end IndraMqtt.Edge
