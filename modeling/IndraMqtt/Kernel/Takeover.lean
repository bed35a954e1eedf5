import IndraMqtt.Kernel.Lifecycle

/-! How many connections a client has open. A connection of the client is open from an
accepted CONNECT until the kernel learns of its end or orders its close. When no CONNECT
finds the client live on another connection there is at most one. The kernel does not
close the other one itself. -/
namespace IndraMqtt.Kernel

open Sessions Runs
open SessionManager (Bound)

variable {t : Handled}

def isConnClose : OutFrame → Bool
  | .connClose _ => true
  | _ => false

/-- The frame ends the connection: it may unbind it, its mailbox is gone, or a close order
for it is routed. -/
def closes (connId : Nat) (t : Handled) : Bool :=
  t.input.2.unbinds (t.before.withEnv t.input.1) connId ||
    (match t.input.2 with
      | .mailboxClosed closed => closed == connId
      | _ => false) ||
    t.output.routed.any fun delivery => delivery.1 == connId && isConnClose delivery.2

def opens (key : SessionKey) (connId : Nat) (t : Handled) : Bool :=
  (connectOf t).any fun connect => connect.key == key && connect.connId == connId

def isOpen (key : SessionKey) (connId : Nat) (run : List Handled) : Bool :=
  run.foldl (fun wasOpen t => opens key connId t || (wasOpen && !closes connId t)) false

theorem isOpen_snoc (key : SessionKey) (connId : Nat) (front : List Handled) (t : Handled) :
    isOpen key connId (front ++ [t]) =
      (opens key connId t || (isOpen key connId front && !closes connId t)) := by
  rw [isOpen, List.foldl_append]
  rfl

def takesOver (t : Handled) : Bool :=
  (connectOf t).any fun connect =>
    (t.before.sessions.sessions.get? connect.key).any fun session =>
      session.connId.any (· != connect.connId)

/-- Every open connection is the one that the client's session is bound to. -/
def OpenBound (run : List Handled) (shared : Shared) : Prop :=
  ∀ key connId, isOpen key connId run = true →
    ∃ session, shared.sessions.sessions.get? key = some session ∧ session.connId = some connId

theorem openBound_step {front : List Handled} (hBound : Bound t.before.sessions)
    (hStep : t.IsStep step) (hTakes : takesOver t = false)
    (hOpen : OpenBound front t.before) : OpenBound (front ++ [t]) t.after := by
  intro key connId hIsOpen
  rw [isOpen_snoc, Bool.or_eq_true] at hIsOpen
  by_cases hOpens : opens key connId t = true
  · grind [opens, Option.any_eq_true, connect_step]
  · obtain ⟨hWasOpen, hCloses⟩ := Bool.and_eq_true_iff.mp (hIsOpen.resolve_left hOpens)
    obtain ⟨session, hGet, hConn⟩ := hOpen key connId hWasOpen
    -- A CONNECT of this client would have to be on the very same connection.
    grind [takesOver, opens, closes, staysBound_step]

/-- In every run without a takeover a client has at most one open connection in every state. -/
theorem one_open_connection {sessions : SessionManager} (hBooted : Booted sessions)
    {run : List Handled} {last : Shared} (hRun : Run step (.start sessions) run last)
    (hTakes : ∀ t ∈ run, takesOver t = false) (key : SessionKey) (connId connId' : Nat)
    (hOpen : isOpen key connId run = true) (hOpen' : isOpen key connId' run = true) :
    connId = connId' := by
  have hAll : Bound last.sessions ∧ OpenBound run last := by
    refine hRun.history (P := fun run shared => Bound shared.sessions ∧ OpenBound run shared)
      ⟨hBooted.bound, fun _ _ hNone => nomatch hNone⟩ ?_
    grind [bound_step, openBound_step]
  obtain ⟨session, hGet, hConn⟩ := hAll.2 key connId hOpen
  obtain ⟨session', hGet', hConn'⟩ := hAll.2 key connId' hOpen'
  rw [hGet] at hGet'
  cases hGet'
  exact Option.some.inj (hConn.symm.trans hConn')

/-- `meter` leaves connection 7 before it comes back on connection 8. -/
theorem reconnected_one_open :
    ∃ (run : List Handled) (last : Shared), Run step (.start .new) run last ∧
      run.map (·.input) = [connects Env.plain 7 "meter",
        (Env.plain, .unbind 7 (some "meter".toList) false), connects Env.plain 8 "meter"] ∧
      isOpen meter 8 run = true ∧ ∀ connId, isOpen meter connId run = true → 8 = connId := by
  obtain ⟨⟨run, last⟩, hExec, hTakes, hOpen⟩ : ∃ result ∈ exec step (.start .new)
      [connects Env.plain 7 "meter", (Env.plain, .unbind 7 (some "meter".toList) false),
        connects Env.plain 8 "meter"],
      (∀ t ∈ result.1, takesOver t = false) ∧ isOpen meter 8 result.1 = true := by decide +kernel
  have hRun := Run.of_exec hExec
  exact ⟨run, last, hRun, inputs_of_exec hExec, hOpen, fun connId hOther =>
    one_open_connection booted_new hRun hTakes meter 8 connId hOpen hOther⟩

/-- After a takeover both connections of `meter` are open. -/
theorem takeover_leaves_both_open :
    ∃ (run : List Handled) (last : Shared), Run step (.start .new) run last ∧
      run.map (·.input) = [connects Env.plain 7 "meter", connects Env.plain 8 "meter"] ∧
      isOpen meter 7 run = true ∧ isOpen meter 8 run = true :=
  Run.exists_of_exec _ (by decide +kernel)

end IndraMqtt.Kernel
