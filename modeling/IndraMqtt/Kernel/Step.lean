import IndraMqtt.Kernel.Subscribe
import IndraMqtt.Lib.Runs

/-! One step of the kernel: a frame from some connection, the loss of a transport,
a closed mailbox, or a message that enters the pipeline from elsewhere. Frames
are handled one after the other. -/
namespace IndraMqtt.Kernel

open Protocol Sessions Runs

inductive Event where
  | bind (connId : Nat) (parsed : Except String BindRequest) (looksV5 : Bool)
  | subscribe (connId : Nat) (subscribe : SubscribeIn)
  | publish (connId : Nat) (publish : PublishIn)
  | puback (connId : Nat) (packetId : UInt16)
  | pubrec (connId : Nat) (packetId : UInt16)
  | pubrel (connId : Nat) (packetId : UInt16)
  | pubcomp (connId : Nat) (packetId : UInt16)
  | disconnect (connId : Nat) (clientId : Option Str)
  | unbind (connId : Nat) (clientId : Option Str) (withWill : Bool)
  | transportLost (bound : List (SessionKey × Nat))
  | mailboxClosed (connId : Nat)
  | ingress (message : Ingress)

def closeMailbox (shared : Shared) (connId : Nat) : Shared :=
  match shared.conns.get? connId with
  | some _ => { shared with conns := shared.conns.set connId ⟨false⟩ }
  | none => shared

/-- `handle_inbound_frame_with` and the other entry points of the kernel. An unbind that
asks for the will is handled like a disconnect. There is no result when the code
panics or does not return. -/
def step (shared : Shared) (input : Env × Event) : Option (Shared × Effects) :=
  let env := input.1
  let shared := shared.withEnv env
  match input.2 with
  | .bind connId parsed looksV5 => handleBind shared env connId parsed looksV5
  | .subscribe connId subscribe => applySubscribe shared env connId subscribe
  | .publish connId publish => applyPublish shared env connId publish
  | .puback connId packetId => some (applyPuback shared connId packetId, .none)
  | .pubrec connId packetId => some (applyQos2Pubrec shared connId packetId)
  | .pubrel connId packetId => applyQos2Pubrel shared env connId packetId
  | .pubcomp connId packetId => some (applyQos2Pubcomp shared connId packetId, .none)
  | .disconnect connId clientId => applyDisconnect shared env connId clientId
  | .unbind connId clientId withWill =>
    if withWill then applyDisconnect shared env connId clientId
    else some (applyUnbind shared env connId clientId, .none)
  | .transportLost bound => some (detachAll env shared bound, .none)
  | .mailboxClosed connId => some (closeMailbox shared connId, .none)
  | .ingress message => release shared env message

def connects (env : Env) (connId : Nat) (clientId : String) : Env × Event :=
  (env, .bind connId (.ok (plainRequest clientId.toList)) false)

def reading : PublishIn :=
  { topic := "a".toList, packetId := 0, qos := 0, retain := false, topicAlias := none,
    props := .empty, payload := [42] }

abbrev Handled := Transition Shared (Env × Event) Effects

/-- A session manager before any connection: no session is bound to one. Sessions
may have been restored from their queue files. -/
structure Booted (sessions : SessionManager) : Prop where
  index : ∀ connId, sessions.connIndex.get? connId = none
  detached : ∀ key session, sessions.sessions.get? key = some session →
    session.connId = none ∧ session.connected = false

theorem booted_new : Booted SessionManager.new where
  index _ := rfl
  detached _ _ hGet := nomatch hGet

def Reachable (shared : Shared) : Prop :=
  ∃ sessions run, Booted sessions ∧ Run step (.start sessions) run shared

end IndraMqtt.Kernel
