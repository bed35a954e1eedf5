import IndraMqtt.Kernel.FanOut

/-! Detaching connections: graceful unbind, ungraceful close with the last will,
the close that an invalid topic alias orders, and the loss of a transport. -/
namespace IndraMqtt.Kernel

open Protocol Sessions

namespace Shared

def sweep (shared : Shared) (filters : List TopicFilter) (clientId tenant : Str) : Shared :=
  { shared with
    router := filters.foldl
      (fun router filter => router.unsubscribeInTenant filter clientId tenant) shared.router }

/-- The unbind of one connection in the session manager and the router sweep of the
filters it returns. -/
def unbindAndSweep (shared : Shared) (env : Env) (key : SessionKey) (connId : Nat) : Shared :=
  let (sessions, swept) :=
    shared.sessions.unbindConnectionInTenant key.tenant key.clientId connId env.now
  sweep { shared with sessions } swept key.clientId key.tenant

def takeLastWill (shared : Shared) (key : SessionKey) (connId : Nat) : Shared :=
  match shared.sessions.sessions.get? key with
  | some session =>
    if session.connId == some connId then
      shared.putSession { session with lastWill := none }
    else shared
  | none => shared

end Shared

/-- The key under which a connection is detached: its index entry, or else the
client id that the frame names, in the default tenant. -/
def ownerOrNamed (shared : Shared) (connId : Nat) (clientId : Str) : SessionKey :=
  (shared.sessions.keyForConn connId).getD { tenant := Sessions.defaultTenantId, clientId }

/-- `apply_unbind` on a decoded frame. The will is dropped. -/
def applyUnbind (shared : Shared) (env : Env) (connId : Nat) (clientId : Option Str) : Shared :=
  let shared := match clientId with
    | some clientId =>
      let key := ownerOrNamed shared connId clientId
      (shared.takeLastWill key connId).unbindAndSweep env key connId
    | none => shared
  shared.unregister connId

def orderAliasDisconnect (shared : Shared) (env : Env) (connId : Nat) :
    Shared × List (Nat × OutFrame) :=
  let (shared, routed) := routeAll shared [(connId, .connClose 0x94)]
  match shared.sessions.keyForConn connId with
  | some key => (shared.unbindAndSweep env key connId, routed)
  | none =>
    match shared.sessions.clientIdForConn connId with
    | some clientId =>
      (shared.unbindAndSweep env { tenant := Sessions.defaultTenantId, clientId } connId,
        routed)
    | none => (shared, routed)

def isLocalUser (env : Env) (tenant : Str) (username : Option Str) : Bool :=
  match username with
  | none => false
  | some username =>
    ((env.tenants.get? (Auth.tenantKey tenant)).bind fun state =>
      state.users.get? username).isSome

/-- The authorisation of a publication, without the rate: ban, built-in rules,
database for users without a local record, webhook. The outer `none` is a panic
inside a rule's pattern. -/
def publishAllowed (env : Env) (tenant clientId : Str) (username peerhost : Option Str)
    (topic : Topic) : Option Bool :=
  if env.isBanned clientId username peerhost then some false
  else
    (Auth.authorizePublishInTenant env.tenants tenant clientId topic).map fun decision =>
      decision.isOk &&
        (match env.dbAuth with
          | some db =>
            isLocalUser env tenant username ||
              db.authorizePublish tenant (username.getD clientId) topic
          | none => true) &&
        match env.webhook with
        | some webhook => webhook.authorizePublish tenant clientId topic
        | none => true

/-- `apply_disconnect` on a decoded frame: the taken will is published once. -/
def applyDisconnect (shared : Shared) (env : Env) (connId : Nat) (clientId : Option Str) :
    Option (Shared × Effects) :=
  match clientId with
  | none => some (shared.unregister connId, .none)
  | some clientId =>
    let owner := (shared.sessions.sessionForConn connId).filter (·.clientId == clientId)
    match owner.or (shared.sessions.getInTenant Sessions.defaultTenantId clientId) with
    | none => some (shared.unregister connId, .none)
    | some session =>
      if session.connId != some connId then some (shared, .none)
      else
        let key := session.key
        let shared := (shared.takeLastWill key connId).unbindAndSweep env key connId
        let shared := shared.unregister connId
        match session.lastWill with
        | none => some (shared, .none)
        | some will =>
          (publishAllowed env session.tenantId clientId session.username session.peerhost
            will.topic).bind fun allowed =>
            if allowed then
              let message : Ingress :=
                { topic := will.topic, qos := will.qos, retain := will.retain,
                  payload := will.payload, publisher := some clientId,
                  tenant := session.tenantId, props := .empty }
              (ingressPipeline shared env message).map fun result =>
                let (shared, routed) := routeAll result.1 result.2.2
                (shared, ⟨[], result.2.1 ++ routed, [message]⟩)
            else some (shared, .none)

def detachAll (env : Env) (shared : Shared) : List (SessionKey × Nat) → Shared
  | [] => shared
  | (key, connId) :: bound =>
    detachAll env ((shared.unregister connId).unbindAndSweep env key connId) bound

end IndraMqtt.Kernel
