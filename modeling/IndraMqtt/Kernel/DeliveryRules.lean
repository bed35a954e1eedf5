import IndraMqtt.Kernel.Publish
import IndraMqtt.Session.PacketId

/-! What a fan-out does to the sessions, as a rule: a relation between session
managers that every single delivery keeps is kept by the whole pipeline, with its
rules and the routing of what it produced. -/
namespace IndraMqtt.Kernel

open Protocol Sessions Routing

variable {env : Env} {message : Ingress} {shared : Shared}

theorem Shared.route_conns (shared : Shared) (connId : Nat) (frame : OutFrame) :
    (shared.route connId frame).1 =
      { shared with conns := (shared.route connId frame).1.conns } := by
  unfold Shared.route
  cases shared.conns.get? connId with
  | none => rfl
  | some slot =>
    simp only
    split <;> rfl

theorem routeAll_conns (shared : Shared) (deliveries : List (Nat × OutFrame)) :
    (routeAll shared deliveries).1 =
      { shared with conns := (routeAll shared deliveries).1.conns } := by
  induction deliveries generalizing shared with
  | nil => rfl
  | cons delivery deliveries ih =>
    rw [routeAll]
    simp only
    rw [ih, shared.route_conns delivery.1 delivery.2]

theorem routeAll_sessions (shared : Shared) (deliveries : List (Nat × OutFrame)) :
    (routeAll shared deliveries).1.sessions = shared.sessions := by
  rw [routeAll_conns]

/-- The retained store is apart from everything else. -/
theorem storeRetained_retained (shared : Shared) (env : Env) (message : Ingress) :
    storeRetained shared env message =
      { shared with retained := (storeRetained shared env message).retained } := by
  unfold storeRetained
  simp only
  split
  · rfl
  · split
    · rfl
    · split <;> rfl

variable {session : Session} {sub : Subscription}
  {result : SessionManager × Option (Nat × OutFrame)}

theorem packetIdFor_moves {qos : QoS} {allocated : UInt16 × Session}
    (hAllocate : packetIdFor session qos = some allocated) :
    ∃ counter, allocated.2 = { session with nextPacketId := counter } := by
  unfold packetIdFor at hAllocate
  split at hAllocate
  · cases hAllocate
    exact ⟨_, rfl⟩
  · exact ⟨_, (Session.allocatePacketId_moves hAllocate).2⟩

theorem routeAll_subset (shared : Shared) (deliveries : List (Nat × OutFrame)) :
    (routeAll shared deliveries).2 ⊆ deliveries := by
  induction deliveries generalizing shared with
  | nil => exact List.Subset.refl []
  | cons delivery deliveries ih => grind [routeAll]

variable {sessions : SessionManager} {now : Nat}

/-- What a round of the fan-out does: nothing, a live delivery, an entry of the queue, or a frame
for a client without a session. -/
theorem deliver_cases (hDeliver : deliver sessions message now sub = some result) :
    let effective := QoS.min message.qos sub.qos
    let retain := sub.retainAsPublished && message.retain
    let found := sessions.sessions.get? { tenant := sub.tenant, clientId := sub.clientId }
    result = (sessions, none) ∨
      (∃ session connId delivered, found = some session ∧ session.connected = true ∧
        session.connId = some connId ∧
        v5EgressRefused session effective (Str.len message.topic.text) message.payload.length =
          false ∧
        deliverLive session message effective retain sub.subscriptionId = some delivered ∧
        result = (sessions.putSession delivered.1,
          delivered.2.map fun frame => (connId, frame))) ∨
      (∃ session, found = some session ∧ ¬ (session.connected = true ∧ session.connId.isSome) ∧
        result = (deliverDetached sessions session message effective retain now, none)) ∨
      (found = none ∧ ∃ out : PublishOut, out.qos = effective ∧ out.dup = false ∧
        result = (sessions, (encodePublishOut out).map fun frame => (sub.connId, frame))) := by
  intro effective retain found
  unfold deliver at hDeliver
  simp only at hDeliver
  split at hDeliver
  · exact Or.inl (Option.some.inj hDeliver).symm
  · split at hDeliver
    · next session hSession =>
      split at hDeliver
      · next connId hConnected hConn => grind [Option.map_eq_some_iff]
      · next hNotLive =>
        refine Or.inr (Or.inr (Or.inl ⟨session, hSession, ?_, (Option.some.inj hDeliver).symm⟩))
        simp_all [Option.isSome_iff_exists]
    · next hSession =>
      exact Or.inr (Or.inr (Or.inr ⟨hSession, _, rfl, rfl, (Option.some.inj hDeliver).symm⟩))

theorem stored_of_get? {key : SessionKey} (hGet : sessions.sessions.get? key = some session) :
    sessions.sessions.get? session.key = some session := by
  rwa [KeyedMap.key_of_get? hGet]

/-- Whatever a handler leaves, the sessions went by the relation. -/
def Keeps (T : SessionManager → SessionManager → Prop) {A : Type} (before : SessionManager)
    (handled : Option (Shared × A)) : Prop :=
  ∀ ⦃left⦄, handled = some left → T before left.1.sessions

namespace Keeps

variable {T : SessionManager → SessionManager → Prop} {A B : Type} {before : SessionManager}
  {handled : Option (Shared × A)}

theorem done {left : Shared × A} (hLeft : T before left.1.sessions) :
    Keeps T before (some left) := by
  rintro _ ⟨⟩
  exact hLeft

theorem after {checked : Option B} {next : B → Option (Shared × A)}
    (hNext : ∀ value, Keeps T before (next value)) : Keeps T before (checked.bind next) := by
  intro left hLeft
  obtain ⟨value, -, hValue⟩ := Option.bind_eq_some_iff.mp hLeft
  exact hNext value hValue

theorem map (hKeeps : Keeps T before handled) {finish : Shared × A → Shared × B}
    (hFinish : ∀ left, (finish left).1.sessions = left.1.sessions) :
    Keeps T before (handled.map finish) := by
  intro _ hLeft
  obtain ⟨left, hHandled, rfl⟩ := Option.map_eq_some_iff.mp hLeft
  rw [hFinish]
  exact hKeeps hHandled

end Keeps

/-- A relation between managers that is kept by the delivery of one message to one
session, live or not. -/
structure DeliveryRule (T : SessionManager → SessionManager → Prop) : Prop where
  refl : ∀ manager, T manager manager
  trans : ∀ first second third, T first second → T second third → T first third
  live : ∀ manager session message effective retain subscriptionId result,
    manager.sessions.get? session.key = some session → session.connected = true →
    session.connId.isSome →
    deliverLive session message effective retain subscriptionId = some result →
    T manager (manager.putSession result.1)
  detached : ∀ manager session message effective retain now,
    manager.sessions.get? session.key = some session →
    ¬ (session.connected = true ∧ session.connId.isSome) →
    T manager (deliverDetached manager session message effective retain now)

namespace DeliveryRule

variable {T : SessionManager → SessionManager → Prop} (hT : DeliveryRule T)
include hT

theorem deliver (hDeliver : deliver sessions message now sub = some result) :
    T sessions result.1 := by
  obtain rfl | ⟨session, connId, delivered, hFound, hConnected, hConn, -, hLive, rfl⟩ |
    ⟨session, hFound, hNotLive, rfl⟩ | ⟨-, out, -, -, rfl⟩ := deliver_cases hDeliver
  · exact hT.refl sessions
  · exact hT.live _ _ _ _ _ _ _ (stored_of_get? hFound) hConnected (by simp [hConn]) hLive
  · exact hT.detached _ _ _ _ _ _ (stored_of_get? hFound) hNotLive
  · exact hT.refl sessions

theorem deliverAll {subs : SubscriptionSet} {result : SessionManager × List (Nat × OutFrame)}
    (hDeliver : deliverAll message now sessions subs = some result) : T sessions result.1 := by
  induction subs generalizing sessions result with
  | nil =>
    cases hDeliver
    exact hT.refl sessions
  | cons sub subs ih =>
    obtain ⟨first, hFirst, hRest⟩ := Option.bind_eq_some_iff.mp hDeliver
    obtain ⟨rest, hTail, rfl⟩ := Option.map_eq_some_iff.mp hRest
    have hRest := ih hTail
    exact hT.trans _ _ _ (hT.deliver hFirst) hRest

/-- A handler that goes on from what another one left. -/
theorem bind {A B : Type} {before : SessionManager} {handled : Option (Shared × A)}
    (hKeeps : Keeps T before handled) {next : Shared × A → Option (Shared × B)}
    (hNext : ∀ left, Keeps T left.1.sessions (next left)) : Keeps T before (handled.bind next) := by
  intro last hLast
  obtain ⟨left, hHandled, hNextLast⟩ := Option.bind_eq_some_iff.mp hLast
  exact hT.trans _ _ _ (hKeeps hHandled) (hNext left hNextLast)

theorem buildDownlinkFrames : Keeps T shared.sessions (buildDownlinkFrames shared env message) := by
  intro _ hBuild
  obtain ⟨delivered, hDelivered, rfl⟩ := Option.map_eq_some_iff.mp hBuild
  exact hT.deliverAll hDelivered

theorem publishRuleOutputs {outputs : List RuleOutput} :
    Keeps T shared.sessions (publishRuleOutputs env shared outputs) := by
  induction outputs generalizing shared with
  | nil => exact .done (hT.refl _)
  | cons output outputs ih =>
    refine hT.bind (hT.buildDownlinkFrames.map ?_) fun _ => ih.map fun _ => rfl
    exact fun _ => routeAll_sessions _ _

theorem ingressPipeline : Keeps T shared.sessions (ingressPipeline shared env message) := by
  refine hT.bind (fun _ hRuled => ?_) fun _ => hT.buildDownlinkFrames.map fun _ => rfl
  have hRules := hT.publishRuleOutputs hRuled
  rwa [storeRetained_retained] at hRules

theorem release : Keeps T shared.sessions (release shared env message) :=
  hT.ingressPipeline.map fun _ => routeAll_sessions _ _

end DeliveryRule

end IndraMqtt.Kernel
