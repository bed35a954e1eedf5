import IndraMqtt.Kernel.DeliveryRules
import IndraMqtt.Kernel.Step

/-! What the kernel does to sessions apart from binding and detaching them. Such a
quiet change leaves a session the fields that say whose it is, which connection it
is bound to and for whom, when it ends, its last will, what its client can receive and
which QoS 2 publications it took. A relation between managers that single quiet changes keep is
kept by the handlers built from them. -/
namespace IndraMqtt.Kernel

open Protocol Sessions
open Option (map_eq_some_iff bind_eq_some_iff)

variable {env : Env} {connId : Nat} {key : Option SessionKey} {replay : QueueReplay}
  {session session' : Session} {after before : SessionManager} {shared : Shared}
  {result : Shared × Effects} {clientId tenant : Str} {packetId : UInt16}

/-- The fields of a session that quiet changes leave alone. -/
structure BindingView where
  clientId : Str
  tenantId : Str
  cleanStart : Bool
  connected : Bool
  connId : Option Nat
  username : Option Str
  protocolVersion : Nat
  sessionExpiry : Nat
  endedAtMs : Option Nat
  lastWill : Option StoredWill
  clientReceiveMax : Nat
  qos2Inbound : Dict UInt16 Qos2InboundEntry

def view (session : Session) : BindingView where
  clientId := session.clientId
  tenantId := session.tenantId
  cleanStart := session.cleanStart
  connected := session.connected
  connId := session.connId
  username := session.username
  protocolVersion := session.protocolVersion
  sessionExpiry := session.sessionExpiry
  endedAtMs := session.endedAtMs
  lastWill := session.lastWill
  clientReceiveMax := session.clientReceiveMax
  qos2Inbound := session.qos2Inbound

theorem key_of_view (hView : view session' = view session) : session'.key = session.key := by
  simp_all [view, Session.key]

/-- A change of one session that leaves its binding, its will, its queue and its QoS 2 stores
alone. -/
def Minor (session session' : Session) : Prop :=
  session' =
    { session with
      inflight := session'.inflight
      inflightSpill := session'.inflightSpill
      spillCount := session'.spillCount
      inboundAliases := session'.inboundAliases
      outboundAliases := session'.outboundAliases
      subscriptions := session'.subscriptions
      nextPacketId := session'.nextPacketId }

theorem Minor.view (hMinor : Minor session session') : view session' = view session := by
  rw [hMinor]
  rfl

theorem minor_trackInflightOrSpill (session : Session) (message : InflightMessage) :
    Minor session (session.trackInflightOrSpill message).1 := by
  unfold Session.trackInflightOrSpill
  split
  · rfl
  · split <;> rfl

theorem minor_outboundAlias (session : Session) (topic : Topic) :
    Minor session (outboundAlias session topic).1 := by
  unfold outboundAlias
  split
  · rfl
  · split <;> rfl

theorem minor_ackInflightTimed (session : Session) (packetId : UInt16) :
    Minor session (session.ackInflightTimed packetId).1 := by
  unfold Session.ackInflightTimed
  split
  · simp only
    split
    · rfl
    · split <;> rfl
  · split <;> rfl

theorem minor_packetIdFor {qos : QoS} {allocated : UInt16 × Session}
    (hAllocate : packetIdFor session qos = some allocated) : Minor session allocated.2 := by
  obtain ⟨counter, hMoved⟩ := packetIdFor_moves hAllocate
  rw [hMoved]
  rfl

theorem view_trackQos2Outbound (session : Session) (entry : Qos2OutboundEntry) :
    view (session.trackQos2Outbound entry).1 = view session := by
  unfold Session.trackQos2Outbound
  split <;> rfl

theorem view_pushOfflineWithLimit (session : Session) (store : OfflineQueueStore)
    (message : QueuedMessage) (limit : Option Nat) (now : Nat) :
    view (session.pushOfflineWithLimit store message limit now).1 = view session := by
  unfold Session.pushOfflineWithLimit
  simp only
  split
  · split
    · split <;> rfl
    · rfl
  · rfl

theorem view_trackDelivery (session : Session) (message : Ingress) (effective : QoS)
    (retain : Bool) (packetId : UInt16) :
    view (trackDelivery session message effective retain packetId) = view session := by
  cases effective with
  | atMostOnce => rfl
  | atLeastOnce => exact (minor_trackInflightOrSpill _ _).view
  | exactlyOnce => exact view_trackQos2Outbound _ _

theorem view_deliverLive {message : Ingress} {effective : QoS} {retain : Bool}
    {subscriptionId : Nat} {result : Session × Option OutFrame}
    (hLive : deliverLive session message effective retain subscriptionId = some result) :
    view result.1 = view session := by
  obtain ⟨allocated, hAllocate, rfl⟩ := map_eq_some_iff.mp hLive
  exact (minor_outboundAlias _ _).view.trans
    ((view_trackDelivery _ _ _ _ _).trans (minor_packetIdFor hAllocate).view)

/-! ### Lookups -/

theorem sessionForConn_stored {sessions : SessionManager}
    (hOwner : sessions.sessionForConn connId = some session) :
    sessions.sessions.get? session.key = some session := by
  obtain ⟨key, -, hGet⟩ := bind_eq_some_iff.mp hOwner
  exact stored_of_get? hGet

theorem resolveSession_stored (hResolve : resolveSession shared connId = some session) :
    shared.sessions.sessions.get? session.key = some session := by
  rw [resolveSession, Option.or_eq_some_iff] at hResolve
  obtain hOwner | ⟨-, hNamed⟩ := hResolve
  · exact sessionForConn_stored hOwner
  · obtain ⟨clientId, -, hGet⟩ := bind_eq_some_iff.mp hNamed
    exact stored_of_get? hGet

theorem replayTarget_stored (hTarget : replayTarget shared connId clientId = some session) :
    shared.sessions.sessions.get? session.key = some session := by
  rw [replayTarget, Option.or_eq_some_iff] at hTarget
  obtain hOwner | ⟨-, hNamed⟩ := hTarget
  · obtain ⟨hOwner, -⟩ := Option.filter_eq_some_iff.mp hOwner
    exact sessionForConn_stored hOwner
  · exact stored_of_get? hNamed

/-! ### Frames -/

def CountsOnly (before after : SessionManager) : Prop :=
  ∃ counts, after = { before with connCounts := counts }

theorem CountsOnly.release (hOnly : CountsOnly before after) (tenant username : Str) :
    CountsOnly before (after.releaseConnectionSlotInTenant tenant username) := by
  obtain ⟨counts, rfl⟩ := hOnly
  unfold SessionManager.releaseConnectionSlotInTenant
  split
  · exact ⟨counts, rfl⟩
  · exact ⟨_, rfl⟩

theorem CountsOnly.acquire (hOnly : CountsOnly before after) (tenant username : Str)
    (cap : Option Nat) :
    CountsOnly before (after.acquireConnectionSlotInTenant tenant username cap).1 := by
  obtain ⟨counts, rfl⟩ := hOnly
  unfold SessionManager.acquireConnectionSlotInTenant
  cases cap with
  | none => exact ⟨counts, rfl⟩
  | some cap =>
    simp only
    split
    · exact ⟨counts, rfl⟩
    · exact ⟨_, rfl⟩

theorem countsOnly_admitConnection (sessions : SessionManager) (env : Env) (req : BindRequest)
    (identity : Identity) : CountsOnly sessions (admitConnection sessions env req identity).1 := by
  have hSame : CountsOnly sessions sessions := ⟨sessions.connCounts, rfl⟩
  grind [admitConnection, CountsOnly.release, CountsOnly.acquire]

def replayEntry (queued : QueuedMessage) (packetId : UInt16) : Qos2OutboundEntry :=
  { packetId, topic := queued.topic, retain := queued.retain, payload := queued.payload,
    recReceived := false }

def replayTracked (session : Session) (queued : QueuedMessage) (packetId : UInt16) : Session :=
  if queued.qos == .exactlyOnce && packetId != 0 then
    (session.trackQos2Outbound (replayEntry queued packetId)).1
  else session

/-- One round of the drain loop: the message stays unrouted, or it reached the mailbox. -/
theorem replayQueue_cons {queued : QueuedMessage} {rest : List QueuedMessage}
    (hReplay : replayQueue connId shared session (queued :: rest) = some replay) :
    ∃ allocated, packetIdFor session queued.qos = some allocated ∧
      ((∃ shared' replay', shared'.sessions = shared.sessions ∧
          replayQueue connId shared' allocated.2 rest = some replay' ∧
          replay = { replay' with unrouted := queued :: replay'.unrouted }) ∨
        ∃ shared' frame replay', shared'.sessions = shared.sessions ∧
          queuedFrame queued allocated.1 = some frame ∧
          replayQueue connId shared' (replayTracked allocated.2 queued allocated.1) rest =
            some replay' ∧
          replay = { replay' with routed := (connId, frame) :: replay'.routed }) := by
  obtain ⟨allocated, hAllocate, hRest⟩ := bind_eq_some_iff.mp hReplay
  refine ⟨allocated, hAllocate, ?_⟩
  cases hFrame : queuedFrame queued allocated.1 with
  | none => grind [map_eq_some_iff]
  | some frame =>
    have hRoute := congrArg Shared.sessions (shared.route_conns connId frame)
    simp only [hFrame] at hRest
    split at hRest
    · obtain ⟨replay', hReplay', rfl⟩ := map_eq_some_iff.mp hRest
      exact Or.inr ⟨_, frame, replay', hRoute, rfl, hReplay', rfl⟩
    · grind [map_eq_some_iff]

variable {queue : List QueuedMessage} {grant : GrantedSub} {entry : Qos2InboundEntry}

theorem replayQueue_sessions (hReplay : replayQueue connId shared session queue = some replay) :
    replay.shared.sessions = shared.sessions := by
  induction queue generalizing shared session replay with
  | nil =>
    cases hReplay
    rfl
  | cons queued rest ih => grind [replayQueue_cons]

theorem view_replayQueue (hReplay : replayQueue connId shared session queue = some replay) :
    view replay.session = view session := by
  induction queue generalizing shared session replay with
  | nil =>
    cases hReplay
    rfl
  | cons queued rest ih =>
    obtain ⟨allocated, hAllocate, hRound⟩ := replayQueue_cons hReplay
    have hView := (minor_packetIdFor hAllocate).view
    grind [replayTracked, view_trackQos2Outbound]

/-- A relation between managers that is kept by minor changes of one session. -/
structure EditRule (T : SessionManager → SessionManager → Prop) : Prop where
  refl : ∀ manager, T manager manager
  trans : ∀ first second third, T first second → T second third → T first third
  minor : ∀ manager session session', manager.sessions.get? session.key = some session →
    Minor session session' → T manager (manager.putSession session')

/-- A relation between managers that is kept by deliveries, by minor changes of one session
and by changes of the queue files and the publish budgets. -/
structure FrameRule (T : SessionManager → SessionManager → Prop) : Prop
    extends DeliveryRule T, EditRule T where
  tracked : ∀ manager session qos allocated entry,
    manager.sessions.get? session.key = some session → packetIdFor session qos = some allocated →
    T manager (manager.putSession (allocated.2.trackQos2Outbound entry).1)
  store : ∀ manager store, T manager { manager with store }
  buckets : ∀ manager buckets, T manager { manager with buckets }

/-- A relation between managers that is kept by all quiet changes of one session. -/
structure QuietRule (T : SessionManager → SessionManager → Prop) : Prop extends FrameRule T where
  edit : ∀ manager session session', manager.sessions.get? session.key = some session →
    view session' = view session → T manager (manager.putSession session')

/-- The changes that the frame rule asks for are quiet. -/
theorem QuietRule.ofEdit {T : SessionManager → SessionManager → Prop}
    (hRefl : ∀ manager, T manager manager)
    (hTrans : ∀ first second third, T first second → T second third → T first third)
    (hEdit : ∀ manager session session', manager.sessions.get? session.key = some session →
      view session' = view session → T manager (manager.putSession session'))
    (hStore : ∀ manager store, T manager { manager with store })
    (hBuckets : ∀ manager buckets, T manager { manager with buckets }) : QuietRule T where
  refl := hRefl
  trans := hTrans
  live manager session message effective retain subscriptionId result hStored _ _ hLive :=
    hEdit manager session result.1 hStored (view_deliverLive hLive)
  detached manager session message effective retain now hStored _ := by
    unfold deliverDetached
    split
    · exact hRefl manager
    · exact hTrans _ _ _ (hEdit manager session _ hStored (view_pushOfflineWithLimit _ _ _ _ _))
        (hStore _ _)
  minor manager session session' hStored hMinor :=
    hEdit manager session session' hStored hMinor.view
  tracked manager session qos allocated entry hStored hAllocate :=
    hEdit manager session _ hStored
      ((view_trackQos2Outbound _ _).trans (minor_packetIdFor hAllocate).view)
  store := hStore
  buckets := hBuckets
  edit := hEdit

namespace EditRule

variable {T : SessionManager → SessionManager → Prop} (hT : EditRule T)
include hT

theorem addSubscriptionInTenant (sessions : SessionManager) (tenant clientId : Str)
    (filter : TopicFilter) (options : SubscriptionOptions) :
    T sessions (sessions.addSubscriptionInTenant tenant clientId filter options) := by
  unfold SessionManager.addSubscriptionInTenant
  split
  · next session hGet => exact hT.minor _ session _ (stored_of_get? hGet) rfl
  · exact hT.refl _

theorem applyAutoSubscribe {after : Shared} {entries : List AutoSubscription}
    (hSubscribe : applyAutoSubscribe connId clientId tenant shared entries = some after) :
    T shared.sessions after.sessions := by
  induction entries generalizing shared with
  | nil =>
    cases hSubscribe
    exact hT.refl _
  | cons entry entries ih =>
    obtain ⟨checked, -, hRest⟩ := bind_eq_some_iff.mp hSubscribe
    split at hRest
    · have hTail := ih hRest
      split at hTail
      · exact hT.trans _ _ _ (hT.addSubscriptionInTenant _ _ _ _ _) hTail
      · exact hTail
    · exact ih hRest

theorem autoSubscribed {after : Shared} {req : BindRequest} {reply : OutFrame}
    (hSubscribe : autoSubscribed shared env connId req reply = some after) :
    T shared.sessions after.sessions := by
  unfold Kernel.autoSubscribed at hSubscribe
  split at hSubscribe
  · exact hT.applyAutoSubscribe hSubscribe
  · cases hSubscribe
    exact hT.refl _

end EditRule

namespace FrameRule

variable {T : SessionManager → SessionManager → Prop} (hT : FrameRule T)
include hT

theorem withEnv (shared : Shared) (env : Env) : T shared.sessions (shared.withEnv env).sessions :=
  hT.store _ _

theorem resolved (hResolve : resolveSession shared connId = some session)
    (hMinor : Minor session session') : T shared.sessions (shared.putSession session').sessions :=
  hT.minor _ session _ (resolveSession_stored hResolve) hMinor

theorem applyPuback (shared : Shared) (connId : Nat) (packetId : UInt16) :
    T shared.sessions (applyPuback shared connId packetId).sessions := by
  unfold Kernel.applyPuback
  split
  · next session hResolve => exact hT.resolved hResolve (minor_ackInflightTimed session packetId)
  · exact hT.refl _

theorem checkSessionQuota (shared : Shared) (env : Env) (session : Session) :
    T shared.sessions (checkSessionQuota shared env session).1.sessions := by
  unfold Kernel.checkSessionQuota
  split
  · exact hT.refl _
  · exact hT.buckets _ _

theorem checkPublishQuota (shared : Shared) (env : Env) (connId : Nat) :
    T shared.sessions (checkPublishQuota shared env connId).1.sessions := by
  unfold Kernel.checkPublishQuota
  cases resolveSession shared connId with
  | none => exact hT.refl _
  | some session => exact hT.checkSessionQuota shared env session

theorem resolveInboundAliasTopic {raw : Str} {topicAlias : Nat} :
    Keeps T shared.sessions (resolveInboundAliasTopic shared connId raw topicAlias) := by
  unfold Kernel.resolveInboundAliasTopic
  split
  · exact nofun
  · intro _ hResolved
    obtain ⟨session, hSession, hTopic⟩ := bind_eq_some_iff.mp hResolved
    split at hTopic
    · cases hTopic
    · split at hTopic
      · obtain ⟨topic, -, rfl⟩ := map_eq_some_iff.mp hTopic
        exact hT.refl _
      · obtain ⟨topic, -, rfl⟩ := map_eq_some_iff.mp hTopic
        exact hT.resolved hSession rfl

theorem resolveTopic {publish : PublishIn} :
    Keeps T shared.sessions (resolveTopic shared connId publish) := by
  unfold Kernel.resolveTopic
  split
  · exact .done (hT.refl _)
  · exact hT.resolveInboundAliasTopic

theorem storeRequest (shared : Shared) (connId : Nat) (clientId tenant : Str)
    (request : Requested) :
    T shared.sessions (storeRequest shared connId clientId tenant request).1.sessions := by
  unfold Kernel.storeRequest
  simp only
  split
  · exact hT.addSubscriptionInTenant _ _ _ _ _
  · exact hT.refl _

theorem subscribeEntry {entry : SubscribeEntry} :
    Keeps T shared.sessions (subscribeEntry shared env connId clientId tenant entry) := by
  refine .after fun checked => ?_
  cases checked with
  | error code => exact .done (hT.refl _)
  | ok request =>
    intro _ hChecked
    obtain ⟨allowed, -, rfl⟩ := map_eq_some_iff.mp hChecked
    cases allowed with
    | false => exact hT.refl _
    | true => exact hT.storeRequest shared connId clientId tenant request

theorem subscribeEntries {entries : List SubscribeEntry} :
    Keeps T shared.sessions (subscribeEntries env connId clientId tenant shared entries) := by
  induction entries generalizing shared with
  | nil => exact .done (hT.refl _)
  | cons entry entries ih => exact hT.bind hT.subscribeEntry fun _ => ih.map fun _ => rfl

theorem deliverRetained {message : RetainedMessage} :
    Keeps T shared.sessions (deliverRetained shared key grant message) := by
  unfold Kernel.deliverRetained
  simp only
  split
  · exact .done (hT.refl _)
  · next session hSession =>
    obtain ⟨key, -, hGet⟩ := bind_eq_some_iff.mp hSession
    split
    · exact .done (hT.refl _)
    · intro _ hDeliver
      obtain ⟨allocated, hAllocate, rfl⟩ := map_eq_some_iff.mp hDeliver
      have hStored := stored_of_get? hGet
      simp only
      split
      · exact hT.tracked _ session _ allocated _ hStored hAllocate
      · exact hT.minor _ session _ hStored (minor_packetIdFor hAllocate)

theorem deliverRetainedAll {messages : List RetainedMessage} :
    Keeps T shared.sessions (deliverRetainedAll key grant shared messages) := by
  induction messages generalizing shared with
  | nil => exact .done (hT.refl _)
  | cons message messages ih => exact hT.bind hT.deliverRetained fun _ => ih.map fun _ => rfl

theorem replayRetained {grants : List GrantedSub} :
    Keeps T shared.sessions (replayRetained key tenant shared grants) := by
  induction grants generalizing shared with
  | nil => exact .done (hT.refl _)
  | cons grant grants ih => exact hT.bind hT.deliverRetainedAll fun _ => ih.map fun _ => rfl

theorem applySubscribe {subscribe : SubscribeIn} :
    Keeps T shared.sessions (applySubscribe shared env connId subscribe) := by
  refine hT.bind hT.subscribeEntries fun _ => hT.replayRetained.map fun _ => ?_
  split <;> rfl

/-- A release, when the relation is also kept by putting the entry back. -/
theorem releaseQos2 {topic : Topic}
    (hRestore : ∀ released : Shared, T released.sessions (restoreQos2Inbound released session.key
      packetId entry).sessions) :
    Keeps T shared.sessions (releaseQos2 shared env session packetId entry topic) := by
  intro _ hRelease
  obtain ⟨released, hReleased, rfl⟩ := map_eq_some_iff.mp hRelease
  have hSessions := hT.release hReleased
  split
  · exact hT.trans _ _ _ hSessions (hRestore released.1)
  · exact hSessions

theorem releaseTaken {taken : Session}
    (hRestore : ∀ released : Shared, T released.sessions (restoreQos2Inbound released taken.key
      packetId entry).sessions) :
    Keeps T shared.sessions (releaseTaken shared env taken packetId entry) := by
  unfold Kernel.releaseTaken
  split
  · exact hT.releaseQos2 hRestore
  · split
    · exact .done (hT.refl _)
    · split
      · exact hT.releaseQos2 hRestore
      · apply Keeps.done
        simp only [apply_ite Shared.sessions, ite_self]
        exact hT.refl _

/-- A PUBREL, when the relation is also kept by taking the entry and by putting it back. -/
theorem applyQos2Pubrel (hPubrel : applyQos2Pubrel shared env connId packetId = some result)
    (hTake : ∀ session entry, resolveSession shared connId = some session →
      session.qos2Inbound.get? packetId = some entry → T shared.sessions (shared.putSession
      (session.takeQos2Inbound packetId).1).sessions ∧ ∀ released : Shared, T released.sessions
      (restoreQos2Inbound released session.key packetId entry).sessions) :
    T shared.sessions result.1.sessions := by
  unfold Kernel.applyQos2Pubrel at hPubrel
  split at hPubrel
  · cases hPubrel
    exact hT.refl _
  · split at hPubrel
    · cases hPubrel
      exact hT.refl _
    · next session hSession =>
      split at hPubrel
      · cases hPubrel
        exact hT.refl _
      · next taken entry hTaken =>
        obtain ⟨rfl, hEntry⟩ := Prod.mk.inj hTaken
        obtain ⟨hTook, hRestore⟩ := hTake session entry hSession hEntry
        exact hT.trans _ _ _ hTook (hT.releaseTaken hRestore hPubrel)

end FrameRule

namespace QuietRule

variable {T : SessionManager → SessionManager → Prop} (hT : QuietRule T)
include hT

theorem applyQos2Pubrec (shared : Shared) (connId : Nat) (packetId : UInt16) :
    T shared.sessions (applyQos2Pubrec shared connId packetId).1.sessions := by
  unfold Kernel.applyQos2Pubrec
  split
  · next session hResolve => exact hT.edit _ session _ (resolveSession_stored hResolve) rfl
  · exact hT.refl _

theorem applyQos2Pubcomp (shared : Shared) (connId : Nat) (packetId : UInt16) :
    T shared.sessions (applyQos2Pubcomp shared connId packetId).sessions := by
  unfold Kernel.applyQos2Pubcomp
  split
  · next session hResolve => exact hT.edit _ session _ (resolveSession_stored hResolve) rfl
  · exact hT.refl _

theorem replayOfflineClient :
    Keeps T shared.sessions (replayOfflineClient shared connId clientId) := by
  unfold Kernel.replayOfflineClient
  split
  · exact .done (hT.refl _)
  · next session hTarget =>
    intro _ hReplay
    obtain ⟨replay, hQueue, rfl⟩ := map_eq_some_iff.mp hReplay
    have hSessions : replay.shared.sessions = shared.sessions :=
      (replayQueue_sessions hQueue).trans (routeAll_sessions shared _)
    have hDrained := view_replayQueue hQueue
    have hView : view (replay.session.confirmOfflineConsumed replay.shared.sessions.store
        replay.unrouted).1 = view session :=
      (congrArg view (Session.confirmOfflineConsumed_eq ..)).trans hDrained
    simp only [hSessions] at hView ⊢
    exact hT.trans _ _ _ (hT.edit _ session _ (replayTarget_stored hTarget) hView) (hT.store _ _)

end QuietRule

/-! ### All sessions at once -/

structure SameViews (before after : SessionManager) : Prop where
  views : ∀ key, (after.sessions.get? key).map view = (before.sessions.get? key).map view
  index : after.connIndex = before.connIndex

namespace SameViews

theorem refl (manager : SessionManager) : SameViews manager manager := ⟨fun _ => rfl, rfl⟩

theorem trans {first second third : SessionManager} (hFirst : SameViews first second)
    (hSecond : SameViews second third) : SameViews first third :=
  ⟨fun key => (hSecond.views key).trans (hFirst.views key), hSecond.index.trans hFirst.index⟩

theorem putSession {manager : SessionManager}
    (hStored : manager.sessions.get? session.key = some session)
    (hView : view session' = view session) : SameViews manager (manager.putSession session') := by
  refine ⟨?_, rfl⟩
  intro key
  show ((manager.sessions.put session').get? key).map view = _
  grind [key_of_view]

theorem get? (hSame : SameViews before after) {key : SessionKey}
    (hGet : before.sessions.get? key = some session) :
    ∃ session', after.sessions.get? key = some session' ∧ view session' = view session := by
  have hView := hSame.views key
  rw [hGet, Option.map_some] at hView
  exact map_eq_some_iff.mp hView

theorem symm (hSame : SameViews before after) : SameViews after before :=
  ⟨fun key => (hSame.views key).symm, hSame.index.symm⟩

end SameViews

/-- A transitive relation that only depends on views. -/
structure ViewRule (T : SessionManager → SessionManager → Prop) : Prop where
  trans : ∀ first second third, T first second → T second third → T first third
  views : ∀ before after, SameViews before after → T before after

namespace ViewRule

variable {T : SessionManager → SessionManager → Prop} (hT : ViewRule T)
include hT

theorem quiet : QuietRule T :=
  .ofEdit (fun manager => hT.views _ _ (.refl manager)) hT.trans
    (fun _ _ _ hStored hView => hT.views _ _ (.putSession hStored hView))
    (fun _ _ => hT.views _ _ ⟨fun _ => rfl, rfl⟩)
    (fun _ _ => hT.views _ _ ⟨fun _ => rfl, rfl⟩)

theorem countsOnly (hCounts : CountsOnly before after) : T before after := by
  obtain ⟨counts, rfl⟩ := hCounts
  exact hT.views _ _ ⟨fun _ => rfl, rfl⟩

end ViewRule

theorem sameViews_quiet : QuietRule SameViews :=
  ViewRule.quiet ⟨fun _ _ _ hFirst hSecond => hFirst.trans hSecond, fun _ _ hSame => hSame⟩

end IndraMqtt.Kernel
