import IndraMqtt.Kernel.Inbound
import IndraMqtt.Session.Registry
import Mathlib.Algebra.BigOperators.Group.List.Basic

/-! Who holds a message that was queued for a detached session. The queue and the QoS 2
deliveries that wait for their PUBREC are the custody of a session. A message leaves it
by an acknowledgement, by the cap of the queue, or when a replay puts it into a mailbox
without tracking it. -/
namespace IndraMqtt.Kernel

open Protocol Sessions Runs
open List (count_append prefix_refl)
open SessionManager (Bound Resumed Stateless boundTo)

variable {connId : Nat} {shared : Shared}

structure Content where
  topic : Topic
  qos : QoS
  retain : Bool
  payload : Payload
  deriving DecidableEq

def queuedContent (queued : QueuedMessage) : Content :=
  ⟨queued.topic, queued.qos, queued.retain, queued.payload⟩

def outboundContent (entry : Qos2OutboundEntry) : Content :=
  ⟨entry.topic, .exactlyOnce, entry.retain, entry.payload⟩

def unreceived (entries : List Qos2OutboundEntry) : List Content :=
  (entries.filter (!·.recReceived)).map outboundContent

def inCustody (session : Session) : List Content :=
  session.offlineQueue.map queuedContent ++ unreceived session.qos2Outbound

def custodyOf (key : SessionKey) (message : Content) (shared : Shared) : Nat :=
  (shared.sessions.sessions.get? key).elim 0 fun session => (inCustody session).count message

theorem unreceived_append (first second : List Qos2OutboundEntry) :
    unreceived (first ++ second) = unreceived first ++ unreceived second := by
  rw [unreceived, List.filter_append, List.map_append]
  rfl

theorem unreceived_count_le {first second : List Qos2OutboundEntry} (hPrefix : first <+: second)
    (message : Content) : (unreceived first).count message ≤ (unreceived second).count message := by
  obtain ⟨added, rfl⟩ := hPrefix
  rw [unreceived_append, count_append]
  omega

/-! ### The queue and its cap -/

/-- A session that has lost nothing but the oldest messages of a queue at its cap. -/
structure Retains (limit : Option Nat) (session session' : Session) : Prop where
  queue : ∃ pushed evicted, session.offlineQueue ++ pushed = evicted ++ session'.offlineQueue ∧
    (evicted ≠ [] → ∃ cap, limit = some cap ∧ max cap 1 ≤ session'.offlineQueue.length)
  outbound : session.qos2Outbound <+: session'.qos2Outbound

namespace Retains

variable {limit : Option Nat} {first second third session session' : Session}

/-- The queue is the same and deliveries are only added. -/
theorem of_queue (hQueue : session'.offlineQueue = session.offlineQueue)
    (hOutbound : session.qos2Outbound <+: session'.qos2Outbound) : Retains limit session session' :=
  ⟨⟨[], [], by rw [hQueue, List.append_nil, List.nil_append], fun hNe => absurd rfl hNe⟩, hOutbound⟩

theorem refl (session : Session) : Retains limit session session :=
  of_queue rfl (prefix_refl _)

theorem trans (hFirst : Retains limit first second) (hSecond : Retains limit second third) :
    Retains limit first third := by
  obtain ⟨pushed, evicted, hQueue, hCap⟩ := hFirst.queue
  obtain ⟨pushed', evicted', hQueue', hCap'⟩ := hSecond.queue
  refine ⟨⟨pushed ++ pushed', evicted ++ evicted', ?_, ?_⟩, hFirst.outbound.trans hSecond.outbound⟩
  · rw [← List.append_assoc, hQueue, List.append_assoc, hQueue', List.append_assoc]
  · intro hEvicted
    by_cases hLater : evicted' = []
    · -- nothing went after the first eviction, so the queue has only grown since
      grind
    · exact hCap' hLater

/-- A queue that is not at its cap afterwards has lost nothing. -/
theorem count_le (hRetains : Retains limit session session') (message : Content) :
    (session.offlineQueue.map queuedContent).count message ≤
        (session'.offlineQueue.map queuedContent).count message ∨
      ∃ cap, limit = some cap ∧ max cap 1 ≤ session'.offlineQueue.length := by
  obtain ⟨pushed, evicted, hQueue, hCap⟩ := hRetains.queue
  by_cases hEvicted : evicted = []
  · grind
  · exact Or.inr (hCap hEvicted)

end Retains

/-- What the push leaves of the queue. -/
theorem evictOldest_spec (limit : Option Nat) (queue : List QueuedMessage) :
    ∃ evicted, queue = evicted ++ Session.evictOldest limit queue ∧
      (evicted ≠ [] → ∃ cap, limit = some cap ∧
        max cap 1 ≤ (Session.evictOldest limit queue).length + 1) := by
  cases limit with
  | none => exact ⟨[], rfl, fun hNe => absurd rfl hNe⟩
  | some cap =>
    refine ⟨queue.take (queue.length + 1 - max cap 1), (List.take_append_drop _ _).symm, ?_⟩
    intro hEvicted
    have hSome : 0 < queue.length + 1 - max cap 1 := by grind
    refine ⟨cap, rfl, ?_⟩
    rw [Session.evictOldest, List.length_drop]
    omega

theorem retains_pushOfflineWithLimit (session : Session) (store : OfflineQueueStore)
    (message : QueuedMessage) (limit : Option Nat) (now : Nat) :
    Retains limit session (session.pushOfflineWithLimit store message limit now).1 := by
  obtain ⟨evicted, hQueue, hCap⟩ := evictOldest_spec limit session.offlineQueue
  have hPushed (stamped : QueuedMessage) : Retains limit session
      { session with
        offlineQueue := Session.evictOldest limit session.offlineQueue ++ [stamped] } := by
    refine ⟨⟨[stamped], evicted, ?_, ?_⟩, prefix_refl _⟩
    · rw [← List.append_assoc, ← hQueue]
    · grind
  unfold Session.pushOfflineWithLimit
  simp only
  split
  · split
    · split <;> exact hPushed _
    · exact .refl session
  · exact hPushed _

variable {limit : Option Nat} {session session' : Session} {message : Content} {packetId : UInt16}
  {key : SessionKey}

theorem retains_trackQos2Outbound (session : Session) (entry : Qos2OutboundEntry) :
    Retains limit session (session.trackQos2Outbound entry).1 := by
  refine .of_queue ?_ (by grind [Session.trackQos2Outbound])
  unfold Session.trackQos2Outbound
  split <;> rfl

theorem Minor.retains (hMinor : Minor session session') : Retains limit session session' := by
  rw [hMinor]
  exact .of_queue rfl (prefix_refl _)

theorem retains_deliverLive {message : Ingress} {effective : QoS} {retain : Bool}
    {subscriptionId : Nat} {result : Session × Option OutFrame}
    (hLive : deliverLive session message effective retain subscriptionId = some result) :
    Retains limit session result.1 := by
  obtain ⟨allocated, hAllocate, rfl⟩ := Option.map_eq_some_iff.mp hLive
  have hTracked : Retains limit allocated.2
      (trackDelivery allocated.2 message effective retain allocated.1) := by
    cases effective with
    | atMostOnce => exact .refl _
    | atLeastOnce => exact (minor_trackInflightOrSpill _ _).retains
    | exactlyOnce => exact retains_trackQos2Outbound _ _
  exact (minor_packetIdFor hAllocate).retains.trans
    (hTracked.trans (minor_outboundAlias _ _).retains)

/-! ### Sessions that last -/

def Laden (session : Session) : Prop :=
  session.offlineQueue ≠ [] ∨ session.qos2Outbound ≠ []

theorem Laden.not_stateless (hLaden : Laden session) : ¬ Stateless session := by
  intro hStateless
  simp only [Stateless, Session.isEndedStateless, Bool.and_eq_true, List.isEmpty_iff] at hStateless
  obtain hQueue | hOutbound := hLaden
  · exact hQueue hStateless.1.1.1.2
  · exact hOutbound hStateless.2

theorem Retains.laden (hRetains : Retains limit session session') (hLaden : Laden session) :
    Laden session' := by
  obtain hQueue | hOutbound := hLaden
  · refine Or.inl ?_
    obtain ⟨pushed, evicted, hSplit, hCap⟩ := hRetains.queue
    intro hEmpty
    -- a queue that lost everything would be at a cap of nothing
    simp_all
  · exact Or.inr fun hEmpty => hOutbound (List.prefix_nil.mp (hEmpty ▸ hRetains.outbound))

theorem laden_of_custody (hHeld : message ∈ inCustody session) : Laden session := by
  rw [inCustody, List.mem_append] at hHeld
  obtain hQueue | hOutbound := hHeld
  · refine Or.inl fun hEmpty => ?_
    rw [hEmpty] at hQueue
    cases hQueue
  · refine Or.inr fun hEmpty => ?_
    rw [hEmpty] at hOutbound
    cases hOutbound

def BoundAt (limit : Option Nat) (manager : SessionManager) : Prop :=
  Bound manager ∧ manager.maxOfflineQueue = limit

/-- A session with messages that a detaching frame leaves its state. -/
def LadenDurable (Detaches : Prop) (session : Session) : Prop :=
  (Detaches → session.dropsStateAtDisconnect = false) ∧ Laden session

def LadenUnexpired (now : Nat) (session : Session) : Prop :=
  session.sessionExpired now = false ∧ Laden session

abbrev KeepsCustody (limit : Option Nat) (Detaches : Prop) (key : SessionKey) :
    SessionManager → SessionManager → Prop :=
  Carries (BoundAt limit) (LadenDurable Detaches) (Retains limit) key

section KeepsCustody

variable {limit : Option Nat} {Detaches : Prop} {key : SessionKey}

/-- A quiet change of one session that retains its messages. -/
theorem keepsCustody_edit {manager : SessionManager}
    (hStored : manager.sessions.get? session.key = some session)
    (hView : view session' = view session) (hRetains : Retains limit session session') :
    KeepsCustody limit Detaches key manager (manager.putSession session') := by
  refine Carries.putSession Retains.refl ?_ hStored (key_of_view hView) ?_
  · intro hBound
    exact ⟨keepsBound_quiet.edit manager session session' hStored hView hBound.1, hBound.2⟩
  · intro _ hGood
    have hDurable : Detaches → session'.dropsStateAtDisconnect = false :=
      fun hDetaches => (dropsState_of_view hView).trans (hGood.1 hDetaches)
    exact ⟨⟨hDurable, hRetains.laden hGood.2⟩, hRetains⟩

theorem keepsCustody_frame : FrameRule (KeepsCustody limit Detaches key) where
  refl manager := .of_sessions Retains.refl id rfl
  trans _ _ _ hFirst hSecond :=
    hFirst.trans (fun _ _ _ hRetains hRetains' => hRetains.trans hRetains') hSecond
  live manager session message effective retain subscriptionId result hStored _ _ hLive :=
    keepsCustody_edit hStored (view_deliverLive hLive) (retains_deliverLive hLive)
  detached manager session message effective retain now hStored _ := by
    intro hBound
    revert hBound
    unfold deliverDetached
    split
    · exact Carries.of_sessions Retains.refl id rfl
    · intro hBound
      let queued : QueuedMessage :=
        { topic := message.topic, qos := effective, retain, payload := message.payload,
          publishAtMs := none }
      have hPush : KeepsCustody limit Detaches key manager (manager.putSession
          (session.pushOfflineWithLimit manager.store queued manager.maxOfflineQueue now).1) := by
        refine keepsCustody_edit hStored (view_pushOfflineWithLimit _ _ _ _ _) ?_
        rw [hBound.2]
        exact retains_pushOfflineWithLimit _ _ _ _ _
      obtain ⟨hAfter, hCarried⟩ := hPush hBound
      exact ⟨⟨keepsBound_quiet.store _ _ hAfter.1, hAfter.2⟩, hCarried⟩
  minor manager session session' hStored hMinor :=
    keepsCustody_edit hStored hMinor.view hMinor.retains
  tracked manager session qos allocated entry hStored hAllocate :=
    keepsCustody_edit hStored ((view_trackQos2Outbound _ _).trans (minor_packetIdFor hAllocate).view)
      ((minor_packetIdFor hAllocate).retains.trans (retains_trackQos2Outbound _ _))
  store _ _ := .of_sessions Retains.refl
    (fun hBound => ⟨keepsBound_quiet.store _ _ hBound.1, hBound.2⟩) rfl
  buckets _ _ := .of_sessions Retains.refl
    (fun hBound => ⟨keepsBound_quiet.buckets _ _ hBound.1, hBound.2⟩) rfl

theorem keepsCustody_unbind (env : Env) :
    UnbindRule env (fun _ => Detaches) (KeepsCustody limit Detaches key) where
  toFrameRule := keepsCustody_frame
  dropWill connId _ manager session hStored hConn := by
    refine Carries.putSession Retains.refl ?_ hStored rfl ?_
    · intro hBound
      exact ⟨(keepsBound_unbind env).dropWill connId trivial manager session hStored hConn hBound.1,
        hBound.2⟩
    · intro _ hGood
      exact ⟨hGood, .of_queue rfl (prefix_refl _)⟩
  unbind connId hDetaches manager tenant clientId := by
    refine Carries.unbind Retains.refl ?_ (fun _ hGood => hGood.2.not_stateless) ?_
    · intro hBound
      exact ⟨hBound.1.unbindConnectionInTenant tenant clientId connId env.now,
        (SessionManager.unbind_records manager ⟨tenant, clientId⟩ connId env.now).2.2.trans hBound.2⟩
    · intro session hGood _
      rw [SessionManager.detached_of_durable (hGood.1 hDetaches)]
      exact ⟨hGood, .of_queue rfl (prefix_refl _)⟩

theorem keepsCustody_inbound (env : Env) :
    InboundRule env (fun _ => Detaches) (KeepsCustody limit Detaches key) where
  toUnbindRule := keepsCustody_unbind env
  inbound manager session inbound hStored := by
    refine Carries.putSession Retains.refl ?_ hStored rfl ?_
    · intro hBound
      exact ⟨(keepsBound_inbound env).inbound _ _ inbound hStored hBound.1, hBound.2⟩
    · intro _ hGood
      exact ⟨hGood, .of_queue rfl (prefix_refl _)⟩

end KeepsCustody

/-! ### CONNECT -/

structure SameCustody (session session' : Session) : Prop where
  queue : session'.offlineQueue = session.offlineQueue
  outbound : session'.qos2Outbound = session.qos2Outbound

namespace SameCustody

variable {first second third : Session}

theorem refl (session : Session) : SameCustody session session := ⟨rfl, rfl⟩

theorem trans (hFirst : SameCustody first second) (hSecond : SameCustody second third) :
    SameCustody first third :=
  ⟨hSecond.queue.trans hFirst.queue, hSecond.outbound.trans hFirst.outbound⟩

theorem laden (hSame : SameCustody first second) (hLaden : Laden first) : Laden second := by
  rwa [Laden, hSame.queue, hSame.outbound]

theorem inCustody_eq (hSame : SameCustody first second) : inCustody second = inCustody first := by
  rw [inCustody, hSame.queue, hSame.outbound]
  rfl

end SameCustody

theorem acceptedSession_sameCustody (shared : Shared) (env : Env) (connId : Nat)
    (req : BindRequest) (identity : Identity) (will : Option StoredWill) (session : Session) :
    SameCustody session (acceptedSession shared env connId req identity will session) := by
  have hBoundTo : SameCustody session (boundTo session connId env.now) := by
    unfold boundTo
    split
    · exact .refl session
    · exact ⟨rfl, rfl⟩
  exact ⟨hBoundTo.queue, hBoundTo.outbound⟩

/-- A CONNECT keeps the messages of unexpired sessions up to the replay, unless it asks
for a clean start of the session that holds them. -/
theorem sameCustody_bind (env : Env) (req : BindRequest) (key : SessionKey)
    (hResumes : ∀ identity, authenticate env req = .ok identity →
      requestKey env req identity = key → req.cleanStart = false) :
    BindRule env req (Carries Bound (LadenUnexpired env.now) SameCustody key) where
  refl manager := .of_sessions SameCustody.refl id rfl
  trans _ _ _ hFirst hSecond := hFirst.trans (fun _ _ _ hSame hSame' => hSame.trans hSame') hSecond
  minor manager session session' hStored hMinor := by
    refine Carries.putSession SameCustody.refl
      (keepsBound_quiet.edit manager session session' hStored hMinor.view) hStored
      (key_of_view hMinor.view) ?_
    intro _ hGood
    have hSame : SameCustody session session' := by
      rw [hMinor]
      exact ⟨rfl, rfl⟩
    exact ⟨⟨(sessionExpired_of_view hMinor.view env.now).trans hGood.1, hSame.laden hGood.2⟩, hSame⟩
  counts _ _ hCounts := by
    refine .of_sessions SameCustody.refl (keepsBound_views.countsOnly hCounts) ?_
    obtain ⟨counts, rfl⟩ := hCounts
    rfl
  accept shared connId identity will hIdentity := by
    refine Carries.accept SameCustody.refl ?_ (hResumes identity hIdentity) ?_ ?_
    · intro hBound
      exact ⟨hBound, bound_acceptBind hBound env connId req identity will⟩
    · intro session hGood
      exact ⟨hGood.2.not_stateless, hGood.1⟩
    · intro _ session resumed hGood hResumed
      have hSame : SameCustody session
          (acceptedSession shared env connId req identity will resumed) := by
        have hQueue : SameCustody session resumed := by
          rw [hResumed]
          exact ⟨rfl, rfl⟩
        exact hQueue.trans (acceptedSession_sameCustody ..)
      have hConnected : (acceptedSession shared env connId req identity will
          resumed).connected = true := by
        rw [acceptedSession_connected, hResumed]
      exact ⟨⟨unexpired_of_connected hConnected env.now, hSame.laden hGood.2⟩, hSame⟩

def freshContent : OutFrame → Option Content
  | .publishOut out =>
    if out.dup then none else some ⟨out.topic, out.qos, out.retain, out.payload⟩
  | _ => none

def handed (routed : List (Nat × OutFrame)) : List Content :=
  routed.filterMap fun delivery => freshContent delivery.2

/-- A replay does not track the message: it is not QoS 2, or the table is full. -/
def untracked (message : Content) (session : Session) : Bool :=
  message.qos != .exactlyOnce || maxQos2Inflight ≤ session.qos2Outbound.length

theorem packetIdFor_ne_zero {qos : QoS} {allocated : UInt16 × Session}
    (hAllocate : packetIdFor session qos = some allocated) (hQos : qos ≠ .atMostOnce) :
    allocated.1 ≠ 0 := by
  rw [packetIdFor, if_neg (by simpa using hQos)] at hAllocate
  exact (Session.allocatePacketId_moves hAllocate).1

variable {queued : QueuedMessage} {frame : OutFrame} {t : Handled}

theorem replayTracked_count (session : Session) (hId : queued.qos ≠ .atMostOnce → packetId ≠ 0) :
    unreceived (replayTracked session queued packetId).qos2Outbound =
        unreceived session.qos2Outbound ++ [queuedContent queued] ∨
      untracked (queuedContent queued) (replayTracked session queued packetId) = true := by
  by_cases hQos : queued.qos = .exactlyOnce
  · grind [replayTracked, Session.trackQos2Outbound, replayEntry, outboundContent, queuedContent,
      untracked, unreceived]
  · exact Or.inr (by simp [untracked, queuedContent, hQos])

def handedUntracked (message : Content) (session : Session) (routed : List (Nat × OutFrame)) :
    Nat :=
  if untracked message session then (handed routed).count message else 0

theorem freshContent_queuedFrame (hFrame : queuedFrame queued packetId = some frame) :
    freshContent frame = some (queuedContent queued) := by
  unfold queuedFrame newFrame at hFrame
  split at hFrame
  · cases hFrame
    rfl
  · cases hFrame

theorem handedUntracked_cons {content : Content} (hFresh : freshContent frame = some content)
    (routed : List (Nat × OutFrame)) : handedUntracked message session ((connId, frame) :: routed) =
      handedUntracked message session routed +
        if untracked message session ∧ content = message then 1 else 0 := by
  grind [handed, handedUntracked]

/-- The drain loop loses only what it hands over untracked. -/
theorem replayQueue_custody {queue : List QueuedMessage} {replay : QueueReplay}
    (hReplay : replayQueue connId shared session queue = some replay) (message : Content) :
    Retains none session replay.session ∧
      (queue.map queuedContent).count message + (unreceived session.qos2Outbound).count message ≤
        (replay.unrouted.map queuedContent).count message +
          (unreceived replay.session.qos2Outbound).count message +
          handedUntracked message replay.session replay.routed := by
  induction queue generalizing shared session replay with
  | nil =>
    cases hReplay
    refine ⟨.refl session, ?_⟩
    simp
  | cons queued rest ih =>
    obtain ⟨allocated, hAllocate, hRound⟩ := replayQueue_cons hReplay
    have hMoved : Retains none session allocated.2 := (minor_packetIdFor hAllocate).retains
    have hUnmoved : allocated.2.qos2Outbound = session.qos2Outbound := by
      rw [minor_packetIdFor hAllocate]
    obtain ⟨shared', replay', -, hRest, rfl⟩ | ⟨shared', frame, replay', -, hFrame, hRest, rfl⟩ :=
      hRound
    · obtain ⟨hRetains, hCount⟩ := ih hRest
      rw [hUnmoved] at hCount
      refine ⟨hMoved.trans hRetains, ?_⟩
      simp only [List.map_cons, List.count_cons]
      omega
    · obtain ⟨hRetains, hCount⟩ := ih hRest
      have hTracked : Retains none allocated.2 (replayTracked allocated.2 queued allocated.1) := by
        unfold replayTracked
        split
        · exact retains_trackQos2Outbound _ _
        · exact .refl _
      refine ⟨hMoved.trans (hTracked.trans hRetains), ?_⟩
      rw [handedUntracked_cons (freshContent_queuedFrame hFrame)]
      simp only [List.map_cons, List.count_cons, beq_iff_eq]
      have hTrack := replayTracked_count allocated.2 (packetIdFor_ne_zero hAllocate)
      rw [hUnmoved] at hTrack
      obtain hHeld | hUntracked := hTrack
      · grind
      · have hLonger := unreceived_count_le hTracked.outbound message
        rw [hUnmoved] at hLonger
        by_cases hSame : queuedContent queued = message
        · rw [hSame] at hUntracked ⊢
          rw [if_pos rfl, if_pos ⟨by grind [untracked, hRetains.outbound], rfl⟩]
          omega
        · rw [if_neg hSame]
          omega

theorem handedUntracked_append (message : Content)
    (hOutbound : session'.qos2Outbound = session.qos2Outbound)
    (first second : List (Nat × OutFrame)) :
    handedUntracked message session second ≤ handedUntracked message session' (first ++ second) := by
  grind [untracked, handedUntracked, handed]

theorem replayOfflineClient_custody {clientId : Str} {result : Shared × List (Nat × OutFrame)}
    (hReplay : replayOfflineClient shared connId clientId = some result)
    (hGet : shared.sessions.sessions.get? key = some session) (message : Content) :
    ∃ session', result.1.sessions.sessions.get? key = some session' ∧
      (inCustody session).count message ≤
        (inCustody session').count message + handedUntracked message session' result.2 := by
  unfold replayOfflineClient at hReplay
  split at hReplay
  · cases hReplay
    exact ⟨session, hGet, Nat.le_add_right _ _⟩
  · next target hTarget =>
    obtain ⟨replay, hQueue, rfl⟩ := Option.map_eq_some_iff.mp hReplay
    have hSessions : replay.shared.sessions = shared.sessions :=
      (replayQueue_sessions hQueue).trans (routeAll_sessions shared _)
    have hStored := replayTarget_stored hTarget
    have hView := view_replayQueue hQueue
    obtain ⟨hRetains, hCount⟩ := replayQueue_custody hQueue message
    let confirmed :=
      (replay.session.confirmOfflineConsumed replay.shared.sessions.store replay.unrouted).1
    have hConfirmed : confirmed = _ := Session.confirmOfflineConsumed_eq ..
    have hKey : confirmed.key = target.key := by
      rw [hConfirmed]
      exact key_of_view hView
    show ∃ session', (replay.shared.sessions.sessions.put confirmed).get? key = some session' ∧ _
    rw [hSessions, KeyedMap.get?_put, hKey]
    split
    · next hOwner =>
      rw [hOwner, hStored] at hGet
      cases hGet
      have hOutbound : confirmed.qos2Outbound = replay.session.qos2Outbound := by rw [hConfirmed]
      have hHanded := handedUntracked_append message hOutbound
        (routeAll shared ((replayUnacked session).map fun frame => (connId, frame))).2
        replay.routed
      grind [inCustody]
    · exact ⟨session, hGet, Nat.le_add_right _ _⟩

/-! ### Acknowledgements -/

section Acknowledgements

variable (packetId : UInt16) (message : Content)

/-- The delivery under the packet id, if the client has not received it. -/
def awaiting (packetId : UInt16) (entries : List Qos2OutboundEntry) : List Content :=
  unreceived (entries.find? (·.packetId == packetId)).toList

theorem unreceived_cons (entry : Qos2OutboundEntry) (entries : List Qos2OutboundEntry) :
    unreceived (entry :: entries) = unreceived [entry] ++ unreceived entries :=
  unreceived_append [entry] entries

/-- A PUBREC takes the delivery under its packet id. -/
theorem unreceived_markRecReceived (entries : List Qos2OutboundEntry) :
    (unreceived entries).count message =
      (unreceived (Session.markRecReceived packetId entries)).count message +
        (awaiting packetId entries).count message := by
  induction entries with
  | nil => rfl
  | cons entry entries ih => grind [unreceived, Session.markRecReceived, awaiting]

/-- A PUBCOMP takes the delivery under its packet id. -/
theorem unreceived_eraseP (entries : List Qos2OutboundEntry) : (unreceived entries).count message =
      (unreceived (entries.eraseP (·.packetId == packetId))).count message +
        (awaiting packetId entries).count message := by
  induction entries with
  | nil => rfl
  | cons entry entries ih => grind [unreceived_cons, awaiting]

end Acknowledgements

/-! ### What leaves the custody of a session -/

section Accounts

variable (key : SessionKey) (message : Content)

def acknowledger (shared : Shared) (connId : Nat) : Option Session :=
  (resolveSession shared connId).filter (·.key == key)

def acknowledged (t : Handled) : Nat :=
  match t.input.2 with
  | .pubrec connId packetId =>
    (acknowledger key t.before connId).elim 0 fun session =>
      (awaiting packetId session.qos2Outbound).count message
  | .pubcomp connId packetId =>
    (acknowledger key t.before connId).elim 0 fun session =>
      (awaiting packetId session.qos2Outbound).count message
  | _ => 0

def queueOf (shared : Shared) : List QueuedMessage :=
  (shared.sessions.sessions.get? key).elim [] (·.offlineQueue)

def queueAtCap (shared : Shared) : Bool :=
  shared.sessions.maxOfflineQueue.elim false fun cap => max cap 1 ≤ (queueOf key shared).length

def isConnect : Event → Bool
  | .bind _ _ _ => true
  | _ => false

def evicted (t : Handled) : Nat :=
  if !isConnect t.input.2 && queueAtCap key t.after then
    ((queueOf key t.before).map queuedContent).count message -
      ((queueOf key t.after).map queuedContent).count message
  else 0

/-- The copies that the replay of a CONNECT put into a mailbox without tracking them. -/
def handedOver (t : Handled) : Nat :=
  if isConnect t.input.2 then
    (t.after.sessions.sessions.get? key).elim 0 fun session =>
      handedUntracked message session t.output.routed
  else 0

/-- The frame leaves the session its state: detaching frames find it durable, and a CONNECT
finds it unexpired and does not start it anew. -/
structure Lasts (t : Handled) (session : Session) : Prop where
  durable : t.input.2.detaches = true → session.dropsStateAtDisconnect = false
  unexpired : ∀ connId req looksV5, t.input.2 = .bind connId (.ok req) looksV5 →
    session.sessionExpired t.input.1.now = false
  resumed : ∀ connId req looksV5 identity, t.input.2 = .bind connId (.ok req) looksV5 →
    authenticate t.input.1 req = .ok identity → requestKey t.input.1 req identity = key →
      req.cleanStart = false

def LastsStep (t : Handled) : Prop :=
  ∀ session, t.before.sessions.sessions.get? key = some session → message ∈ inCustody session →
    Lasts key t session

end Accounts

theorem custodyOf_of_get? (hGet : shared.sessions.sessions.get? key = some session)
    (message : Content) : custodyOf key message shared = (inCustody session).count message := by
  rw [custodyOf, hGet]
  rfl

/-- A change of the session that a connection resolves to, with what it takes out of
custody. -/
theorem custody_change {before after : Shared} {change : Session → Session}
    (hAfter : after.sessions.sessions = (resolveSession before connId).elim
      before.sessions.sessions fun session => before.sessions.sessions.put (change session))
    (hKey : ∀ session, (change session).key = session.key)
    (hCount : ∀ session, (inCustody session).count message = (inCustody (change session)).count
      message + (awaiting packetId session.qos2Outbound).count message) (key : SessionKey) :
    custodyOf key message before ≤ custodyOf key message after +
      (acknowledger key before connId).elim 0 fun session =>
        (awaiting packetId session.qos2Outbound).count message := by
  rw [custodyOf, custodyOf, hAfter, acknowledger]
  cases hResolve : resolveSession before connId with
  | none => exact Nat.le_refl _
  | some target => grind [resolveSession_stored]

section Step

variable {key : SessionKey} {message : Content} {t : Handled}
  (hStep : t.IsStep step)

include hStep in
/-- An acknowledgement takes only what it names. -/
theorem custody_acknowledge (hAcknowledges : t.input.2.acknowledges = true) :
    custodyOf key message t.before ≤
      custodyOf key message t.after + acknowledged key message t := by
  obtain ⟨before, ⟨env, event⟩, effects, after⟩ := t
  cases event with
  | pubrec connId packetId =>
    have hAfter : (applyQos2Pubrec (before.withEnv env) connId packetId).1 = after :=
      congrArg Prod.fst (Option.some.inj hStep)
    refine custody_change ?_ (fun _ => rfl : ∀ session : Session,
      (session.completeQos2Pubrec packetId).1.key = session.key) ?_ key
    · rw [← hAfter, applyQos2Pubrec]
      show _ = (resolveSession (before.withEnv env) connId).elim _ _
      cases resolveSession (before.withEnv env) connId <;> rfl
    · intro session
      rw [inCustody, inCustody, count_append, count_append,
        unreceived_markRecReceived packetId]
      exact (Nat.add_assoc _ _ _).symm
  | pubcomp connId packetId =>
    have hAfter : applyQos2Pubcomp (before.withEnv env) connId packetId = after :=
      congrArg Prod.fst (Option.some.inj hStep)
    refine custody_change ?_ (fun _ => rfl : ∀ session : Session,
      (session.ackQos2Pubcomp packetId).1.key = session.key) ?_ key
    · rw [← hAfter, applyQos2Pubcomp]
      show _ = (resolveSession (before.withEnv env) connId).elim _ _
      cases resolveSession (before.withEnv env) connId <;> rfl
    · intro session
      rw [inCustody, inCustody, count_append, count_append, unreceived_eraseP packetId]
      exact (Nat.add_assoc _ _ _).symm
  | _ => cases hAcknowledges

variable {session : Session} (hBound : Bound t.before.sessions)
  (hGet : t.before.sessions.sessions.get? key = some session)
  (hHeld : message ∈ inCustody session) (hLasts : Lasts key t session)
include hStep hBound hGet hHeld hLasts

/-- Frames that neither connect nor acknowledge lose only what the cap evicts. -/
theorem custody_evict (hConnect : isConnect t.input.2 = false)
    (hAcknowledges : t.input.2.acknowledges = false) :
    custodyOf key message t.before ≤ custodyOf key message t.after + evicted key message t := by
  obtain ⟨before, ⟨env, event⟩, effects, after⟩ := t
  have hBind : ∀ connId req looksV5, event ≠ .bind connId (.ok req) looksV5 := by
    rintro connId req looksV5 rfl
    cases hConnect
  have hRule : InboundRule env (fun _ => event.detaches = true)
      (KeepsCustody before.sessions.maxOfflineQueue (event.detaches = true) key) :=
    keepsCustody_inbound env
  have hKeeps := hRule.step hStep hBind (fun _ hUnbinds => Event.detaches_of_unbinds hUnbinds)
    fun hAck => by
      rw [hAcknowledges] at hAck
      cases hAck
  obtain ⟨⟨-, hLimit⟩, hCarried⟩ := hKeeps ⟨hBound, rfl⟩
  obtain ⟨session', hGet', -, hRetains⟩ :=
    hCarried session hGet ⟨hLasts.durable, laden_of_custody hHeld⟩
  have hOutbound := unreceived_count_le hRetains.outbound message
  rw [custodyOf_of_get? hGet, custodyOf_of_get? hGet', inCustody, inCustody, count_append,
    count_append]
  rcases hRetains.count_le message with hQueue | ⟨cap, hCap, hFull⟩
  · omega
  · grind [queueAtCap, queueOf, evicted]

/-- A CONNECT loses only what its replay hands over untracked. -/
theorem custody_connect (hConnect : isConnect t.input.2 = true) :
    custodyOf key message t.before ≤ custodyOf key message t.after + handedOver key message t := by
  obtain ⟨before, ⟨env, event⟩, effects, after⟩ := t
  cases event with
  | bind connId parsed looksV5 =>
    cases parsed with
    | error text =>
      have hAfter : (before.withEnv env).register connId = after :=
        congrArg Prod.fst (Option.some.inj hStep)
      rw [← hAfter]
      exact Nat.le_add_right _ _
    | ok req =>
      change handleBind (before.withEnv env) env connId (.ok req) looksV5 =
        some (after, effects) at hStep
      have hRule := sameCustody_bind env req key
        fun identity => hLasts.resumed connId req looksV5 identity rfl
      obtain ⟨subscribed, replayed, hBefore, hReplay, hAfter, hRouted⟩ :=
        hRule.toEditRule.beforeReplay hStep (hRule.applyBindRequest _ connId looksV5)
      obtain ⟨-, hCarried⟩ := hBefore (keepsBound_quiet.withEnv before env hBound)
      obtain ⟨session', hGet', -, hSame⟩ := hCarried session hGet
        ⟨hLasts.unexpired connId req looksV5 rfl, laden_of_custody hHeld⟩
      obtain ⟨session'', hGet'', hCount⟩ := replayOfflineClient_custody hReplay hGet' message
      rw [← hAfter] at hGet''
      rw [← hRouted, hSame.inCustody_eq] at hCount
      simp_all [handedOver, custodyOf_of_get?]
  | _ => cases hConnect

end Step

/-- One frame accounts for every copy of a message that leaves the custody of a session. -/
theorem custody_step (hBound : Bound t.before.sessions) (hStep : t.IsStep step)
    (hLasts : LastsStep key message t) :
    custodyOf key message t.before ≤ custodyOf key message t.after +
      (acknowledged key message t + evicted key message t + handedOver key message t) := by
  by_cases hNone : custodyOf key message t.before = 0
  · omega
  · obtain ⟨session, hGet⟩ : ∃ session, t.before.sessions.sessions.get? key = some session := by
      rw [← Option.ne_none_iff_exists']
      intro hAbsent
      rw [custodyOf, hAbsent] at hNone
      exact hNone rfl
    have hHeld : message ∈ inCustody session := by grind [custodyOf_of_get?]
    have hLast := hLasts session hGet hHeld
    cases hConnect : isConnect t.input.2 with
    | true =>
      have hCount := custody_connect hStep hBound hGet hHeld hLast hConnect
      omega
    | false =>
      cases hAcknowledges : t.input.2.acknowledges with
      | true => grind [custody_acknowledge]
      | false => grind [custody_evict]

def mirror : SessionKey := { tenant := defaultTenantId, clientId := "mirror".toList }

def missedBy (qos : QoS) : List (Env × Event) :=
  [(Env.plain, .bind 2 (.ok (plainRequest "mirror".toList)) false),
    (Env.plain, .subscribe 2 (subscribeTo "mirror".toList "a".toList qos.toU8)),
    (Env.plain, .unbind 2 (some "mirror".toList) false),
    (Env.plain, .ingress
      { topic := topicA, qos, retain := false, payload := [42], publisher := none,
        tenant := defaultTenantId, props := .empty })]

def backAndGone : List (Env × Event) :=
  [(Env.plain, .bind 3 (.ok (plainRequest "mirror".toList)) false),
    (Env.plain, .transportLost [(mirror, 3)])]

def missed (qos : QoS) : Content := ⟨topicA, qos, false, [42]⟩

def stays (key : SessionKey) (t : Handled) : Bool :=
  (t.before.sessions.sessions.get? key).elim true (fun session =>
      !session.dropsStateAtDisconnect && !session.sessionExpired t.input.1.now) &&
    match t.input.2 with
    | .bind _ (.ok req) _ => !req.cleanStart
    | _ => true

theorem lastsStep_of_stays (hStays : stays key t = true) : LastsStep key message t := by
  intro session hGet _
  rw [stays, hGet, Option.elim_some, Bool.and_eq_true, Bool.and_eq_true, Bool.not_eq_true',
    Bool.not_eq_true'] at hStays
  refine ⟨fun _ => hStays.1.1, fun _ _ _ _ => hStays.1.2, ?_⟩
  grind

end IndraMqtt.Kernel
