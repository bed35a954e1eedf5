import IndraMqtt.Kernel.Tracking

/-! The Receive Maximum of a version 5 connection: how many QoS 1 and QoS 2 publications
are on their way to the client without an acknowledgement. Live deliveries, retained
replays and offline replays all send them. The cap is compared with the QoS 1 window and
its spill alone. -/
namespace IndraMqtt.Kernel

open Protocol Sessions Routing Runs

variable {target : Nat} {frame : OutFrame} {packet : Packet} {qos : QoS} {found left : Session}
  {clientId : Str} {packetId : UInt16}

/-! ### Deliveries -/

/-- What sends publications to a client, and what acknowledges them: a round of the fan-out,
a round of the retained replay of a SUBSCRIBE, the offline replay of a CONNECT, and the
acknowledgements of QoS 1 and QoS 2. -/
inductive Delivery where
  | live (message : Ingress) (now : Nat) (sub : Subscription)
  | retained (connId : Nat) (clientId : Str) (grant : GrantedSub) (message : RetainedMessage)
  | offline (connId : Nat) (clientId : Str)
  | puback (connId : Nat) (packetId : UInt16)
  | pubrec (connId : Nat) (packetId : UInt16)
  | pubcomp (connId : Nat) (packetId : UInt16)

/-- One delivery or acknowledgement, with the frames that connections were sent. -/
def deliveryStep (shared : Shared) : Delivery → Option (Shared × List (Nat × OutFrame))
  | .live message now sub =>
    (deliver shared.sessions message now sub).map fun result =>
      routeAll { shared with sessions := result.1 } result.2.toList
  | .retained connId clientId grant message =>
    (deliverRetained shared ((replayTarget shared connId clientId).map (·.key)) grant
      message).map fun result => (result.1, result.2.toList.map fun frame => (connId, frame))
  | .offline connId clientId => replayOfflineClient shared connId clientId
  | .puback connId packetId => some (applyPuback shared connId packetId, [])
  | .pubrec connId packetId =>
    let (shared, effects) := applyQos2Pubrec shared connId packetId
    some (shared, effects.replies.map fun frame => (connId, frame))
  | .pubcomp connId packetId => some (applyQos2Pubcomp shared connId packetId, [])

abbrev Delivered := Transition Shared Delivery (List (Nat × OutFrame))

/-- The packets on their way after one more frame. A packet that is sent again with the DUP
flag counts once. -/
def sent (connId : Nat) (packets : List Packet) : Nat × OutFrame → List Packet
  | (target, .publishOut message) =>
    if target != connId || message.qos == .atMostOnce ||
        (message.dup && packets.contains (message.qos, message.packetId)) then packets
    else (message.qos, message.packetId) :: packets
  | _ => packets

/-- The packets on their way after an acknowledgement: PUBACK ends QoS 1, PUBCOMP ends
QoS 2. -/
def afterAck (connId : Nat) (packets : List Packet) : Delivery → List Packet
  | .puback target packetId =>
    if target == connId then packets.erase (.atLeastOnce, packetId) else packets
  | .pubcomp target packetId =>
    if target == connId then packets.erase (.exactlyOnce, packetId) else packets
  | _ => packets

/-- The QoS 1 and QoS 2 packets that the run sent on the connection and that were not
acknowledged yet. -/
def unacknowledged (connId : Nat) (run : List Delivered) : List Packet :=
  run.foldl (fun packets t => t.output.foldl (sent connId) (afterAck connId packets t.input)) []

theorem unacknowledged_snoc (connId : Nat) (run : List Delivered) (t : Delivered) :
    unacknowledged connId (run ++ [t]) =
      t.output.foldl (sent connId) (afterAck connId (unacknowledged connId run) t.input) := by
  rw [unacknowledged, List.foldl_append]
  rfl

/-! ### The condition -/

def inflightTotalLen (session : Session) : Nat :=
  session.inflight.length + session.inflightSpill.length

def receiveCap (session : Session) : Nat := max session.clientReceiveMax 1

def owns (shared : Shared) (connId : Nat) (session : Session) : Bool :=
  shared.sessions.connIndex.get? connId == some session.key

/-- A delivery that the cap lets pass fits under the cap together with the QoS 2 packets,
and is tracked. -/
def liveCounted (session : Session) (effective : QoS) : Bool :=
  receiveCap session ≤ inflightTotalLen session ||
    ((tracked session).length < receiveCap session && storeHasRoom session effective)

/-- How many queued messages a replay tracks. -/
def queuedQos2 (queue : List QueuedMessage) : Nat := queue.countP (·.qos == .exactlyOnce)

/-- An offline replay sends no QoS 1 message from the queue, and everything else that it
sends fits under the cap and is tracked. -/
def offlineCounted (session : Session) : Bool :=
  (session.inflight ++ session.inflightSpill).all (·.qos == .atLeastOnce) &&
    session.offlineQueue.all (·.qos != .atLeastOnce) &&
    (tracked session).length + queuedQos2 session.offlineQueue ≤ receiveCap session &&
    session.qos2Outbound.length + queuedQos2 session.offlineQueue ≤ maxQos2Inflight

/-- What is sent on the connection is tracked by the session of the connection and fits
under the cap, and no other connection acknowledges for it. A retained QoS 1 message is
never tracked. -/
def counted (connId : Nat) (shared : Shared) : Delivery → Bool
  | .live message _ sub =>
    let effective := QoS.min message.qos sub.qos
    effective == .atMostOnce ||
      (shared.sessions.sessions.get? { tenant := sub.tenant, clientId := sub.clientId }).elim
        (sub.connId != connId) fun session =>
          session.connId != some connId ||
            (owns shared connId session && liveCounted session effective)
  | .retained target clientId grant message =>
    let effective := QoS.min grant.qos message.qos
    effective == .atMostOnce || target != connId ||
      (replayTarget shared connId clientId).any fun session =>
        owns shared connId session &&
          (receiveCap session ≤ inflightTotalLen session ||
            (effective == .exactlyOnce && liveCounted session effective))
  | .offline target clientId =>
    target != connId || (replayTarget shared connId clientId).all fun session =>
      owns shared connId session && offlineCounted session
  | .puback target _ =>
    target == connId || (resolveSession shared target).all (!owns shared connId ·)
  | .pubrec _ _ => true
  | .pubcomp target _ =>
    target == connId || (resolveSession shared target).all (!owns shared connId ·)

/-! ### Packets within the cap -/

theorem sent_fresh (hPublish : IsPublish frame qos packetId false) (connId target : Nat)
    (packets : List Packet) : sent connId packets (target, frame) =
      if target ≠ connId ∨ qos = .atMostOnce then packets else (qos, packetId) :: packets := by
  obtain ⟨message, rfl, rfl, rfl, hDup⟩ := hPublish
  simp [sent, hDup]

structure Covered (packets : List Packet) (session : Session) (cap : Nat) : Prop where
  subperm : packets.Subperm (tracked session)
  le : packets.length ≤ cap

namespace Covered

variable {packets : List Packet} {session session' : Session} {cap : Nat}

section

variable (hCovered : Covered packets session cap)
include hCovered

theorem grow (hGrows : (tracked session).Subperm (tracked session')) :
    Covered packets session' cap :=
  ⟨hCovered.subperm.trans hGrows, hCovered.le⟩

theorem add (hTracked : (tracked session').Perm (packet :: tracked session))
    (hCap : (tracked session).length < cap) : Covered (packet :: packets) session' cap := by
  refine ⟨((List.subperm_cons packet).mpr hCovered.subperm).trans hTracked.symm.subperm, ?_⟩
  have hLength := hCovered.subperm.length_le
  rw [List.length_cons]
  omega

theorem ack (hTracked : (tracked session).erase packet = tracked session') :
    Covered (packets.erase packet) session' cap :=
  ⟨hTracked ▸ hCovered.subperm.erase packet,
    (List.erase_sublist.length_le).trans hCovered.le⟩

end

end Covered

variable {packets : List Packet} {session session' : Session} {cap connId : Nat} {key : SessionKey}
  {shared : Shared}

theorem Covered.sendOne (hCovered : Covered packets session cap)
    (hPublish : IsPublish frame qos packetId false)
    (hGrows : (tracked session).Subperm (tracked session'))
    (hTracked : qos ≠ .atMostOnce → (tracked session').Perm ((qos, packetId) :: tracked session) ∧
      (tracked session).length < cap) (connId : Nat) :
    Covered (sent connId packets (connId, frame)) session' cap := by
  grind [sent_fresh, grow, add]

theorem SameTracked.covered {before after : SessionManager} (hSame : SameTracked before after)
    (hGet : before.sessions.get? key = some session)
    (hGet' : after.sessions.get? key = some session') (hCovered : Covered packets session cap) :
    Covered packets session' cap := by
  have hTracked := hSame key
  rw [hGet, hGet', Option.map_some, Option.map_some, Option.some.injEq] at hTracked
  exact hCovered.grow (hTracked ▸ .refl _)

/-- A frame for another connection, or one of QoS 0, does not count. -/
theorem covered_silent (hCovered : Covered packets session cap) {frame : Option OutFrame}
    (hPublish : ∀ one, frame = some one → IsPublish one qos packetId false)
    (hReach : target ≠ connId ∨ qos = .atMostOnce) :
    Covered ((frame.toList.map fun frame => (target, frame)).foldl (sent connId) packets) session
      cap := by
  cases frame with
  | none => exact hCovered
  | some one =>
    show Covered (sent connId packets (target, one)) session cap
    rw [sent_fresh (hPublish one rfl), if_pos hReach]
    exact hCovered

variable {frames : List (Nat × OutFrame)} {delivery : Delivery} {effective : QoS}

theorem sent_elsewhere (hElsewhere : ∀ delivery ∈ frames, delivery.1 ≠ connId)
    (packets : List Packet) : frames.foldl (sent connId) packets = packets := by
  induction frames generalizing packets with
  | nil => rfl
  | cons delivery frames ih =>
    have hNe := hElsewhere delivery List.mem_cons_self
    have hOne : sent connId packets delivery = packets := by
      unfold sent
      split
      · next target message => rw [if_pos (by simp [hNe])]
      · rfl
    simp_all

theorem covered_resent
    (hWindow : ∀ held ∈ session.inflight ++ session.inflightSpill, held.qos = .atLeastOnce)
    (hCap : (tracked session).length ≤ cap)
    (hFrames : ∀ delivery ∈ frames, ∃ frame ∈ replayUnacked session, delivery = (connId, frame))
    (hPackets : packets.Subperm (tracked session)) :
    Covered (frames.foldl (sent connId) packets) session cap := by
  induction frames generalizing packets with
  | nil => exact ⟨hPackets, hPackets.length_le.trans hCap⟩
  | cons delivery frames ih =>
    obtain ⟨frame, hMem, rfl⟩ := hFrames delivery List.mem_cons_self
    refine ih (fun other hOther => hFrames other (List.mem_cons_of_mem _ hOther)) ?_
    obtain ⟨packetId, rfl⟩ | ⟨qos, packetId, hPublish, hTracked⟩ :=
      replayUnacked_tracked hWindow hMem
    · exact hPackets
    · obtain ⟨message, rfl, rfl, rfl, hDup⟩ := hPublish
      grind [sent, List.cons_subperm_of_not_mem_of_mem]

theorem queuedQos2_cons (queued : QueuedMessage) (rest : List QueuedMessage) :
    queuedQos2 (queued :: rest) =
      queuedQos2 rest + if queued.qos == .exactlyOnce then 1 else 0 :=
  List.countP_cons

/-- The drain loop, when its queue holds no QoS 1 message and its QoS 2 messages fit. -/
theorem covered_replayQueue {queue : List QueuedMessage} {replay : QueueReplay}
    (hReplay : replayQueue connId shared session queue = some replay)
    (hQueue : ∀ queued ∈ queue, queued.qos ≠ .atLeastOnce)
    (hCap : (tracked session).length + queuedQos2 queue ≤ cap)
    (hRoom : session.qos2Outbound.length + queuedQos2 queue ≤ maxQos2Inflight)
    (hCovered : Covered packets session cap) :
    Covered (replay.routed.foldl (sent connId) packets) replay.session cap := by
  induction queue generalizing shared session replay packets with
  | nil =>
    cases hReplay
    exact hCovered
  | cons queued rest ih =>
    obtain ⟨allocated, hAllocate, hRound⟩ := replayQueue_cons hReplay
    have hMoved := tracked_packetIdFor hAllocate
    have hTable : allocated.2.qos2Outbound = session.qos2Outbound := by
      rw [minor_packetIdFor hAllocate]
    have hRest' : ∀ other ∈ rest, other.qos ≠ .atLeastOnce :=
      fun other hMem => hQueue other (List.mem_cons_of_mem _ hMem)
    have hCovered' : Covered packets allocated.2 cap := hCovered.grow (hMoved ▸ .refl _)
    rw [queuedQos2_cons] at hCap hRoom
    obtain ⟨shared', replay', -, hRest, rfl⟩ | ⟨shared', frame, replay', -, hFrame, hRest, rfl⟩ :=
      hRound
    · grind
    · have hPublish : IsPublish frame queued.qos allocated.1 false := isPublish_of_newFrame hFrame
      have hTable' := replayTracked_table allocated.2 queued allocated.1
      rw [hTable] at hTable'
      have hSent : Covered (sent connId packets (connId, frame))
            (replayTracked allocated.2 queued allocated.1) cap ∧
          (tracked (replayTracked allocated.2 queued allocated.1)).length ≤
            (tracked session).length + if queued.qos == .exactlyOnce then 1 else 0 := by
        cases hQos : queued.qos with
        | atMostOnce =>
          have hSame : replayTracked allocated.2 queued allocated.1 = allocated.2 := by
            rw [replayTracked, if_neg (by simp [hQos])]
          rw [hSame, hMoved, sent_fresh hPublish, if_pos (Or.inr hQos)]
          exact ⟨hCovered', Nat.le_add_right _ _⟩
        | atLeastOnce => exact absurd hQos (hQueue queued List.mem_cons_self)
        | exactlyOnce =>
          have hId : allocated.1 ≠ 0 :=
            packetIdFor_ne_zero hAllocate (by rw [hQos]; decide)
          rw [hQos] at hPublish hCap hRoom
          simp only [beq_self_eq_true, if_true] at hCap hRoom
          have hTracked := tracked_replayTracked hQos hId (by rw [hTable]; omega)
          refine ⟨hCovered'.sendOne hPublish (subperm_replayTracked _ _ _)
            (fun _ => ⟨hTracked, by rw [hMoved]; omega⟩) connId, ?_⟩
          rw [hTracked.length_eq, List.length_cons, hMoved]
          exact Nat.le_refl _
      have hTail := ih hRest hRest' (by omega) (by omega) hSent.1
      exact hTail

/-! ### One delivery -/

structure OnConnection (connId : Nat) (key : SessionKey) (cap : Nat) (shared : Shared)
    (session : Session) : Prop where
  entry : shared.sessions.connIndex.get? connId = some key
  stored : shared.sessions.sessions.get? key = some session
  bound : session.connId = some connId
  version : session.protocolVersion = 5
  cap : receiveCap session = cap

theorem deliveryStep_views {result : Shared × List (Nat × OutFrame)}
    (hStep : deliveryStep shared delivery = some result) :
    SameViews shared.sessions result.1.sessions := by
  cases delivery with
  | live message now sub =>
    obtain ⟨delivered, hDeliver, rfl⟩ := Option.map_eq_some_iff.mp hStep
    rw [routeAll_sessions]
    exact sameViews_quiet.deliver hDeliver
  | retained connId clientId grant message =>
    obtain ⟨delivered, hDeliver, rfl⟩ := Option.map_eq_some_iff.mp hStep
    exact sameViews_quiet.deliverRetained hDeliver
  | offline connId clientId => exact sameViews_quiet.replayOfflineClient hStep
  | puback connId packetId =>
    cases hStep
    exact sameViews_quiet.applyPuback shared connId packetId
  | pubrec connId packetId =>
    cases hStep
    exact sameViews_quiet.applyQos2Pubrec shared connId packetId
  | pubcomp connId packetId =>
    cases hStep
    exact sameViews_quiet.applyQos2Pubcomp shared connId packetId

section

variable (hOn : OnConnection connId key cap shared session)
include hOn

theorem OnConnection.next {after : Shared} (hViews : SameViews shared.sessions after.sessions) :
    ∃ session', OnConnection connId key cap after session' := by
  obtain ⟨session', hGet, hView⟩ := hViews.get? hOn.stored
  simp only [view, BindingView.mk.injEq] at hView
  refine ⟨session', ?_, hGet, by simp [hView, hOn.bound], by simp [hView, hOn.version], ?_⟩
  · rw [hViews.index]
    exact hOn.entry
  · simp only [← hOn.cap, receiveCap, hView]

theorem OnConnection.owner (hOwns : owns shared connId found = true) : found.key = key := by
  rw [owns, beq_iff_eq, hOn.entry] at hOwns
  exact (Option.some.inj hOwns).symm

theorem OnConnection.unique (hStored : shared.sessions.sessions.get? found.key = some found)
    (hKey : found.key = key) : found = session := by
  rw [hKey, hOn.stored] at hStored
  exact (Option.some.inj hStored).symm

end

theorem put_unique {sessions : SessionMap} (hLeftKey : left.key = key)
    (hGet' : (sessions.put left).get? key = some session') : left = session' := by
  rw [KeyedMap.get?_put_of_key _ hLeftKey] at hGet'
  exact Option.some.inj hGet'

theorem OnConnection.putGrows (hOn : OnConnection connId key cap shared session)
    (hStored : shared.sessions.sessions.get? found.key = some found)
    (hLeftKey : left.key = found.key) (hGrows : (tracked found).Subperm (tracked left))
    (hGet' : (shared.sessions.sessions.put left).get? key = some session')
    (hCovered : Covered packets session cap) : Covered packets session' cap := by
  by_cases hKey : found.key = key
  · obtain rfl := hOn.unique hStored hKey
    rw [KeyedMap.get?_put_of_key _ (hLeftKey.trans hKey)] at hGet'
    cases hGet'
    exact hCovered.grow hGrows
  · rw [KeyedMap.get?_put_ne (by rw [hLeftKey]; exact fun hEq => hKey hEq.symm),
      hOn.stored] at hGet'
    cases hGet'
    exact hCovered

theorem inflightTotalLen_lt {topicLength payloadLength : Nat}
    (hVersion : session.protocolVersion = 5) (hQos : effective ≠ .atMostOnce)
    (hSent : v5EgressRefused session effective topicLength payloadLength = false) :
    inflightTotalLen session < receiveCap session := by
  by_contra hFull
  have hRefused : v5EgressRefused session effective topicLength payloadLength = true := by
    rw [v5EgressRefused, if_neg (by simp [hVersion]), if_pos]
    simp only [Bool.and_eq_true, bne_iff_ne, decide_eq_true_eq]
    exact ⟨hQos, Nat.le_of_not_lt hFull⟩
  rw [hSent] at hRefused
  cases hRefused

theorem room_of_liveCounted (hCounted : liveCounted session effective = true)
    (hBelow : inflightTotalLen session < receiveCap session) :
    (tracked session).length < receiveCap session ∧ storeHasRoom session effective = true := by
  grind [liveCounted]

theorem routed_option (shared : Shared) (connId : Nat) (packets : List Packet)
    (delivery : Option (Nat × OutFrame)) :
    (routeAll shared delivery.toList).2.foldl (sent connId) packets = packets ∨
      ∃ sentOne, delivery = some sentOne ∧
        (routeAll shared delivery.toList).2.foldl (sent connId) packets =
          sent connId packets sentOne := by
  cases delivery with
  | none => exact Or.inl rfl
  | some sentOne => grind [routeAll]

theorem acks_counted
    (hCounted : (target == connId || (resolveSession shared target).all (!owns shared connId ·)) =
      true) : target = connId ∨
      ∀ found, resolveSession shared target = some found → owns shared connId found = false := by
  grind

/-- A stored session sends a packet. On the connection itself the packet has to be one that its
session tracks, within the cap. -/
theorem OnConnection.delivered (hOn : OnConnection connId key cap shared session)
    (hCovered : Covered packets session cap)
    (hStored : shared.sessions.sessions.get? found.key = some found)
    (hLeftKey : left.key = found.key) (hGrows : (tracked found).Subperm (tracked left))
    (hGet' : (shared.sessions.sessions.put left).get? key = some session')
    (hPublish : IsPublish frame qos packetId false)
    (hTracked : target = connId → qos ≠ .atMostOnce → owns shared connId found = true ∧
      (found.protocolVersion = 5 → (tracked left).Perm ((qos, packetId) :: tracked found) ∧
      (tracked found).length < receiveCap found)) :
    Covered (sent connId packets (target, frame)) session' cap := by
  by_cases hReach : target ≠ connId ∨ qos = .atMostOnce
  · grind [sent_fresh, OnConnection.putGrows]
  · push Not at hReach
    obtain ⟨rfl, hQos⟩ := hReach
    obtain ⟨hOwns, hPacket⟩ := hTracked rfl hQos
    have hKey := hOn.owner hOwns
    obtain rfl := hOn.unique hStored hKey
    obtain rfl := put_unique (hLeftKey.trans hKey) hGet'
    have hFits := hPacket hOn.version
    rw [hOn.cap] at hFits
    exact hCovered.sendOne hPublish hGrows (fun _ => hFits) target

section Step

variable {connId : Nat} {key : SessionKey} {cap : Nat} {shared after : Shared}
  {session session' : Session} {packets : List Packet} {frames : List (Nat × OutFrame)}
  (hOn : OnConnection connId key cap shared session) (hCovered : Covered packets session cap)
  (hGet' : after.sessions.sessions.get? key = some session')
include hOn hCovered hGet'

/-- A round of the fan-out. -/
theorem covered_live {message : Ingress} {now : Nat} {sub : Subscription}
    (hStep : deliveryStep shared (.live message now sub) = some (after, frames))
    (hCounted : counted connId shared (.live message now sub) = true) :
    Covered (frames.foldl (sent connId) packets) session' cap := by
  obtain ⟨result, hDeliver, hResult⟩ := Option.map_eq_some_iff.mp hStep
  have hAfter : after.sessions = result.1 := by grind [routeAll_sessions]
  have hFrames : (routeAll { shared with sessions := result.1 } result.2.toList).2 = frames :=
    congrArg Prod.snd hResult
  rw [hAfter] at hGet'
  rw [← hFrames]
  obtain rfl | ⟨found, target, delivered, hFound, -, hTarget, hSent, hLive, rfl⟩ |
    ⟨found, hFound, -, rfl⟩ | ⟨hNone, out, hQos, hDup, rfl⟩ := deliver_cases hDeliver
  · exact SameTracked.covered (fun _ => rfl) hOn.stored hGet' hCovered
  · obtain ⟨packetId, hPublish, hGrows, hTracked⟩ := deliverLive_inv hLive
    have hStored := stored_of_get? hFound
    have hLeftKey : delivered.1.key = found.key := key_of_view (view_deliverLive hLive)
    obtain hSilent | ⟨sentOne, hSentOne, hSend⟩ := routed_option
      { shared with sessions := shared.sessions.putSession delivered.1 } connId packets
        (delivered.2.map fun frame => (target, frame))
    · rw [hSilent]
      exact hOn.putGrows hStored hLeftKey hGrows hGet' hCovered
    · rw [hSend]
      obtain ⟨frame, hFrame, rfl⟩ := Option.map_eq_some_iff.mp hSentOne
      apply hOn.delivered hCovered hStored hLeftKey hGrows hGet' (hPublish frame hFrame)
      grind [counted, room_of_liveCounted, inflightTotalLen_lt]
  · exact (SameTracked.deliverDetached (stored_of_get? hFound)).covered hOn.stored hGet' hCovered
  · rw [hOn.stored] at hGet'
    cases hGet'
    obtain hSilent | ⟨sentOne, hSentOne, hSend⟩ := routed_option shared connId packets
      ((encodePublishOut out).map fun frame => (sub.connId, frame))
    · rw [hSilent]
      exact hCovered
    · obtain ⟨frame, hFrame, rfl⟩ := Option.map_eq_some_iff.mp hSentOne
      unfold encodePublishOut at hFrame
      have hPublish := isPublish_of_newFrame hFrame
      simp only [hQos, hDup] at hPublish
      rw [hSend, sent_fresh hPublish, if_pos]
      · exact hCovered
      · grind [counted]

/-- A round of the retained replay. -/
theorem covered_retained {grant : GrantedSub} {message : RetainedMessage}
    (hStep : deliveryStep shared (.retained target clientId grant message) = some (after, frames))
    (hCounted : counted connId shared (.retained target clientId grant message) = true) :
    Covered (frames.foldl (sent connId) packets) session' cap := by
  obtain ⟨result, hDeliver, hResult⟩ := Option.map_eq_some_iff.mp hStep
  obtain ⟨rfl, rfl⟩ := Prod.mk.inj hResult
  have hAllowed (hTarget : target = connId)
      (hQos : QoS.min grant.qos message.qos ≠ .atMostOnce) :
      ∃ found, replayTarget shared connId clientId = some found ∧
        owns shared connId found = true ∧ (receiveCap found ≤ inflightTotalLen found ∨
          QoS.min grant.qos message.qos = .exactlyOnce ∧
            liveCounted found (QoS.min grant.qos message.qos) = true) := by
    simpa [counted, hQos, hTarget, Option.any_eq_true] using hCounted
  cases hFound : replayTarget shared target clientId with
  | none =>
    rw [hFound] at hDeliver
    cases hDeliver
    rw [hOn.stored] at hGet'
    cases hGet'
    refine covered_silent hCovered (fun frame hFrame => isPublish_of_newFrame hFrame) ?_
    grind
  | some found =>
    rw [hFound] at hDeliver
    have hStored := replayTarget_stored hFound
    obtain rfl | ⟨packetId, left, hLeft, hLeftKey, hSent, hPublish, hGrows, hTracked⟩ :=
      deliverRetained_inv hStored hDeliver
    · rw [hOn.stored] at hGet'
      cases hGet'
      exact hCovered
    · rw [hLeft] at hGet'
      cases hFrame : result.2 with
      | none => exact hOn.putGrows hStored hLeftKey hGrows hGet' hCovered
      | some frame =>
        apply hOn.delivered hCovered hStored hLeftKey hGrows hGet' (hPublish frame hFrame)
        rintro rfl hQos
        obtain ⟨found', hFound', hOwns, hFits⟩ := hAllowed rfl hQos
        rw [hFound] at hFound'
        cases hFound'
        refine ⟨hOwns, fun hVersion => ?_⟩
        have hBelow := inflightTotalLen_lt hVersion hQos hSent
        obtain hFull | ⟨hTwo, hFits⟩ := hFits
        · omega
        · obtain ⟨hBelow, hRoom⟩ := room_of_liveCounted hFits hBelow
          simp_all [storeHasRoom]

theorem covered_offline
    (hStep : deliveryStep shared (.offline target clientId) = some (after, frames))
    (hCounted : counted connId shared (.offline target clientId) = true) :
    Covered (frames.foldl (sent connId) packets) session' cap := by
  change replayOfflineClient shared target clientId = some (after, frames) at hStep
  cases hFound : replayTarget shared target clientId with
  | none =>
    simp only [replayOfflineClient, hFound, Option.some.injEq] at hStep
    obtain ⟨rfl, rfl⟩ := Prod.mk.inj hStep
    rw [hOn.stored] at hGet'
    cases hGet'
    exact hCovered
  | some found =>
    have hStored := replayTarget_stored hFound
    obtain ⟨shared', first, replay, left, hQueue, hFirst, hFrames, hSessions, hLeftKey, hLeft⟩ :=
      replayOfflineClient_inv hFound hStep
    simp only at hFrames hSessions
    rw [hSessions] at hGet'
    by_cases hTarget : target = connId
    · obtain rfl := hTarget
      have hAllowed : owns shared target found = true ∧ offlineCounted found = true := by
        simpa [counted, hFound] using hCounted
      have hKey := hOn.owner hAllowed.1
      obtain rfl := hOn.unique hStored hKey
      obtain rfl := put_unique (hLeftKey.trans hKey) hGet'
      have hFits := hAllowed.2
      simp only [offlineCounted, Bool.and_eq_true, List.all_eq_true, beq_iff_eq, bne_iff_ne,
        decide_eq_true_eq, hOn.cap] at hFits
      obtain ⟨⟨⟨hWindow, hQos⟩, hCap⟩, hRoom⟩ := hFits
      have hResent : Covered (first.foldl (sent target) packets) found cap :=
        covered_resent hWindow (by omega) hFirst hCovered.subperm
      have hDrained := covered_replayQueue hQueue hQos hCap hRoom ⟨hResent.subperm, hResent.le⟩
      rw [hFrames, List.foldl_append]
      exact hDrained.grow (hLeft ▸ .refl _)
    · have hElsewhere : ∀ delivery ∈ frames, delivery.1 ≠ connId := by
        intro delivery hMem
        grind [replayQueue_target]
      rw [sent_elsewhere hElsewhere]
      have hGrows : (tracked found).Subperm (tracked left) := by
        have hDrained := subperm_replayQueue hQueue
        rw [hLeft]
        exact hDrained
      exact hOn.putGrows hStored hLeftKey hGrows hGet' hCovered

theorem covered_ack (change : Session → Session)
    (hAfter : after = (resolveSession shared target).elim shared fun found => shared.putSession
      (change found)) (hKeys : ∀ found, (change found).key = found.key)
    (hTracked : ∀ found, (tracked found).erase packet = tracked (change found))
    (hCounted : target = connId ∨ ∀ found, resolveSession shared target = some found → owns shared
      connId found = false) :
    Covered (if target == connId then packets.erase packet else packets) session' cap := by
  by_cases hTarget : target = connId
  · obtain rfl := hTarget
    have hResolve : resolveSession shared target = some session := by
      have hOwner : shared.sessions.sessionForConn target = some session := by
        rw [SessionManager.sessionForConn, hOn.entry, Option.bind_some, hOn.stored]
      rw [resolveSession, hOwner, Option.some_or]
    have hOwn : (change session).key = key :=
      (hKeys session).trans (KeyedMap.key_of_get? hOn.stored)
    rw [hAfter, hResolve] at hGet'
    obtain rfl := put_unique hOwn hGet'
    rw [if_pos (beq_self_eq_true target)]
    exact hCovered.ack (hTracked session)
  · rw [if_neg (by simpa using hTarget)]
    have hUnowned := hCounted.resolve_left hTarget
    cases hResolve : resolveSession shared target with
    | none =>
      rw [hAfter, hResolve, Option.elim_none, hOn.stored] at hGet'
      cases hGet'
      exact hCovered
    | some found =>
      have hNe : found.key ≠ key := by
        intro hKey
        have hOwns := hUnowned found hResolve
        simp [owns, hOn.entry, hKey] at hOwns
      rw [hAfter, hResolve, Option.elim_some] at hGet'
      have hStays : (shared.putSession (change found)).sessions.sessions.get? key =
          shared.sessions.sessions.get? key :=
        KeyedMap.get?_put_ne (by rw [hKeys]; exact hNe.symm)
      rw [hStays, hOn.stored] at hGet'
      cases hGet'
      exact hCovered

theorem covered_step (hStep : deliveryStep shared delivery = some (after, frames))
    (hCounted : counted connId shared delivery = true) :
    Covered (frames.foldl (sent connId) (afterAck connId packets delivery)) session' cap := by
  cases delivery with
  | live message now sub => exact covered_live hOn hCovered hGet' hStep hCounted
  | retained target clientId grant message =>
    exact covered_retained hOn hCovered hGet' hStep hCounted
  | offline target clientId => exact covered_offline hOn hCovered hGet' hStep hCounted
  | puback target packetId =>
    cases hStep
    refine covered_ack hOn hCovered hGet' (fun found => (found.ackInflightTimed packetId).1) ?_
      (fun found => key_of_view (minor_ackInflightTimed found packetId).view)
      (fun found => tracked_ackInflightTimed found packetId) (acks_counted hCounted)
    grind [applyPuback]
  | pubrec target packetId =>
    have hResult : ((applyQos2Pubrec shared target packetId).1,
        (applyQos2Pubrec shared target packetId).2.replies.map fun frame => (target, frame)) =
          (after, frames) := Option.some.inj hStep
    obtain ⟨rfl, rfl⟩ := Prod.mk.inj hResult
    have hSame : SameTracked shared.sessions (applyQos2Pubrec shared target packetId).1.sessions := by
      unfold applyQos2Pubrec
      split
      · next found hResolve =>
        exact .putSession (resolveSession_stored hResolve) rfl
          (tracked_completeQos2Pubrec found packetId)
      · exact fun _ => rfl
    have hSilent : ((applyQos2Pubrec shared target packetId).2.replies.map fun frame =>
        (target, frame)).foldl (sent connId) packets = packets := by
      unfold applyQos2Pubrec
      split
      · simp only
        split <;> rfl
      · rfl
    show Covered (List.foldl (sent connId) packets _) session' cap
    rw [hSilent]
    exact hSame.covered hOn.stored hGet' hCovered
  | pubcomp target packetId =>
    cases hStep
    refine covered_ack hOn hCovered hGet' (fun found => (found.ackQos2Pubcomp packetId).1) ?_
      (fun _ => rfl) (fun found => tracked_ackQos2Pubcomp found packetId)
      (acks_counted hCounted)
    grind [applyQos2Pubcomp]

end Step

/-- In every run of deliveries and acknowledgements that are all counted, the packets on
their way to a version 5 client never exceed its Receive Maximum. -/
theorem receive_maximum_kept {start last : Shared} {run : List Delivered}
    (hRun : Run deliveryStep start run last) {connId : Nat} {key : SessionKey} {session : Session}
    (hEntry : start.sessions.connIndex.get? connId = some key)
    (hStored : start.sessions.sessions.get? key = some session)
    (hConn : session.connId = some connId) (hVersion : session.protocolVersion = 5)
    (hCounted : ∀ t ∈ run, counted connId t.before t.input = true) :
    (unacknowledged connId run).length ≤ receiveCap session := by
  have hAll : ∃ current, OnConnection connId key (receiveCap session) last current ∧
      Covered (unacknowledged connId run) current (receiveCap session) := by
    refine hRun.history (P := fun run shared => ∃ current,
      OnConnection connId key (receiveCap session) shared current ∧
        Covered (unacknowledged connId run) current (receiveCap session)) ?_ ?_
    · exact ⟨session, ⟨hEntry, hStored, hConn, hVersion, rfl⟩, List.nil_subperm, Nat.zero_le _⟩
    · rintro front t hMem hStep ⟨current, hOn, hCovered⟩
      obtain ⟨current', hOn'⟩ := hOn.next (deliveryStep_views hStep)
      refine ⟨current', hOn', ?_⟩
      rw [unacknowledged_snoc]
      exact covered_step hOn hCovered hOn'.stored hStep (hCounted t hMem)
  obtain ⟨current, -, hCovered⟩ := hAll
  exact hCovered.le

def connectsReceiver : Env × Event :=
  (Env.plain, .bind 7 (.ok { plainRequest "meter".toList with
    protocolVersion := 5, receiveMaximum := 1 }) true)

def liveTo (qos : QoS) : Delivery :=
  .live
    { topic := topicA, qos, retain := false, payload := [42], publisher := none,
      tenant := defaultTenantId, props := .empty } 0
    { clientId := "meter".toList, connId := 7, qos, group := none, tenant := defaultTenantId,
      noLocal := false, retainAsPublished := true, retainHandling := 0, subscriptionId := 0 }

def filterA : TopicFilter := ⟨"a".toList, rfl⟩

def retainedTo : Delivery :=
  .retained 7 "meter".toList
    { filter := filterA, qos := .atLeastOnce, subId := 0, sendRetained := true }
    { topic := topicA, qos := .atLeastOnce, payload := [42] }

structure ReceiverRun (deliveries : List Delivery) (start : Shared) (session : Session)
    (run : List Delivered) : Prop where
  connected : ∃ past, Run step (.start .new) past start ∧ past.map (·.input) = [connectsReceiver]
  entry : start.sessions.connIndex.get? 7 = some meter
  stored : start.sessions.sessions.get? meter = some session
  bound : session.connId = some 7
  version : session.protocolVersion = 5
  runs : ∃ last, Run deliveryStep start run last
  inputs : run.map (·.input) = deliveries

theorem receiverRun_of_exec {P : Session → List Delivered → Prop} (deliveries : List Delivery)
    (hFacts : ∃ connected ∈ exec step (.start .new) [connectsReceiver],
      connected.2.sessions.connIndex.get? 7 = some meter ∧
      ∃ session ∈ connected.2.sessions.sessions.get? meter,
        session.connId = some 7 ∧ session.protocolVersion = 5 ∧
        ∃ result ∈ exec deliveryStep connected.2 deliveries, P session result.1) :
    ∃ start session run, ReceiverRun deliveries start session run ∧ P session run := by
  obtain ⟨⟨past, start⟩, hPast, hEntry, session, hStored, hBound, hVersion, ⟨run, last⟩, hExec,
    hSeen⟩ := hFacts
  exact ⟨start, session, run, ⟨⟨past, Run.of_exec hPast, inputs_of_exec hPast⟩, hEntry, hStored,
    hBound, hVersion, ⟨last, Run.of_exec hExec⟩, inputs_of_exec hExec⟩, hSeen⟩

/-- At QoS 1 the second message is held back until the first is acknowledged. -/
theorem receiver_kept :
    ∃ start session run, ReceiverRun [liveTo .atLeastOnce, liveTo .atLeastOnce, .puback 7 1,
        liveTo .atLeastOnce] start session run ∧ receiveCap session = 1 ∧
      unacknowledged 7 run ≠ [] ∧ (unacknowledged 7 run).length ≤ 1 := by
  obtain ⟨start, session, run, hRun, hCap, hSome, hAll⟩ := receiverRun_of_exec
    (P := fun session run => receiveCap session = 1 ∧ unacknowledged 7 run ≠ [] ∧
      ∀ t ∈ run, counted 7 t.before t.input = true)
    [liveTo .atLeastOnce, liveTo .atLeastOnce, .puback 7 1, liveTo .atLeastOnce]
    (by decide +kernel)
  obtain ⟨last, hRuns⟩ := hRun.runs
  have hKept := receive_maximum_kept hRuns hRun.entry hRun.stored hRun.bound hRun.version hAll
  rw [hCap] at hKept
  exact ⟨start, session, run, hRun, hCap, hSome, hKept⟩

def Exceeds (deliveries : List Delivery) : Prop :=
  ∃ start session run, ReceiverRun deliveries start session run ∧
    receiveCap session < (unacknowledged 7 run).length

/-- At QoS 2, and with retained messages of QoS 1, the second message is sent at once. -/
theorem receiver_exceeded :
    Exceeds [liveTo .exactlyOnce, liveTo .exactlyOnce] ∧ Exceeds [retainedTo, retainedTo] :=
  ⟨receiverRun_of_exec _ (by decide +kernel), receiverRun_of_exec _ (by decide +kernel)⟩

end IndraMqtt.Kernel
