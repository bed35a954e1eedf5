import IndraMqtt.Kernel.Custody

/-! What a session tracks of the QoS 1 and QoS 2 packets on their way to its client, and
what each delivery and each acknowledgement does to it. -/
namespace IndraMqtt.Kernel

open Protocol Sessions

variable {connId : Nat} {frame : OutFrame} {session : Session} {shared : Shared} {packetId : UInt16}

/-! ### The packets -/

abbrev Packet := QoS × UInt16

def tracked (session : Session) : List Packet :=
  session.inflight.map (fun held => (.atLeastOnce, held.packetId)) ++
    session.inflightSpill.map (fun held => (.atLeastOnce, held.packetId)) ++
    session.qos2Outbound.map (fun held => (.exactlyOnce, held.packetId))

theorem tracked_packetIdFor {qos : QoS} {allocated : UInt16 × Session}
    (hAllocate : packetIdFor session qos = some allocated) :
    tracked allocated.2 = tracked session := by
  obtain ⟨counter, hMoved⟩ := packetIdFor_moves hAllocate
  rw [hMoved]
  rfl

theorem tracked_outboundAlias (session : Session) (topic : Topic) :
    tracked (outboundAlias session topic).1 = tracked session := by
  unfold outboundAlias
  split
  · rfl
  · split <;> rfl

def hasRoom (session : Session) : Bool :=
  session.inflight.length < max session.maxInflight 1 ||
    session.inflightSpill.length < max session.maxSpill 1

theorem tracked_trackInflightOrSpill (hRoom : hasRoom session = true) (message : InflightMessage) :
    (tracked (session.trackInflightOrSpill message).1).Perm
      ((.atLeastOnce, message.packetId) :: tracked session) := by
  grind [hasRoom, Session.trackInflightOrSpill, tracked]

theorem subperm_trackInflightOrSpill (session : Session) (message : InflightMessage) :
    (tracked session).Subperm (tracked (session.trackInflightOrSpill message).1) := by
  by_cases hRoom : hasRoom session = true
  · exact (List.sublist_cons_self _ _).subperm.trans
      (tracked_trackInflightOrSpill hRoom message).symm.subperm
  · simp only [hasRoom, Bool.or_eq_true, decide_eq_true_eq, not_or, not_lt] at hRoom
    rw [Session.trackInflightOrSpill, if_neg (by omega), if_pos hRoom.2]

theorem tracked_trackQos2Outbound (hRoom : session.qos2Outbound.length < maxQos2Inflight)
    (entry : Qos2OutboundEntry) : (tracked (session.trackQos2Outbound entry).1).Perm
      ((.exactlyOnce, entry.packetId) :: tracked session) := by
  grind [Session.trackQos2Outbound, tracked]

theorem subperm_trackQos2Outbound (session : Session) (entry : Qos2OutboundEntry) :
    (tracked session).Subperm (tracked (session.trackQos2Outbound entry).1) := by
  by_cases hRoom : session.qos2Outbound.length < maxQos2Inflight
  · exact (List.sublist_cons_self _ _).subperm.trans
      (tracked_trackQos2Outbound hRoom entry).symm.subperm
  · rw [Session.trackQos2Outbound, if_pos (by omega)]

theorem map_eraseP_packetId {A : Type} (held : List A) (qos : QoS) (idOf : A → UInt16)
    (packetId : UInt16) : (held.eraseP (idOf · == packetId)).map (fun entry => (qos, idOf entry)) =
      (held.map fun entry => (qos, idOf entry)).erase (qos, packetId) := by
  rw [List.erase_eq_eraseP, List.eraseP_map]
  congr 2
  funext entry
  simp [Function.comp, eq_comm]

section

variable (session : Session) (packetId : UInt16)

/-- An acknowledged QoS 1 message leaves the window or the spill. -/
theorem tracked_ackInflightTimed : (tracked session).erase (.atLeastOnce, packetId) =
      tracked (session.ackInflightTimed packetId).1 := by
  have hWindow := map_eraseP_packetId session.inflight .atLeastOnce (·.packetId) packetId
  have hSpill := map_eraseP_packetId session.inflightSpill .atLeastOnce (·.packetId) packetId
  unfold Session.ackInflightTimed
  cases hFind : session.inflight.find? (·.packetId == packetId) with
  | some entry =>
    grind [tracked]
  | none => grind [tracked, List.erase_of_not_mem]

/-- A completed QoS 2 message leaves the table. -/
theorem tracked_ackQos2Pubcomp : (tracked session).erase (.exactlyOnce, packetId) =
      tracked (session.ackQos2Pubcomp packetId).1 := by
  have hTable := map_eraseP_packetId session.qos2Outbound .exactlyOnce (·.packetId) packetId
  rw [tracked, List.erase_append_right _ (by simp), ← hTable]
  rfl

theorem tracked_completeQos2Pubrec :
    tracked (session.completeQos2Pubrec packetId).1 = tracked session := by
  have hIds (table : List Qos2OutboundEntry) :
      (Session.markRecReceived packetId table).map (fun held => (QoS.exactlyOnce, held.packetId)) =
        table.map (fun held => (QoS.exactlyOnce, held.packetId)) := by
    induction table with
    | nil => rfl
    | cons entry rest ih => grind [Session.markRecReceived]
  show _ ++ (Session.markRecReceived packetId session.qos2Outbound).map _ = _
  rw [hIds]
  rfl

end

def SameTracked (before after : SessionManager) : Prop :=
  ∀ key, (after.sessions.get? key).map tracked = (before.sessions.get? key).map tracked

theorem SameTracked.putSession {manager : SessionManager} {session' : Session}
    (hStored : manager.sessions.get? session.key = some session) (hKey : session'.key = session.key)
    (hTracked : tracked session' = tracked session) :
    SameTracked manager (manager.putSession session') := by
  intro key
  show ((manager.sessions.put session').get? key).map tracked = _
  grind

/-! ### Live and retained deliveries -/

def IsPublish (frame : OutFrame) (qos : QoS) (packetId : UInt16) (dup : Bool) : Prop :=
  ∃ message, frame = .publishOut message ∧ message.qos = qos ∧ message.packetId = packetId ∧
    message.dup = dup

theorem isPublish_of_newFrame {metaLength payloadLength : Nat} {message : PublishOut}
    (hFrame : newFrame metaLength payloadLength (.publishOut message) = some frame) :
    IsPublish frame message.qos message.packetId message.dup := by
  unfold newFrame at hFrame
  split at hFrame
  · cases hFrame
    exact ⟨message, rfl, rfl, rfl, rfl⟩
  · cases hFrame

def storeHasRoom (session : Session) : QoS → Bool
  | .atMostOnce => true
  | .atLeastOnce => hasRoom session
  | .exactlyOnce => session.qos2Outbound.length < maxQos2Inflight

variable {message : Ingress} {effective : QoS} {retain : Bool} {queue : List QueuedMessage}
  {replay : QueueReplay}

theorem SameTracked.deliverDetached {sessions : SessionManager} {now : Nat}
    (hStored : sessions.sessions.get? session.key = some session) :
    SameTracked sessions (deliverDetached sessions session message effective retain now) := by
  unfold Kernel.deliverDetached
  split
  · exact fun _ => rfl
  · apply SameTracked.putSession hStored (key_of_view (view_pushOfflineWithLimit _ _ _ _ _))
    grind [Session.pushOfflineWithLimit, tracked]

theorem deliverLive_inv {subscriptionId : Nat} {delivered : Session × Option OutFrame}
    (hLive : deliverLive session message effective retain subscriptionId = some delivered) :
    ∃ packetId, (∀ frame, delivered.2 = some frame → IsPublish frame effective packetId false) ∧
      (tracked session).Subperm (tracked delivered.1) ∧
      (effective ≠ .atMostOnce → storeHasRoom session effective = true →
        (tracked delivered.1).Perm ((effective, packetId) :: tracked session)) := by
  obtain ⟨⟨packetId, moved⟩, hAllocate, rfl⟩ := Option.map_eq_some_iff.mp hLive
  have hMoved := tracked_packetIdFor hAllocate
  obtain ⟨counter, hCounter⟩ := packetIdFor_moves hAllocate
  simp only at hMoved hCounter
  refine ⟨packetId, fun frame hFrame => isPublish_of_newFrame hFrame, ?_, ?_⟩
  · show (tracked session).Subperm (tracked (outboundAlias _ _).1)
    rw [tracked_outboundAlias, ← hMoved]
    cases effective with
    | atMostOnce => exact .refl _
    | atLeastOnce => exact subperm_trackInflightOrSpill moved _
    | exactlyOnce => exact subperm_trackQos2Outbound moved _
  · intro hQos hRoom
    show (tracked (outboundAlias _ _).1).Perm _
    rw [tracked_outboundAlias, ← hMoved]
    cases effective with
    | atMostOnce => exact absurd rfl hQos
    | atLeastOnce =>
      have hMovedRoom : hasRoom moved = true := by
        rw [hCounter]
        exact hRoom
      exact tracked_trackInflightOrSpill hMovedRoom _
    | exactlyOnce =>
      have hMovedRoom : moved.qos2Outbound.length < maxQos2Inflight := by
        rw [hCounter]
        simpa [storeHasRoom] using hRoom
      exact tracked_trackQos2Outbound hMovedRoom _

/-- What a round of the retained replay does with the session that it found. -/
theorem deliverRetained_inv {target : Session} {grant : GrantedSub} {message : RetainedMessage}
    {result : Shared × Option OutFrame}
    (hStored : shared.sessions.sessions.get? target.key = some target)
    (hDeliver : deliverRetained shared (some target.key) grant message = some result) :
    let effective := QoS.min grant.qos message.qos
    (result = (shared, none)) ∨
      ∃ packetId left, result.1 = shared.putSession left ∧ left.key = target.key ∧
        v5EgressRefused target effective (Str.len message.topic.text) message.payload.length =
          false ∧
        (∀ frame, result.2 = some frame → IsPublish frame effective packetId false) ∧
        (tracked target).Subperm (tracked left) ∧
        (effective = .exactlyOnce → target.qos2Outbound.length < maxQos2Inflight →
          (tracked left).Perm ((effective, packetId) :: tracked target)) := by
  intro effective
  unfold deliverRetained at hDeliver
  simp only [Option.bind_some, hStored] at hDeliver
  split at hDeliver
  · cases hDeliver
    exact Or.inl rfl
  · next hSent =>
    obtain ⟨⟨packetId, moved⟩, hAllocate, rfl⟩ := Option.map_eq_some_iff.mp hDeliver
    have hMoved := tracked_packetIdFor hAllocate
    have hView := (minor_packetIdFor hAllocate).view
    obtain ⟨counter, hCounter⟩ := packetIdFor_moves hAllocate
    simp only at hMoved hView hCounter
    refine Or.inr ⟨packetId, _, rfl, ?_, Bool.eq_false_iff.mpr hSent,
      fun frame hFrame => isPublish_of_newFrame hFrame, ?_, ?_⟩
    · grind [key_of_view, view_trackQos2Outbound]
    · rw [← hMoved]
      simp only
      split
      · exact subperm_trackQos2Outbound moved _
      · exact .refl _
    · grind [tracked_trackQos2Outbound]

/-! ### Offline replays -/

theorem replayQueue_target (hReplay : replayQueue connId shared session queue = some replay) :
    ∀ delivery ∈ replay.routed, delivery.1 = connId := by
  induction queue generalizing shared session replay with
  | nil =>
    cases hReplay
    exact nofun
  | cons queued rest ih => grind [replayQueue_cons]

theorem tracked_replayTracked {queued : QueuedMessage} (hTwo : queued.qos = .exactlyOnce)
    (hId : packetId ≠ 0) (hRoom : session.qos2Outbound.length < maxQos2Inflight) :
    (tracked (replayTracked session queued packetId)).Perm
      ((.exactlyOnce, packetId) :: tracked session) := by
  rw [replayTracked, if_pos (by simp [hTwo, hId])]
  exact tracked_trackQos2Outbound hRoom _

section

variable (session : Session) (queued : QueuedMessage) (packetId : UInt16)

theorem replayTracked_table : (replayTracked session queued packetId).qos2Outbound.length ≤
      session.qos2Outbound.length + if queued.qos == .exactlyOnce then 1 else 0 := by
  grind [replayTracked, Session.trackQos2Outbound]

theorem subperm_replayTracked :
    (tracked session).Subperm (tracked (replayTracked session queued packetId)) := by
  unfold replayTracked
  split
  · exact subperm_trackQos2Outbound _ _
  · exact .refl _

end

theorem subperm_replayQueue (hReplay : replayQueue connId shared session queue = some replay) :
    (tracked session).Subperm (tracked replay.session) := by
  induction queue generalizing shared session replay with
  | nil =>
    cases hReplay
    exact .refl _
  | cons queued rest ih =>
    obtain ⟨allocated, hAllocate, hRound⟩ := replayQueue_cons hReplay
    have hMoved := tracked_packetIdFor hAllocate
    obtain ⟨shared', replay', -, hRest, rfl⟩ | ⟨shared', frame, replay', -, -, hRest, rfl⟩ :=
      hRound
    · have hTail := ih hRest
      rw [← hMoved]
      exact hTail
    · have hTail := ih hRest
      rw [← hMoved]
      exact (subperm_replayTracked _ _ _).trans hTail

theorem isPublish_replayInflight {held : InflightMessage}
    (hFrame : replayInflight held = some frame) (hOne : held.qos = .atLeastOnce) :
    IsPublish frame .atLeastOnce held.packetId true :=
  hOne ▸ isPublish_of_newFrame hFrame

/-- What is sent again is tracked: a PUBREL, or the packet of an entry with the DUP flag. -/
theorem replayUnacked_tracked
    (hWindow : ∀ held ∈ session.inflight ++ session.inflightSpill, held.qos = .atLeastOnce)
    (hMem : frame ∈ replayUnacked session) : (∃ packetId, frame = .pubRelOut packetId) ∨
      ∃ qos packetId, IsPublish frame qos packetId true ∧ (qos, packetId) ∈ tracked session := by
  have hOne {held : InflightMessage} (hHeld : held ∈ session.inflight ++ session.inflightSpill) :
      (QoS.atLeastOnce, held.packetId) ∈ tracked session := by grind [tracked]
  rw [replayUnacked, List.mem_append, List.mem_append] at hMem
  obtain (hWindowed | hSpilled) | hTable := hMem
  · obtain ⟨held, hHeld, hFrame⟩ := List.mem_filterMap.mp hWindowed
    have hHeld' := List.mem_append_left session.inflightSpill hHeld
    exact Or.inr ⟨_, _, isPublish_replayInflight hFrame (hWindow held hHeld'), hOne hHeld'⟩
  · split at hSpilled
    · obtain ⟨held, hHeld, hFrame⟩ := List.mem_filterMap.mp hSpilled
      have hHeld' := List.mem_append_right session.inflight hHeld
      exact Or.inr ⟨_, _, isPublish_replayInflight hFrame (hWindow held hHeld'), hOne hHeld'⟩
    · cases hSpilled
  · obtain ⟨held, hHeld, hFrame⟩ := List.mem_filterMap.mp hTable
    unfold replayQos2 at hFrame
    split at hFrame
    · cases hFrame
      exact Or.inl ⟨_, rfl⟩
    · refine Or.inr ⟨_, _, isPublish_of_newFrame hFrame, ?_⟩
      exact List.mem_append_right _ (List.mem_map.mpr ⟨held, hHeld, rfl⟩)

theorem replayOfflineClient_inv {clientId : Str} {result : Shared × List (Nat × OutFrame)}
    {found : Session} (hFound : replayTarget shared connId clientId = some found)
    (hReplay : replayOfflineClient shared connId clientId = some result) :
    ∃ shared' first replay left,
      replayQueue connId shared' { found with offlineQueue := [] } found.offlineQueue =
        some replay ∧
      (∀ delivery ∈ first, ∃ frame ∈ replayUnacked found, delivery = (connId, frame)) ∧
      result.2 = first ++ replay.routed ∧
      result.1.sessions.sessions = shared.sessions.sessions.put left ∧ left.key = found.key ∧
      tracked left = tracked replay.session := by
  unfold replayOfflineClient at hReplay
  simp only [hFound] at hReplay
  obtain ⟨replay, hQueue, rfl⟩ := Option.map_eq_some_iff.mp hReplay
  have hSessions : replay.shared.sessions = shared.sessions :=
    (replayQueue_sessions hQueue).trans (routeAll_sessions shared _)
  refine ⟨_, _, replay, (replay.session.confirmOfflineConsumed replay.shared.sessions.store
    replay.unrouted).1, hQueue, ?_, rfl, ?_, ?_, ?_⟩
  · grind [routeAll_subset]
  · show replay.shared.sessions.sessions.put _ = _
    rw [hSessions]
  · have hDrained := view_replayQueue hQueue
    rw [Session.confirmOfflineConsumed_eq]
    exact key_of_view hDrained
  · rw [Session.confirmOfflineConsumed_eq]
    rfl

end IndraMqtt.Kernel
