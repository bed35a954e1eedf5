import IndraMqtt.Session.PacketId

/-! Deliveries that wait for an acknowledgement. The QoS 1 window and its spill are the two
ends of one bounded queue, and the ids of the queue and of the QoS 2 table stay apart. -/
namespace IndraMqtt.Sessions

open Protocol

variable {window spill : Nat} {session session' : Session} {queue : List InflightMessage}

/-- A QoS 1 delivery under its packet id, or an acknowledgement of any id. -/
inductive Qos1Event where
  | deliver (message : InflightMessage)
  | ack (packetId : UInt16)

/-- The queue that window and spill are for: a delivery enters it while there is room, and an
acknowledgement takes its first message with that id out. -/
def queueStep (capacity : Nat) (queue : List InflightMessage) :
    Qos1Event → List InflightMessage
  | .deliver message => if queue.length < capacity then queue ++ [message] else queue
  | .ack packetId => queue.eraseP (·.packetId == packetId)

namespace Session

def onQos1 (session : Session) : Qos1Event → Session
  | .deliver message => (session.trackInflightOrSpill message).1
  | .ack packetId => (session.ackInflightTimed packetId).1

def unacked (session : Session) : List InflightMessage :=
  session.inflight ++ session.inflightSpill

/-- An acknowledgement takes one message out of the two stores, and a promotion moves the end
of the window only. -/
theorem unacked_ackInflightTimed (session : Session) (packetId : UInt16) :
    (session.ackInflightTimed packetId).1.unacked =
      session.unacked.eraseP (·.packetId == packetId) := by
  unfold ackInflightTimed unacked
  split
  · next entry hFind =>
    have hErase : (session.inflight ++ session.inflightSpill).eraseP (·.packetId == packetId) =
        session.inflight.eraseP (·.packetId == packetId) ++ session.inflightSpill :=
      List.eraseP_append_left (List.find?_some hFind) _ (List.mem_of_find?_eq_some hFind)
    rw [hErase]
    grind
  · next hFind =>
    rw [List.find?_eq_none] at hFind
    rw [List.eraseP_append_right _ hFind]
    split
    · rfl
    · next hNone =>
      rw [List.find?_eq_none] at hNone
      rw [List.eraseP_of_forall_not hNone]

/-- The stores hold the queue within their caps, and the spill only what the window has no
room for. -/
structure Queued (window spill : Nat) (queue : List InflightMessage) (session : Session) :
    Prop where
  caps : WithinCaps window spill session
  unacked_eq : session.unacked = queue
  full : session.inflightSpill ≠ [] → session.inflight.length = window

theorem Queued.length_lt_iff (hQueued : Queued window spill queue session) :
    queue.length < window + spill ↔
      session.inflight.length < window ∨ session.inflightSpill.length < spill := by
  have hWindow := hQueued.caps.inflight_le
  have hSpill := hQueued.caps.spill_le
  have hFull := hQueued.full
  rw [← hQueued.unacked_eq, unacked, List.length_append]
  by_cases hEmpty : session.inflightSpill = []
  · simp only [hEmpty, List.length_nil] at hSpill ⊢
    omega
  · have hLength := hFull hEmpty
    omega

theorem Queued.deliver (hWindow : 1 ≤ window) (hSpill : 1 ≤ spill)
    (hQueued : Queued window spill queue session) (message : InflightMessage) :
    Queued window spill (queueStep (window + spill) queue (.deliver message))
      (session.trackInflightOrSpill message).1 := by
  have hCaps := hQueued.caps.trackInflightOrSpill hWindow hSpill message
  have hLt := hQueued.length_lt_iff
  have hEq := hQueued.unacked_eq
  have hFull := hQueued.full
  have hLe := hQueued.caps.inflight_le
  rw [trackInflightOrSpill, hQueued.caps.maxInflight_eq, hQueued.caps.maxSpill_eq,
    max_eq_left hWindow, max_eq_left hSpill] at hCaps ⊢
  split at hCaps
  · next hRoom =>
    have hNoSpill : session.inflightSpill = [] := by grind
    rw [if_pos hRoom, queueStep, if_pos (hLt.mpr (.inl hRoom)), ← hEq]
    exact ⟨hCaps, by simp [unacked, hNoSpill], fun hSome => absurd hNoSpill hSome⟩
  · next hNoRoom =>
    rw [if_neg hNoRoom]
    split at hCaps
    · next hNoSpill =>
      rw [if_pos hNoSpill, queueStep, if_neg (by omega)]
      exact hQueued
    · next hSpillRoom =>
      rw [if_neg hSpillRoom, queueStep, if_pos (by omega), ← hEq]
      exact ⟨hCaps, by simp [unacked], fun _ => Nat.le_antisymm hLe (Nat.not_lt.mp hNoRoom)⟩

theorem Queued.ack (hQueued : Queued window spill queue session) (packetId : UInt16) :
    Queued window spill (queueStep (window + spill) queue (.ack packetId))
      (session.ackInflightTimed packetId).1 := by
  refine ⟨hQueued.caps.ackInflightTimed packetId, ?_, ?_⟩
  · rw [unacked_ackInflightTimed, hQueued.unacked_eq]
    rfl
  · have hCount := hQueued.caps.spillCount_eq
    have hFull := hQueued.full
    unfold ackInflightTimed
    split
    · next entry hFind =>
      grind
    · grind

section

variable (hWindow : 1 ≤ window) (hSpill : 1 ≤ spill) (hQueued : Queued window spill queue session)
include hWindow hSpill hQueued

theorem Queued.run (events : List Qos1Event) :
    Queued window spill (events.foldl (queueStep (window + spill)) queue)
      (events.foldl onQos1 session) := by
  induction events generalizing session queue with
  | nil => exact hQueued
  | cons event events ih =>
    apply ih
    cases event with
    | deliver message => exact hQueued.deliver hWindow hSpill message
    | ack packetId => exact hQueued.ack packetId

theorem Queued.dropped_iff (message : InflightMessage) :
    (session.trackInflightOrSpill message).2 = .dropped ↔ queue.length = window + spill := by
  have hMaxInflight := hQueued.caps.maxInflight_eq
  have hMaxSpill := hQueued.caps.maxSpill_eq
  have hLe := hQueued.caps.inflight_le
  have hSpillLe := hQueued.caps.spill_le
  have hLength : queue.length = session.inflight.length + session.inflightSpill.length := by
    rw [← hQueued.unacked_eq, unacked, List.length_append]
  rw [trackInflightOrSpill, hMaxInflight, hMaxSpill, max_eq_left hWindow, max_eq_left hSpill]
  split
  · simp
    omega
  · split <;> simp <;> omega

end

theorem applyQos1Limits_floor (session : Session) (window spill : Nat) :
    session.applyQos1Limits window spill =
      session.applyQos1Limits (max window 1) (max spill 1) := by
  simp [applyQos1Limits, setMaxInflight, setMaxSpill]

/-- After any deliveries and acknowledgements the window and the spill together list the
messages that were tracked and not yet acknowledged, in the order of their arrival. -/
theorem window_then_spill (id : Nat) (clientId : Str) (cleanStart : Bool) (now : Nat)
    (window spill : Nat) (events : List Qos1Event) :
    let session :=
      events.foldl onQos1 ((new id clientId cleanStart now).applyQos1Limits window spill)
    let queue := events.foldl (queueStep (max window 1 + max spill 1)) []
    session.inflight ++ session.inflightSpill = queue ∧
      session.inflight.length ≤ max window 1 ∧ session.inflightSpill.length ≤ max spill 1 ∧
      (session.inflightSpill ≠ [] → session.inflight.length = max window 1) ∧
      session.spillCount = session.inflightSpill.length ∧
      ∀ message, (session.trackInflightOrSpill message).2 = .dropped ↔
        queue.length = max window 1 + max spill 1 := by
  have hWindow : 1 ≤ max window 1 := le_max_right _ _
  have hSpill : 1 ≤ max spill 1 := le_max_right _ _
  have hStart : Queued (max window 1) (max spill 1) []
      ((new id clientId cleanStart now).applyQos1Limits window spill) := by
    rw [applyQos1Limits_floor]
    exact ⟨.created id clientId cleanStart now hWindow hSpill, rfl, fun h => absurd rfl h⟩
  have hQueued := hStart.run hWindow hSpill events
  exact ⟨hQueued.unacked_eq, hQueued.caps.inflight_le, hQueued.caps.spill_le, hQueued.full,
    hQueued.caps.spillCount_eq, hQueued.dropped_iff hWindow hSpill⟩

/-! ### Ids of the three stores -/

theorem heldIds_eq (session : Session) : session.heldIds =
      session.unacked.map (·.packetId) ++ session.qos2Outbound.map (·.packetId) := by
  simp [heldIds, unacked]

theorem markRecReceived_ids (packetId : UInt16) (entries : List Qos2OutboundEntry) :
    (markRecReceived packetId entries).map (·.packetId) = entries.map (·.packetId) := by
  induction entries with
  | nil => rfl
  | cons entry rest ih => grind [markRecReceived]

theorem heldIds_trackInflightOrSpill (session : Session) (message : InflightMessage) :
    (session.trackInflightOrSpill message).1.heldIds = session.heldIds ∨
      (session.trackInflightOrSpill message).1.heldIds.Perm
        (message.packetId :: session.heldIds) := by
  unfold trackInflightOrSpill
  split
  · right
    simp only [heldIds, List.map_append, List.map_cons, List.map_nil, List.append_assoc]
    exact List.perm_middle
  · split
    · exact .inl rfl
    · right
      simp only [heldIds, List.map_append, List.map_cons, List.map_nil, List.append_assoc,
        List.singleton_append]
      rw [← List.append_assoc, ← List.append_assoc]
      exact List.perm_middle

variable {op : SessionOp} {entries : List Qos2OutboundEntry} {entry : Qos2OutboundEntry}

/-- A step gives ids free, or takes one id that was not held. -/
theorem heldIds_step (hCaps : WithinCaps window spill session)
    (hStep : session.step op = some session') : session'.heldIds.Sublist session.heldIds ∨
      ∃ packetId, packetId ≠ 0 ∧ packetId ∉ session.heldIds ∧
        session'.heldIds.Perm (packetId :: session.heldIds) := by
  have hCount := hCaps.spillCount_eq
  cases op with
  | deliverQos1 topic retain payload =>
    obtain ⟨⟨packetId, moved⟩, hAllocate, hTrack⟩ := Option.bind_eq_some_iff.mp hStep
    obtain ⟨hNonzero, hFree, rfl⟩ := allocatePacketId_spec hCount hAllocate
    cases hTrack
    obtain hSame | hTaken := heldIds_trackInflightOrSpill
      { session with nextPacketId := packetId + 1 }
      { packetId, topic, qos := .atLeastOnce, retain, payload }
    · exact .inl (hSame ▸ List.Sublist.refl _)
    · exact .inr ⟨packetId, hNonzero, hFree, hTaken⟩
  | deliverQos2 topic retain payload =>
    obtain ⟨⟨packetId, moved⟩, hAllocate, hTrack⟩ := Option.bind_eq_some_iff.mp hStep
    obtain ⟨hNonzero, hFree, rfl⟩ := allocatePacketId_spec hCount hAllocate
    cases hTrack
    unfold trackQos2Outbound
    split
    · exact .inl (List.Sublist.refl _)
    · refine .inr ⟨packetId, hNonzero, hFree, ?_⟩
      simp only [heldIds, List.map_append, List.map_cons, List.map_nil, ← List.append_assoc]
      exact List.perm_append_singleton _ _
  | allocate =>
    obtain ⟨⟨packetId, moved⟩, hAllocate, hMoved⟩ := Option.map_eq_some_iff.mp hStep
    obtain ⟨-, -, rfl⟩ := allocatePacketId_spec hCount hAllocate
    cases hMoved
    exact .inl (List.Sublist.refl _)
  | puback packetId =>
    cases hStep
    left
    have hOutbound : (session.ackInflightTimed packetId).1.qos2Outbound =
        session.qos2Outbound := by grind [ackInflightTimed]
    rw [heldIds_eq, heldIds_eq, unacked_ackInflightTimed, hOutbound]
    exact (List.eraseP_sublist.map _).append (List.Sublist.refl _)
  | pubrec packetId =>
    cases hStep
    left
    rw [heldIds, completeQos2Pubrec, markRecReceived_ids]
    exact List.Sublist.refl _
  | pubcomp packetId =>
    cases hStep
    exact .inl ((List.Sublist.refl _).append (List.eraseP_sublist.map _))
  | endCleanSession =>
    cases hStep
    exact .inl (List.nil_sublist _)

/-- Every held id is nonzero and held once. -/
structure IdsApart (session : Session) : Prop where
  nodup : session.heldIds.Nodup
  nonzero : ∀ packetId ∈ session.heldIds, packetId ≠ 0

theorem IdsApart.step (hApart : IdsApart session) (hCaps : WithinCaps window spill session)
    (hStep : session.step op = some session') : IdsApart session' := by
  obtain hLess | ⟨packetId, hNonzero, hFree, hMore⟩ := heldIds_step hCaps hStep
  · exact ⟨hApart.nodup.sublist hLess, fun packetId hMem => hApart.nonzero _ (hLess.subset hMem)⟩
  · refine ⟨hMore.nodup_iff.mpr (List.nodup_cons.mpr ⟨hFree, hApart.nodup⟩), ?_⟩
    intro other hMem
    rw [hMore.mem_iff, List.mem_cons] at hMem
    obtain rfl | hMem := hMem
    · exact hNonzero
    · exact hApart.nonzero _ hMem

theorem IdsApart.run {ops : List SessionOp} (hWindow : 1 ≤ window) (hSpill : 1 ≤ spill)
    (hApart : IdsApart session) (hCaps : WithinCaps window spill session)
    (hRun : session.run ops = some session') : IdsApart session' := by
  induction ops generalizing session with
  | nil =>
    cases hRun
    exact hApart
  | cons op ops ih =>
    obtain ⟨next, hStep, hRest⟩ := Option.bind_eq_some_iff.mp hRun
    exact ih (hApart.step hCaps hStep) (hCaps.step hWindow hSpill hStep) hRest

/-! ### Phases of a QoS 2 delivery -/

/-- What one operation may do to an entry of the QoS 2 table. -/
inductive Advances (op : SessionOp) (after : List Qos2OutboundEntry)
    (entry : Qos2OutboundEntry) : Prop where
  | kept (hKept : entry ∈ after)
  | received (hOp : op = .pubrec entry.packetId) (hWaiting : entry.recReceived = false)
      (hMarked : { entry with recReceived := true, payload := [] } ∈ after)
  | removed (hOp : op = .pubcomp entry.packetId ∨ op = .endCleanSession)
      (hGone : ∀ other ∈ after, other.packetId ≠ entry.packetId)

theorem advances_markRecReceived (packetId : UInt16) (hMem : entry ∈ entries) :
    Advances (.pubrec packetId) (markRecReceived packetId entries) entry := by
  induction entries with
  | nil => cases hMem
  | cons first rest ih =>
    rw [markRecReceived]
    by_cases hId : first.packetId = packetId
    · simp only [hId, BEq.rfl, if_true]
      obtain rfl | hRest := List.mem_cons.mp hMem
      · cases hPhase : entry.recReceived with
        | true => exact .kept (by simp)
        | false => exact .received (by rw [hId]) hPhase (by simp [hId])
      · exact .kept (List.mem_cons_of_mem _ hRest)
    · simp only [beq_iff_eq, hId, if_false]
      obtain rfl | hRest := List.mem_cons.mp hMem
      · exact .kept List.mem_cons_self
      · cases ih hRest with
        | kept hKept => exact .kept (List.mem_cons_of_mem _ hKept)
        | received hOp hWaiting hMarked =>
          exact .received hOp hWaiting (List.mem_cons_of_mem _ hMarked)
        | removed hOp hGone => simp at hOp

theorem advances_eraseP (packetId : UInt16) (hNodup : (entries.map (·.packetId)).Nodup)
    (hMem : entry ∈ entries) :
    Advances (.pubcomp packetId) (entries.eraseP (·.packetId == packetId)) entry := by
  by_cases hId : entry.packetId = packetId
  · refine .removed (.inl (by rw [hId])) ?_
    induction entries with
    | nil => cases hMem
    | cons first rest ih => grind
  · exact .kept ((List.mem_eraseP_of_neg (by simpa using hId)).mpr hMem)

theorem mem_markRecReceived {packetId : UInt16} (hMem : entry ∈ markRecReceived packetId entries) :
    entry ∈ entries ∨ entry.packetId = packetId := by
  induction entries with
  | nil => cases hMem
  | cons first rest ih => grind [markRecReceived]

/-- An entry goes through its phases, and only its PUBREC lets it wait for PUBCOMP. -/
theorem outbound_step (hApart : IdsApart session) (hStep : session.step op = some session') :
    (∀ entry ∈ session.qos2Outbound, Advances op session'.qos2Outbound entry) ∧
      ∀ entry ∈ session'.qos2Outbound, entry.recReceived = true →
        entry ∈ session.qos2Outbound ∨ op = .pubrec entry.packetId := by
  cases op with
  | deliverQos1 topic retain payload =>
    obtain ⟨⟨packetId, moved⟩, hAllocate, hTrack⟩ := Option.bind_eq_some_iff.mp hStep
    have hMoved := (allocatePacketId_moves hAllocate).2
    cases hTrack
    exact ⟨fun entry hMem => .kept (by grind [trackInflightOrSpill]),
      by grind [trackInflightOrSpill]⟩
  | deliverQos2 topic retain payload =>
    obtain ⟨⟨packetId, moved⟩, hAllocate, hTrack⟩ := Option.bind_eq_some_iff.mp hStep
    have hMoved := (allocatePacketId_moves hAllocate).2
    cases hTrack
    exact ⟨fun entry hMem => .kept (by grind [trackQos2Outbound]), by grind [trackQos2Outbound]⟩
  | allocate =>
    obtain ⟨⟨packetId, moved⟩, hAllocate, rfl⟩ := Option.map_eq_some_iff.mp hStep
    have hMoved := (allocatePacketId_moves hAllocate).2
    exact ⟨fun entry hMem => .kept (by grind), by grind⟩
  | puback packetId =>
    cases hStep
    exact ⟨fun entry hMem => .kept (by grind [ackInflightTimed]), by grind [ackInflightTimed]⟩
  | pubrec packetId =>
    cases hStep
    exact ⟨fun entry => advances_markRecReceived packetId,
      fun entry hMem _ => (mem_markRecReceived hMem).imp_right fun hId => by rw [hId]⟩
  | pubcomp packetId =>
    cases hStep
    exact ⟨fun entry => advances_eraseP packetId
        (hApart.nodup.sublist (List.sublist_append_right _ _)),
      fun entry hMem _ => .inl (List.mem_of_mem_eraseP hMem)⟩
  | endCleanSession =>
    cases hStep
    exact ⟨fun entry _ => .removed (.inr rfl) (by simp [clearQos2Outbound]), by
      simp [clearQos2Outbound]⟩

/-- In every reachable session the ids that wait for an acknowledgement are nonzero and apart,
the QoS 2 table is within its bound, and an entry of it waits for PUBREC until its PUBREC,
then for PUBCOMP, and leaves the table with its PUBCOMP in either phase or with the session. -/
theorem ids_apart_and_phases (id : Nat) (clientId : Str) (cleanStart : Bool) (now : Nat)
    (window spill : Nat) (ops : List SessionOp) (session : Session)
    (hRun : ((new id clientId cleanStart now).applyQos1Limits window spill).run ops =
      some session) :
    (session.inflight.map (·.packetId) ++ session.inflightSpill.map (·.packetId) ++
        session.qos2Outbound.map (·.packetId)).Nodup ∧
      (∀ packetId ∈ session.inflight.map (·.packetId) ++
        session.inflightSpill.map (·.packetId) ++ session.qos2Outbound.map (·.packetId),
        packetId ≠ 0) ∧
      session.qos2Outbound.length ≤ 100 ∧
      ∀ op session', session.step op = some session' →
        (∀ entry ∈ session.qos2Outbound, Advances op session'.qos2Outbound entry) ∧
        ∀ entry ∈ session'.qos2Outbound, entry.recReceived = true →
          entry ∈ session.qos2Outbound ∨ op = .pubrec entry.packetId := by
  have hWindow : 1 ≤ max window 1 := le_max_right _ _
  have hSpill : 1 ≤ max spill 1 := le_max_right _ _
  rw [applyQos1Limits_floor] at hRun
  have hCreated := WithinCaps.created id clientId cleanStart now hWindow hSpill
  have hEmpty : ((new id clientId cleanStart now).applyQos1Limits (max window 1)
      (max spill 1)).heldIds = [] := rfl
  have hApart := IdsApart.run hWindow hSpill ⟨by simp [hEmpty], by simp [hEmpty]⟩ hCreated hRun
  exact ⟨hApart.nodup, hApart.nonzero, (hCreated.run hWindow hSpill hRun).outbound_le,
    fun _ _ => outbound_step hApart⟩

def twoDeliveries : List SessionOp :=
  [.deliverQos1 ⟨"kinds".toList, rfl⟩ false [], .deliverQos2 ⟨"kinds".toList, rfl⟩ false []]

theorem ids_apart_after_two :
    ∃ session, ((new 1 "c".toList true 0).applyQos1Limits 100 1000).run twoDeliveries =
        some session ∧
      (session.inflight.map (·.packetId) ++ session.inflightSpill.map (·.packetId) ++
        session.qos2Outbound.map (·.packetId)).Nodup := by
  have hRuns : (((new 1 "c".toList true 0).applyQos1Limits 100 1000).run
      twoDeliveries).isSome = true := by decide +kernel
  obtain ⟨session, hRun⟩ := Option.isSome_iff_exists.mp hRuns
  exact ⟨session, hRun, (ids_apart_and_phases 1 "c".toList true 0 100 1000 _ session hRun).1⟩

/-- A PUBCOMP takes out an entry that still waits for its PUBREC. -/
theorem pubcomp_skips_pubrec :
    ∃ session session', ((new 1 "c".toList true 0).applyQos1Limits 100 1000).run twoDeliveries =
        some session ∧
      session.qos2Outbound = [⟨2, ⟨"kinds".toList, rfl⟩, false, [], false⟩] ∧
      session.step (.pubcomp 2) = some session' ∧ session'.qos2Outbound = [] := by
  have hRun : (((new 1 "c".toList true 0).applyQos1Limits 100 1000).run twoDeliveries).map
      (·.qos2Outbound) = some [⟨2, ⟨"kinds".toList, rfl⟩, false, [], false⟩] := by decide +kernel
  obtain ⟨session, hRun, hOutbound⟩ := Option.map_eq_some_iff.mp hRun
  exact ⟨session, _, hRun, hOutbound, rfl, by simp [ackQos2Pubcomp, hOutbound]⟩

end Session

end IndraMqtt.Sessions
