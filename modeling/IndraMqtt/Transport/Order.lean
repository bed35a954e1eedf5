import IndraMqtt.Transport.Egress

/-! The order of the frames of a connection on its way out. A frame is numbered when it is routed
and then waits in the mailbox or in a backlog. A pass sorts what it sends by these numbers, so that
the order is kept as long as it leaves nothing behind that is older. -/
namespace IndraMqtt.Transport

open Runs Native

/-- Frames of one connection that are in the order of their numbers. -/
def Before (first second : BrokerFrame) : Prop :=
  first.connId = second.connId → first.sequenceNo < second.sequenceNo

theorem sequence_sorted (frames : List BrokerFrame) :
    (frames.mergeSort fun first second => first.sequenceNo ≤ second.sequenceNo).Pairwise
      fun first second => first.sequenceNo ≤ second.sequenceNo := by
  grind [List.pairwise_mergeSort]

/-- A merged batch is in order when both sides are and share no number. -/
theorem mergeEgressBatch_pairwise {rxBatch qos0Batch : List BrokerFrame}
    (hRx : rxBatch.Pairwise Before) (hQos0 : qos0Batch.Pairwise Before)
    (hApart : ∀ first ∈ rxBatch, ∀ second ∈ qos0Batch,
      first.connId = second.connId → first.sequenceNo ≠ second.sequenceNo) :
    (mergeEgressBatch rxBatch qos0Batch).Pairwise Before := by
  have hDistinct : (mergeEgressBatch rxBatch qos0Batch).Pairwise fun first second =>
      first.connId = second.connId → first.sequenceNo ≠ second.sequenceNo := by
    refine (mergeEgressBatch_perm rxBatch qos0Batch).symm.pairwise ?_ (by grind)
    refine List.pairwise_append.mpr ⟨hRx.imp ?_, hQos0.imp ?_, hApart⟩
    all_goals exact fun hBefore hSame => Nat.ne_of_lt (hBefore hSame)
  have hSorted : (mergeEgressBatch rxBatch qos0Batch).Pairwise fun first second =>
      first.connId = second.connId → first.sequenceNo ≤ second.sequenceNo := by
    unfold mergeEgressBatch
    split
    · exact hRx.imp fun hBefore hSame => Nat.le_of_lt (hBefore hSame)
    split
    · exact hQos0.imp fun hBefore hSame => Nat.le_of_lt (hBefore hSame)
    -- each group is sorted, and frames of different groups are not compared
    refine List.pairwise_flatMap.mpr
      ⟨fun connId _ => (sequence_sorted _).imp (by grind), ?_⟩
    have hNodup := (List.mergeSort_perm (((rxBatch ++ qos0Batch).map (·.connId)).dedup)
      (· ≤ ·)).nodup_iff.mpr (List.nodup_dedup _)
    refine hNodup.imp fun {first second} hNe a hA b hB => ?_
    simp only [List.mem_mergeSort, List.mem_filter, beq_iff_eq] at hA hB
    grind
  exact (hSorted.and hDistinct).imp fun ⟨hLe, hNe⟩ hSame =>
    Nat.lt_of_le_of_ne (hLe hSame) (hNe hSame)

/-- The frames of a transport: each side in order and numbered apart, everything sent ahead of what
waits, and the next number of a connection above all of its frames. -/
structure Lines {ι : Type} (next : Nat → Nat) (mailbox : List BrokerFrame)
    (backlogs : ι → List BrokerFrame) (sent : List BrokerFrame) : Prop where
  guaranteed : mailbox.Pairwise Before
  qos0 : ∀ i, (backlogs i).Pairwise Before
  apart : ∀ first ∈ mailbox, ∀ i, ∀ second ∈ backlogs i,
    first.connId = second.connId → first.sequenceNo ≠ second.sequenceNo
  past : sent.Pairwise Before
  ahead : ∀ first ∈ sent, ∀ second, second ∈ mailbox ∨ (∃ i, second ∈ backlogs i) →
    Before first second
  below : ∀ frame, frame ∈ mailbox ∨ (∃ i, frame ∈ backlogs i) ∨ frame ∈ sent →
    frame.sequenceNo < next frame.connId

namespace Lines

variable {ι : Type} {next : Nat → Nat} {mailbox mailbox' sent batch : List BrokerFrame}
  {backlogs backlogs' : ι → List BrokerFrame}

section

variable (hLines : Lines next mailbox backlogs sent) (next' : Nat → Nat) (frame : BrokerFrame)
  (hNumber : frame.sequenceNo = next frame.connId) (hNext : frame.sequenceNo < next' frame.connId)
  (hMono : ∀ connId, next connId ≤ next' connId)
include hLines hNumber hNext hMono

/-- A frame takes the next number and goes to the mailbox. -/
theorem route : Lines next' (mailbox ++ [frame]) backlogs sent := by
  obtain ⟨hMailbox, hBacklogs, hApart, hSent, hAhead, hBelow⟩ := hLines
  constructor
  · refine List.pairwise_append.mpr ⟨hMailbox, List.pairwise_singleton _ _, ?_⟩
    grind [Before]
  all_goals grind [Before]

/-- A frame takes the next number and goes to a backlog, which may lose frames. -/
theorem push (hPushed : ∀ i, (backlogs' i).Sublist (backlogs i ++ [frame])) :
    Lines next' mailbox backlogs' sent := by
  obtain ⟨hMailbox, hBacklogs, hApart, hSent, hAhead, hBelow⟩ := hLines
  constructor
  · exact hMailbox
  · intro i
    refine List.Pairwise.sublist (hPushed i) (List.pairwise_append.mpr
      ⟨hBacklogs i, List.pairwise_singleton _ _, ?_⟩)
    grind [Before]
  all_goals grind [Before]

end

/-- A batch is sent that leaves nothing behind which is older. -/
theorem send (hLines : Lines next mailbox backlogs sent) (hBatch : batch.Pairwise Before)
    (hFrom : ∀ frame ∈ batch, frame ∈ mailbox ∨ ∃ i, frame ∈ backlogs i)
    (hMailbox : mailbox'.Sublist mailbox) (hBacklogs : ∀ i, (backlogs' i).Sublist (backlogs i))
    (hNewer : ∀ first ∈ batch, ∀ second, second ∈ mailbox' ∨ (∃ i, second ∈ backlogs' i) →
      Before first second) : Lines next mailbox' backlogs' (sent ++ batch) := by
  have hMem := hMailbox.subset
  have hMem' (i : ι) := (hBacklogs i).subset
  constructor
  · exact hLines.guaranteed.sublist hMailbox
  · exact fun i => (hLines.qos0 i).sublist (hBacklogs i)
  · intro first hFirst i second hSecond
    exact hLines.apart first (hMem hFirst) i second (hMem' i hSecond)
  · refine List.pairwise_append.mpr ⟨hLines.past, hBatch, ?_⟩
    intro first hFirst second hSecond
    exact hLines.ahead first hFirst second (hFrom second hSecond)
  · intro first hFirst second hSecond
    obtain hOld | hNew := List.mem_append.mp hFirst
    · exact hLines.ahead first hOld second
        (hSecond.imp (@hMem second) fun ⟨i, hMember⟩ => ⟨i, hMem' i hMember⟩)
    · exact hNewer first hNew second hSecond
  · have hBelow := hLines.below
    grind

end Lines

theorem pushQos0_sublist (bound : Nat) (queue : List BrokerFrame) (frame : BrokerFrame) :
    (pushQos0 bound queue frame).Sublist (queue ++ [frame]) :=
  (List.drop_sublist _ queue).append_right [frame]

/-! ### The edge transport -/

/-- A frame is routed, or the loop of the transport runs: after a frame of the edge was handled, on
a guaranteed frame or on a permit. -/
inductive EdgeEvent where
  | route (frame : BrokerFrame)
  | routeQos0 (bound : Nat) (frame : BrokerFrame)
  | inbound
  | received
  | notified

def nextSeq (slots : Nat → Option ConnSlot) (connId : Nat) : Nat :=
  (slots connId).elim 0 (·.nextSeq)

def edgeStep (transport : EdgeTransport) : EdgeEvent → Option (EdgeTransport × List BrokerFrame)
  | .route frame =>
    some <| (transport.slots frame.connId).elim (transport, []) fun slot =>
      ({ transport with
          mailbox := transport.mailbox ++ [{ frame with sequenceNo := slot.nextSeq }]
          slots := Function.update transport.slots frame.connId
            (some { slot with nextSeq := slot.nextSeq + 1 }) }, [])
  | .routeQos0 bound frame =>
    some <| (transport.slots frame.connId).elim (transport, []) fun slot =>
      ({ transport with
          slots := Function.update transport.slots frame.connId (some {
            slot with
            qos0 := pushQos0 bound slot.qos0 { frame with sequenceNo := slot.nextSeq }
            nextSeq := slot.nextSeq + 1 })
          permit := transport.permit || slot.waker }, [])
  | .inbound =>
    some (if transport.bound = [] then (transport, []) else egressPass transport)
  | .received => if transport.mailbox = [] then none else some (egressPass transport)
  | .notified =>
    if transport.permit then some (egressPass { transport with permit := false }) else none

variable (slots : Nat → Option ConnSlot) (connId other : Nat) (slot : ConnSlot)

@[grind =] theorem queued_update : queued (Function.update slots connId (some slot)) other =
      if other = connId then slot.qos0 else queued slots other := by
  grind [queued]

@[grind =] theorem nextSeq_update : nextSeq (Function.update slots connId (some slot)) other =
      if other = connId then slot.nextSeq else nextSeq slots other := by
  grind [nextSeq]

/-- What a drain has taken is in order and ahead of what it has left. -/
structure Drained (slots : Nat → Option ConnSlot) (drain : Drain) : Prop where
  out : drain.out.Pairwise Before
  taken : ∀ frame ∈ drain.out, ∃ connId, frame ∈ queued slots connId
  ahead : ∀ first ∈ drain.out, ∀ connId, ∀ second ∈ queued drain.slots connId, Before first second
  left : ∀ connId, queued drain.slots connId <:+ queued slots connId
  next : ∀ connId, nextSeq drain.slots connId = nextSeq slots connId

theorem drained {slots : Nat → Option ConnSlot} (hOwn : ∀ connId, ∀ frame ∈ queued slots connId,
      frame.connId = connId) (hOrder : ∀ connId, (queued slots connId).Pairwise Before)
    (bound : List Nat) (maxFrames maxBytes : Nat) :
    Drained slots (drainQos0ForTransport slots bound maxFrames maxBytes) := by
  have hFirst : Drained slots ⟨slots, []⟩ :=
    ⟨.nil, nofun, nofun, fun _ => List.suffix_refl _, fun _ => rfl⟩
  unfold drainQos0ForTransport
  split
  · exact hFirst
  · refine rounds_induction ?_ _ hFirst
    rintro drain connId - slot frame rest - hSlot hQueue ⟨hOut, hTaken, hAhead, hLeft, hNext⟩
    have hHere : queued drain.slots connId = frame :: rest := by simp [queued, hSlot, hQueue]
    have hSuffix := hHere ▸ hLeft connId
    have hSorted := List.pairwise_cons.mp ((hOrder connId).sublist hSuffix.sublist)
    have hOther (other : Nat) := (hLeft other).subset
    constructor
    · grind
    · grind
    · grind [Before]
    · grind [List.suffix_cons]
    · grind [nextSeq]

structure InOrder (transport : EdgeTransport) : Prop where
  own : ∀ connId, ∀ frame ∈ queued transport.slots connId, frame.connId = connId
  lines : Lines (nextSeq transport.slots) transport.mailbox (queued transport.slots) transport.sent

/-- No frame stays that is older than one of the batch. -/
def Leaves (batch : List BrokerFrame) (transport : EdgeTransport) : Prop :=
  ∀ first ∈ batch, ∀ second,
    second ∈ transport.mailbox ∨ (∃ connId, second ∈ queued transport.slots connId) →
      Before first second

theorem InOrder.pass {transport : EdgeTransport} (hInv : InOrder transport)
    (hLeaves : Leaves (egressPass transport).2 (egressPass transport).1) :
    InOrder (egressPass transport).1 := by
  obtain ⟨hSplit, -⟩ := takeGuaranteed_spec 0 0 transport.mailbox
  unfold egressPass at hLeaves ⊢
  generalize takeGuaranteed 0 0 transport.mailbox = rxBatch at hSplit hLeaves ⊢
  have hDrained := drained hInv.own hInv.lines.qos0 transport.bound
    (egressBatchFrames - rxBatch.1.length) (egressBatchBytes - frameBytes rxBatch.1)
  dsimp only at hLeaves ⊢
  generalize drainQos0ForTransport transport.slots transport.bound
    (egressBatchFrames - rxBatch.1.length) (egressBatchBytes - frameBytes rxBatch.1) = drain
    at hDrained hLeaves ⊢
  have hRx : rxBatch.1.Sublist transport.mailbox := hSplit ▸ List.sublist_append_left ..
  refine ⟨fun connId frame hMem => hInv.own connId frame ((hDrained.left connId).subset hMem), ?_⟩
  rw [funext hDrained.next]
  refine hInv.lines.send ?_ ?_ (hSplit ▸ List.sublist_append_right ..)
    (fun connId => (hDrained.left connId).sublist) hLeaves
  · refine mergeEgressBatch_pairwise (hInv.lines.guaranteed.sublist hRx) hDrained.out ?_
    intro first hFirst second hSecond
    obtain ⟨connId, hMem⟩ := hDrained.taken second hSecond
    exact hInv.lines.apart first (hRx.subset hFirst) connId second hMem
  · intro frame hMem
    obtain hGuaranteed | hQos0 :=
      List.mem_append.mp ((mergeEgressBatch_perm _ _).mem_iff.mp hMem)
    · exact Or.inl (hRx.subset hGuaranteed)
    · exact Or.inr (hDrained.taken frame hQos0)

theorem InOrder.step {transport next : EdgeTransport} {event : EdgeEvent} {batch : List BrokerFrame}
    (hInv : InOrder transport) (hStep : edgeStep transport event = some (next, batch))
    (hLeaves : Leaves batch next) : InOrder next := by
  cases event with
  | route frame =>
    cases hSlot : transport.slots frame.connId with
    | none => grind [edgeStep]
    | some slot =>
      simp only [edgeStep, hSlot, Option.elim_some, Option.some.injEq, Prod.mk.injEq] at hStep
      rw [← hStep.1]
      have hQueued : queued (Function.update transport.slots frame.connId
          (some { slot with nextSeq := slot.nextSeq + 1 })) = queued transport.slots := by
        funext connId
        grind [queued]
      refine ⟨by simpa only [hQueued] using hInv.own, ?_⟩
      simp only [hQueued]
      apply hInv.lines.route <;> grind [nextSeq]
  | routeQos0 bound frame =>
    cases hSlot : transport.slots frame.connId with
    | none => grind [edgeStep]
    | some slot =>
      simp only [edgeStep, hSlot, Option.elim_some, Option.some.injEq, Prod.mk.injEq] at hStep
      rw [← hStep.1]
      have hHere : queued transport.slots frame.connId = slot.qos0 := by simp [queued, hSlot]
      have hPushed := pushQos0_sublist bound slot.qos0 { frame with sequenceNo := slot.nextSeq }
      have hOwn := hInv.own
      constructor
      · grind
      · apply hInv.lines.push _ { frame with sequenceNo := slot.nextSeq }
        all_goals grind [nextSeq]
  | inbound =>
    grind [edgeStep, InOrder.pass]
  | received =>
    grind [edgeStep, InOrder.pass]
  | notified =>
    obtain ⟨-, hStep⟩ := Option.ite_none_right_eq_some.mp hStep
    cases hStep
    exact InOrder.pass ⟨hInv.own, hInv.lines⟩ hLeaves

/-! ### The native transport -/

def NativeInOrder (conn : NativeConn) : Prop :=
  Lines (fun _ => conn.slot.elim 0 (·.nextSeq)) conn.mailbox (fun _ : Unit => queuedQos0 conn)
    conn.written

/-- The frames that an event writes leave no older one behind, and the frame that wakes the task is
older than the QoS 0 frames that wait. -/
def NativeLeaves (before after : NativeConn) (event : EgressEvent) : Prop :=
  (∀ first ∈ after.written.drop before.written.length, ∀ second,
    second ∈ after.mailbox ∨ second ∈ queuedQos0 after → Before first second) ∧
  (event = .received → ∀ first ∈ before.mailbox.head?, ∀ second ∈ queuedQos0 before,
    Before first second)

/-- What a native pass does with the frames. -/
theorem collectEgress_frames (conn : NativeConn) :
    ∃ guaranteed out, guaranteed ++ (collectEgress conn).mailbox = conn.mailbox ∧
      out ++ queuedQos0 (collectEgress conn) = queuedQos0 conn ∧
      (collectEgress conn).written = conn.written ++ mergeEgressBatch guaranteed out ∧
      (collectEgress conn).slot.elim 0 (·.nextSeq) = conn.slot.elim 0 (·.nextSeq) := by
  obtain ⟨hSplit, -⟩ := takeGuaranteed_spec 0 0 conn.mailbox
  unfold collectEgress
  generalize takeGuaranteed 0 0 conn.mailbox = taken at hSplit
  obtain ⟨guaranteed, mailbox⟩ := taken
  have hDrain : ∃ out slot, drainQos0WithBudget conn.slot (egressBatchFrames - guaranteed.length)
      (egressBatchBytes - frameBytes guaranteed) = (out, slot) ∧
      out ++ slot.elim [] (·.qos0) = queuedQos0 conn ∧
      slot.elim 0 (·.nextSeq) = conn.slot.elim 0 (·.nextSeq) := by
    cases hSlot : conn.slot with
    | none => exact ⟨[], none, rfl, by simp [queuedQos0, hSlot], rfl⟩
    | some slot =>
      refine ⟨_, _, rfl, ?_, rfl⟩
      simpa [queuedQos0, hSlot] using (drainLoop_spec _ _ 0 0 slot.qos0).split
  obtain ⟨out, slot, hDrained, hQueue, hNext⟩ := hDrain
  refine ⟨guaranteed, out, ?_⟩
  simp only [hDrained]
  split
  · next hEmpty =>
    simp only [Bool.and_eq_true, List.isEmpty_iff] at hEmpty
    exact ⟨hSplit, hQueue, by simp [hEmpty.1, hEmpty.2, mergeEgressBatch], hNext⟩
  · exact ⟨hSplit, hQueue, rfl, hNext⟩

theorem NativeInOrder.pass {conn : NativeConn} (hInv : NativeInOrder conn)
    (hLeaves : ∀ first ∈ (collectEgress conn).written.drop conn.written.length, ∀ second,
      second ∈ (collectEgress conn).mailbox ∨ second ∈ queuedQos0 (collectEgress conn) →
        Before first second) : NativeInOrder (collectEgress conn) := by
  obtain ⟨guaranteed, out, hMailbox, hQueue, hWritten, hNext⟩ := collectEgress_frames conn
  rw [hWritten, List.drop_left] at hLeaves
  have hGuaranteed : guaranteed.Sublist conn.mailbox := hMailbox ▸ List.sublist_append_left ..
  have hOut : out.Sublist (queuedQos0 conn) := hQueue ▸ List.sublist_append_left ..
  unfold NativeInOrder
  rw [hWritten, hNext]
  refine Lines.send hInv ?_ ?_ (hMailbox ▸ List.sublist_append_right ..)
    (fun _ => hQueue ▸ List.sublist_append_right ..) ?_
  · refine mergeEgressBatch_pairwise (hInv.guaranteed.sublist hGuaranteed)
      ((hInv.qos0 ()).sublist hOut) ?_
    intro first hFirst second hSecond
    exact hInv.apart first (hGuaranteed.subset hFirst) () second (hOut.subset hSecond)
  · intro frame hMem
    obtain hFirst | hSecond := List.mem_append.mp ((mergeEgressBatch_perm _ _).mem_iff.mp hMem)
    · exact Or.inl (hGuaranteed.subset hFirst)
    · exact Or.inr ⟨(), hOut.subset hSecond⟩
  · simp_all

theorem NativeInOrder.step {conn next : NativeConn} {event : EgressEvent}
    (hInv : NativeInOrder conn) (hStep : egressStep conn event = some (next, ()))
    (hLeaves : NativeLeaves conn next event) : NativeInOrder next := by
  cases event with
  | route frame =>
    cases hSlot : conn.slot with
    | none => grind [egressStep]
    | some slot =>
      simp only [egressStep, hSlot, Option.some.injEq, Prod.mk.injEq, and_true] at hStep
      have hLines := Lines.route hInv (fun _ => slot.nextSeq + 1)
        { frame with sequenceNo := slot.nextSeq } (by simp [hSlot]) (by simp) (by simp [hSlot])
      simpa [← hStep, NativeInOrder, queuedQos0, hSlot] using hLines
  | routeQos0 bound frame =>
    cases hSlot : conn.slot with
    | none => grind [egressStep]
    | some slot =>
      simp only [egressStep, hSlot, Option.some.injEq, Prod.mk.injEq, and_true] at hStep
      rw [← hStep]
      refine Lines.push hInv (fun _ => slot.nextSeq + 1) { frame with sequenceNo := slot.nextSeq }
        (by simp [hSlot]) (by simp) (by simp [hSlot]) fun _ => ?_
      simpa only [queuedQos0, hSlot, Option.elim_some] using pushQos0_sublist ..
  | notified =>
    obtain ⟨-, hStep⟩ := Option.ite_none_right_eq_some.mp hStep
    cases hStep
    exact NativeInOrder.pass hInv hLeaves.1
  | received =>
    cases hMailbox : conn.mailbox with
    | nil => simp [egressStep, hMailbox] at hStep
    | cons first mailbox =>
      simp only [egressStep, hMailbox, Option.some.injEq, Prod.mk.injEq, and_true] at hStep
      -- the frame that wakes the task is written before the pass
      have hFirst : NativeInOrder { conn with mailbox, written := conn.written ++ [first] } := by
        have hSorted := List.pairwise_cons.mp (hMailbox ▸ hInv.guaranteed)
        refine Lines.send hInv (List.pairwise_singleton _ _) (by simp [hMailbox])
          (hMailbox ▸ List.sublist_cons_self ..) (fun _ => List.Sublist.refl _) ?_
        have hWakes := hLeaves.2 rfl first (by simp [hMailbox])
        grind [queuedQos0]
      rw [← hStep] at hLeaves ⊢
      refine hFirst.pass fun other hMem => hLeaves.1 other ?_
      rw [List.length_append, ← List.drop_drop] at hMem
      exact List.mem_of_mem_drop hMem
  | read =>
    cases hStep
    exact hInv.pass hLeaves.1

def frameFor7 : BrokerFrame := ⟨7, 0, [], []⟩

def bound7 : EdgeTransport where
  mailbox := []
  slots connId := if connId = 7 then some ⟨[], 1, true⟩ else none
  bound := [7]
  permit := false
  sent := []

end IndraMqtt.Transport
