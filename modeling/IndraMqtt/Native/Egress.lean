import IndraMqtt.Lib.Grouping
import IndraMqtt.Lib.Runs
import Mathlib.Algebra.BigOperators.Group.List.Basic
import Mathlib.Data.List.Dedup

/-! The egress side of one native connection: the mailbox of guaranteed frames, the
bounded QoS 0 backlog of its slot and the waker of its task. A pass over both takes at
most one batch, and the task has to wake itself for what it leaves. -/
namespace IndraMqtt.Native

open Runs

structure BrokerFrame where
  connId : Nat
  sequenceNo : Nat
  metadata : List UInt8
  payload : List UInt8
  deriving DecidableEq

def headerLen : Nat := 28

def BrokerFrame.totalFrameLen (frame : BrokerFrame) : Nat :=
  headerLen + frame.metadata.length + frame.payload.length

/-- The length of the metadata has 16 bits, and `BrokerFrame::new` refuses more. -/
def maxMetaLen : Nat := 65535

def frameBytes (frames : List BrokerFrame) : Nat := (frames.map (·.totalFrameLen)).sum

def egressBatchFrames : Nat := 64
def egressBatchBytes : Nat := 64 * 1024

/-- What the connection table keeps for the connection. -/
structure ConnSlot where
  qos0 : List BrokerFrame
  nextSeq : Nat
  waker : Bool

/-- A native connection towards its client. `permit` is the permit stored on the waker of
its task, and `written` is what its socket got. -/
structure NativeConn where
  mailbox : List BrokerFrame
  slot : Option ConnSlot
  permit : Bool
  written : List BrokerFrame

/-- The mailbox loop of `collect_egress`, with the frames and bytes taken so far. It
returns what it takes and what it leaves. -/
def takeGuaranteed (count bytes : Nat) :
    List BrokerFrame → List BrokerFrame × List BrokerFrame
  | [] => ([], [])
  | frame :: mailbox =>
    if count < egressBatchFrames ∧ bytes < egressBatchBytes then
      let (taken, left) := takeGuaranteed (count + 1) (bytes + frame.totalFrameLen) mailbox
      (frame :: taken, left)
    else ([], frame :: mailbox)

/-- The loop of `drain_qos0_with_budget`. The first frame is drained whatever its size. -/
def drainLoop (maxFrames maxBytes count bytes : Nat) :
    List BrokerFrame → List BrokerFrame × List BrokerFrame
  | [] => ([], [])
  | frame :: queue =>
    if count < maxFrames then
      if maxBytes < bytes + frame.totalFrameLen ∧ count ≠ 0 then ([], frame :: queue)
      else if maxBytes ≤ bytes + frame.totalFrameLen then ([frame], queue)
      else
        let (out, left) :=
          drainLoop maxFrames maxBytes (count + 1) (bytes + frame.totalFrameLen) queue
        (frame :: out, left)
    else ([], frame :: queue)

def drainQos0WithBudget (slot : Option ConnSlot) (maxFrames maxBytes : Nat) :
    List BrokerFrame × Option ConnSlot :=
  match slot with
  | none => ([], none)
  | some slot =>
    let (out, left) := drainLoop maxFrames maxBytes 0 0 slot.qos0
    (out, some { slot with qos0 := left })

/-- `merge_egress_batch`: by connection in the order of the ids, each by its sequence
numbers. -/
def mergeEgressBatch (rxBatch qos0Batch : List BrokerFrame) : List BrokerFrame :=
  if qos0Batch.isEmpty then rxBatch
  else if rxBatch.isEmpty then qos0Batch
  else
    let frames := rxBatch ++ qos0Batch
    let connIds := (frames.map (·.connId)).dedup.mergeSort (· ≤ ·)
    connIds.flatMap fun connId =>
      (frames.filter (·.connId == connId)).mergeSort fun first second =>
        first.sequenceNo ≤ second.sequenceNo

def collectEgress (conn : NativeConn) : NativeConn :=
  let (guaranteed, mailbox) := takeGuaranteed 0 0 conn.mailbox
  let (qos0, slot) := drainQos0WithBudget conn.slot (egressBatchFrames - guaranteed.length)
    (egressBatchBytes - frameBytes guaranteed)
  let conn := { conn with mailbox, slot }
  if guaranteed.isEmpty && qos0.isEmpty then conn
  else
    let batch := mergeEgressBatch guaranteed qos0
    { conn with
      written := conn.written ++ batch
      permit := conn.permit || egressBatchFrames ≤ batch.length ||
        egressBatchBytes ≤ frameBytes batch }

def queuedQos0 (conn : NativeConn) : List BrokerFrame := conn.slot.elim [] (·.qos0)

/-! ### The batch -/

theorem frameBytes_append (first second : List BrokerFrame) :
    frameBytes (first ++ second) = frameBytes first + frameBytes second := by
  rw [frameBytes, List.map_append, List.sum_append]
  rfl

theorem frameBytes_cons (frame : BrokerFrame) (frames : List BrokerFrame) :
    frameBytes (frame :: frames) = frame.totalFrameLen + frameBytes frames := by
  rw [frameBytes, List.map_cons, List.sum_cons]
  rfl

theorem frameBytes_take_le {few many : Nat} (hLe : few ≤ many) (frames : List BrokerFrame) :
    frameBytes (frames.take few) ≤ frameBytes (frames.take many) := by
  obtain ⟨rest, hRest⟩ := (List.take_prefix_take_left hLe : frames.take few <+: frames.take many)
  rw [← hRest, frameBytes_append]
  omega

variable (rxBatch qos0Batch : List BrokerFrame)

/-- A batch holds the frames of both sides. -/
theorem mergeEgressBatch_perm :
    (mergeEgressBatch rxBatch qos0Batch).Perm (rxBatch ++ qos0Batch) := by
  unfold mergeEgressBatch
  split
  · next hEmpty =>
    rw [List.isEmpty_iff.mp hEmpty, List.append_nil]
  · split
    · next hEmpty =>
      rw [List.isEmpty_iff.mp hEmpty, List.nil_append]
    · refine (List.Perm.flatMap_left _ fun connId _ => List.mergeSort_perm _ _).trans ?_
      refine Grouping.groups_perm BrokerFrame.connId ?_ ?_
      · exact (List.mergeSort_perm _ _).nodup_iff.mpr (List.nodup_dedup _)
      · grind [List.mem_mergeSort, List.mem_dedup]

theorem mergeEgressBatch_length :
    (mergeEgressBatch rxBatch qos0Batch).length = rxBatch.length + qos0Batch.length := by
  rw [(mergeEgressBatch_perm rxBatch qos0Batch).length_eq, List.length_append]

theorem mergeEgressBatch_bytes : frameBytes (mergeEgressBatch rxBatch qos0Batch) =
      frameBytes rxBatch + frameBytes qos0Batch := by
  rw [← frameBytes_append]
  exact ((mergeEgressBatch_perm rxBatch qos0Batch).map _).sum_eq

/-! ### Where the two loops stop -/

/-- The mailbox loop leaves nothing unless it has used up one of the budgets. -/
theorem takeGuaranteed_spec (count bytes : Nat) (mailbox : List BrokerFrame) :
    (takeGuaranteed count bytes mailbox).1 ++ (takeGuaranteed count bytes mailbox).2 = mailbox ∧
      ((takeGuaranteed count bytes mailbox).2 = [] ∨
        egressBatchFrames ≤ count + (takeGuaranteed count bytes mailbox).1.length ∨
        egressBatchBytes ≤ bytes + frameBytes (takeGuaranteed count bytes mailbox).1) := by
  induction mailbox generalizing count bytes with
  | nil => exact ⟨rfl, Or.inl rfl⟩
  | cons frame mailbox ih => grind [takeGuaranteed, frameBytes_cons]

/-- The guaranteed frames of one pass: the whole mailbox when it fits into a batch, and
otherwise as many as use up a budget. -/
theorem takeGuaranteed_cases (mailbox : List BrokerFrame) :
    (mailbox.length < egressBatchFrames ∧ frameBytes mailbox < egressBatchBytes ∧
        (takeGuaranteed 0 0 mailbox).1 = mailbox) ∨
      (¬ (mailbox.length < egressBatchFrames ∧ frameBytes mailbox < egressBatchBytes) ∧
        (egressBatchFrames ≤ (takeGuaranteed 0 0 mailbox).1.length ∨
          egressBatchBytes ≤ frameBytes (takeGuaranteed 0 0 mailbox).1)) := by
  grind [takeGuaranteed_spec, frameBytes_append]

/-- Why the QoS 0 drain stopped. -/
structure DrainSpec (maxFrames maxBytes count bytes : Nat) (queue out left : List BrokerFrame) :
    Prop where
  split : out ++ left = queue
  /-- only the first frame may overrun the bytes -/
  fits : ∀ i < out.length, 0 < count + i →
    bytes + frameBytes (queue.take (i + 1)) ≤ maxBytes
  stop : left = [] ∨ maxFrames ≤ count + out.length ∨ maxBytes ≤ bytes + frameBytes out ∨
    (0 < count + out.length ∧ maxBytes < bytes + frameBytes (queue.take (out.length + 1)))

theorem drainLoop_spec (maxFrames maxBytes count bytes : Nat) (queue : List BrokerFrame) :
    DrainSpec maxFrames maxBytes count bytes queue
      (drainLoop maxFrames maxBytes count bytes queue).1
      (drainLoop maxFrames maxBytes count bytes queue).2 := by
  induction queue generalizing count bytes with
  | nil => exact ⟨rfl, nofun, Or.inl rfl⟩
  | cons frame queue ih =>
    rw [drainLoop]
    split
    · split
      · next hOver =>
        refine ⟨rfl, nofun, Or.inr (Or.inr (Or.inr ?_))⟩
        grind [frameBytes]
      · next hFits =>
        split
        · next hFull =>
          refine ⟨rfl, ?_, Or.inr (Or.inr (Or.inl ?_))⟩
          · grind [frameBytes]
          · simp_all [frameBytes]
        · next hRoom =>
          obtain ⟨hSplit, hRest, hStop⟩ := ih (count + 1) (bytes + frame.totalFrameLen)
          refine ⟨by rw [List.cons_append, hSplit], ?_, ?_⟩
          · intro i hTaken _
            rw [List.take_succ_cons, frameBytes_cons]
            cases i with
            | zero =>
              have hNil : frameBytes (queue.take 0) = 0 := rfl
              omega
            | succ i =>
              have hOne := hRest i (by simpa using hTaken) (by omega)
              omega
          · simp only [List.length_cons, List.take_succ_cons, frameBytes_cons]
            refine hStop.imp_right fun hStop => ?_
            omega
    · next hFull =>
      refine ⟨rfl, nofun, Or.inr (Or.inl ?_)⟩
      rw [List.length_nil]
      omega

structure StopsBefore (maxFrames maxBytes : Nat) (queue : List BrokerFrame) (i : Nat) : Prop where
  some_drained : 0 < i
  frames_left : i < maxFrames
  next_queued : i < queue.length
  bytes_left : frameBytes (queue.take i) < maxBytes
  next_too_large : maxBytes < frameBytes (queue.take (i + 1))

variable {maxFrames maxBytes : Nat} {queue : List BrokerFrame}

theorem StopsBefore.drained {i : Nat} (hStops : StopsBefore maxFrames maxBytes queue i) :
    (drainLoop maxFrames maxBytes 0 0 queue).1 = queue.take i := by
  obtain ⟨hSplit, hFits, hStop⟩ := drainLoop_spec maxFrames maxBytes 0 0 queue
  generalize (drainLoop maxFrames maxBytes 0 0 queue).1 = out at *
  generalize (drainLoop maxFrames maxBytes 0 0 queue).2 = left at *
  have hOut : out = queue.take out.length := by rw [← hSplit, List.take_left]
  have hSmall := hStops.bytes_left
  have hLarge := hStops.next_too_large
  -- one frame more would not have been taken, and one frame less does not stop the loop
  have hAtMost : out.length ≤ i := by
    by_contra hMore
    have hOver := hFits i (by omega) (by have := hStops.some_drained; omega)
    omega
  have hAtLeast : i ≤ out.length := by
    by_contra hFewer
    have hNext := frameBytes_take_le (by omega : out.length + 1 ≤ i) queue
    have hThis := frameBytes_take_le (by omega : out.length ≤ i) queue
    rw [← hOut] at hThis
    have hFrames := hStops.frames_left
    grind
  rw [hOut, Nat.le_antisymm hAtMost hAtLeast]

/-- A drain that leaves frames without using up a budget stops before one that does not
fit. -/
theorem stopsBefore_of_left (hLeft : (drainLoop maxFrames maxBytes 0 0 queue).2 ≠ [])
    (hFrames : (drainLoop maxFrames maxBytes 0 0 queue).1.length < maxFrames)
    (hBytes : frameBytes (drainLoop maxFrames maxBytes 0 0 queue).1 < maxBytes) :
    StopsBefore maxFrames maxBytes queue (drainLoop maxFrames maxBytes 0 0 queue).1.length := by
  obtain ⟨hSplit, -, hStop⟩ := drainLoop_spec maxFrames maxBytes 0 0 queue
  generalize (drainLoop maxFrames maxBytes 0 0 queue).1 = out at *
  generalize (drainLoop maxFrames maxBytes 0 0 queue).2 = left at *
  have hOut : queue.take out.length = out := by rw [← hSplit, List.take_left]
  have hQueue : queue.length = out.length + left.length := by rw [← hSplit, List.length_append]
  have hSome := List.length_pos_iff.mpr hLeft
  rcases hStop with hEmpty | hFull | hFull | ⟨hDrained, hOver⟩
  · exact absurd hEmpty hLeft
  · omega
  · omega
  · exact ⟨by omega, hFrames, by omega, by rwa [hOut], by omega⟩

/-! ### The wake-up after a pass -/

def framesLeft (conn : NativeConn) : Nat := egressBatchFrames - conn.mailbox.length
def bytesLeft (conn : NativeConn) : Nat := egressBatchBytes - frameBytes conn.mailbox

/-- No permit is stored, the mailbox fits into one batch, and so do some of the QoS 0
frames but not the next one. -/
structure Stalls (conn : NativeConn) : Prop where
  no_permit : conn.permit = false
  few_frames : conn.mailbox.length < egressBatchFrames
  few_bytes : frameBytes conn.mailbox < egressBatchBytes
  stops : ∃ i, StopsBefore (framesLeft conn) (bytesLeft conn) (queuedQos0 conn) i

/-- What a pass leaves and whether it wakes the task again. -/
theorem collectEgress_spec (conn : NativeConn) :
    let guaranteed := (takeGuaranteed 0 0 conn.mailbox).1
    let drain := drainLoop (egressBatchFrames - guaranteed.length)
      (egressBatchBytes - frameBytes guaranteed) 0 0 (queuedQos0 conn)
    queuedQos0 (collectEgress conn) = drain.2 ∧
      ((collectEgress conn).permit = true ↔ conn.permit = true ∨
        egressBatchFrames ≤ guaranteed.length + drain.1.length ∨
        egressBatchBytes ≤ frameBytes guaranteed + frameBytes drain.1) := by
  intro guaranteed drain
  have hDrained : (drainQos0WithBudget conn.slot (egressBatchFrames - guaranteed.length)
      (egressBatchBytes - frameBytes guaranteed)).1 = drain.1 ∧
        ((drainQos0WithBudget conn.slot (egressBatchFrames - guaranteed.length)
          (egressBatchBytes - frameBytes guaranteed)).2.elim [] (·.qos0)) = drain.2 := by
    simp only [drain, queuedQos0]
    cases conn.slot with
    | none => exact ⟨rfl, rfl⟩
    | some slot => exact ⟨rfl, rfl⟩
  unfold collectEgress
  simp only [guaranteed] at hDrained
  simp only [hDrained.1, Bool.and_eq_true, List.isEmpty_iff]
  split
  · next hEmpty =>
    refine ⟨hDrained.2, ?_⟩
    grind [frameBytes, egressBatchFrames, egressBatchBytes]
  · refine ⟨hDrained.2, ?_⟩
    grind [mergeEgressBatch_length, mergeEgressBatch_bytes]

/-- After an egress pass a permit is stored for the QoS 0 frames that remain, unless the
pass stalls. -/
theorem egress_rearmed_iff (conn : NativeConn) :
    (queuedQos0 (collectEgress conn) ≠ [] → (collectEgress conn).permit = true) ↔
      ¬ Stalls conn := by
  obtain ⟨hQueued, hPermit⟩ := collectEgress_spec conn
  rw [hQueued, hPermit]
  rcases takeGuaranteed_cases conn.mailbox with ⟨hFew, hSmall, hAll⟩ | ⟨hLarge, hFull⟩
  · rw [hAll]
    constructor
    · rintro hRearmed ⟨hNone, -, -, i, hStops⟩
      have hDrained := hStops.drained
      have hSplit := (drainLoop_spec (framesLeft conn) (bytesLeft conn) 0 0 (queuedQos0 conn)).split
      have hTaken : ((queuedQos0 conn).take i).length = i :=
        List.length_take_of_le (Nat.le_of_lt hStops.next_queued)
      have hRemain : (drainLoop (framesLeft conn) (bytesLeft conn) 0 0 (queuedQos0 conn)).2 ≠ [] := by
        intro hEmpty
        have hLength := congrArg List.length hSplit
        rw [hEmpty, hDrained, List.append_nil, hTaken] at hLength
        have hQueued := hStops.next_queued
        omega
      have hFrames := hStops.frames_left
      have hBytes := hStops.bytes_left
      grind [framesLeft, bytesLeft]
    · intro hRuns hRemain
      by_contra hIdle
      rw [not_or, not_or, Bool.not_eq_true] at hIdle
      obtain ⟨hNone, hFrames, hBytes⟩ := hIdle
      have hStops := stopsBefore_of_left hRemain (by omega) (by omega)
      exact hRuns ⟨hNone, hFew, hSmall, _, hStops⟩
  · have hNot : ¬ Stalls conn := fun hStalls => hLarge ⟨hStalls.few_frames, hStalls.few_bytes⟩
    refine iff_of_true (fun _ => Or.inr ?_) hNot
    omega

/-! ### The task of the connection -/

/-- What happens to a connection: a frame is routed to it, or its task runs because a
permit was stored, because a guaranteed frame arrived or because it read from the socket. -/
inductive EgressEvent where
  | route (frame : BrokerFrame)
  | routeQos0 (bound : Nat) (frame : BrokerFrame)
  | notified
  | received
  | read

/-- The shed loop of `ConnTable::route`, and the push after it. -/
def pushQos0 (bound : Nat) (queue : List BrokerFrame) (frame : BrokerFrame) : List BrokerFrame :=
  queue.drop (queue.length + 1 - max bound 1) ++ [frame]

/-- One event. The task runs only on an event that is there. -/
def egressStep (conn : NativeConn) : EgressEvent → Option (NativeConn × Unit)
  | .route frame =>
    match conn.slot with
    | none => some (conn, ())
    | some slot =>
      some ({ conn with
        mailbox := conn.mailbox ++ [{ frame with sequenceNo := slot.nextSeq }]
        slot := some { slot with nextSeq := slot.nextSeq + 1 } }, ())
  | .routeQos0 bound frame =>
    match conn.slot with
    | none => some (conn, ())
    | some slot =>
      some ({ conn with
        slot := some
          { slot with
            qos0 := pushQos0 bound slot.qos0 { frame with sequenceNo := slot.nextSeq }
            nextSeq := slot.nextSeq + 1 }
        permit := conn.permit || slot.waker }, ())
  | .notified =>
    if conn.permit then some (collectEgress { conn with permit := false }, ()) else none
  | .received =>
    match conn.mailbox with
    | [] => none
    | frame :: mailbox =>
      some (collectEgress { conn with mailbox, written := conn.written ++ [frame] }, ())
  | .read => some (collectEgress conn, ())

def accepted : NativeConn :=
  { mailbox := [], slot := some { qos0 := [], nextSeq := 1, waker := true }, permit := false
    written := [] }

def twoFrames (frame : BrokerFrame) : List EgressEvent :=
  [.routeQos0 1000 frame, .routeQos0 1000 frame, .notified]

def largeFrame : BrokerFrame :=
  { connId := 0, sequenceNo := 0, metadata := [], payload := List.replicate 40000 0 }

/-- The second large frame stays queued without a permit. -/
theorem egress_stalls_on_large_frames :
    (exec egressStep accepted (twoFrames largeFrame)).map
      (fun result => ((queuedQos0 result.2).length, result.2.permit)) = some (1, false) := by
  have hLength (sequenceNo : Nat) :
      ({ largeFrame with sequenceNo } : BrokerFrame).totalFrameLen = 40028 := by
    show headerLen + 0 + (List.replicate 40000 0).length = 40028
    rw [List.length_replicate]
    rfl
  generalize largeFrame = frame at hLength ⊢
  simp [exec, twoFrames, egressStep, accepted, pushQos0, collectEgress, takeGuaranteed,
    drainQos0WithBudget, drainLoop, mergeEgressBatch, queuedQos0, frameBytes, hLength,
    egressBatchFrames, egressBatchBytes]

end IndraMqtt.Native
