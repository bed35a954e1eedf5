import IndraMqtt.Native.Egress

/-! The egress side of one transport of the edge. The guaranteed frames of all its connections
share one mailbox, each connection has its own QoS 0 backlog, and a pass fills one batch from the
mailbox first and then from the backlogs in turn. -/
namespace IndraMqtt.Transport

open Native

structure Drain where
  slots : Nat → Option ConnSlot
  out : List BrokerFrame

def queued (slots : Nat → Option ConnSlot) (connId : Nat) : List BrokerFrame :=
  (slots connId).elim [] (·.qos0)

namespace Drain

variable (maxFrames maxBytes : Nat)

def Full (drain : Drain) : Prop :=
  maxFrames ≤ drain.out.length ∨ maxBytes ≤ frameBytes drain.out

instance (drain : Drain) : Decidable (drain.Full maxFrames maxBytes) :=
  inferInstanceAs (Decidable (_ ∨ _))

def visit (drain : Drain) (connId : Nat) : Drain :=
  let drained := drainQos0WithBudget (drain.slots connId)
    (min (maxFrames - drain.out.length) 1) (maxBytes - frameBytes drain.out)
  ⟨Function.update drain.slots connId drained.2, drain.out ++ drained.1⟩

def round : List Nat → Drain → Drain
  | [], drain => drain
  | connId :: bound, drain =>
    if drain.Full maxFrames maxBytes then drain
    else round bound (drain.visit maxFrames maxBytes connId)

def rounds (bound : List Nat) : Nat → Drain → Drain
  | 0, drain => drain
  | turns + 1, drain =>
    if drain.Full maxFrames maxBytes then drain
    else
      let next := drain.round maxFrames maxBytes bound
      if next.out.length = drain.out.length then next else rounds bound turns next

end Drain

/-- `drain_qos0_for_transport`. A round with progress drains a frame, so that one turn more than
there are frames in the budget is enough for the loop. -/
def drainQos0ForTransport (slots : Nat → Option ConnSlot) (bound : List Nat)
    (maxFrames maxBytes : Nat) : Drain :=
  if maxFrames = 0 ∨ bound = [] then ⟨slots, []⟩
  else Drain.rounds maxFrames maxBytes bound (maxFrames + 1) ⟨slots, []⟩

/-- The transport: the mailbox, the slots of the table, the bound connections, the permit of its
waker and what it sent. -/
structure EdgeTransport where
  mailbox : List BrokerFrame
  slots : Nat → Option ConnSlot
  bound : List Nat
  permit : Bool
  sent : List BrokerFrame

/-- The pass that the three arms of `handle_connection` share, with the batch that it sends. An
empty batch is not sent, which changes nothing. -/
def egressPass (transport : EdgeTransport) : EdgeTransport × List BrokerFrame :=
  let rxBatch := takeGuaranteed 0 0 transport.mailbox
  let drain := drainQos0ForTransport transport.slots transport.bound
    (egressBatchFrames - rxBatch.1.length) (egressBatchBytes - frameBytes rxBatch.1)
  let batch := mergeEgressBatch rxBatch.1 drain.out
  ({ transport with
      mailbox := rxBatch.2
      slots := drain.slots
      sent := transport.sent ++ batch
      permit := transport.permit || egressBatchFrames ≤ batch.length ||
        egressBatchBytes ≤ frameBytes batch }, batch)

/-! ### What a drain does -/

section

variable {maxFrames maxBytes : Nat} {bound : List Nat} {drain : Drain} {connId : Nat}

/-- A visit takes the first frame of a backlog, whatever its size, or finds nothing. -/
theorem visit_cases (connId : Nat) (hRoom : ¬drain.Full maxFrames maxBytes) :
    (queued drain.slots connId = [] ∧ drain.visit maxFrames maxBytes connId = drain) ∨
      ∃ slot frame rest, drain.slots connId = some slot ∧ slot.qos0 = frame :: rest ∧
        drain.visit maxFrames maxBytes connId =
          ⟨Function.update drain.slots connId (some { slot with qos0 := rest }),
            drain.out ++ [frame]⟩ := by
  have hOne : min (maxFrames - drain.out.length) 1 = 1 := by
    unfold Drain.Full at hRoom
    omega
  unfold Drain.visit
  rw [hOne]
  cases hSlot : drain.slots connId with
  | none =>
    have hSame : Function.update drain.slots connId none = drain.slots := by
      rw [← hSlot, Function.update_eq_self]
    simp [queued, hSlot, drainQos0WithBudget, hSame]
  | some slot =>
    cases hQueue : slot.qos0 with
    | nil =>
      have hSame : Function.update drain.slots connId (some { slot with qos0 := [] }) =
          drain.slots := by
        rw [← hQueue, ← hSlot, Function.update_eq_self]
      simp [queued, hSlot, hQueue, drainQos0WithBudget, drainLoop, hSame]
    | cons frame rest =>
      right
      refine ⟨slot, frame, rest, rfl, hQueue, ?_⟩
      have hDrained : drainLoop 1 (maxBytes - frameBytes drain.out) 0 0 (frame :: rest) =
          ([frame], rest) := by
        rw [drainLoop]
        cases rest <;> simp [drainLoop]
      simp [drainQos0WithBudget, hQueue, hDrained]

/-- What holds at first and whenever a frame of a bound connection is taken within the budgets
holds in the end. -/
theorem rounds_induction {P : Drain → Prop}
    (hTake : ∀ drain : Drain, ∀ connId ∈ bound, ∀ slot frame rest,
      ¬drain.Full maxFrames maxBytes → drain.slots connId = some slot →
      slot.qos0 = frame :: rest → P drain →
      P ⟨Function.update drain.slots connId (some { slot with qos0 := rest }),
        drain.out ++ [frame]⟩) (turns : Nat) (hFirst : P drain) :
    P (drain.rounds maxFrames maxBytes bound turns) := by
  have hRound (visited : List Nat) (hVisited : visited ⊆ bound) (drain : Drain) (hDrain : P drain) :
      P (drain.round maxFrames maxBytes visited) := by
    induction visited generalizing drain with
    | nil => exact hDrain
    | cons connId visited ih =>
      rw [List.cons_subset] at hVisited
      rw [Drain.round]
      split
      · exact hDrain
      · next hRoom =>
        apply ih hVisited.2
        obtain ⟨-, hSame⟩ | ⟨slot, frame, rest, hSlot, hQueue, hVisit⟩ := visit_cases connId hRoom
        · rwa [hSame]
        · simp_all
  induction turns generalizing drain with
  | zero => exact hFirst
  | succ turns ih =>
    have hNext := hRound bound (List.Subset.refl _) drain hFirst
    rw [Drain.rounds]
    split
    · exact hFirst
    · dsimp only
      split
      · exact hNext
      · exact ih hNext

theorem length_le_round (maxFrames maxBytes : Nat) (visited : List Nat) (drain : Drain) :
    drain.out.length ≤ (drain.round maxFrames maxBytes visited).out.length := by
  induction visited generalizing drain with
  | nil => exact Nat.le_refl _
  | cons connId visited ih =>
    rw [Drain.round]
    split
    · exact Nat.le_refl _
    · refine Nat.le_trans ?_ (ih _)
      simp [Drain.visit]

/-- A round without progress has found every backlog empty. -/
theorem empty_of_no_progress (hRoom : ¬drain.Full maxFrames maxBytes)
    (hSame : (drain.round maxFrames maxBytes bound).out.length = drain.out.length) :
    drain.round maxFrames maxBytes bound = drain ∧
      ∀ connId ∈ bound, queued drain.slots connId = [] := by
  induction bound with
  | nil => exact ⟨rfl, nofun⟩
  | cons connId bound ih =>
    rw [Drain.round, if_neg hRoom] at hSame ⊢
    obtain ⟨hEmpty, hVisit⟩ | ⟨slot, frame, rest, -, -, hVisit⟩ := visit_cases connId hRoom
    · simp_all
    · have hGrown := length_le_round maxFrames maxBytes bound
        (drain.visit maxFrames maxBytes connId)
      rw [hSame, hVisit, List.length_append, List.length_singleton] at hGrown
      omega

/-- The loop ends with a budget used up or with nothing left. -/
theorem rounds_stop {turns : Nat} (hTurns : maxFrames < turns + drain.out.length) :
    (drain.rounds maxFrames maxBytes bound turns).Full maxFrames maxBytes ∨
      ∀ connId ∈ bound, queued (drain.rounds maxFrames maxBytes bound turns).slots connId = [] := by
  induction turns generalizing drain with
  | zero => exact Or.inl (Or.inl (by simpa [Drain.rounds] using Nat.le_of_lt hTurns))
  | succ turns ih =>
    rw [Drain.rounds]
    grind [empty_of_no_progress, length_le_round]

def backlog (slots : Nat → Option ConnSlot) (bound : List Nat) : List BrokerFrame :=
  bound.dedup.flatMap (queued slots)

/-- What is kept while frames are taken. -/
structure Kept (slots : Nat → Option ConnSlot) (bound : List Nat) (maxFrames maxBytes : Nat)
    (drain : Drain) : Prop where
  frames : drain.out.length ≤ maxFrames
  bytes : ∀ before last, drain.out = before ++ [last] → frameBytes before < maxBytes
  same : (backlog slots bound).Perm (drain.out ++ backlog drain.slots bound)
  order : ∀ connId, queued drain.slots connId <:+ queued slots connId

theorem Kept.take {slots : Nat → Option ConnSlot} (hKept : Kept slots bound maxFrames maxBytes drain)
    (hBound : connId ∈ bound) {slot : ConnSlot} {frame : BrokerFrame} {rest : List BrokerFrame}
    (hRoom : ¬drain.Full maxFrames maxBytes) (hSlot : drain.slots connId = some slot)
    (hQueue : slot.qos0 = frame :: rest) : Kept slots bound maxFrames maxBytes
      ⟨Function.update drain.slots connId (some { slot with qos0 := rest }),
        drain.out ++ [frame]⟩ := by
  obtain ⟨hFrames, hBytes⟩ := not_or.mp hRoom
  have hUpdate : queued (Function.update drain.slots connId (some { slot with qos0 := rest })) =
      Function.update (queued drain.slots) connId rest := by grind [queued]
  have hHere : queued drain.slots connId = frame :: rest := by simp [queued, hSlot, hQueue]
  refine ⟨by simp; omega, ?_, ?_, ?_⟩
  · intro before last hLast
    rw [(List.append_inj' hLast rfl).1.symm]
    omega
  · refine hKept.same.trans ?_
    have hPerm : (rest ++ backlog drain.slots bound).Perm
        (rest ++ frame :: bound.dedup.flatMap (Function.update (queued drain.slots) connId rest)) := by
      refine (Grouping.flatMap_update_perm (List.nodup_dedup bound) (List.mem_dedup.mpr hBound)
        rest).trans ?_
      rw [hHere]
      exact List.perm_middle.symm
    simp_all [backlog, List.perm_append_left_iff]
  · intro other
    rw [hUpdate]
    by_cases hOther : other = connId
    · subst hOther
      rw [Function.update_self]
      exact (List.suffix_cons frame rest).trans (hHere ▸ hKept.order other)
    · rw [Function.update_of_ne hOther]
      exact hKept.order other

end

section

variable (slots : Nat → Option ConnSlot) (bound : List Nat) (maxFrames maxBytes : Nat)

theorem kept_drain :
    Kept slots bound maxFrames maxBytes (drainQos0ForTransport slots bound maxFrames maxBytes) := by
  have hFirst : Kept slots bound maxFrames maxBytes ⟨slots, []⟩ :=
    ⟨Nat.zero_le _, by simp, List.Perm.refl _, fun _ => List.suffix_refl _⟩
  unfold drainQos0ForTransport
  split
  · exact hFirst
  · simp_all [rounds_induction, Kept.take]

/-- A drain ends with a budget used up or with nothing left for a bound connection. -/
theorem drain_stop :
    (drainQos0ForTransport slots bound maxFrames maxBytes).Full maxFrames maxBytes ∨
      backlog (drainQos0ForTransport slots bound maxFrames maxBytes).slots bound = [] := by
  unfold drainQos0ForTransport
  split
  · next hNone =>
    obtain rfl | rfl := hNone
    · exact Or.inl (Or.inl (Nat.zero_le _))
    · exact Or.inr rfl
  · refine rounds_stop (by simp) |>.imp_right fun hEmpty => ?_
    exact List.flatMap_eq_nil_iff.mpr fun connId hMem => hEmpty connId (List.mem_dedup.mp hMem)

end

/-- What each pass of a transport does. The drain ends with a budget used up or nothing left; it
takes at most as many frames as its budget has, and its bytes are within the budget up to the last
frame; no frame of the mailbox or of a backlog is
lost or sent twice, and those that stay keep their order; and a permit is stored when QoS 0 frames
of a bound connection stay. -/
theorem pass_accounted (transport : EdgeTransport) (maxFrames maxBytes : Nat) :
    (((drainQos0ForTransport transport.slots transport.bound maxFrames maxBytes).Full maxFrames
          maxBytes ∨
        backlog (drainQos0ForTransport transport.slots transport.bound maxFrames maxBytes).slots
          transport.bound = []) ∧
      (drainQos0ForTransport transport.slots transport.bound maxFrames maxBytes).out.length ≤
        maxFrames ∧
      ∀ before last, (drainQos0ForTransport transport.slots transport.bound maxFrames
        maxBytes).out = before ++ [last] → frameBytes before < maxBytes) ∧
    ((egressPass transport).1.sent = transport.sent ++ (egressPass transport).2 ∧
      (transport.mailbox ++ backlog transport.slots transport.bound).Perm
        ((egressPass transport).2 ++ ((egressPass transport).1.mailbox ++
          backlog (egressPass transport).1.slots transport.bound)) ∧
      (egressPass transport).1.mailbox <:+ transport.mailbox ∧
      ∀ connId, queued (egressPass transport).1.slots connId <:+ queued transport.slots connId) ∧
    (backlog (egressPass transport).1.slots transport.bound ≠ [] →
      (egressPass transport).1.permit = true) := by
  have hBudget := kept_drain transport.slots transport.bound maxFrames maxBytes
  refine ⟨⟨drain_stop .., hBudget.frames, hBudget.bytes⟩, ?_⟩
  obtain ⟨hSplit, -⟩ := takeGuaranteed_spec 0 0 transport.mailbox
  unfold egressPass
  generalize takeGuaranteed 0 0 transport.mailbox = rxBatch at hSplit ⊢
  dsimp only
  let frames := egressBatchFrames - rxBatch.1.length
  let bytes := egressBatchBytes - frameBytes rxBatch.1
  have hKept := kept_drain transport.slots transport.bound frames bytes
  have hStop := drain_stop transport.slots transport.bound frames bytes
  generalize drainQos0ForTransport transport.slots transport.bound frames bytes = drain
    at hKept hStop ⊢
  refine ⟨⟨rfl, ?_, ⟨rxBatch.1, hSplit⟩, hKept.order⟩, ?_⟩
  · rw [← hSplit]
    refine List.Perm.trans ?_ ((mergeEgressBatch_perm rxBatch.1 drain.out).symm.append_right _)
    rw [List.append_assoc, List.append_assoc]
    refine List.Perm.append_left _ ((hKept.same.append_left rxBatch.2).trans ?_)
    exact List.perm_append_comm_assoc ..
  · intro hRemain
    obtain hFull | hEmpty := hStop
    · simp only [Bool.or_eq_true, decide_eq_true_eq, mergeEgressBatch_length,
        mergeEgressBatch_bytes, Drain.Full] at hFull ⊢
      omega
    · exact absurd hEmpty hRemain

def lone (frame : BrokerFrame) : EdgeTransport where
  mailbox := []
  slots connId := if connId = 7 then some ⟨[frame], 2, true⟩ else none
  bound := [7]
  permit := false
  sent := []

/-- A frame of 70028 bytes is drained in a budget of 65536 bytes. -/
theorem drain_over_budget :
    egressBatchBytes < frameBytes (drainQos0ForTransport
      (lone ⟨7, 1, [], List.replicate 70000 0⟩).slots [7] egressBatchFrames egressBatchBytes).out := by
  have hLength : (⟨7, 1, [], List.replicate 70000 0⟩ : BrokerFrame).totalFrameLen = 70028 := by
    rw [BrokerFrame.totalFrameLen, List.length_replicate]
    rfl
  generalize (⟨7, 1, [], List.replicate 70000 0⟩ : BrokerFrame) = frame at hLength
  simp [drainQos0ForTransport, Drain.rounds, Drain.round, Drain.visit, Drain.Full, lone,
    drainQos0WithBudget, drainLoop, frameBytes, egressBatchFrames, egressBatchBytes, hLength]

end IndraMqtt.Transport
