import IndraMqtt.Link.FrameCodec
import IndraMqtt.Native.Egress

/-! The connection table. An operation visits the slot of one connection, or of several, and what
it does with frames there is kept as its effect: a frame that is routed goes to a mailbox, to the
QoS 0 backlog of the slot or nowhere, and the frames of a backlog leave it by a drain, by a shed or
with the slot. Labels, wakers and counters are left out. -/
namespace IndraMqtt.Routing

open Runs
open Link (BrokerFrame)

/-- `is_qos0_publish_out`. The two bytes of the topic length and the QoS lie inside the metadata
when the lengths are right. -/
def isQos0PublishOut (frame : BrokerFrame) : Bool :=
  let metadata := frame.metadata
  let topicLen := (metadata.getD 0 0).toNat * 256 + (metadata.getD 1 0).toNat
  let oldLen := 2 + topicLen + 5
  frame.header.opcode == .publishOut && 7 ≤ metadata.length &&
    (metadata.length == oldLen || metadata.length == oldLen + 2 ||
      metadata.length == oldLen + 2 + 4 || oldLen + 2 + 4 + 7 ≤ metadata.length) &&
    metadata.getD (2 + topicLen + 2) 0 == 0

/-- A slot with the mailbox of its task, `next_seq` and the backlog. -/
structure ConnSlot where
  tx : Nat
  nextSeq : UInt64
  qos0 : List BrokerFrame

/-- The table with the bound of the backlogs and the mailboxes whose task is gone. -/
structure ConnTable where
  slots : UInt64 → Option ConnSlot
  qos0Bound : Nat
  closed : List Nat

/-- What a visit does with frames: those that were routed, with the numbers they were stamped
with, and where frames went. -/
structure Effect where
  routed : List BrokerFrame := []
  stamps : List UInt64 := []
  delivered : List BrokerFrame := []
  drained : List BrokerFrame := []
  shed : List BrokerFrame := []
  refused : List BrokerFrame := []
  discarded : List BrokerFrame := []

def Effect.outcomes (effect : Effect) : List BrokerFrame :=
  effect.delivered ++ effect.drained ++ effect.shed ++ effect.refused ++ effect.discarded

/-- What an operation does at the slot of one connection. -/
abbrev Visit := Option ConnSlot → Option ConnSlot × Effect

def queued (slot : Option ConnSlot) : List BrokerFrame := slot.elim [] (·.qos0)

def ConnSlot.stamp (slot : ConnSlot) (frame : BrokerFrame) : BrokerFrame :=
  { frame with header := { frame.header with sequenceNo := slot.nextSeq } }

namespace Visit

def idle : Visit := fun slot => (slot, {})

def register (tx : Nat) : Visit := fun slot => (some ⟨tx, 1, []⟩, { discarded := queued slot })

def unregister : Visit := fun slot => (none, { discarded := queued slot })

def pruneSender (tx : Nat) : Visit := fun slot =>
  if slot.any (·.tx == tx) then unregister slot else idle slot

variable (table : ConnTable) (frame : BrokerFrame)

def refuse : Option ConnSlot × Effect :=
  (none, { routed := [frame], refused := [frame] })

def send (slot : ConnSlot) : Option ConnSlot × Effect :=
  let frame := slot.stamp frame
  if slot.tx ∈ table.closed then
    (none, {
      routed := [frame], stamps := [slot.nextSeq], refused := [frame], discarded := slot.qos0 })
  else
    (some { slot with nextSeq := slot.nextSeq + 1 }, {
      routed := [frame], stamps := [slot.nextSeq], delivered := [frame] })

/-- A frame goes to the backlog, which sheds from its front first. -/
def push (slot : ConnSlot) : Option ConnSlot × Effect :=
  let excess := slot.qos0.length + 1 - max table.qos0Bound 1
  (some {
      slot with
      nextSeq := slot.nextSeq + 1
      qos0 := slot.qos0.drop excess ++ [slot.stamp frame] }, {
    routed := [slot.stamp frame], stamps := [slot.nextSeq], shed := slot.qos0.take excess })

def route : Visit := fun slot =>
  if isQos0PublishOut frame then slot.elim (refuse frame) (push table frame)
  else slot.elim (refuse frame) (send table frame)

def routeQos0 : Visit := fun slot =>
  slot.elim (refuse frame) fun slot =>
    if !isQos0PublishOut (slot.stamp frame) then send table frame slot else push table frame slot

/-- The first frames of the backlog are taken, as many as a count of it says. -/
def drain (count : List BrokerFrame → Nat) : Visit := fun slot =>
  slot.elim (none, {}) fun slot =>
    (some { slot with qos0 := slot.qos0.drop (count slot.qos0) }, {
      drained := slot.qos0.take (count slot.qos0) })

def popQos0 : Visit := drain fun _ => 1

def drainQos0 (maxFrames : Nat) : Visit := drain fun _ => maxFrames

def egressFrame : Native.BrokerFrame :=
  ⟨frame.header.connId.toNat, frame.header.sequenceNo.toNat, frame.metadata, frame.payload⟩

def drainQos0WithBudget (maxFrames maxBytes : Nat) : Visit :=
  drain fun queue => (Native.drainLoop maxFrames maxBytes 0 0 (queue.map egressFrame)).1.length

end Visit

/-- The calls of the table, and the end of the task of a mailbox. -/
inductive TableOp where
  | register (connId : UInt64) (tx : Nat)
  | unregister (connId : UInt64)
  | pruneSender (tx : Nat)
  | setQos0Bound (bound : Nat)
  | close (tx : Nat)
  | route (connId : UInt64) (frame : BrokerFrame)
  | routeQos0 (connId : UInt64) (frame : BrokerFrame)
  | popQos0 (connId : UInt64)
  | drainQos0 (connId : UInt64) (maxFrames : Nat)
  | drainQos0WithBudget (connId : UInt64) (maxFrames maxBytes : Nat)

namespace ConnTable

/-- The slot that an operation is for, and what it does there. -/
def visit (table : ConnTable) (op : TableOp) (connId : UInt64) : Visit :=
  let only (target : UInt64) (visit : Visit) := if connId = target then visit else Visit.idle
  match op with
  | .register target tx => only target (.register tx)
  | .unregister target => only target .unregister
  | .pruneSender tx => .pruneSender tx
  | .setQos0Bound _ => .idle
  | .close _ => .idle
  | .route target frame => only target (.route table frame)
  | .routeQos0 target frame => only target (.routeQos0 table frame)
  | .popQos0 target => only target .popQos0
  | .drainQos0 target maxFrames => only target (.drainQos0 maxFrames)
  | .drainQos0WithBudget target maxFrames maxBytes =>
    only target (.drainQos0WithBudget maxFrames maxBytes)

def step (table : ConnTable) (op : TableOp) : Option (ConnTable × (UInt64 → Effect)) :=
  some ({
    slots := fun connId => (table.visit op connId (table.slots connId)).1
    qos0Bound :=
      match op with
      | .setQos0Bound bound => max bound 1
      | _ => table.qos0Bound
    closed :=
      match op with
      | .close tx => tx :: table.closed
      | _ => table.closed },
    fun connId => (table.visit op connId (table.slots connId)).2)

def new (bound : Nat) : ConnTable := ⟨fun _ => none, bound, []⟩

end ConnTable

/-! ### One visit -/

/-- What a visit does with the frames of a slot whose backlog holds QoS 0 publishes only. -/
structure Fair (bound : Nat) (slot : Option ConnSlot) (result : Option ConnSlot × Effect) :
    Prop where
  accounted : (queued slot ++ result.2.routed).Perm (result.2.outcomes ++ queued result.1)
  sheddable : ∀ frame ∈ queued result.1, isQos0PublishOut frame
  oldest : result.2.shed <+: queued slot
  bounded : result.2.shed ≠ [] → (queued result.1).length = max bound 1
  discarded : result.2.discarded ⊆ queued slot

/-- How a visit numbers frames while it does not register: with the next number of the slot, and
not without a slot. -/
structure Numbers (slot : Option ConnSlot) (result : Option ConnSlot × Effect) : Prop where
  absent : slot = none → result.1 = none ∧ result.2.stamps = []
  present : ∀ held, slot = some held →
    (result.2.stamps = [] ∧ ∀ kept, result.1 = some kept → kept.nextSeq = held.nextSeq) ∨
      (result.2.stamps = [held.nextSeq] ∧
        ∀ kept, result.1 = some kept → kept.nextSeq = held.nextSeq + 1)

namespace Visit

variable {slot : Option ConnSlot} {bound : Nat}

theorem fair_register (tx : Nat) : Fair bound slot (register tx slot) :=
  ⟨by simp [register, Effect.outcomes, queued], by simp [register, queued], List.nil_prefix, nofun,
    List.Subset.refl _⟩

theorem fair_unregister : Fair bound slot (unregister slot) :=
  ⟨by simp [unregister, Effect.outcomes, queued], by simp [unregister, queued],
    List.nil_prefix, nofun, List.Subset.refl _⟩

theorem numbers_unregister : Numbers slot (unregister slot) :=
  ⟨fun _ => ⟨rfl, rfl⟩, fun _ _ => Or.inl ⟨rfl, nofun⟩⟩

theorem numbers_idle : Numbers slot (idle slot) := by
  refine ⟨fun hNone => ⟨hNone, rfl⟩, fun held hSome => Or.inl ⟨rfl, fun kept hKept => ?_⟩⟩
  cases hSome.symm.trans hKept
  rfl

theorem numbers_drain (count : List BrokerFrame → Nat) : Numbers slot (drain count slot) := by
  cases slot with
  | none => exact ⟨fun _ => ⟨rfl, rfl⟩, nofun⟩
  | some slot =>
    refine ⟨nofun, ?_⟩
    rintro _ ⟨⟩
    exact Or.inl ⟨rfl, by rintro _ ⟨⟩; rfl⟩

theorem numbers_route (table : ConnTable) (frame : BrokerFrame) :
    Numbers slot (route table frame slot) := by
  cases slot with
  | none =>
    refine ⟨fun _ => ?_, nofun⟩
    unfold route
    split <;> exact ⟨rfl, rfl⟩
  | some slot =>
    refine ⟨nofun, ?_⟩
    rintro _ ⟨⟩
    right
    simp only [route, Option.elim_some, push, send]
    grind

theorem routeQos0_eq_route (table : ConnTable) (frame : BrokerFrame) :
    routeQos0 table frame = route table frame := by
  funext slot
  cases slot with
  | none =>
    unfold route
    split <;> rfl
  | some slot => grind [isQos0PublishOut, ConnSlot.stamp, route, routeQos0]

variable (hQueue : ∀ frame ∈ queued slot, isQos0PublishOut frame)
include hQueue

theorem fair_idle : Fair bound slot (idle slot) :=
  ⟨by simp [idle, Effect.outcomes], hQueue, List.nil_prefix, nofun, nofun⟩

theorem fair_drain (count : List BrokerFrame → Nat) : Fair bound slot (drain count slot) := by
  cases slot with
  | none => exact ⟨by simp [drain, Effect.outcomes], hQueue, List.nil_prefix, nofun, nofun⟩
  | some slot =>
    refine ⟨by simp [drain, Effect.outcomes, queued], ?_, List.nil_prefix, nofun, nofun⟩
    exact fun frame hMem => hQueue frame (List.mem_of_mem_drop hMem)

variable {held : ConnSlot} {op : TableOp} (table : ConnTable)

theorem fair_push {frame : BrokerFrame} (hQos0 : isQos0PublishOut frame)
    (hHeld : slot = some held) : Fair table.qos0Bound slot (push table frame held) := by
  subst hHeld
  refine ⟨?_, ?_, List.take_prefix _ _, ?_, nofun⟩
  · simp [push, Effect.outcomes, queued, ← List.append_assoc]
  · intro other hMem
    obtain hOld | hNew := List.mem_append.mp hMem
    · exact hQueue other (List.mem_of_mem_drop hOld)
    · rw [List.mem_singleton.mp hNew]
      exact hQos0
  · simp [push, queued]
    omega

theorem fair_send (frame : BrokerFrame) (hHeld : slot = some held) :
    Fair table.qos0Bound slot (send table frame held) := by
  subst hHeld
  by_cases hClosed : held.tx ∈ table.closed
  · rw [send, if_pos hClosed]
    exact ⟨by simp [Effect.outcomes, queued], by simp [queued], List.nil_prefix, nofun,
      List.Subset.refl _⟩
  · rw [send, if_neg hClosed]
    exact ⟨by simp [Effect.outcomes, queued], hQueue, List.nil_prefix, nofun, nofun⟩

theorem fair_route (frame : BrokerFrame) : Fair table.qos0Bound slot (route table frame slot) := by
  unfold route
  cases hSlot : slot with
  | none =>
    rw [hSlot] at hQueue
    split <;> exact ⟨by simp [refuse, Effect.outcomes], hQueue, List.nil_prefix, nofun, nofun⟩
  | some held => grind [fair_push, fair_send]

end Visit

namespace ConnTable

variable {table last : ConnTable} {run : List (Transition ConnTable TableOp (UInt64 → Effect))}
  {connId : UInt64}

theorem visit_cases {P : Option ConnSlot × Effect → Prop} {slot : Option ConnSlot}
    (hIdle : P (Visit.idle slot))
    (hRegister : ∀ tx, op = .register connId tx → P (Visit.register tx slot))
    (hUnregister : P (Visit.unregister slot)) (hRoute : ∀ frame, P (Visit.route table frame slot))
    (hDrain : ∀ count, P (Visit.drain count slot)) : P (table.visit op connId slot) := by
  have hPop : P (Visit.popQos0 slot) := hDrain _
  have hCount (maxFrames : Nat) : P (Visit.drainQos0 maxFrames slot) := hDrain _
  have hBudget (maxFrames maxBytes : Nat) : P (Visit.drainQos0WithBudget maxFrames maxBytes slot) :=
    hDrain _
  cases op <;> simp only [visit, Visit.routeQos0_eq_route]
  all_goals grind [Visit.pruneSender]

/-! ### Runs -/

/-- The backlogs hold QoS 0 publishes. -/
def Sheddable (table : ConnTable) (connId : UInt64) : Prop :=
  ∀ frame ∈ queued (table.slots connId), isQos0PublishOut frame

theorem Sheddable.step {next : ConnTable} {effect : UInt64 → Effect}
    (hTable : table.Sheddable connId) (hStep : table.step op = some (next, effect)) :
    Fair table.qos0Bound (table.slots connId) (next.slots connId, effect connId) := by
  cases hStep
  exact visit_cases (Visit.fair_idle hTable) (fun tx _ => Visit.fair_register tx)
    Visit.fair_unregister (Visit.fair_route hTable table) (Visit.fair_drain hTable)

/-- Every frame that was routed to a connection is where it went or in the backlog. -/
theorem accounted_run (hRun : Run step table run last) (hTable : table.Sheddable connId) :
    (queued (table.slots connId) ++ run.flatMap fun t => (t.output connId).routed).Perm
      ((run.flatMap fun t => (t.output connId).outcomes) ++ queued (last.slots connId)) := by
  induction hRun with
  | nil table => simp
  | cons hStep _ ih =>
    have hFair := hTable.step hStep
    rw [List.flatMap_cons, List.flatMap_cons, ← List.append_assoc,
      List.append_assoc (Effect.outcomes _)]
    refine (hFair.accounted.append_right _).trans ?_
    rw [List.append_assoc]
    exact (ih hFair.sheddable).append_left _

theorem stamps_run (hRun : Run step table run last)
    (hKept : ∀ t ∈ run, ∀ tx, t.input ≠ .register connId tx) :
    (table.slots connId = none → run.flatMap (fun t => (t.output connId).stamps) = []) ∧
    ∀ held, table.slots connId = some held →
      ∃ count, run.flatMap (fun t => (t.output connId).stamps) =
        (List.range count).map fun i => held.nextSeq + UInt64.ofNat i := by
  induction hRun with
  | nil table => exact ⟨fun _ => rfl, fun _ _ => ⟨0, rfl⟩⟩
  | @cons table next last op effect rest hStep _ ih =>
    rw [List.forall_mem_cons] at hKept
    obtain ⟨hNone, hSome⟩ := ih hKept.2
    have hNumbers : Numbers (table.slots connId) (table.visit op connId (table.slots connId)) :=
      visit_cases Visit.numbers_idle (fun tx hRegister => absurd hRegister (hKept.1 tx))
        Visit.numbers_unregister (Visit.numbers_route table) Visit.numbers_drain
    cases hStep
    simp only [List.flatMap_cons]
    constructor
    · intro hAbsent
      obtain ⟨hGone, hStamps⟩ := hNumbers.absent hAbsent
      rw [hStamps, hNone hGone]
      rfl
    · intro held hHeld
      -- the rest of the run goes on from the number that the visit leaves, or without a slot
      have hRest (number : UInt64) (hNext : ∀ kept, (table.visit op connId (table.slots connId)).1 =
          some kept → kept.nextSeq = number) :
          ∃ count, rest.flatMap (fun t => (t.output connId).stamps) =
            (List.range count).map fun i => number + UInt64.ofNat i := by
        cases hAfter : (table.visit op connId (table.slots connId)).1 with
        | none => exact ⟨0, hNone hAfter⟩
        | some kept =>
          rw [← hNext kept hAfter]
          exact hSome kept hAfter
      obtain ⟨hStamps, hNext⟩ | ⟨hStamps, hNext⟩ := hNumbers.present held hHeld
      · rw [hStamps, List.nil_append]
        exact hRest _ hNext
      · obtain ⟨count, hCount⟩ := hRest _ hNext
        refine ⟨count + 1, ?_⟩
        rw [hStamps, hCount, List.range_succ_eq_map, List.map_cons, List.map_map]
        simp [Function.comp_def, UInt64.ofNat_add, UInt64.add_assoc, UInt64.add_comm]

/-- What the table does over every sequence of calls, for every connection. Each frame that was
routed to it was delivered, drained, shed, refused, discarded with its slot or is still queued; what
is shed is the front of the backlog and leaves it at its bound; only QoS 0 publishes are shed or
discarded; and the numbers of one registration are 1, 2, 3 and so on. -/
theorem routed_accounted (bound : Nat) (connId : UInt64) (hRun : Run step (new bound) run last) :
    (run.flatMap fun t => (t.output connId).routed).Perm
      ((run.flatMap fun t => (t.output connId).outcomes) ++ queued (last.slots connId)) ∧
    (∀ t ∈ run, (t.output connId).shed <+: queued (t.before.slots connId) ∧
      ((t.output connId).shed ≠ [] →
        (queued (t.after.slots connId)).length = max t.before.qos0Bound 1) ∧
      ∀ frame ∈ (t.output connId).shed ++ (t.output connId).discarded, isQos0PublishOut frame) ∧
    ∀ front t back tx, run = front ++ t :: back → t.input = .register connId tx →
      (∀ u ∈ back, ∀ tx, u.input ≠ .register connId tx) →
      ∃ count, back.flatMap (fun u => (u.output connId).stamps) =
          (List.range count).map (fun i => UInt64.ofNat (i + 1)) ∧
        (count < 2 ^ 64 → (back.flatMap fun u => (u.output connId).stamps).Pairwise (· < ·)) := by
  have hNew : (new bound).Sheddable connId := by simp [Sheddable, new, queued]
  refine ⟨by simpa [new, queued] using accounted_run hRun hNew, ?_, ?_⟩
  · intro t hMem
    obtain ⟨hBefore, hStep⟩ := hRun.invariant_before
      (fun _ _ _ _ hTable hStep => (Sheddable.step hTable hStep).sheddable) hNew t hMem
    have hFair := Sheddable.step hBefore hStep
    refine ⟨hFair.oldest, hFair.bounded, ?_⟩
    intro frame hFrame
    apply hBefore frame
    obtain hShed | hDiscarded := List.mem_append.mp hFrame
    · exact hFair.oldest.subset hShed
    · exact hFair.discarded hDiscarded
  · rintro front t back tx rfl hRegister hKept
    have hFresh : t.after.slots connId = some ⟨tx, 1, []⟩ := by
      have hStep := hRun.before.2
      rw [hRegister] at hStep
      obtain ⟨hAfter, -⟩ := Prod.mk.inj (Option.some.inj hStep)
      rw [← hAfter]
      simp [visit, Visit.register]
    obtain ⟨count, hCount⟩ := (stamps_run hRun.after hKept).2 _ hFresh
    have hStamps : back.flatMap (fun u => (u.output connId).stamps) =
        (List.range count).map fun i => UInt64.ofNat (i + 1) := by
      rw [hCount]
      simp [UInt64.ofNat_add, UInt64.add_comm]
    refine ⟨count, hStamps, fun hBelow => ?_⟩
    rw [hStamps, List.pairwise_map]
    refine List.pairwise_lt_range.imp_of_mem fun {i j} hFirst hSecond hLt => ?_
    rw [List.mem_range] at hFirst hSecond
    rw [UInt64.lt_iff_toNat_lt, UInt64.toNat_ofNat_of_lt' (by rw [UInt64.size]; omega),
      UInt64.toNat_ofNat_of_lt' (by rw [UInt64.size]; omega)]
    omega

def publishFrame : BrokerFrame where
  header := .new .publishOut 7 0 8 1
  metadata := [0, 1, 97, 0, 0, 0, 0, 0]
  payload := [1]
  metaLen_eq := rfl
  payloadLen_eq := rfl

def ackFrame : BrokerFrame where
  header := .new .pubAckOut 7 0 0 0
  metadata := []
  payload := []
  metaLen_eq := rfl
  payloadLen_eq := rfl

/-- The second publish sheds the first in a backlog of one, and the acknowledgement passes it. -/
theorem first_publish_shed :
    ∃ run last, Run step (new 1) run last ∧
      (run.flatMap fun t => (t.output 7).stamps) = [1, 2, 3] ∧
      (run.flatMap fun t => (t.output 7).shed).length = 1 ∧
      (run.flatMap fun t => (t.output 7).routed).Perm
        ((run.flatMap fun t => (t.output 7).outcomes) ++ queued (last.slots 7)) := by
  obtain ⟨run, last, hExec, hStamps, hShed⟩ : ∃ run last,
      exec step (new 1) [.register 7 0, .route 7 publishFrame, .routeQos0 7 publishFrame,
        .route 7 ackFrame] = some (run, last) ∧
      (run.flatMap fun t => (t.output 7).stamps) = [1, 2, 3] ∧
      (run.flatMap fun t => (t.output 7).shed).length = 1 :=
    ⟨_, _, rfl, by decide +kernel, by decide +kernel⟩
  exact ⟨run, last, Run.of_exec hExec, hStamps, hShed,
    (routed_accounted 1 7 (Run.of_exec hExec)).1⟩

/-- A connection that is registered again loses its backlog: the publish is not delivered, drained,
shed, refused or queued. -/
theorem backlog_lost_on_register :
    ∃ run last,
      exec step (new 1000) [.register 7 0, .route 7 publishFrame, .register 7 1] =
        some (run, last) ∧
      (run.flatMap fun t => (t.output 7).routed).length = 1 ∧
      (run.flatMap fun t => (t.output 7).delivered ++ (t.output 7).drained ++ (t.output 7).shed ++
        (t.output 7).refused) = [] ∧
      queued (last.slots 7) = [] :=
  ⟨_, _, rfl, by decide +kernel, by decide +kernel, by decide +kernel⟩

end ConnTable

end IndraMqtt.Routing
