import IndraMqtt.Lib.Runs
import Mathlib.Data.List.Perm.Basic

/-! The row buffer the batching sinks share, and the batches that are out while the transport
sends them. A batch comes back by `restore` when its transport fails. -/
namespace IndraMqtt.Connectors
open Runs

structure BatchQueue (T : Type) where
  rows : List T := []
  oldest : Option Nat := none
  maxRows : Nat
  linger : Nat
  deriving DecidableEq

namespace BatchQueue
variable {T : Type} (queue : BatchQueue T)

def new (maxRows linger : Nat) : BatchQueue T :=
  { maxRows := max maxRows 1, linger }

def isStale (now : Nat) : Bool :=
  queue.oldest.elim false fun oldest => decide (queue.linger ≤ now - oldest)

/-- The answer says that the rows are to be sent now. -/
def push (row : T) (now : Nat) : BatchQueue T × Bool :=
  let oldest := if queue.rows.isEmpty then some now else queue.oldest
  let next := { queue with rows := queue.rows ++ [row], oldest }
  (next, decide (queue.maxRows ≤ next.rows.length) || next.isStale now)

def takeBatch : BatchQueue T × List T × Option Nat :=
  ({ queue with rows := [], oldest := none }, queue.rows, queue.oldest)

def restore (rows : List T) (oldest : Option Nat) : BatchQueue T :=
  { queue with rows := rows ++ queue.rows, oldest := queue.oldest.or oldest }

end BatchQueue

/-- A row with the time of its push. -/
structure Stamped (Row : Type) where
  row : Row
  pushedAt : Nat
  deriving DecidableEq

/-- A sink: its queue, the batches taken from it and not restored, and all the rows pushed. -/
structure Sink (Row : Type) where
  queue : BatchQueue (Stamped Row)
  out : List (List (Stamped Row) × Option Nat) := []
  pushed : List (Stamped Row) := []
  now : Nat := 0

namespace Sink

inductive Event (Row : Type) where
  | push (row : Row)
  | takeBatch
  | restore (index : Nat)
  | wait (time : Nat)
  deriving DecidableEq

variable {Row : Type}

/-- The output is the answer of a push. -/
def step (sink : Sink Row) : Event Row → Option (Sink Row × Bool)
  | .push row =>
    let stamped := ⟨row, sink.now⟩
    let (queue, flush) := sink.queue.push stamped sink.now
    some ({ sink with queue, pushed := sink.pushed ++ [stamped] }, flush)
  | .takeBatch =>
    let (queue, batch) := sink.queue.takeBatch
    some ({ sink with queue, out := batch :: sink.out }, false)
  | .restore index => sink.out[index]?.map fun (rows, oldest) =>
    ({ sink with queue := sink.queue.restore rows oldest, out := sink.out.eraseIdx index }, false)
  | .wait time => some ({ sink with now := sink.now + time }, false)

def start (maxRows linger : Nat) : Sink Row :=
  { queue := .new maxRows linger }

variable {sink next last : Sink Row} {event : Event Row} {flush : Bool}
  {run : List (Transition (Sink Row) (Event Row) Bool)}

/-- The rows pushed are those in the queue and in the batches that are out. -/
def Conserved (sink : Sink Row) : Prop :=
  (sink.queue.rows ++ sink.out.flatMap (·.1)).Perm sink.pushed

theorem conserved_step (hHeld : Conserved sink) (hStep : step sink event = some (next, flush)) :
    Conserved next := by
  classical
  -- The places are counted row by row: a step moves rows between them or adds one to both sides.
  refine List.perm_iff_count.mpr fun row => ?_
  have hCount := List.perm_iff_count.mp hHeld row
  cases event with
  | push pushed =>
    cases hStep
    simp only [List.count_append] at hCount ⊢
    omega
  | takeBatch =>
    cases hStep
    exact hCount
  | restore index =>
    obtain ⟨batch, hBatch, hNext⟩ := Option.map_eq_some_iff.mp hStep
    cases hNext
    obtain ⟨hIndex, hBatch⟩ := List.getElem?_eq_some_iff.mp hBatch
    have hMoved := ((List.getElem_cons_eraseIdx_perm hIndex).flatMap_right (·.1)).count_eq row
    simp only [BatchQueue.restore, hBatch, List.flatMap_cons, List.count_append] at hMoved hCount ⊢
    omega
  | wait time =>
    cases hStep
    exact hCount

/-- Rows in push order, and a clock that is not later than the push of any of them. -/
structure Kept (pushed rows : List (Stamped Row)) (oldest : Option Nat) : Prop where
  ordered : rows.Sublist pushed
  stopped : rows = [] → oldest = none
  clock : ∀ row ∈ rows, ∃ time ∈ oldest, time ≤ row.pushedAt

/-- A restore finds the queue empty. -/
def intoEmpty (sink : Sink Row) : Event Row → Bool
  | .restore _ => sink.queue.rows.isEmpty
  | _ => true

structure Clocked (sink : Sink Row) : Prop where
  queue : Kept sink.pushed sink.queue.rows sink.queue.oldest
  out : ∀ batch ∈ sink.out, Kept sink.pushed batch.1 batch.2
  past : ∀ row ∈ sink.pushed, row.pushedAt ≤ sink.now

theorem clocked_step (hHeld : Clocked sink) (hEmpty : intoEmpty sink event = true)
    (hStep : step sink event = some (next, flush)) : Clocked next := by
  cases event with
  | push row =>
    cases hStep
    refine ⟨⟨hHeld.queue.ordered.append (.refl _), by simp, ?_⟩, fun batch hMem => ?_, ?_⟩
    · cases hRows : sink.queue.rows with
      | nil => simp
      | cons first rest =>
        -- The clock of the first row is not later than the new one's push either.
        have hFirst : first ∈ sink.queue.rows := hRows ▸ List.mem_cons_self
        obtain ⟨time, hTime, hLe⟩ := hHeld.queue.clock first hFirst
        have hNow := hHeld.past first (hHeld.queue.ordered.subset hFirst)
        have hClock := hHeld.queue.clock
        simp only [hRows] at hClock
        simpa [BatchQueue.push, hRows, or_imp, forall_and] using
          ⟨hClock first List.mem_cons_self, fun row hMem => hClock row (List.mem_cons_of_mem _ hMem),
            time, hTime, Nat.le_trans hLe hNow⟩
    · have hKept := hHeld.out batch hMem
      exact { hKept with ordered := hKept.ordered.trans (List.sublist_append_left _ _) }
    · simpa [or_imp, forall_and] using hHeld.past
  | takeBatch =>
    cases hStep
    exact ⟨⟨List.nil_sublist _, fun _ => rfl, List.forall_mem_nil _⟩,
      List.forall_mem_cons.mpr ⟨hHeld.queue, hHeld.out⟩, hHeld.past⟩
  | restore index =>
    obtain ⟨batch, hBatch, hNext⟩ := Option.map_eq_some_iff.mp hStep
    cases hNext
    have hRows : sink.queue.rows = [] := List.isEmpty_iff.mp hEmpty
    have hKept := hHeld.out batch (List.mem_of_getElem? hBatch)
    refine ⟨?_, fun other hMem => hHeld.out other (List.mem_of_mem_eraseIdx hMem), hHeld.past⟩
    simpa [BatchQueue.restore, hRows, hHeld.queue.stopped hRows] using hKept
  | wait time =>
    cases hStep
    exact ⟨hHeld.queue, hHeld.out, fun row hMem =>
      Nat.le_add_right_of_le (hHeld.past row hMem)⟩

/-- No run loses or duplicates a row. When every restore finds the queue empty, the rows stay in
push order and the clock is never later than the push of a row held. -/
theorem rows_kept (maxRows linger : Nat) (hRun : Run step (start maxRows linger) run last) :
    Conserved last ∧
      ((∀ t ∈ run, intoEmpty t.before t.input = true) → last.queue.rows.Sublist last.pushed ∧
        ∀ row ∈ last.queue.rows, ∃ time ∈ last.queue.oldest, time ≤ row.pushedAt) := by
  refine ⟨hRun.invariant (fun _ _ _ _ => conserved_step) .nil, fun hEmpty => ?_⟩
  have hClock : Clocked last := hRun.history (P := fun _ sink => Clocked sink)
    ⟨⟨.refl _, fun _ => rfl, List.forall_mem_nil _⟩, List.forall_mem_nil _, List.forall_mem_nil _⟩
    fun _ t hMem hStep hHeld => clocked_step hHeld (hEmpty t hMem) hStep
  exact ⟨hClock.queue.ordered, hClock.queue.clock⟩

theorem rows_kept_restored :
    ∃ run last, Run step (start 9 9) run last ∧ last.queue.rows = [⟨'a', 0⟩, ⟨'b', 5⟩] ∧
      last.queue.rows.Sublist last.pushed := by
  obtain ⟨⟨run, last⟩, hExec, hRows, hEmpty⟩ :
      ∃ result ∈ exec step (start 9 9) [.push 'a', .takeBatch, .wait 5, .restore 0, .push 'b'],
        result.2.queue.rows = [⟨'a', 0⟩, ⟨'b', 5⟩] ∧
        ∀ t ∈ result.1, intoEmpty t.before t.input = true := by
    decide +kernel
  have hRun := Run.of_exec hExec
  exact ⟨run, last, hRun, hRows, ((rows_kept 9 9 hRun).2 hEmpty).1⟩

/-- A row pushed while an older one is out keeps its own, later clock after the restore; and two
batches that come back in the order they were taken leave their rows the other way round. -/
theorem restored_late_or_reordered :
    (∃ result ∈ exec step (start 9 9)
        [.push 'a', .takeBatch, .wait 5, .push 'b', .restore 0],
      result.2.queue.rows = [⟨'a', 0⟩, ⟨'b', 5⟩] ∧ result.2.queue.oldest = some 5) ∧
    ∃ result ∈ exec step (start 9 9)
        [.push 'a', .takeBatch, .push 'b', .takeBatch, .restore 1, .restore 0],
      result.2.queue.rows = [⟨'b', 0⟩, ⟨'a', 0⟩] ∧ result.2.pushed = [⟨'a', 0⟩, ⟨'b', 0⟩] := by
  decide +kernel

end Sink

end IndraMqtt.Connectors
