import IndraMqtt.Lib.Runs
import Mathlib.Data.List.Chain

/-! The workers of the COUNT and SESSION windows of a rule. A worker takes the records of its
queue in order and flushes batches of them, each with the span of its window. -/
namespace IndraMqtt.Rules

open Runs

structure TimedRecord (ρ : Type) where
  arrivedMs : Nat
  record : ρ
  deriving DecidableEq

structure Flush (ρ : Type) where
  batch : List (TimedRecord ρ)
  windowStart : Nat
  windowEnd : Nat
  deriving DecidableEq

variable {ρ : Type}

/-! ### COUNT -/

structure CountWindow (ρ : Type) where
  buffer : List (TimedRecord ρ)
  sinceFlush : Nat

namespace CountWindow

/-- One round of the COUNT loop. With an interval the last records stay for the next batch. -/
def receive (size : Nat) (interval : Option Nat) (now : Nat) (window : CountWindow ρ)
    (record : TimedRecord ρ) : CountWindow ρ × Option (Flush ρ) :=
  let size := max size 1
  let buffer := window.buffer ++ [record]
  let sinceFlush := window.sinceFlush + 1
  let step := max (interval.getD size) 1
  let trailing := if interval.isSome then buffer.drop (buffer.length - size) else buffer
  if size ≤ buffer.length ∧ step ≤ sinceFlush then
    (⟨if interval.isSome then trailing else [], 0⟩,
      some ⟨trailing, (trailing.head?.map (·.arrivedMs)).getD now, now⟩)
  else (⟨trailing, sinceFlush⟩, none)

/-- The window behind some records, each with the time at which it is taken. -/
def after (size : Nat) (interval : Option Nat) (records : List (Nat × TimedRecord ρ)) :
    CountWindow ρ :=
  records.foldl (fun window record => (window.receive size interval record.1 record.2).1) ⟨[], 0⟩

/-- The first flush is at the later one of `s` and `k`, and the others are `k` apart. -/
def since (s k n : Nat) : Nat := if n < max s k then n else (n - max s k) % k

theorem since_lt {s n : Nat} (hPos : 0 < s) : since s s n < s := by
  have hLt := Nat.mod_lt (n - s) hPos
  grind [since]

theorem since_succ {s k n : Nat} (hPos : 0 < k) :
    let flushes := max s k ≤ n + 1 ∧ (n + 1 - max s k) % k = 0
    (s ≤ n + 1 ∧ k ≤ since s k n + 1 ↔ flushes) ∧
      since s k (n + 1) = if flushes then 0 else since s k n + 1 := by
  intro flushes
  have hLt := Nat.mod_lt (n - max s k) hPos
  simp only [since, flushes]
  obtain hEarly | hFirst | hLate := Nat.lt_trichotomy (n + 1) (max s k)
  · grind
  · have hZero : n + 1 - max s k = 0 := by omega
    rw [hZero, Nat.zero_mod]
    grind
  · have hMore : n + 1 - max s k = n - max s k + 1 := by omega
    rw [hMore, ← Nat.mod_add_mod]
    by_cases hFull : (n - max s k) % k + 1 = k
    · rw [hFull, Nat.mod_self]
      grind
    · rw [Nat.mod_eq_of_lt (by omega : (n - max s k) % k + 1 < k)]
      grind

/-- How many of the last records stay in the buffer. -/
def kept (interval : Option Nat) (s k n : Nat) : Nat :=
  if interval.isSome then s else since s k n

/-- One round, from the records that the rounds before it leave. -/
theorem receive_kept {s k : Nat} (size : Nat) (interval : Option Nat) (hSize : max size 1 = s)
    (hStep : max (interval.getD s) 1 = k) (now : Nat) (past : List (TimedRecord ρ))
    (record : TimedRecord ρ) :
    let n := past.length
    let all := past ++ [record]
    let received :=
      receive size interval now ⟨past.drop (n - kept interval s k n), since s k n⟩ record
    received.1 = ⟨all.drop (n + 1 - kept interval s k (n + 1)), since s k (n + 1)⟩ ∧
      received.2.map (·.batch) = if max s k ≤ n + 1 ∧ (n + 1 - max s k) % k = 0 then
        some (all.drop (n + 1 - s)) else none := by
  intro n all received
  obtain ⟨hFlushes, hSince⟩ := since_succ (s := s) (k := k) (n := n) (by omega)
  have hBuffer (kept : Nat) : past.drop (n - kept) ++ [record] = all.drop (n - kept) :=
    (List.drop_append_of_le_length (Nat.sub_le _ _)).symm
  have hLength (kept : Nat) : (all.drop (n - kept)).length = min n kept + 1 := by
    simp only [all, List.length_drop, List.length_append, List.length_singleton]
    omega
  simp only [received, receive, hBuffer, hLength, hSize, hStep]
  cases interval with
  | none =>
    obtain rfl : s = k := by simpa [← hSize] using hStep
    have hLt := since_lt (s := s) (n := n) (by omega)
    have hWhole : (s ≤ min n (since s s n) + 1 ∧ s ≤ since s s n + 1) ↔
        s ≤ n + 1 ∧ s ≤ since s s n + 1 := by omega
    simp only [kept, Option.isSome_none, Bool.false_eq_true, if_false, hWhole, hFlushes, hSince]
    split
    · next hFull =>
      have hStart : n - since s s n = n + 1 - s := by omega
      simp [all, n, hStart]
    · simp
  | some interval =>
    have hTrailing : (all.drop (n - s)).drop (min n s + 1 - s) = all.drop (n + 1 - s) := by
      rw [List.drop_drop]
      congr 1
      omega
    have hFull : s ≤ min n s + 1 ↔ s ≤ n + 1 := by omega
    simp only [kept, Option.isSome_some, if_true, hFull, hFlushes, hTrailing, hSince]
    split
    · exact ⟨rfl, rfl⟩
    · exact ⟨rfl, rfl⟩

variable (size : Nat) (interval : Option Nat) (past : List (Nat × TimedRecord ρ))

theorem after_eq :
    let s := max size 1
    let k := max (interval.getD s) 1
    let n := past.length
    after size interval past =
      ⟨(past.map (·.2)).drop (n - kept interval s k n), since s k n⟩ := by
  induction past using List.reverseRecOn with
  | nil => simp [after, since]
  | append_singleton past last ih =>
    have hRound := (receive_kept size interval rfl rfl last.1 (past.map (·.2)) last.2).1
    rw [List.length_map] at hRound
    simp only [after, List.foldl_concat] at ih ⊢
    rw [ih]
    simpa using hRound

/-- A COUNT window flushes its last records, as many as its size, when it is full and its step is
over for the first time, and from then on at every step. Without an interval the step is the size,
so that each record is in one batch. A size or an interval of 0 counts as 1. -/
theorem count_window_batches (now : Nat) (record : TimedRecord ρ) :
    let records := past.map (·.2) ++ [record]
    let n := records.length
    let s := max size 1
    let k := max (interval.getD s) 1
    ((after size interval past).receive size interval now record).2.map (·.batch) =
      if max s k ≤ n ∧ (n - max s k) % k = 0 then some (records.drop (n - s)) else none := by
  intro records n s k
  have hRound := (receive_kept size interval rfl rfl now (past.map (·.2)) record).2
  have hNumber : n = past.length + 1 := by simp [n, records]
  rw [List.length_map] at hRound
  rw [after_eq, hNumber]
  exact hRound

end CountWindow

/-! ### SESSION -/

/-- The loop at the start of a `select`, which began at the given time. -/
structure SessionWindow (ρ : Type) where
  buffer : List (TimedRecord ρ)
  sessionStart : Option Nat
  lastArrival : Option Nat
  selectedAt : Nat

/-- A round of the loop: the record that is received, or none when the sleep is over, with the
time and with the start of the next `select`. -/
structure Turn (ρ : Type) where
  received : Option (TimedRecord ρ)
  now : Nat
  resumed : Nat

namespace SessionWindow

variable {timeoutMs maxDurationMs : Nat} {window next : SessionWindow ρ} {turn : Turn ρ}

def empty (now : Nat) : SessionWindow ρ := ⟨[], none, none, now⟩

/-- The end of the sleep, which is armed while a session is open. -/
def wakesAt (timeoutMs : Nat) (window : SessionWindow ρ) : Option Nat :=
  window.lastArrival.map fun last =>
    window.selectedAt + max (timeoutMs - (window.selectedAt - last)) 1

/-- One round of the SESSION loop. A branch is taken only when it is ready: the sleep is over, or
the record is in the queue. -/
def step (timeoutMs maxDurationMs : Nat) (window : SessionWindow ρ) (turn : Turn ρ) :
    Option (SessionWindow ρ × Option (Flush ρ)) :=
  if turn.now < window.selectedAt ∨ turn.resumed < turn.now then none
  else
    match turn.received with
    | none =>
      (window.wakesAt timeoutMs).bind fun wake =>
        if turn.now < wake then none
        else some (empty turn.resumed,
          some ⟨window.buffer, window.sessionStart.getD turn.now, turn.now⟩)
    | some record =>
      if turn.now < record.arrivedMs then none
      else
        let start := window.sessionStart.getD record.arrivedMs
        let buffer := window.buffer ++ [record]
        if maxDurationMs ≤ record.arrivedMs - start then
          some (empty turn.resumed, some ⟨buffer, start, record.arrivedMs⟩)
        else some (⟨buffer, some start, some record.arrivedMs, turn.resumed⟩, none)

/-- The arrival times of records that follow each other do not differ by more than the timeout. -/
def Together (timeoutMs : Nat) (batch : List (TimedRecord ρ)) : Prop :=
  batch.IsChain fun first second => first.arrivedMs ≤ second.arrivedMs ∧
    second.arrivedMs ≤ first.arrivedMs + timeoutMs

/-- The worker is not late: it takes a record when it arrives and not behind the end of its
sleep, and selects again at once. -/
def Prompt (timeoutMs : Nat) (window : SessionWindow ρ) (turn : Turn ρ) : Prop :=
  turn.resumed = turn.now ∧ ∀ record ∈ turn.received, record.arrivedMs = turn.now ∧
    ∀ wake ∈ window.wakesAt timeoutMs, turn.now ≤ wake

instance : Decidable (Prompt timeoutMs window turn) := inferInstanceAs (Decidable (_ ∧ _))

/-- The open session of a worker that has never been late. -/
structure InTime (timeoutMs : Nat) (window : SessionWindow ρ) : Prop where
  buffer : Together timeoutMs window.buffer
  last : window.buffer.getLast?.map (·.arrivedMs) = window.lastArrival
  selected : ∀ last ∈ window.lastArrival, window.selectedAt = last

theorem inTime_empty (timeoutMs now : Nat) : InTime timeoutMs (empty now : SessionWindow ρ) :=
  ⟨.nil, rfl, nofun⟩

/-- One round flushes and keeps records that belong together. -/
theorem step_inTime {flush : Option (Flush ρ)} (hTimeout : 0 < timeoutMs)
    (hStep : step timeoutMs maxDurationMs window turn = some (next, flush))
    (hPrompt : Prompt timeoutMs window turn) (hInTime : InTime timeoutMs window) :
    InTime timeoutMs next ∧ ∀ flushed ∈ flush, Together timeoutMs flushed.batch := by
  have hFlush {batch : List (TimedRecord ρ)} {start stop : Nat} (hBatch : Together timeoutMs batch) :
      InTime timeoutMs (empty turn.resumed : SessionWindow ρ) ∧
        ∀ flushed ∈ some (⟨batch, start, stop⟩ : Flush ρ), Together timeoutMs flushed.batch :=
    ⟨inTime_empty _ _, fun _ hMem => Option.some.inj hMem ▸ hBatch⟩
  unfold step at hStep
  split at hStep
  · cases hStep
  next hTimes =>
  split at hStep
  · obtain ⟨wake, -, hStep⟩ := Option.bind_eq_some_iff.mp hStep
    split at hStep
    · cases hStep
    · cases hStep
      exact hFlush hInTime.buffer
  · next record hReceived =>
    obtain ⟨hArrived, hWake⟩ := hPrompt.2 record hReceived
    have hBuffer : Together timeoutMs (window.buffer ++ [record]) := by
      refine List.isChain_append.mpr ⟨hInTime.buffer, .singleton record, fun last hLast _ hHead => ?_⟩
      cases hHead
      have hOpen : window.lastArrival = some last.arrivedMs := by rw [← hInTime.last, hLast]; rfl
      have hSelected := hInTime.selected _ hOpen
      have hWake := hWake _ (congrArg (Option.map _) hOpen)
      dsimp only at hWake
      omega
    split at hStep
    · cases hStep
    · dsimp only at hStep
      split at hStep
      · cases hStep
        exact hFlush hBuffer
      · cases hStep
        refine ⟨⟨hBuffer, by simp, fun last hLast => ?_⟩, nofun⟩
        cases hLast
        exact hPrompt.1.trans hArrived.symm

/-- As long as the worker of a SESSION window is never late, no batch has a gap of more than the
timeout, which is at least one millisecond. -/
theorem session_batches_together {start : Nat} {last : SessionWindow ρ} (hTimeout : 0 < timeoutMs)
    {run : List (Transition (SessionWindow ρ) (Turn ρ) (Option (Flush ρ)))}
    (hRun : Run (step timeoutMs maxDurationMs) (empty start) run last)
    (hPrompt : ∀ t ∈ run, Prompt timeoutMs t.before t.input) :
    ∀ t ∈ run, ∀ flush ∈ t.output, Together timeoutMs flush.batch := by
  refine (hRun.history (P := fun front window => InTime timeoutMs window ∧
    ∀ t ∈ front, ∀ flush ∈ t.output, Together timeoutMs flush.batch) ⟨inTime_empty _ _, nofun⟩ ?_).2
  rintro front t hMem hStep ⟨hInTime, hFront⟩
  obtain ⟨hNext, hFlush⟩ := step_inTime hTimeout hStep (hPrompt t hMem) hInTime
  exact ⟨hNext, List.forall_mem_append.mpr ⟨hFront, List.forall_mem_singleton.mpr hFlush⟩⟩

def prompt : List (Turn Unit) :=
  [⟨some ⟨0, ()⟩, 0, 0⟩, ⟨some ⟨9, ()⟩, 9, 9⟩, ⟨none, 19, 19⟩]

theorem prompt_batch_together :
    ∃ run last, Run (step 10 60) (empty 0) run last ∧ run.map (·.input) = prompt ∧
      ∀ t ∈ run, ∀ flush ∈ t.output, Together 10 flush.batch := by
  obtain ⟨⟨run, last⟩, hExec, hPrompt⟩ : ∃ result ∈ exec (step 10 60) (empty 0) prompt,
      ∀ t ∈ result.1, Prompt 10 t.before t.input := by decide +kernel
  exact ⟨run, last, .of_exec hExec, inputs_of_exec hExec,
    session_batches_together (by decide) (.of_exec hExec) hPrompt⟩

/-- A worker that comes back late finds a record in its queue and the sleep armed anew, and takes
the record into the session of the one before. -/
theorem late_worker_joins :
    (exec (step 10 60) (empty 0) [⟨some ⟨0, ()⟩, 0, 50⟩, ⟨some ⟨50, ()⟩, 50, 50⟩, ⟨none, 60, 60⟩]).map
        (·.1.filterMap (·.output)) = some [⟨[⟨0, ()⟩, ⟨50, ()⟩], 0, 60⟩] := by
  decide +kernel

end SessionWindow

end IndraMqtt.Rules
