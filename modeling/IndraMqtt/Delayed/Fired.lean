import IndraMqtt.Delayed.Deadlines
import IndraMqtt.Delayed.Reload

/-! Deliveries over restarts. The wheel fires an entry behind its deadline and a restart schedules
only entries whose deadline is ahead. With a clock that never goes back a fired entry is therefore
not scheduled from the file again, whatever became of its line. -/
namespace IndraMqtt.Delayed

open Runs DelayedScheduler

/-- What the clock shows during an event. -/
def DelayedEvent.times : DelayedEvent → List UInt64
  | .publish _ clock _ now => [clock, now]
  | .tickDue now => [now]
  | .removeIds _ _ _ => []
  | .restart _ now _ _ => [now]

def DelayedEvent.isRestart : DelayedEvent → Bool
  | .restart _ _ _ _ => true
  | _ => false

def fired (t : Transition DelayedScheduler DelayedEvent DelayedAnswer) : List DelayedEntry :=
  match t.output with
  | .due entries => entries
  | _ => []

variable {entry : DelayedEntry} {scheduler next last : DelayedScheduler} {event : DelayedEvent}
  {answer : DelayedAnswer} {t : Transition DelayedScheduler DelayedEvent DelayedAnswer}
  {run front back : List (Transition DelayedScheduler DelayedEvent DelayedAnswer)}

theorem WheelInner.count_place (now : UInt64) (wheel : WheelInner) (placed : DelayedEntry) :
    (wheel.place now placed).entries.count entry =
      wheel.entries.count entry + [placed].count entry := by
  have hCount := congrArg (Multiset.count entry) (waiting_place now wheel placed)
  simpa only [waiting, ← Multiset.singleton_add, ← Multiset.coe_singleton, Multiset.count_add,
    Multiset.coe_count, Nat.add_comm] using hCount

section

variable (hStep : step scheduler event = some (next, answer))
include hStep

/-- A restart schedules an entry at most as often as it stands in the file, and not at all behind
its deadline. -/
theorem restart_count (entry : DelayedEntry) (hRestart : event.isRestart = true) :
    ∃ now ∈ event.times, next.wheel.entries.count entry ≤
      if now < entry.deliverAtMs then (entriesOf scheduler.file).count entry else 0 := by
  cases event with
  | restart maxSecs now readable written =>
    obtain ⟨rfl, -⟩ : (scheduler.restart maxSecs now readable written).1 = next ∧ _ :=
      Prod.mk.inj (Option.some.inj hStep)
    refine ⟨now, List.mem_cons_self, ?_⟩
    by_cases hRead : ∃ text, readToString readable scheduler.file = .ok text
    · obtain ⟨text, hText⟩ := hRead
      have hPlaced (kept : List DelayedEntry) (wheel : WheelInner) :
          (kept.foldl (.place now) wheel).entries.count entry =
            wheel.entries.count entry + kept.count entry := by
        induction kept generalizing wheel with
        | nil => rfl
        | cons first kept ih => grind [WheelInner.count_place]
      rw [restart_read hText, hPlaced _ .new]
      show 0 + _ ≤ _
      rw [Nat.zero_add]
      split
      · refine ((List.take_sublist _ _).count_le entry).trans ?_
        rw [(List.perm_insertionSort _ _).count_eq]
        exact List.filter_sublist.count_le entry
      · next hDue => exact (List.count_eq_zero.mpr fun hMem => hDue (mem_live hMem).2).le
    · rw [restart_unread (not_exists.mp hRead)]
      exact Nat.zero_le _
  | _ => cases hRestart

/-- Behind its deadline an entry comes to the wheel by a publication only. -/
theorem step_count (hPast : ∀ time ∈ event.times, entry.deliverAtMs ≤ time) :
    (fired ⟨scheduler, event, answer, next⟩).count entry + next.wheel.entries.count entry ≤
      scheduler.wheel.entries.count entry +
        (acknowledged ⟨scheduler, event, answer, next⟩).toList.count entry := by
  cases event with
  | publish request clock io now =>
    obtain ⟨rfl, rfl⟩ : (scheduler.publish request clock io now).1 = next ∧
      .published (scheduler.publish request clock io now).2 = answer :=
        Prod.mk.inj (Option.some.inj hStep)
    clear hStep
    rw [publish_eq]
    dsimp only [fired, acknowledged]
    split
    · simp
    · split
      · simp
      · simp [WheelInner.count_place]
  | tickDue now =>
    obtain ⟨rfl, rfl⟩ := Prod.mk.inj (Option.some.inj hStep)
    have hCount := congrArg (Multiset.count entry) (scheduler.wheel.released_tick now).kept
    simp only [WheelInner.waiting, Multiset.count_add, Multiset.coe_count, List.count_nil,
      Nat.zero_add] at hCount
    exact hCount.le
  | removeIds ids readable written =>
    obtain ⟨rfl, rfl⟩ := Prod.mk.inj (Option.some.inj hStep)
    rw [removeIds]
    split <;> simp [fired]
  | restart maxSecs now readable written =>
    obtain ⟨time, hTime, hCount⟩ := restart_count hStep entry rfl
    obtain ⟨-, rfl⟩ := Prod.mk.inj (Option.some.inj hStep)
    rw [if_neg (UInt64.not_lt.mpr (hPast time hTime))] at hCount
    simp [fired, Nat.le_zero.mp hCount]

theorem tick_of_fired (hFired : entry ∈ fired ⟨scheduler, event, answer, next⟩) :
    ∃ now, event = .tickDue now ∧ entry.deliverAtMs ≤ now := by
  cases event with
  | tickDue now =>
    obtain ⟨rfl, rfl⟩ := Prod.mk.inj (Option.some.inj hStep)
    have hDue := (scheduler.wheel.released_tick now).due entry hFired
    exact ⟨now, rfl, hDue.resolve_left List.not_mem_nil⟩
  | _ =>
    obtain ⟨rfl, rfl⟩ := Prod.mk.inj (Option.some.inj hStep)
    cases hFired

end

theorem count_fired_le (hRun : Run step scheduler run last)
    (hPast : ∀ t ∈ run, ∀ time ∈ t.input.times, entry.deliverAtMs ≤ time) :
    (run.flatMap fired).count entry ≤
      scheduler.wheel.entries.count entry + (run.filterMap acknowledged).count entry := by
  induction hRun with
  | nil => exact Nat.zero_le _
  | cons hStep _ ih =>
    rw [List.forall_mem_cons] at hPast
    have hRound := step_count hStep hPast.1
    rw [List.flatMap_cons, List.count_append, List.filterMap_cons]
    grind

end IndraMqtt.Delayed
