import IndraMqtt.Delayed.Wheel
import Mathlib.Algebra.Order.Group.Multiset
import Mathlib.Tactic.Abel

/-! When the timer wheel returns an entry. An entry sits a number of ticks away from the cursor of
its level, and it sits so that no tick before the one that visits it is due. With ticks that are a
tenth of a second apart the wheel therefore does what a plain list of the waiting entries does. -/
namespace IndraMqtt.Delayed

variable {entry : DelayedEntry} {now : UInt64}

inductive WheelEvent where
  | place (now : UInt64) (entry : DelayedEntry)
  | tick (now : UInt64)
  deriving DecidableEq

def returned {S : Type} (step : S → WheelEvent → S × List DelayedEntry) (state : S) :
    List WheelEvent → List (List DelayedEntry)
  | [] => []
  | event :: events => (step state event).2 :: returned step (step state event).1 events

def WheelEvent.placed : WheelEvent → List DelayedEntry
  | .place _ entry => [entry]
  | .tick _ => []

namespace WheelInner

def step (wheel : WheelInner) : WheelEvent → WheelInner × List DelayedEntry
  | .place now entry => (wheel.place now entry, [])
  | .tick now => ((wheel.tick now).2, (wheel.tick now).1)

end WheelInner

def agenda (waiting : List DelayedEntry) : WheelEvent → List DelayedEntry × List DelayedEntry
  | .place _ entry => (entry :: waiting, [])
  | .tick now =>
    (waiting.filter fun entry => ¬ entry.deliverAtMs ≤ now, waiting.filter (·.deliverAtMs ≤ now))

namespace WheelInner

/-! ### Nothing is lost and nothing is early -/

def waiting (wheel : WheelInner) : Multiset DelayedEntry := wheel.entries

theorem waiting_eq (wheel : WheelInner) :
    wheel.waiting = (wheel.l0.entries : Multiset DelayedEntry) + wheel.l1.entries +
      wheel.l2.entries + wheel.l3.entries + wheel.overflow := by
  simp [waiting, entries]

theorem coe_entries_push {n : Nat} [NeZero n] (ring : SlotRing n DelayedEntry) (offset : Nat)
    (entry : DelayedEntry) :
    ((ring.push offset entry).entries : Multiset DelayedEntry) = entry ::ₘ ring.entries :=
  Multiset.coe_eq_coe.mpr (ring.entries_push_perm offset entry)

theorem coe_entries_advance {n : Nat} [NeZero n] (ring : SlotRing n DelayedEntry) :
    (ring.entries : Multiset DelayedEntry) = ring.advance.1 + ring.advance.2.entries := by
  rw [Multiset.coe_add]
  exact Multiset.coe_eq_coe.mpr (Grouping.flatMap_update_perm (List.nodup_finRange n)
    (List.mem_finRange (ring.ahead 1)) [])

theorem waiting_place (now : UInt64) (wheel : WheelInner) (entry : DelayedEntry) :
    (wheel.place now entry).waiting = entry ::ₘ wheel.waiting := by
  unfold place
  dsimp only
  split_ifs
  all_goals
    simp only [waiting_eq, coe_entries_push, ← Multiset.coe_add, Multiset.coe_singleton,
      ← Multiset.singleton_add]
    abel

def cursors (wheel : WheelInner) : Fin 10 × Fin 60 × Fin 60 × Fin 24 :=
  (wheel.l0.cursor, wheel.l1.cursor, wheel.l2.cursor, wheel.l3.cursor)

theorem cursors_place (now : UInt64) (wheel : WheelInner) (entry : DelayedEntry) :
    (wheel.place now entry).cursors = wheel.cursors := by
  unfold place
  dsimp only
  split_ifs
  all_goals rfl

theorem release_cons (now : UInt64) (entry : DelayedEntry) (taken due : List DelayedEntry)
    (wheel : WheelInner) : release now (entry :: taken) due wheel =
      if entry.deliverAtMs ≤ now then release now taken (due ++ [entry]) wheel
      else release now taken due (wheel.place now entry) := by
  grind [release]

/-- What every entry of a slot preserves holds when the slot is empty. -/
theorem release_invariant (Inv : List DelayedEntry → WheelInner → Prop)
    (hDue : ∀ due wheel entry, entry.deliverAtMs ≤ now → Inv due wheel → Inv (due ++ [entry]) wheel)
    (hPlace : ∀ due wheel entry, ¬ entry.deliverAtMs ≤ now → Inv due wheel → Inv due (wheel.place
      now entry)) (taken due : List DelayedEntry) (wheel : WheelInner) (hStart : Inv due wheel) :
    Inv (release now taken due wheel).1 (release now taken due wheel).2 := by
  induction taken generalizing due wheel with
  | nil => exact hStart
  | cons entry taken ih => grind [release_cons]

theorem release_waiting (now : UInt64) (taken due : List DelayedEntry) (wheel : WheelInner) :
    ((release now taken due wheel).1 : Multiset DelayedEntry) +
        (release now taken due wheel).2.waiting = due + taken + wheel.waiting := by
  induction taken generalizing due wheel with
  | nil => rw [Multiset.coe_nil, add_zero]; rfl
  | cons entry taken ih =>
    rw [release_cons, ← Multiset.cons_coe]
    split
    · simp_all
    · rw [ih, waiting_place, Multiset.add_cons, Multiset.add_cons, Multiset.cons_add]

/-- Entries went from the wheel to those that are returned, and only such as are due. -/
structure Released (now : UInt64) (before after : List DelayedEntry × WheelInner) : Prop where
  kept : (after.1 : Multiset DelayedEntry) + after.2.waiting = before.1 + before.2.waiting
  due : ∀ entry ∈ after.1, entry ∈ before.1 ∨ entry.deliverAtMs ≤ now

theorem Released.trans {first second third : List DelayedEntry × WheelInner}
    (hFirst : Released now first second) (hSecond : Released now second third) :
    Released now first third where
  kept := hSecond.kept.trans hFirst.kept
  due := by grind [hFirst.due, hSecond.due]

/-- Emptying a slot that was taken off the wheel. -/
theorem released_release {taken due : List DelayedEntry} {wheel advanced : WheelInner}
    (hTaken : wheel.waiting = taken + advanced.waiting) :
    Released now (due, wheel) (release now taken due advanced) where
  kept := by rw [release_waiting, hTaken, add_assoc]
  due := by
    apply release_invariant fun returned _ =>
      ∀ entry ∈ returned, entry ∈ due ∨ entry.deliverAtMs ≤ now
    all_goals grind

section

variable (now : UInt64) (due : List DelayedEntry) (wheel : WheelInner)

theorem released_tick3 : Released now (due, wheel) (wheel.tick3 now due) := by
  have hTaken : wheel.waiting =
      wheel.l3.advance.1 + { wheel with l3 := wheel.l3.advance.2 }.waiting := by
    simp only [waiting_eq, coe_entries_advance wheel.l3]
    abel
  exact released_release hTaken

theorem released_tick2 : Released now (due, wheel) (wheel.tick2 now due) := by
  have hSlot : Released now (due, wheel)
      (release now wheel.l2.advance.1 due { wheel with l2 := wheel.l2.advance.2 }) :=
    released_release (by simp only [waiting_eq, coe_entries_advance wheel.l2]; abel)
  grind [tick2, Released.trans, released_tick3]

theorem released_tick1 : Released now (due, wheel) (wheel.tick1 now due) := by
  have hSlot : Released now (due, wheel)
      (release now wheel.l1.advance.1 due { wheel with l1 := wheel.l1.advance.2 }) :=
    released_release (by simp only [waiting_eq, coe_entries_advance wheel.l1]; abel)
  grind [tick1, Released.trans, released_tick2]

theorem released_tickLevels : Released now ([], wheel) (wheel.tickLevels now) := by
  have hSlot : Released now ([], wheel)
      (release now wheel.l0.advance.1 [] { wheel with l0 := wheel.l0.advance.2 }) :=
    released_release (by simp only [waiting_eq, coe_entries_advance wheel.l0]; abel)
  grind [tickLevels, Released.trans, released_tick1]

end

theorem released_overflow (now : UInt64) (due : List DelayedEntry) (wheel : WheelInner) :
    Released now (due, wheel)
      (due ++ wheel.overflow.filter (·.deliverAtMs ≤ now),
        { wheel with overflow := wheel.overflow.filter fun entry => ¬ entry.deliverAtMs ≤ now }) where
  kept := by
    have hSplit : (wheel.overflow : Multiset DelayedEntry) =
        (wheel.overflow.filter (·.deliverAtMs ≤ now) : List DelayedEntry) +
          (wheel.overflow.filter fun entry => ¬ entry.deliverAtMs ≤ now : List DelayedEntry) := by
      simp only [← Multiset.filter_coe, Multiset.filter_add_not]
    simp only [waiting_eq, ← Multiset.coe_add]
    rw [hSplit]
    abel
  due := by grind

/-- A tick returns only what is due, and what it does not return stays on the wheel. -/
theorem released_tick (now : UInt64) (wheel : WheelInner) :
    Released now ([], wheel) (wheel.tick now) := by
  rw [tick_eq]
  exact (released_tickLevels now wheel).trans (released_overflow now _ _)

/-! ### The tick that visits an entry -/

/-- The wheel visits the entry `ticks` ticks after `time`, and the ticks from `time` to that one
come before its deadline. -/
def Ahead (time ticks : Nat) (entry : DelayedEntry) : Prop :=
  ticks = 0 ∨ time + 100 * ticks < entry.deliverAtMs.toNat + 100

theorem Ahead.mono {time ticks fewer : Nat} (hAhead : Ahead time ticks entry)
    (hLe : fewer ≤ ticks) : Ahead time fewer entry := by
  unfold Ahead at hAhead ⊢
  omega

/-- Every entry is ahead of its deadline. The numbers say how many ticks ago each level moved its
cursor. -/
structure OnTime (time ago0 ago1 ago2 ago3 : Nat) (wheel : WheelInner) : Prop where
  l0 : wheel.l0.Holds fun wait entry => Ahead time (wait - ago0) entry
  l1 : wheel.l1.Holds fun wait entry => Ahead time (10 * wait - ago1) entry
  l2 : wheel.l2.Holds fun wait entry => Ahead time (600 * wait - ago2) entry
  l3 : wheel.l3.Holds fun wait entry => Ahead time (36000 * wait - ago3) entry

variable {time ago0 ago1 ago2 ago3 : Nat} {wheel : WheelInner}

theorem OnTime.place (hTime : OnTime time ago0 ago1 ago2 ago3 wheel) (hAgo1 : ago0 ≤ ago1)
    (hAgo2 : ago0 ≤ ago2) (hAgo3 : ago0 ≤ ago3)
    (hNow : ∀ ticks, ticks = 1 ∨ 100 * ticks ≤ entry.deliverAtMs.toNat - now.toNat → Ahead time
      (ticks - ago0) entry) : OnTime time ago0 ago1 ago2 ago3 (wheel.place now entry) := by
  obtain ⟨hL0, hL1, hL2, hL3⟩ := hTime
  unfold WheelInner.place
  dsimp only
  split_ifs with h0 h1 h2 h3
  · refine ⟨hL0.push (by omega) (by omega) ?_, hL1, hL2, hL3⟩
    apply hNow
    omega
  · refine ⟨hL0, hL1.push (by omega) (by omega) ?_, hL2, hL3⟩
    refine (hNow (10 * ((entry.deliverAtMs.toNat - now.toNat) / 1000)) ?_).mono ?_
    all_goals omega
  · refine ⟨hL0, hL1, hL2.push (by omega) (by omega) ?_, hL3⟩
    refine (hNow (600 * ((entry.deliverAtMs.toNat - now.toNat) / 60000)) ?_).mono ?_
    all_goals omega
  · refine ⟨hL0, hL1, hL2, hL3.push (by omega) (by omega) ?_⟩
    refine (hNow (36000 * ((entry.deliverAtMs.toNat - now.toNat) / 3600000)) ?_).mono ?_
    all_goals omega
  · exact ⟨hL0, hL1, hL2, hL3⟩

/-- Within a tick the entries that are not due are placed again, and no cursor moves. -/
theorem OnTime.release (hTime : OnTime now.toNat 0 ago1 ago2 ago3 wheel)
    (taken due : List DelayedEntry) :
    OnTime now.toNat 0 ago1 ago2 ago3 (release now taken due wheel).2 ∧
      (release now taken due wheel).2.l0.cursor = wheel.l0.cursor ∧
      (release now taken due wheel).2.l1.cursor = wheel.l1.cursor ∧
      (release now taken due wheel).2.l2.cursor = wheel.l2.cursor := by
  apply release_invariant fun _ after => OnTime now.toNat 0 ago1 ago2 ago3 after ∧
    after.l0.cursor = wheel.l0.cursor ∧ after.l1.cursor = wheel.l1.cursor ∧
    after.l2.cursor = wheel.l2.cursor
  · intro _ _ entry _ hInv
    exact hInv
  · intro _ after entry hLater hInv
    refine ⟨hInv.1.place (Nat.zero_le _) (Nat.zero_le _) (Nat.zero_le _) ?_, ?_⟩
    · intro ticks hTicks
      rw [UInt64.le_iff_toNat_le] at hLater
      unfold Ahead
      omega
    · grind [cursors_place, cursors]
  · exact ⟨hTime, rfl, rfl, rfl⟩

/-- The ticks since a level moved its cursor are what the levels below it count. -/
structure Settled (time : Nat) (wheel : WheelInner) : Prop where
  onTime : OnTime time 0 wheel.l0.cursor (wheel.l0.cursor + 10 * wheel.l1.cursor)
    (wheel.l0.cursor + 10 * wheel.l1.cursor + 600 * wheel.l2.cursor) wheel

theorem OnTime.settled (hTime : OnTime time 0 ago1 ago2 ago3 wheel)
    (hAgo1 : ago1 = wheel.l0.cursor) (hAgo2 : ago2 = wheel.l0.cursor + 10 * wheel.l1.cursor)
    (hAgo3 : ago3 = wheel.l0.cursor + 10 * wheel.l1.cursor + 600 * wheel.l2.cursor) :
    Settled time wheel := by
  subst hAgo1 hAgo2 hAgo3
  exact ⟨hTime⟩

theorem OnTime.tick3 (hTime : OnTime now.toNat 0 0 0 36000 wheel) (h0 : wheel.l0.cursor = 0)
    (h1 : wheel.l1.cursor = 0) (h2 : wheel.l2.cursor = 0) (due : List DelayedEntry) :
    Settled now.toNat (wheel.tick3 now due).2 := by
  have hSlot : OnTime now.toNat 0 0 0 0 { wheel with l3 := wheel.l3.advance.2 } :=
    { hTime with l3 := hTime.l3.advance.mono fun _ _ _ hAhead => hAhead.mono (by omega) }
  obtain ⟨hReleased, h0', h1', h2'⟩ := hSlot.release wheel.l3.advance.1 due
  apply hReleased.settled
  all_goals simp [h0', h1', h2', h0, h1, h2]

theorem OnTime.tick2 (hTime : OnTime now.toNat 0 0 600 (600 + 600 * wheel.l2.cursor) wheel)
    (h0 : wheel.l0.cursor = 0) (h1 : wheel.l1.cursor = 0) (due : List DelayedEntry) :
    Settled now.toNat (wheel.tick2 now due).2 := by
  have hSlot : OnTime now.toNat 0 0 0 (600 + 600 * wheel.l2.cursor)
      { wheel with l2 := wheel.l2.advance.2 } :=
    { hTime with l2 := hTime.l2.advance.mono fun _ _ _ hAhead => hAhead.mono (by omega) }
  obtain ⟨hReleased, h0', h1', h2'⟩ := hSlot.release wheel.l2.advance.1 due
  unfold WheelInner.tick2
  dsimp only
  split
  · next hWrap =>
    have hLast := SlotRing.cursor_of_wrap (h2'.symm.trans hWrap)
    rw [show 600 + 600 * wheel.l2.cursor.val = 36000 by omega] at hReleased
    exact hReleased.tick3 (h0'.trans h0) (h1'.trans h1) hWrap _
  · next hWithin =>
    have hNext := SlotRing.cursor_of_move (h2' ▸ hWithin)
    apply hReleased.settled
    all_goals grind

theorem OnTime.tick1
    (hTime : OnTime now.toNat 0 10 (10 + 10 * wheel.l1.cursor) (10 + 10 * wheel.l1.cursor + 600 *
      wheel.l2.cursor) wheel) (h0 : wheel.l0.cursor = 0) (due : List DelayedEntry) :
    Settled now.toNat (wheel.tick1 now due).2 := by
  have hSlot : OnTime now.toNat 0 0 (10 + 10 * wheel.l1.cursor)
      (10 + 10 * wheel.l1.cursor + 600 * wheel.l2.cursor)
      { wheel with l1 := wheel.l1.advance.2 } :=
    { hTime with l1 := hTime.l1.advance.mono fun _ _ _ hAhead => hAhead.mono (by omega) }
  obtain ⟨hReleased, h0', h1', h2'⟩ := hSlot.release wheel.l1.advance.1 due
  unfold WheelInner.tick1
  dsimp only
  split
  · next hWrap =>
    have hLast := SlotRing.cursor_of_wrap (h1'.symm.trans hWrap)
    rw [show 10 + 10 * wheel.l1.cursor.val = 600 by omega, ← show _ = wheel.l2.cursor from h2']
      at hReleased
    exact hReleased.tick2 (h0'.trans h0) hWrap _
  · next hWithin =>
    have hNext := SlotRing.cursor_of_move (h1' ▸ hWithin)
    apply hReleased.settled
    all_goals grind

theorem OnTime.tickLevels
    (hTime : OnTime now.toNat 1 (1 + wheel.l0.cursor) (1 + wheel.l0.cursor + 10 * wheel.l1.cursor)
      (1 + wheel.l0.cursor + 10 * wheel.l1.cursor + 600 * wheel.l2.cursor) wheel) :
    Settled now.toNat (wheel.tickLevels now).2 := by
  have hSlot : OnTime now.toNat 0 (1 + wheel.l0.cursor)
      (1 + wheel.l0.cursor + 10 * wheel.l1.cursor)
      (1 + wheel.l0.cursor + 10 * wheel.l1.cursor + 600 * wheel.l2.cursor)
      { wheel with l0 := wheel.l0.advance.2 } :=
    { hTime with l0 := hTime.l0.advance.mono fun _ _ _ hAhead => hAhead.mono (by omega) }
  obtain ⟨hReleased, h0', h1', h2'⟩ := hSlot.release wheel.l0.advance.1 []
  unfold WheelInner.tickLevels
  dsimp only
  split
  · next hWrap =>
    have hLast := SlotRing.cursor_of_wrap (h0'.symm.trans hWrap)
    rw [show 1 + wheel.l0.cursor.val = 10 by omega, ← show _ = wheel.l1.cursor from h1',
      ← show _ = wheel.l2.cursor from h2'] at hReleased
    exact hReleased.tick1 hWrap _
  · next hWithin =>
    have hNext := SlotRing.cursor_of_move (h0' ▸ hWithin)
    apply hReleased.settled
    all_goals grind

/-- Between two ticks: no tick from the next one on comes too late for an entry. -/
def Ready (next : Nat) (wheel : WheelInner) : Prop :=
  OnTime next 1 (1 + wheel.l0.cursor) (1 + wheel.l0.cursor + 10 * wheel.l1.cursor)
    (1 + wheel.l0.cursor + 10 * wheel.l1.cursor + 600 * wheel.l2.cursor) wheel

theorem Settled.ready (hSettled : Settled time wheel) : Ready (time + 100) wheel := by
  obtain ⟨hL0, hL1, hL2, hL3⟩ := hSettled.onTime
  refine ⟨hL0.mono ?_, hL1.mono ?_, hL2.mono ?_, hL3.mono ?_⟩
  all_goals
    intro wait entry hPos hAhead
    unfold Ahead at hAhead ⊢
    omega

/-- Behind a tick nothing that the levels hold is due. -/
theorem Settled.later (hSettled : Settled time wheel)
    (hMem : entry ∈ wheel.l0.entries ++ wheel.l1.entries ++ wheel.l2.entries ++ wheel.l3.entries) :
    time < entry.deliverAtMs.toNat := by
  obtain ⟨hL0, hL1, hL2, hL3⟩ := hSettled.onTime
  simp only [List.mem_append, SlotRing.mem_entries] at hMem
  rcases hMem with ((⟨place, hMem⟩ | ⟨place, hMem⟩) | ⟨place, hMem⟩) | ⟨place, hMem⟩
  · grind [Ahead, hL0 place entry hMem, wheel.l0.wait_pos place]
  · grind [Ahead, hL1 place entry hMem, wheel.l1.wait_pos place]
  · grind [Ahead, hL2 place entry hMem, wheel.l2.wait_pos place]
  · grind [Ahead, hL3 place entry hMem, wheel.l3.wait_pos place]

theorem ready_new (next : Nat) : Ready next new := by
  refine ⟨?_, ?_, ?_, ?_⟩
  all_goals
    intro place entry hMem
    cases hMem

theorem Ready.place {next : Nat} (hReady : Ready next wheel) (hNow : next < now.toNat + 200)
    (entry : DelayedEntry) : Ready next (wheel.place now entry) := by
  grind [cursors_place, cursors, Ready, OnTime.place, Ahead]

/-- A tick in time keeps the wheel ready for the next one and leaves nothing that is due. -/
theorem Ready.tick (hReady : Ready now.toNat wheel) : Ready (now.toNat + 100) (wheel.tick now).2 ∧
      ∀ entry ∈ (wheel.tick now).2.entries, ¬ entry.deliverAtMs ≤ now := by
  have hSettled := OnTime.tickLevels hReady
  obtain ⟨hL0, hL1, hL2, hL3⟩ := hSettled.ready
  rw [tick_eq]
  refine ⟨⟨hL0, hL1, hL2, hL3⟩, ?_⟩
  intro entry hMem
  rw [UInt64.le_iff_toNat_le, Nat.not_le]
  rcases List.mem_append.mp hMem with hLevels | hOverflow
  · exact hSettled.later hLevels
  · have hLater := of_decide_eq_true (List.mem_filter.mp hOverflow).2
    rwa [UInt64.le_iff_toNat_le, Nat.not_le] at hLater

end WheelInner

/-! ### Runs of the wheel -/

/-- The ticks come every 100 milliseconds, the first of them at `next`, and what is placed before
a tick is placed less than 200 milliseconds before it. -/
def Timed : Nat → List WheelEvent → Prop
  | _, [] => True
  | next, .place now _ :: events => next < now.toNat + 200 ∧ Timed next events
  | next, .tick now :: events => now.toNat = next ∧ Timed (next + 100) events

namespace WheelInner

def after (wheel : WheelInner) (events : List WheelEvent) : WheelInner :=
  events.foldl (fun wheel event => (wheel.step event).1) wheel

section

variable (wheel : WheelInner)

theorem step_due (event : WheelEvent) :
    ∀ entry ∈ (wheel.step event).2, ∃ now, event = .tick now ∧ entry.deliverAtMs ≤ now := by
  cases event with
  | place now entry =>
    intro other hMem
    cases hMem
  | tick now =>
    intro entry hMem
    exact ⟨now, rfl, ((released_tick now wheel).due entry hMem).resolve_left List.not_mem_nil⟩

theorem returned_due (events : List WheelEvent) :
    List.Forall₂ (fun event due => ∀ entry ∈ due, ∃ now, event = .tick now ∧ entry.deliverAtMs ≤ now)
      events (returned step wheel events) := by
  induction events generalizing wheel with
  | nil => exact .nil
  | cons event events ih => exact .cons (wheel.step_due event) (ih _)

theorem step_waiting (event : WheelEvent) :
    ((wheel.step event).2 : Multiset DelayedEntry) + (wheel.step event).1.waiting =
      event.placed + wheel.waiting := by
  cases event with
  | place now entry => simp [step, WheelEvent.placed, waiting_place]
  | tick now => exact (released_tick now wheel).kept

theorem returned_waiting (events : List WheelEvent) :
    ((returned step wheel events).flatten : Multiset DelayedEntry) + (wheel.after events).waiting =
      events.flatMap WheelEvent.placed + wheel.waiting := by
  induction events generalizing wheel with
  | nil => rfl
  | cons event events ih =>
    rw [returned, List.flatten_cons, List.flatMap_cons, ← Multiset.coe_add, ← Multiset.coe_add,
      add_assoc]
    have hRest := ih (wheel.step event).1
    have hStep := wheel.step_waiting event
    calc _ = ((wheel.step event).2 : Multiset DelayedEntry) +
          (events.flatMap WheelEvent.placed + (wheel.step event).1.waiting) :=
          congrArg (_ + ·) hRest
      _ = events.flatMap WheelEvent.placed +
          (((wheel.step event).2 : Multiset DelayedEntry) + (wheel.step event).1.waiting) := by
        abel
      _ = _ := by
        rw [hStep]
        abel

end

theorem tick_perm {wheel : WheelInner} (hReady : Ready now.toNat wheel) {list : List DelayedEntry}
    (hList : wheel.waiting = list) : (wheel.tick now).1.Perm (list.filter (·.deliverAtMs ≤ now)) ∧
      (wheel.tick now).2.waiting =
        (list.filter fun entry => ¬ entry.deliverAtMs ≤ now : List DelayedEntry) := by
  have hReleased := released_tick now wheel
  have hPerm : ((wheel.tick now).1 ++ (wheel.tick now).2.entries).Perm list := by
    apply Multiset.coe_eq_coe.mp
    rw [← Multiset.coe_add, ← hList]
    exact hReleased.kept.trans (zero_add _)
  have hDue : ∀ entry ∈ (wheel.tick now).1, entry.deliverAtMs ≤ now := fun entry hMem =>
    (hReleased.due entry hMem).resolve_left List.not_mem_nil
  have hLater := hReady.tick.2
  constructor
  · have hFilter := hPerm.filter fun entry => decide (entry.deliverAtMs ≤ now)
    rw [List.filter_append, List.filter_eq_self.mpr (by simpa using hDue),
      List.filter_eq_nil_iff.mpr (by simpa using hLater), List.append_nil] at hFilter
    exact hFilter
  · have hFilter := hPerm.filter fun entry => decide (¬ entry.deliverAtMs ≤ now)
    rw [List.filter_append, List.filter_eq_nil_iff.mpr (by simpa using hDue),
      List.filter_eq_self.mpr (by simpa using hLater), List.nil_append] at hFilter
    exact Multiset.coe_eq_coe.mpr hFilter

theorem returned_perm {next : Nat} {wheel : WheelInner} (hReady : Ready next wheel)
    {list : List DelayedEntry} (hList : wheel.waiting = list) {events : List WheelEvent}
    (hTimed : Timed next events) :
    List.Forall₂ List.Perm (returned step wheel events) (returned agenda list events) := by
  induction events generalizing next wheel list with
  | nil => exact .nil
  | cons event events ih =>
    cases event with
    | place now entry =>
      obtain ⟨hNow, hRest⟩ := hTimed
      refine .cons (List.Perm.refl _) (ih (hReady.place hNow entry) ?_ hRest)
      rw [waiting_place, hList]
      rfl
    | tick now =>
      obtain ⟨rfl, hRest⟩ := hTimed
      obtain ⟨hDue, hLeft⟩ := tick_perm hReady hList
      exact .cons hDue (ih hReady.tick.1 hLeft hRest)

end WheelInner

/-- Whenever it ticks, the wheel returns no entry before its deadline, and every entry that is
placed is returned once or still waits. With ticks in time each tick returns exactly the waiting
entries whose deadline has come, as a list of them would. -/
theorem returned_at_first_due_tick (events : List WheelEvent) :
    List.Forall₂ (fun event due => ∀ entry ∈ due, ∃ now, event = .tick now ∧ entry.deliverAtMs ≤ now)
        events (returned WheelInner.step .new events) ∧
      (events.flatMap WheelEvent.placed).Perm
        ((returned WheelInner.step .new events).flatten ++ (WheelInner.new.after events).entries) ∧
      ∀ next, Timed next events →
        List.Forall₂ List.Perm (returned WheelInner.step .new events) (returned agenda [] events) := by
  refine ⟨WheelInner.returned_due .new events, ?_, ?_⟩
  · apply Multiset.coe_eq_coe.mp
    rw [← Multiset.coe_add]
    exact ((WheelInner.returned_waiting .new events).trans (add_zero _)).symm
  · intro next hTimed
    exact WheelInner.returned_perm (WheelInner.ready_new next) rfl hTimed

def dueAt (deliverAtMs : UInt64) : DelayedEntry :=
  { id := 1, deliverAtMs, topic := "later".toList, qos := 0, retain := false, payload := []
    publisher := none, publisherTenant := "default".toList }

/-- An entry for the time 250 waits for the tick at 300. -/
theorem returned_at_third_tick :
    List.Forall₂ List.Perm
      (returned WheelInner.step .new [.place 0 (dueAt 250), .tick 100, .tick 200, .tick 300])
      [[], [], [], [dueAt 250]] :=
  (returned_at_first_due_tick [.place 0 (dueAt 250), .tick 100, .tick 200, .tick 300]).2.2 100
    ⟨by decide, rfl, rfl, rfl, trivial⟩

/-- An entry that is placed a hundred seconds before the first tick waits among the minutes, and
the ticks around its deadline do not return it. -/
theorem placed_long_before_first_tick :
    returned WheelInner.step .new
        [.place 0 (dueAt 100050), .tick 100000, .tick 100100, .tick 100200] = [[], [], [], []] ∧
      (dueAt 100050).deliverAtMs ≤ 100100 := by
  decide

end IndraMqtt.Delayed
