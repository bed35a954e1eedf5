import IndraMqtt.Delayed.Entry
import IndraMqtt.Lib.SlotRing

/-! The hierarchical timer wheel of the delayed publications: ten slots of a tenth of a second,
sixty of a second, sixty of a minute and twenty-four of an hour. What is farther away waits in an
overflow list. -/
namespace IndraMqtt.Delayed

/-- `WheelInner`. Each level has its slots with its cursor. -/
structure WheelInner where
  l0 : SlotRing 10 DelayedEntry
  l1 : SlotRing 60 DelayedEntry
  l2 : SlotRing 60 DelayedEntry
  l3 : SlotRing 24 DelayedEntry
  overflow : List DelayedEntry

namespace WheelInner

def new : WheelInner := ⟨.empty, .empty, .empty, .empty, []⟩

variable (now : UInt64) (due : List DelayedEntry) (wheel : WheelInner)

def len : Nat :=
  wheel.l0.entries.length + wheel.l1.entries.length + wheel.l2.entries.length +
    wheel.l3.entries.length + wheel.overflow.length

def entries (wheel : WheelInner) : List DelayedEntry :=
  wheel.l0.entries ++ wheel.l1.entries ++ wheel.l2.entries ++ wheel.l3.entries ++ wheel.overflow

/-- `WheelInner::place`. An imminent entry is put at least one slot ahead. -/
def place (entry : DelayedEntry) : WheelInner :=
  let delayMs := entry.deliverAtMs.toNat - now.toNat
  if delayMs ≤ 10 * 100 then { wheel with l0 := wheel.l0.push (max (delayMs / 100) 1) entry }
  else if delayMs ≤ 60 * 1000 then { wheel with l1 := wheel.l1.push (delayMs / 1000) entry }
  else if delayMs ≤ 60 * 60000 then { wheel with l2 := wheel.l2.push (delayMs / 60000) entry }
  else if delayMs ≤ 24 * 3600000 then
    { wheel with l3 := wheel.l3.push (delayMs / 3600000) entry }
  else { wheel with overflow := wheel.overflow ++ [entry] }

/-- The entries of a slot that are due, in front of which others are due already. The rest is
placed again. -/
def release (taken : List DelayedEntry) (due : List DelayedEntry)
    (wheel : WheelInner) : List DelayedEntry × WheelInner :=
  taken.foldl (fun (due, wheel) entry =>
    if entry.deliverAtMs ≤ now then (due ++ [entry], wheel)
    else (due, wheel.place now entry)) (due, wheel)

def tick3 : List DelayedEntry × WheelInner :=
  let (taken, l3) := wheel.l3.advance
  release now taken due { wheel with l3 }

def tick2 : List DelayedEntry × WheelInner :=
  let (taken, l2) := wheel.l2.advance
  let (due, wheel) := release now taken due { wheel with l2 }
  if wheel.l2.cursor = 0 then wheel.tick3 now due else (due, wheel)

def tick1 : List DelayedEntry × WheelInner :=
  let (taken, l1) := wheel.l1.advance
  let (due, wheel) := release now taken due { wheel with l1 }
  if wheel.l1.cursor = 0 then wheel.tick2 now due else (due, wheel)

/-- `WheelInner::tick`: the entries that are due, and the wheel behind the tick. -/
def tick : List DelayedEntry × WheelInner :=
  let (taken, l0) := wheel.l0.advance
  let (due, wheel) := release now taken [] { wheel with l0 }
  let (due, wheel) := if wheel.l0.cursor = 0 then wheel.tick1 now due else (due, wheel)
  (due ++ wheel.overflow.filter (·.deliverAtMs ≤ now),
    { wheel with overflow := wheel.overflow.filter fun entry => ¬ entry.deliverAtMs ≤ now })

def tickLevels : List DelayedEntry × WheelInner :=
  let slot := release now wheel.l0.advance.1 [] { wheel with l0 := wheel.l0.advance.2 }
  if slot.2.l0.cursor = 0 then slot.2.tick1 now slot.1 else slot

theorem tick_eq : wheel.tick now =
      ((wheel.tickLevels now).1 ++ (wheel.tickLevels now).2.overflow.filter (·.deliverAtMs ≤ now),
        { (wheel.tickLevels now).2 with
          overflow := (wheel.tickLevels now).2.overflow.filter
            fun entry => ¬ entry.deliverAtMs ≤ now }) := rfl

variable {now : UInt64} {wheel : WheelInner} {entry : DelayedEntry}

theorem mem_entries_foldl_place {placed : List DelayedEntry} :
    entry ∈ (placed.foldl (place now) wheel).entries ↔ entry ∈ placed ∨ entry ∈ wheel.entries := by
  induction placed generalizing wheel with
  | nil => simp
  | cons first placed ih =>
    rw [List.foldl_cons, ih, List.mem_cons]
    unfold place
    grind [entries, SlotRing.mem_entries_push]

end WheelInner

end IndraMqtt.Delayed
