import IndraMqtt.Lib.Grouping
import Mathlib.Algebra.Order.Ring.Nat
import Mathlib.Data.List.FinRange

/-! A ring of slots with a cursor, as one level of a timer wheel has it. An entry is put a number
of slots ahead of the cursor, and the cursor takes what is in the slot it moves to. -/

structure SlotRing (n : Nat) (E : Type) where
  slot : Fin n → List E
  cursor : Fin n

namespace SlotRing

variable {n : Nat} {E : Type}

def entries (ring : SlotRing n E) : List E := (List.finRange n).flatMap ring.slot

variable {ring : SlotRing n E} {entry : E} {offset : Nat}

theorem mem_entries : entry ∈ ring.entries ↔ ∃ place, entry ∈ ring.slot place := by
  rw [entries, List.mem_flatMap]
  simp

variable [NeZero n]

def empty : SlotRing n E := ⟨fun _ => [], 0⟩

def ahead (ring : SlotRing n E) (offset : Nat) : Fin n := Fin.ofNat n (ring.cursor + offset)

def push (ring : SlotRing n E) (offset : Nat) (entry : E) : SlotRing n E :=
  let place := ring.ahead offset
  { ring with slot := Function.update ring.slot place (ring.slot place ++ [entry]) }

def advance (ring : SlotRing n E) : List E × SlotRing n E :=
  let place := ring.ahead 1
  (ring.slot place, ⟨Function.update ring.slot place [], place⟩)

theorem mem_entries_push {other : E} :
    other ∈ (ring.push offset entry).entries ↔ other = entry ∨ other ∈ ring.entries := by
  rw [mem_entries, mem_entries]
  constructor
  · intro hPushed
    obtain ⟨place, hMem⟩ := hPushed
    by_cases hPlace : place = ring.ahead offset
    · rw [hPlace] at hMem
      simp only [push, Function.update_self, List.mem_append, List.mem_singleton] at hMem
      grind
    · simp only [push, Function.update_of_ne hPlace] at hMem
      exact Or.inr ⟨place, hMem⟩
  · intro hMem
    rcases hMem with hNew | ⟨place, hOld⟩
    · refine ⟨ring.ahead offset, ?_⟩
      simp_all [push]
    · refine ⟨place, ?_⟩
      by_cases hPlace : place = ring.ahead offset
      · simp_all [push]
      · simp only [push, Function.update_of_ne hPlace]
        exact hOld

/-! ### What the ring holds -/

theorem entries_push_perm (ring : SlotRing n E) (offset : Nat) (entry : E) :
    (ring.push offset entry).entries.Perm (entry :: ring.entries) := by
  have hUpdate : (ring.slot (ring.ahead offset) ++ [entry] ++ ring.entries).Perm
      (ring.slot (ring.ahead offset) ++ (ring.push offset entry).entries) :=
    Grouping.flatMap_update_perm (List.nodup_finRange n) (List.mem_finRange _) _
  rw [List.append_assoc] at hUpdate
  exact ((List.perm_append_left_iff _).mp hUpdate).symm

/-! ### When a slot is taken -/

/-- How many times the ring advances until a slot is taken. -/
def wait (ring : SlotRing n E) (place : Fin n) : Nat :=
  if ring.cursor.val < place.val then place.val - ring.cursor.val
  else place.val + n - ring.cursor.val

theorem ahead_val (ring : SlotRing n E) (hLe : offset ≤ n) : (ring.ahead offset).val =
      if ring.cursor.val + offset < n then ring.cursor.val + offset
      else ring.cursor.val + offset - n := by
  show (ring.cursor.val + offset) % n = _
  split
  · next hBelow => exact Nat.mod_eq_of_lt hBelow
  · next hAbove =>
    rw [Nat.mod_eq_sub_mod (Nat.le_of_not_lt hAbove)]
    exact Nat.mod_eq_of_lt (by omega)

/-- The cursor comes back to the first slot behind the last one. -/
theorem cursor_of_wrap (hWrap : ring.advance.2.cursor = 0) : ring.cursor.val + 1 = n := by
  grind [advance, ahead_val]

theorem cursor_of_move (hWithin : ring.advance.2.cursor ≠ 0) :
    ring.advance.2.cursor.val = ring.cursor.val + 1 := by
  grind [advance, ahead_val]

omit [NeZero n] in
theorem wait_pos (ring : SlotRing n E) (place : Fin n) : 0 < ring.wait place := by
  rw [wait]
  split <;> omega

theorem wait_advance {place : Fin n} (hLater : place ≠ ring.ahead 1) :
    ring.advance.2.wait place + 1 = ring.wait place := by
  grind [ahead_val, advance, wait]

/-- Every entry of the ring is as it should be for the time that it still waits. -/
def Holds (P : Nat → E → Prop) (ring : SlotRing n E) : Prop :=
  ∀ place, ∀ entry ∈ ring.slot place, P (ring.wait place) entry

namespace Holds

variable {P Q : Nat → E → Prop} {ring : SlotRing n E}

omit [NeZero n] in
theorem mono (hHolds : Holds P ring)
    (hWeaker : ∀ wait entry, 0 < wait → P wait entry → Q wait entry) : Holds Q ring := by
  intro place entry hMem
  exact hWeaker _ entry (ring.wait_pos place) (hHolds place entry hMem)

theorem push (hHolds : Holds P ring) (hPos : 0 < offset) (hLe : offset ≤ n)
    (hEntry : P offset entry) : Holds P (ring.push offset entry) := by
  intro place other hMem
  show P (ring.wait place) other
  by_cases hPlace : place = ring.ahead offset
  · subst hPlace
    simp only [SlotRing.push, Function.update_self, List.mem_append, List.mem_singleton] at hMem
    rcases hMem with hOld | rfl
    · exact hHolds _ other hOld
    · rwa [show ring.wait (ring.ahead offset) = offset by grind [wait, ahead_val]]
  · simp only [SlotRing.push, Function.update_of_ne hPlace] at hMem
    exact hHolds place other hMem

/-- What is not taken waits for one time less. -/
theorem advance (hHolds : Holds P ring) :
    Holds (fun wait entry => P (wait + 1) entry) ring.advance.2 := by
  intro place entry hMem
  by_cases hPlace : place = ring.ahead 1
  · subst hPlace
    simp only [SlotRing.advance, Function.update_self, List.not_mem_nil] at hMem
  · simp only [SlotRing.advance, Function.update_of_ne hPlace] at hMem
    show P (ring.advance.2.wait place + 1) entry
    rw [wait_advance hPlace]
    exact hHolds place entry hMem

end Holds

end SlotRing
