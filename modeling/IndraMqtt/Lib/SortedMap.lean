import Mathlib.Order.Lattice
import Mathlib.Data.List.Induction
import Mathlib.Data.List.Perm.Subperm

/-! Finite maps whose entries stand in the order of their keys. Two of them are the same map
exactly when they have the same entries, so that a map that is written out and filled again
entry by entry is the map it was. -/

/-- A map with its entries in ascending order of their keys. -/
@[ext] structure SortedMap (K V : Type) [LinearOrder K] where
  entries : List (K × V)
  ascending : entries.Pairwise fun a b => a.1 < b.1

namespace SortedMap

variable {K V : Type} [LinearOrder K]

instance [DecidableEq V] : DecidableEq (SortedMap K V) := fun m m' =>
  decidable_of_iff (m.entries = m'.entries) SortedMap.ext_iff.symm

def insertEntry (k : K) (v : V) : List (K × V) → List (K × V)
  | [] => [(k, v)]
  | entry :: entries =>
    if k < entry.1 then (k, v) :: entry :: entries
    else if k = entry.1 then (k, v) :: entries
    else entry :: insertEntry k v entries

variable {k : K} {entries : List (K × V)}

theorem mem_insertEntry {v : V} {entry : K × V} (hMem : entry ∈ insertEntry k v entries) :
    entry = (k, v) ∨ entry ∈ entries := by
  induction entries with
  | nil => exact Or.inl (List.mem_singleton.mp hMem)
  | cons first entries ih => grind [insertEntry]

theorem ascending_insertEntry (k : K) (v : V) (hAscending : entries.Pairwise fun a b => a.1 < b.1) :
    (insertEntry k v entries).Pairwise fun a b => a.1 < b.1 := by
  induction entries with
  | nil => exact List.pairwise_singleton ..
  | cons first entries ih =>
    obtain ⟨hFirst, hRest⟩ := List.pairwise_cons.mp hAscending
    rw [insertEntry]
    split
    · grind
    · next hNotLt =>
      split
      · grind [List.pairwise_cons]
      · next hNe =>
        apply List.pairwise_cons.mpr ⟨_, ih hRest⟩
        intro entry hMem
        rcases mem_insertEntry hMem with rfl | hMem
        · exact lt_of_le_of_ne (not_lt.mp hNotLt) (Ne.symm hNe)
        · exact hFirst entry hMem

def empty : SortedMap K V := ⟨[], List.Pairwise.nil⟩

def insert (m : SortedMap K V) (k : K) (v : V) : SortedMap K V :=
  ⟨insertEntry k v m.entries, ascending_insertEntry k v m.ascending⟩

/-- Fills a map entry by entry. A later entry replaces an earlier one with its key. -/
def ofEntries (entries : List (K × V)) : SortedMap K V :=
  entries.foldl (fun m entry => m.insert entry.1 entry.2) empty

/-- An entry behind all the others is put at the end. -/
theorem insertEntry_last (v : V) (hAbove : ∀ entry ∈ entries, entry.1 < k) :
    insertEntry k v entries = entries ++ [(k, v)] := by
  induction entries with
  | nil => rfl
  | cons first entries ih => grind [insertEntry]

theorem entries_foldl_insert (m : SortedMap K V) (more : List (K × V))
    (hAscending : (m.entries ++ more).Pairwise fun a b => a.1 < b.1) :
    (more.foldl (fun m entry => m.insert entry.1 entry.2) m).entries = m.entries ++ more := by
  induction more generalizing m with
  | nil => exact (List.append_nil _).symm
  | cons entry more ih =>
    have hAbove : ∀ held ∈ m.entries, held.1 < entry.1 := by grind [List.mem_cons_self]
    have hLast : (m.insert entry.1 entry.2).entries = m.entries ++ [entry] :=
      insertEntry_last entry.2 hAbove
    simp_all

/-- A map that is written out and filled again is the same map. -/
theorem ofEntries_entries (m : SortedMap K V) : ofEntries m.entries = m := by
  apply SortedMap.ext
  exact entries_foldl_insert empty m.entries m.ascending

theorem mem_ofEntries {entry : K × V} (hMem : entry ∈ (ofEntries entries).entries) :
    entry ∈ entries := by
  induction entries using List.reverseRecOn with
  | nil => exact hMem
  | append_singleton entries last ih =>
    rw [ofEntries, List.foldl_concat] at hMem
    grind [mem_insertEntry hMem, ofEntries]

theorem length_ofEntries_le (entries : List (K × V)) :
    (ofEntries entries).entries.length ≤ entries.length := by
  have hNodup : (ofEntries entries).entries.Nodup :=
    (ofEntries entries).ascending.imp fun hLt hSame => hLt.ne (congrArg Prod.fst hSame)
  exact (List.subperm_of_subset hNodup fun _ => mem_ofEntries).length_le

end SortedMap
