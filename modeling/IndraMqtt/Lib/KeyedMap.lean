import IndraMqtt.Lib.Dict
import Mathlib.Data.Finset.Card

/-! Finite maps whose values know their own key. A value can only be stored under
its key, so that every lookup finds a value with the key that was asked for. -/

structure KeyedMap {K V : Type} [DecidableEq K] (key : V → K) where
  dict : Dict K V
  keyed : ∀ k v, dict.get? k = some v → key v = k

namespace KeyedMap

variable {K V : Type} [DecidableEq K] {key : V → K}

def empty : KeyedMap key where
  dict := ∅
  keyed := by
    intro k v hGet
    cases hGet

def get? (m : KeyedMap key) (k : K) : Option V := m.dict.get? k

def put (m : KeyedMap key) (v : V) : KeyedMap key where
  dict := m.dict.set (key v) v
  keyed := by
    intro k w hGet
    rw [Dict.get?_set] at hGet
    split at hGet
    · next hKey =>
      cases hGet
      exact hKey.symm
    · exact m.keyed k w hGet

def remove (m : KeyedMap key) (k : K) : KeyedMap key where
  dict := m.dict.remove k
  keyed := by
    intro k' v hGet
    rw [Dict.get?_remove] at hGet
    split at hGet
    · cases hGet
    · exact m.keyed k' v hGet

def removeAll (m : KeyedMap key) (ks : List K) : KeyedMap key := ks.foldl remove m

def values (m : KeyedMap key) : List V := m.dict.values

variable {m : KeyedMap key} {k : K} {v : V} {p : V → Bool}

@[grind →] theorem key_of_get? (hGet : m.get? k = some v) : key v = k :=
  m.keyed k v hGet

@[grind =] theorem get?_put (m : KeyedMap key) (v : V) (k : K) :
    (m.put v).get? k = if k = key v then some v else m.get? k :=
  Dict.get?_set m.dict (key v) k v

@[simp] theorem get?_put_self (m : KeyedMap key) (v : V) : (m.put v).get? (key v) = some v := by
  rw [get?_put, if_pos rfl]

theorem get?_put_of_key (m : KeyedMap key) (hKey : key v = k) : (m.put v).get? k = some v := by
  rw [← hKey, get?_put_self]

theorem get?_put_ne (hNe : k ≠ key v) : (m.put v).get? k = m.get? k := by
  rw [get?_put, if_neg hNe]

@[grind =] theorem get?_remove (m : KeyedMap key) (k k' : K) :
    (m.remove k).get? k' = if k' = k then none else m.get? k' :=
  Dict.get?_remove m.dict k k'

theorem put_remove (m : KeyedMap key) (v : V) : (m.remove (key v)).put v = m.put v := by
  have hDict : (m.dict.remove (key v)).set (key v) v = m.dict.set (key v) v := by
    apply AList.ext
    show (m.dict.entries.kerase (key v)).kinsert (key v) v = m.dict.entries.kinsert (key v) v
    rw [List.kinsert_def, List.kinsert_def, List.kerase_of_notMem_keys]
    exact List.notMem_keys_kerase _ m.dict.nodupKeys
  simp [put, remove, hDict]

theorem get?_removeAll (m : KeyedMap key) (ks : List K) (k : K) :
    (m.removeAll ks).get? k = if k ∈ ks then none else m.get? k := by
  induction ks generalizing m with
  | nil => rfl
  | cons first rest ih =>
    rw [removeAll, List.foldl_cons, ← removeAll, ih, get?_remove]
    grind

theorem mem_values_iff (m : KeyedMap key) (v : V) : v ∈ m.values ↔ m.get? (key v) = some v := by
  rw [values, Dict.values, List.mem_map, get?, Dict.get?_eq_some_iff]
  constructor
  · rintro ⟨⟨k, w⟩, hEntry, rfl⟩
    have hKey := m.keyed k w ((Dict.get?_eq_some_iff m.dict k w).mpr hEntry)
    change (⟨key w, w⟩ : Sigma fun _ : K => V) ∈ m.dict.entries
    rwa [hKey]
  · intro hEntry
    exact ⟨_, hEntry, rfl⟩

/-! ### Counting -/

def count (m : KeyedMap key) (p : V → Bool) : Nat := m.values.countP p

theorem nodup_values (m : KeyedMap key) : (m.values.map key).Nodup := by
  have hKeys : m.values.map key = m.dict.keys := by
    rw [values, Dict.values, List.map_map]
    apply List.map_congr_left
    rintro ⟨k, v⟩ hEntry
    exact m.keyed k v ((Dict.get?_eq_some_iff m.dict k v).mpr hEntry)
  rw [hKeys]
  exact m.dict.nodupKeys

def holders (m : KeyedMap key) (p : V → Bool) : Finset K :=
  ((m.values.filter p).map key).toFinset

theorem mem_holders_iff (m : KeyedMap key) (p : V → Bool) (k : K) :
    k ∈ m.holders p ↔ (m.get? k).any p = true := by
  grind [holders, List.mem_toFinset, Option.any_eq_true, mem_values_iff]

theorem card_holders (m : KeyedMap key) (p : V → Bool) : (m.holders p).card = m.count p := by
  have hNodup : ((m.values.filter p).map key).Nodup :=
    m.nodup_values.sublist (List.filter_sublist.map key)
  grind [holders, List.toFinset_card_of_nodup, count]

theorem count_pos (hHolds : (m.get? k).any p = true) : 0 < m.count p := by
  rw [← card_holders]
  exact Finset.card_pos.mpr ⟨k, (mem_holders_iff m p k).mpr hHolds⟩

theorem count_add_of_agree {m' : KeyedMap key}
    (hAgree : ∀ k', k' ≠ k → (m'.get? k').any p = (m.get? k').any p) :
    m'.count p + ((m.get? k).any p).toNat = m.count p + ((m'.get? k).any p).toNat := by
  have hSplit (n : KeyedMap key) :
      n.count p = ((n.holders p).erase k).card + ((n.get? k).any p).toNat := by
    grind [card_holders, mem_holders_iff, Finset.erase_eq_of_notMem]
  have hErase : (m'.holders p).erase k = (m.holders p).erase k := by grind [mem_holders_iff]
  rw [hSplit m, hSplit m', hErase]
  omega

theorem count_eq_of_agree {m' : KeyedMap key} (hAgree : ∀ k, (m'.get? k).any p = (m.get? k).any p) :
    m'.count p = m.count p := by
  rw [← card_holders, ← card_holders]
  congr 1
  apply Finset.ext
  intro k
  rw [mem_holders_iff, mem_holders_iff, hAgree k]

/-- A map from which only values that are `gone` were removed. -/
structure Pruned (gone : V → Prop) (before after : KeyedMap key) : Prop where
  kept : ∀ k v, before.get? k = some v → after.get? k = some v ∨ gone v
  old : ∀ k v, after.get? k = some v → before.get? k = some v

namespace Pruned

variable {gone : V → Prop} {first second third : KeyedMap key}

theorem refl (m : KeyedMap key) : Pruned gone m m :=
  ⟨fun _ _ hGet => Or.inl hGet, fun _ _ hGet => hGet⟩

theorem trans (hFirst : Pruned gone first second) (hSecond : Pruned gone second third) :
    Pruned gone first third := by
  refine ⟨?_, fun k v hGet => hFirst.old k v (hSecond.old k v hGet)⟩
  intro k v hGet
  obtain hKept | hGone := hFirst.kept k v hGet
  · exact hSecond.kept k v hKept
  · exact Or.inr hGone

theorem get? (hPruned : Pruned gone first second) (k : K) :
    second.get? k = first.get? k ∨ ∃ v, first.get? k = some v ∧ second.get? k = none ∧ gone v := by
  cases hSecond : second.get? k with
  | some v => exact .inl (hPruned.old k v hSecond).symm
  | none =>
    cases hFirst : first.get? k with
    | none => exact .inl rfl
    | some v =>
      obtain hKept | hOut := hPruned.kept k v hFirst
      · cases hSecond.symm.trans hKept
      · exact .inr ⟨v, rfl, rfl, hOut⟩

/-- What no value that is gone has is had by the same keys. -/
theorem any_eq (hPruned : Pruned gone first second)
    (hGone : ∀ k v, first.get? k = some v → gone v → p v = false) (k : K) :
    (second.get? k).any p = (first.get? k).any p := by
  obtain hSame | ⟨v, hFirst, hSecond, hOut⟩ := hPruned.get? k
  · rw [hSame]
  · rw [hFirst, hSecond]
    exact (hGone k v hFirst hOut).symm

theorem removeAll {victims : List V} (m : KeyedMap key)
    (hVictims : ∀ v ∈ victims, v ∈ m.values ∧ gone v) :
    Pruned gone m (m.removeAll (victims.map key)) := by
  refine ⟨?_, ?_⟩
  · grind [get?_removeAll, mem_values_iff]
  · simp [get?_removeAll]

end Pruned

end KeyedMap
