import Mathlib.Data.List.AList

/-! Finite maps with values of one type. The representation is Mathlib's list
of entries with distinct keys; lookup is restated with a result type that does
not mention the key, so that keys can be rewritten. -/

abbrev Dict (K V : Type) := AList fun _ : K => V

namespace Dict

variable {K V : Type} [DecidableEq K]

def get? (d : Dict K V) (k : K) : Option V := AList.lookup k d

def set (d : Dict K V) (k : K) (v : V) : Dict K V := AList.insert k v d

def remove (d : Dict K V) (k : K) : Dict K V := AList.erase k d

omit [DecidableEq K] in
def values (d : Dict K V) : List V := d.entries.map Sigma.snd

variable (d : Dict K V) (k k' : K) (v : V)

@[simp, grind =] theorem get?_empty : get? (∅ : Dict K V) k = none := rfl

@[grind =] theorem get?_set : get? (set d k v) k' = if k' = k then some v else get? d k' := by
  unfold get? set
  by_cases h : k' = k
  · subst h
    rw [if_pos rfl, AList.lookup_insert]
  · rw [if_neg h, AList.lookup_insert_ne h]

@[simp] theorem get?_set_self : get? (set d k v) k = some v := by
  simp [get?_set]

@[simp] theorem get?_set_ne (h : k' ≠ k) : get? (set d k v) k' = get? d k' := by
  simp [get?_set, h]

@[grind =] theorem get?_remove : get? (remove d k) k' = if k' = k then none else get? d k' := by
  unfold get? remove
  by_cases h : k' = k
  · subst h
    rw [if_pos rfl, AList.lookup_erase]
  · rw [if_neg h, AList.lookup_erase_ne h]

@[simp] theorem get?_remove_ne (h : k' ≠ k) : get? (remove d k) k' = get? d k' := by
  simp [get?_remove, h]

theorem remove_eq_self_iff : remove d k = d ↔ get? d k = none := by
  constructor
  · intro hSame
    rw [← hSame, get?_remove, if_pos rfl]
  · intro hNone
    exact AList.ext (List.kerase_of_notMem_keys (List.dlookup_eq_none.mp hNone))

theorem get?_eq_some_iff : get? d k = some v ↔ (⟨k, v⟩ : Sigma fun _ : K => V) ∈ d.entries :=
  AList.mem_lookup_iff

variable {p : V → Bool} {entries : List (Sigma fun _ : K => V)}

/-- Erasing an entry that a search would not find does not change its result. -/
theorem find?_kerase {k : K} (hOut : ∀ v, entries.dlookup k = some v → p v = false) :
    ((entries.kerase k).map Sigma.snd).find? p = (entries.map Sigma.snd).find? p := by
  induction entries with
  | nil => rfl
  | cons entry entries ih =>
    obtain ⟨k', v⟩ := entry
    by_cases hKey : k = k'
    · subst hKey
      simp_all
    · simp_all [List.find?_cons]

theorem find?_values_set_of_neg {k : K} {v : V} (hNew : p v = false)
    (hOld : ∀ old, d.get? k = some old → p old = false) :
    (d.set k v).values.find? p = d.values.find? p := by
  show (v :: (d.entries.kerase k).map Sigma.snd).find? p = _
  rw [List.find?_cons_of_neg (by simp [hNew])]
  exact find?_kerase hOld

/-! ### Maps that are made entry by entry -/

def collect {K' V' : Type} [DecidableEq K'] (read : K → V → Option (K' × V'))
    (entries : List (Sigma fun _ : K => V)) (acc : Dict K' V') : Dict K' V' :=
  entries.foldl
    (fun acc entry =>
      match read entry.1 entry.2 with
      | some found => set acc found.1 found.2
      | none => acc)
    acc

theorem get?_collect {K' V' : Type} [DecidableEq K'] (read : K → V → Option (K' × V'))
    (source : K' → K) (hNodup : entries.NodupKeys)
    (hSource : ∀ entry ∈ entries, ∀ found, read entry.1 entry.2 = some found →
      entry.1 = source found.1) (acc : Dict K' V') {k : K'}
    (hOwn : ∀ v found, read (source k) v = some found → found.1 = k) :
    (collect read entries acc).get? k =
      ((entries.dlookup (source k)).bind fun v => (read (source k) v).map (·.2)).or
        (acc.get? k) := by
  induction entries generalizing acc with
  | nil => rfl
  | cons entry entries ih =>
    obtain ⟨name, v⟩ := entry
    obtain ⟨hFresh, hNodup⟩ := List.nodupKeys_cons.mp hNodup
    rw [List.forall_mem_cons] at hSource
    rw [collect, List.foldl_cons, ← collect, ih hNodup hSource.2]
    by_cases hName : name = source k
    · grind [List.dlookup_eq_none]
    · grind

omit [DecidableEq K] in
/-- What such a map holds was read from an entry, or stood there before. -/
theorem of_get?_collect {K' V' : Type} [DecidableEq K'] {read : K → V → Option (K' × V')}
    {acc : Dict K' V'} {k : K'} {v : V'} (hFound : (collect read entries acc).get? k = some v) :
    (∃ entry ∈ entries, read entry.1 entry.2 = some (k, v)) ∨ acc.get? k = some v := by
  induction entries generalizing acc with
  | nil => exact Or.inr hFound
  | cons entry entries ih =>
    rw [collect, List.foldl_cons, ← collect] at hFound
    grind

end Dict
