
/-! Association lists as the children of a recursive type, where a map with an
invariant cannot be nested. Only lookups are ever observed, so that repeated
keys behind the first are harmless. -/
namespace AssocList

variable {K V : Type} [DecidableEq K]

def get : List (K × V) → K → Option V
  | [], _ => none
  | (key, value) :: l, k => if k = key then some value else get l k

variable {l : List (K × V)} {k : K}

theorem mem_of_get {v : V} (hGet : get l k = some v) : (k, v) ∈ l := by
  induction l with
  | nil => cases hGet
  | cons entry l ih => grind [get]

def del (l : List (K × V)) (k : K) : List (K × V) := l.filter fun entry => entry.1 ≠ k

def put (l : List (K × V)) (k : K) (v : V) : List (K × V) := (k, v) :: del l k

@[grind =] theorem get_del (l : List (K × V)) (k k' : K) :
    get (del l k) k' = if k' = k then none else get l k' := by
  induction l with
  | nil => simp [del, get]
  | cons entry l ih => grind [del, get]

@[grind =] theorem get_put (l : List (K × V)) (k k' : K) (v : V) :
    get (put l k v) k' = if k' = k then some v else get l k' := by
  rw [put, get, get_del]
  by_cases hk : k' = k
  all_goals simp [hk]

def set : List (K × V) → K → V → List (K × V)
  | [], k, v => [(k, v)]
  | (key, value) :: l, k, v => if k = key then (k, v) :: l else (key, value) :: set l k v

def setAll (l entries : List (K × V)) : List (K × V) :=
  entries.foldl (fun l entry => set l entry.1 entry.2) l

theorem set_of_not_mem (v : V) (hNew : k ∉ l.map Prod.fst) : set l k v = l ++ [(k, v)] := by
  induction l with
  | nil => rfl
  | cons entry l ih => grind [set]

/-- Entries with different keys stay in their order. -/
theorem setAll_of_nodup {entries : List (K × V)} (hNodup : ((l ++ entries).map Prod.fst).Nodup) :
    setAll l entries = l ++ entries := by
  induction entries generalizing l with
  | nil => exact (List.append_nil l).symm
  | cons entry entries ih =>
    have hShape : l ++ entry :: entries = l ++ [entry] ++ entries := by
      rw [List.append_assoc, List.singleton_append]
    grind [setAll, set_of_not_mem]

end AssocList
