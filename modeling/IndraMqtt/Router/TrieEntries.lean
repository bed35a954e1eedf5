import IndraMqtt.Router.Trie

/-! What a trie stores, read by filter paths. Each operation on the trie is
described by its effect on the terminal set of every path, so that later
arguments need neither the children maps nor the pruning. -/
namespace IndraMqtt.Routing

open Protocol LevelPattern

namespace TrieNode

@[simp] theorem child_setChild (node next : TrieNode) (level level' : Str) :
    (node.setChild level next).child level' =
      if level' = level then some next else node.child level' := by
  grind [child, setChild]

variable (node next : TrieNode) (level : Str) (rest : List Str)

@[simp] theorem child_dropChild (level' : Str) :
    (node.dropChild level).child level' = if level' = level then none else node.child level' := by
  grind [child, dropChild]

@[simp] theorem multiWildcardSubs_setChild :
    (node.setChild level next).multiWildcardSubs = node.multiWildcardSubs := by
  unfold setChild
  split <;> rfl

@[simp] theorem multiWildcardSubs_dropChild :
    (node.dropChild level).multiWildcardSubs = node.multiWildcardSubs := by
  unfold dropChild
  split <;> rfl

@[simp] theorem exactSubs_setChild : (node.setChild level next).exactSubs = node.exactSubs := by
  unfold setChild
  split <;> rfl

@[simp] theorem exactSubs_dropChild : (node.dropChild level).exactSubs = node.exactSubs := by
  unfold dropChild
  split <;> rfl

/-- The terminal set at the end of a filter path, empty off the trie. -/
def subsAt : List Str → TrieNode → SubscriptionSet
  | [], node => node.exactSubs
  | level :: rest, node =>
    if level = ['#'] then node.multiWildcardSubs
    else
      match node.child level with
      | none => []
      | some child => subsAt rest child

@[simp] theorem subsAt_nil : subsAt [] node = node.exactSubs := rfl

theorem subsAt_hash : subsAt (['#'] :: rest) node = node.multiWildcardSubs := by
  simp [subsAt]

theorem subsAt_cons_of_some (node child : TrieNode)
    (hHash : level ≠ ['#']) (hChild : node.child level = some child) :
    subsAt (level :: rest) node = subsAt rest child := by
  simp [subsAt, hHash, hChild]

theorem subsAt_cons_of_none
    (hHash : level ≠ ['#']) (hChild : node.child level = none) :
    subsAt (level :: rest) node = [] := by
  simp [subsAt, hHash, hChild]

@[simp] theorem subsAt_empty (path : List Str) : subsAt path TrieNode.empty = [] := by
  cases path with
  | nil => rfl
  | cons level rest => grind [subsAt_hash, subsAt_cons_of_none, child, empty, AssocList.get]

theorem subsAt_cons (hHash : level ≠ ['#']) :
    subsAt (level :: rest) node = subsAt rest ((node.child level).getD TrieNode.empty) := by
  cases hChild : node.child level with
  | none => simp [subsAt_cons_of_none _ _ _ hHash hChild]
  | some child => simp [subsAt_cons_of_some _ _ _ _ hHash hChild]

theorem subsAt_setChild (path : List Str) (hHash : level ≠ ['#']) :
    subsAt path (node.setChild level next) =
      if path.head? = some level then subsAt path.tail next else subsAt path node := by
  cases path with
  | nil => simp
  | cons level' rest =>
    by_cases hHash' : level' = ['#']
    · simp [hHash', subsAt_hash, Ne.symm hHash]
    · grind [subsAt_cons, child_setChild]

theorem subsAt_dropChild (path : List Str) (hHash : level ≠ ['#']) :
    subsAt path (node.dropChild level) =
      if path.head? = some level then [] else subsAt path node := by
  cases path with
  | nil => simp
  | cons level' rest =>
    by_cases hHash' : level' = ['#']
    · simp [hHash', subsAt_hash, Ne.symm hHash]
    · rw [subsAt_cons _ _ _ hHash', child_dropChild]
      by_cases hEq : level' = level
      · simp [hEq]
      · simp [hEq, subsAt_cons _ _ _ hHash']

theorem subsAt_of_isEmptyNode (h : node.isEmptyNode = true) (path : List Str) :
    subsAt path node = [] := by
  simp only [isEmptyNode, Bool.and_eq_true, List.isEmpty_iff,
    Option.isNone_iff_eq_none] at h
  obtain ⟨⟨⟨hExact, hMulti⟩, hChildren⟩, hSingle⟩ := h
  cases path with
  | nil => exact hExact
  | cons level rest => grind [subsAt_hash, subsAt_cons_of_none, child, AssocList.get]

section

variable (node : TrieNode) (subs : SubscriptionSet) (path : List Str)

theorem subsAt_exact_update : subsAt path { node with exactSubs :=subs } = if path = [] then subs else subsAt path node := by
  cases path with
  | nil => rfl
  | cons level rest => rfl

theorem subsAt_multi_update : subsAt path { node with multiWildcardSubs :=subs } =
      if path.head? = some ['#'] then subs else subsAt path node := by
  cases path with
  | nil => rfl
  | cons level rest =>
    by_cases hHash : level = ['#']
    · simp [hHash, subsAt_hash]
    · rw [subsAt_cons _ _ _ hHash, if_neg (by simpa using hHash), subsAt_cons _ _ _ hHash]
      rfl

end

end TrieNode

open TrieNode

/-- A path whose only `#` is its last level, as every validated filter gives. -/
def HashLast (path : List Str) : Prop := RestLast (path.map seg)

theorem HashLast.tail {level : Str} {rest : List Str} (h : HashLast (level :: rest)) :
    HashLast rest :=
  h.2

theorem HashLast.eq_hash {rest : List Str} (h : HashLast (['#'] :: rest)) : rest = [] := by
  simpa using h.1 rfl

theorem hashLast_levels (filter : TopicFilter) : HashLast filter.text.levels :=
  validate_restLast _ filter.valid

/-- Paths that begin with `#` are that level alone. -/
theorem HashLast.head_hash_iff {path : List Str} (h : HashLast path) :
    path.head? = some ['#'] ↔ path = [['#']] := by
  cases path with
  | nil => simp
  | cons level rest => grind [HashLast.eq_hash]

variable (path : List Str) (node : TrieNode) (clientId tenant : Str)

/-- What one level of an operation does, given what it does below that level. -/
theorem subsAt_below {level : Str} {rest path : List Str} {node next child result : TrieNode}
    (update : SubscriptionSet → SubscriptionSet) (hHash : level ≠ ['#'])
    (hChild : (node.child level).getD TrieNode.empty = child)
    (hNext : subsAt path.tail next =
      if path.tail = rest then update (subsAt rest child) else subsAt path.tail child)
    (hResult : subsAt path result =
      if path.head? = some level then subsAt path.tail next else subsAt path node) :
    subsAt path result =
      if path = level :: rest then update (subsAt (level :: rest) node) else subsAt path node := by
  rw [hResult, hNext, subsAt_cons _ _ _ hHash, hChild]
  cases path with
  | nil => simp
  | cons first others => grind [subsAt_cons]

theorem HashLast.tails {path : List Str} (h : HashLast path) : HashLast path.tail := by
  cases path with
  | nil => exact h
  | cons level rest => exact h.tail

theorem subsAt_insertOwned (path' : List Str) (node : TrieNode) (sub : Subscription)
    (hne : path ≠ []) (hPath : HashLast path) (hPath' : HashLast path') :
    subsAt path' (insertOwned path node sub).1 =
      if path' = path then replace (subsAt path node) sub else subsAt path' node := by
  induction path generalizing node path' with
  | nil => exact absurd rfl hne
  | cons level rest ih =>
    rw [insertOwned]
    by_cases hHash : level = ['#']
    · grind [subsAt_multi_update, subsAt_hash, HashLast.head_hash_iff]
    · rw [if_neg hHash]
      by_cases hLast : rest = []
      · subst hLast
        exact subsAt_below (replace · sub) hHash rfl (subsAt_exact_update _ _ _)
          (subsAt_setChild _ _ _ _ hHash)
      · simp only [List.isEmpty_iff, hLast, if_false]
        exact subsAt_below (replace · sub) hHash rfl (ih _ _ hLast hPath.tail hPath'.tails)
          (subsAt_setChild _ _ _ _ hHash)

/-- The flag of an insertion says that the client had no entry there. -/
theorem insertOwned_added (sub : Subscription) (hne : path ≠ [])
    (hPath : HashLast path) :
    (insertOwned path node sub).2 = !holds (subsAt path node) sub.clientId sub.tenant := by
  induction path generalizing node with
  | nil => exact absurd rfl hne
  | cons level rest ih =>
    rw [insertOwned]
    by_cases hHash : level = ['#']
    · subst hHash
      rw [if_pos rfl, subsAt_hash]
    · rw [if_neg hHash, subsAt_cons _ _ _ hHash]
      by_cases hLast : rest = []
      · subst hLast
        rfl
      · grind [HashLast.tail]

theorem length_without_eq_iff (subs : SubscriptionSet) (clientId tenant : Str) :
    (without subs clientId tenant).length = subs.length ↔ holds subs clientId tenant = false := by
  unfold without holds
  rw [List.length_filter_eq_length_iff]
  simp

/-- The flag of a removal says that the client had an entry there. -/
theorem removeOwned_removed (hne : path ≠ [])
    (hPath : HashLast path) :
    (removeOwned path node clientId tenant).2 = holds (subsAt path node) clientId tenant := by
  induction path generalizing node with
  | nil => exact absurd rfl hne
  | cons level rest ih =>
    rw [removeOwned]
    by_cases hHash : level = ['#']
    · simp_all [subsAt_hash, length_without_eq_iff]
    · rw [if_neg hHash]
      cases hChild : node.child level with
      | none => simp [subsAt_cons_of_none _ _ _ hHash hChild, holds]
      | some child =>
        rw [subsAt_cons_of_some _ _ _ _ hHash hChild]
        grind [length_without_eq_iff, subsAt_nil, HashLast.tail]

/-- Both ways of ending a removal at one level look the same on every path. -/
theorem subsAt_stored (node next : TrieNode) (level : Str) (path : List Str) (hHash : level ≠ ['#'])
    (result : TrieNode × Bool) (h : result = (node.setChild level next, false) ∨
      result = (storeUnlessEmpty node level next, true)) : subsAt path result.1 =
      if path.head? = some level then subsAt path.tail next else subsAt path node := by
  grind [subsAt_setChild, storeUnlessEmpty, subsAt_dropChild, subsAt_of_isEmptyNode]

/-- Removal filters the terminal set of its own path and changes no other. -/
theorem subsAt_removeOwned (path' : List Str) (node : TrieNode) (clientId tenant : Str)
    (hne : path ≠ []) (hPath : HashLast path) (hPath' : HashLast path') :
    subsAt path' (removeOwned path node clientId tenant).1 =
      if path' = path then without (subsAt path node) clientId tenant else subsAt path' node := by
  induction path generalizing node path' with
  | nil => exact absurd rfl hne
  | cons level rest ih =>
    rw [removeOwned]
    by_cases hHash : level = ['#']
    · grind [subsAt_multi_update, subsAt_hash, HashLast.head_hash_iff]
    · rw [if_neg hHash]
      cases hChild : node.child level with
      | none => grind [subsAt_cons_of_none, without]
      | some child =>
        by_cases hLast : rest = []
        · subst hLast
          simp only [List.isEmpty_nil, if_true]
          exact subsAt_below (without · clientId tenant) hHash (by rw [hChild, Option.getD_some])
            (subsAt_exact_update _ _ _) (subsAt_stored _ _ _ _ hHash _ (by split <;> simp))
        · simp only [List.isEmpty_iff, hLast, if_false]
          exact subsAt_below (without · clientId tenant) hHash (by rw [hChild, Option.getD_some])
            (ih _ _ hLast hPath.tail hPath'.tails)
            (subsAt_stored _ _ _ _ hHash _ (by split <;> simp))

theorem terminalContains_eq (hne : path ≠ []) :
    terminalContains path node clientId tenant = holds (subsAt path node) clientId tenant := by
  induction path generalizing node with
  | nil => exact absurd rfl hne
  | cons level rest ih =>
    rw [terminalContains]
    by_cases hHash : level = ['#']
    · subst hHash
      rw [if_pos rfl, subsAt_hash]
    · rw [if_neg hHash]
      cases hChild : node.child level with
      | none => simp [subsAt_cons_of_none _ _ _ hHash hChild, holds]
      | some child => simp_all [subsAt_cons_of_some]

/-- The first probe of an unsubscribe is implied by the second. -/
theorem pathExists_of_terminalContains
    (h : terminalContains path node clientId tenant = true) : pathExists path node = true := by
  induction path generalizing node with
  | nil => rfl
  | cons level rest ih => grind [pathExists, terminalContains]

end IndraMqtt.Routing
