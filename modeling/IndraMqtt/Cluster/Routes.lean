import IndraMqtt.Cluster.RouteTable
import IndraMqtt.Router.Refinement

/-! The cluster directory against the flat set of its routes. What lies at the end of a filter
path says all about the trie, paths without nodes that stay behind included. -/
namespace IndraMqtt.Cluster

open Protocol Routing

variable {nodeId other : NodeId} {path rest : List Str} {level : Str}

theorem NodeSet.mem_insert {nodes : NodeSet} :
    other ∈ nodes.insert nodeId ↔ other ∈ nodes ∨ other = nodeId := by
  grind [NodeSet.insert]

namespace RouteTrieNode

/-- The nodes at the end of a filter path, none off the trie. -/
def nodesAt : List Str → RouteTrieNode → NodeSet
  | [], node => node.exactNodes
  | level :: rest, node =>
    if level = ['#'] then node.multiWildcardNodes else (node.child level).elim [] (nodesAt rest)

variable {node next child : RouteTrieNode}

theorem nodesAt_empty : nodesAt path empty = [] := by
  cases path with
  | nil => rfl
  | cons level rest => simp [nodesAt, empty, RouteTrieNode.child, AssocList.get]

theorem nodesAt_cons (hHash : level ≠ ['#']) :
    nodesAt (level :: rest) node = nodesAt rest ((node.child level).getD empty) := by
  cases hChild : node.child level with
  | none => simp [nodesAt, hHash, hChild, nodesAt_empty]
  | some child => simp [nodesAt, hHash, hChild]

theorem nodesAt_setChild (hHash : level ≠ ['#']) : nodesAt path (node.setChild level next) =
      if path.head? = some level then nodesAt path.tail next else nodesAt path node := by
  cases path with
  | nil =>
    unfold setChild
    split <;> rfl
  | cons first rest => grind [nodesAt, RouteTrieNode.child, setChild]

/-- An operation on one path changes for one node what lies there, and no other path. -/
def Edited (update : Prop → Prop) (other : NodeId) (target : List Str)
    (node after : RouteTrieNode) : Prop :=
  ∀ path, HashLast path → (other ∈ nodesAt path after ↔
    if path = target then update (other ∈ nodesAt path node) else other ∈ nodesAt path node)

namespace Edited

variable {update : Prop → Prop} {nodes : NodeSet}

theorem exactNodes (hNodes : other ∈ nodes ↔ update (other ∈ node.exactNodes)) :
    Edited update other [] node { node with exactNodes := nodes } := by
  intro path _
  cases path with
  | nil => simpa [nodesAt] using hNodes
  | cons level rest => rfl

theorem multiWildcardNodes (hNodes : other ∈ nodes ↔ update (other ∈ node.multiWildcardNodes)) :
    Edited update other [['#']] node { node with multiWildcardNodes := nodes } := by
  intro path hPath
  cases path with
  | nil => simp [nodesAt]
  | cons level rest =>
    by_cases hHash : level = ['#']
    · subst hHash
      simp [hPath.eq_hash, nodesAt, hNodes]
    · simp [nodesAt, hHash, RouteTrieNode.child]

/-- What one level of an operation does, given what it does below that level. -/
theorem below (hHash : level ≠ ['#']) (hChild : (node.child level).getD empty = child)
    (hNext : Edited update other rest child next) :
    Edited update other (level :: rest) node (node.setChild level next) := by
  intro path hPath
  rw [nodesAt_setChild hHash]
  cases path with
  | nil => simp
  | cons first others =>
    have hBelow := hNext others hPath.tail
    grind [nodesAt_cons]

end Edited

variable (hne : path ≠ []) (hPath : HashLast path)
include hne hPath

theorem edited_addRoute :
    Edited (· ∨ other = nodeId) other path node (addRoute nodeId path node) := by
  induction path generalizing node with
  | nil => exact absurd rfl hne
  | cons level rest ih =>
    rw [addRoute]
    by_cases hHash : level = ['#']
    · subst hHash
      rw [if_pos rfl, hPath.eq_hash]
      exact .multiWildcardNodes NodeSet.mem_insert
    · rw [if_neg hHash]
      by_cases hLast : rest = []
      · subst hLast
        exact .below hHash rfl (.exactNodes NodeSet.mem_insert)
      · simp only [List.isEmpty_iff, hLast, if_false]
        exact .below hHash rfl (ih hLast hPath.tail)

theorem edited_removeRoute :
    Edited (other ≠ nodeId ∧ ·) other path node (removeRoute nodeId path node) := by
  induction path generalizing node with
  | nil => exact absurd rfl hne
  | cons level rest ih =>
    rw [removeRoute]
    by_cases hHash : level = ['#']
    · subst hHash
      rw [if_pos rfl, hPath.eq_hash]
      exact .multiWildcardNodes NodeSet.mem_remove
    · rw [if_neg hHash]
      cases hChild : node.child level with
      | none =>
        have hNone : nodesAt (level :: rest) node = [] := by simp [nodesAt, hHash, hChild]
        intro found _
        grind
      | some child =>
        have hDefault : (node.child level).getD empty = child := by rw [hChild, Option.getD_some]
        by_cases hLast : rest = []
        · subst hLast
          exact .below hHash hDefault (.exactNodes NodeSet.mem_remove)
        · simp only [List.isEmpty_iff, hLast, if_false]
          exact .below hHash hDefault (ih hLast hPath.tail)

omit hne hPath in
theorem mem_nodesAt_removeNode :
    other ∈ nodesAt path (removeNode nodeId node) ↔ other ≠ nodeId ∧ other ∈ nodesAt path node := by
  induction path generalizing node with
  | nil =>
    cases node
    exact NodeSet.mem_remove
  | cons level rest ih =>
    obtain ⟨children, single, multi, exact⟩ := node
    have hChild : (removeNode nodeId ⟨children, single, multi, exact⟩).child level =
        (RouteTrieNode.child ⟨children, single, multi, exact⟩ level).map (removeNode nodeId) := by
      simp only [removeNode, RouteTrieNode.child, removeSingle_eq, get_removeChildren]
      split <;> rfl
    rw [nodesAt, nodesAt, hChild]
    split
    · exact NodeSet.mem_remove
    · cases RouteTrieNode.child ⟨children, single, multi, exact⟩ level with
      | none => simp
      | some child => exact ih

omit hne hPath in
/-- The walk finds the nodes on all the paths that match. -/
theorem mem_matchRecursive {topic : List Str}
    (hPlain : ∀ level ∈ topic, level ≠ ['+'] ∧ level ≠ ['#']) : other ∈ matchRecursive topic node ↔
      ∃ path, HashLast path ∧ matchLevels path topic = true ∧ other ∈ nodesAt path node := by
  have hMulti (topic : List Str) (node : RouteTrieNode) (hMem : other ∈ node.multiWildcardNodes) :
      ∃ path, HashLast path ∧ matchLevels path topic = true ∧ other ∈ nodesAt path node :=
    ⟨[['#']], ⟨fun _ => rfl, trivial⟩, by simp [matchLevels], by simpa [nodesAt] using hMem⟩
  induction topic generalizing node with
  | nil =>
    rw [matchRecursive, List.mem_append]
    constructor
    · rintro (hMem | hMem)
      · exact hMulti [] node hMem
      · exact ⟨[], trivial, rfl, hMem⟩
    · rintro ⟨path, -, hMatch, hMem⟩
      cases path with
      | nil => exact .inr hMem
      | cons level rest => grind [matchLevels, nodesAt]
  | cons head tail ih =>
    obtain ⟨hPlus, hHash⟩ := hPlain head List.mem_cons_self
    have hBelow (found : Option RouteTrieNode) :
        other ∈ found.elim [] (matchRecursive tail) ↔ ∃ path, HashLast path ∧
          matchLevels path tail = true ∧ other ∈ nodesAt path (found.getD empty) := by
      cases found with
      | none => simp [nodesAt_empty]
      | some child => exact ih fun level hMem => hPlain level (List.mem_cons_of_mem _ hMem)
    rw [matchRecursive, List.mem_append, List.mem_append, hBelow, hBelow]
    constructor
    · rintro (hMem | ⟨path, hPath, hMatch, hMem⟩ | ⟨path, hPath, hMatch, hMem⟩)
      · exact hMulti _ node hMem
      · refine ⟨head :: path, ⟨?_, hPath⟩, ?_, ?_⟩
        · intro hRest
          exact absurd ((seg_eq_rest_iff head).mp hRest) hHash
        · exact (matchLevels_cons _ _ _ _ hHash).mpr ⟨.inr rfl, hMatch⟩
        · simpa [nodesAt_cons hHash, RouteTrieNode.child, hPlus] using hMem
      · refine ⟨['+'] :: path, ⟨by simp, hPath⟩, ?_, ?_⟩
        · exact (matchLevels_cons _ _ _ _ (by decide)).mpr ⟨.inl rfl, hMatch⟩
        · simpa [nodesAt_cons (show ['+'] ≠ ['#'] by decide), RouteTrieNode.child] using hMem
    · rintro ⟨path, hPath, hMatch, hMem⟩
      cases path with
      | nil => simp [matchLevels] at hMatch
      | cons level rest =>
        by_cases hLevel : level = ['#']
        · exact .inl (by simpa [nodesAt, hLevel] using hMem)
        · rw [matchLevels_cons _ _ _ _ hLevel] at hMatch
          rw [nodesAt_cons hLevel, RouteTrieNode.child] at hMem
          obtain ⟨hFits, hTail⟩ := hMatch
          grind [HashLast.tail]

end RouteTrieNode

open RouteTrieNode

inductive RouteOp where
  | addRoute (filter : TopicFilter) (nodeId : NodeId)
  | removeRoute (filter : TopicFilter) (nodeId : NodeId)
  | removeAllForNode (nodeId : NodeId)

def ClusterRouteTable.apply (table : ClusterRouteTable) : RouteOp → ClusterRouteTable
  | .addRoute filter nodeId => table.addRoute filter nodeId
  | .removeRoute filter nodeId => table.removeRoute filter nodeId
  | .removeAllForNode nodeId => table.removeAllForNode nodeId

/-- The abstract directory: the live routes. -/
abbrev LiveRoutes := Finset (TopicFilter × NodeId)

def LiveRoutes.apply (live : LiveRoutes) : RouteOp → LiveRoutes
  | .addRoute filter nodeId => insert (filter, nodeId) live
  | .removeRoute filter nodeId => live.erase (filter, nodeId)
  | .removeAllForNode nodeId => live.filter (·.2 ≠ nodeId)

/-- The trie has the nodes of the live routes at the paths of their filters. -/
structure ClusterRouteTable.Refines (table : ClusterRouteTable) (localId : NodeId)
    (live : LiveRoutes) : Prop where
  own : table.localId = localId
  routes : ∀ path, HashLast path → ∀ other, other ∈ nodesAt path table.root ↔
    ∃ filter : TopicFilter, filter.text.levels = path ∧ (filter, other) ∈ live

namespace ClusterRouteTable.Refines

variable {table : ClusterRouteTable} {localId : NodeId} {live : LiveRoutes}

theorem apply (hRefines : table.Refines localId live) (op : RouteOp) :
    (table.apply op).Refines localId (live.apply op) := by
  refine ⟨by cases op <;> exact hRefines.own, fun path hPath other => ?_⟩
  have hRoutes := hRefines.routes path hPath other
  cases op with
  | addRoute filter nodeId =>
    refine (edited_addRoute (Str.levels_ne_nil _) (hashLast_levels filter) path hPath).trans ?_
    grind [LiveRoutes.apply, levels_eq_iff]
  | removeRoute filter nodeId =>
    refine (edited_removeRoute (Str.levels_ne_nil _) (hashLast_levels filter) path hPath).trans ?_
    grind [LiveRoutes.apply, levels_eq_iff]
  | removeAllForNode nodeId =>
    refine mem_nodesAt_removeNode.trans ?_
    grind [LiveRoutes.apply]

theorem run (hRefines : table.Refines localId live) (history : List RouteOp) :
    (history.foldl ClusterRouteTable.apply table).Refines localId
      (history.foldl LiveRoutes.apply live) := by
  induction history generalizing table live with
  | nil => exact hRefines
  | cons op history ih => exact ih (hRefines.apply op)

end ClusterRouteTable.Refines

/-- After any history of the directory, a topic resolves to the nodes other than the local one
that have a live route whose filter matches. -/
theorem mem_resolveNodes_iff_live (localId : NodeId) (history : List RouteOp) (topic : Topic)
    (nodeId : NodeId) :
    nodeId ∈ (history.foldl ClusterRouteTable.apply (.new localId)).resolveNodes topic ↔
      nodeId ≠ localId ∧ ∃ filter, (filter, nodeId) ∈ history.foldl LiveRoutes.apply ∅ ∧
        filter.matches topic = true := by
  have hStart : (ClusterRouteTable.new localId).Refines localId ∅ :=
    ⟨rfl, by simp [ClusterRouteTable.new, nodesAt_empty]⟩
  have hRefines := hStart.run history
  rw [ClusterRouteTable.resolveNodes, NodeSet.mem_remove, hRefines.own,
    mem_matchRecursive topic.level_ne_wildcard]
  refine and_congr_right fun _ => ?_
  constructor
  · rintro ⟨path, hPath, hMatch, hMem⟩
    obtain ⟨filter, rfl, hLive⟩ := (hRefines.routes path hPath nodeId).mp hMem
    exact ⟨filter, hLive, hMatch⟩
  · rintro ⟨filter, hLive, hMatch⟩
    have hPath := hashLast_levels filter
    exact ⟨_, hPath, hMatch, (hRefines.routes _ hPath nodeId).mpr ⟨filter, rfl, hLive⟩⟩

end IndraMqtt.Cluster
