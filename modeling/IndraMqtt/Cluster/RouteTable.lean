import IndraMqtt.Lib.AssocList
import IndraMqtt.Protocol.Topic

/-! The cluster directory: which nodes have subscribers for which filters. Filters are stored
along their levels as in the subscription trie, with the nodes in place of the subscriptions. A
node whose last filter goes away leaves its path behind. -/
namespace IndraMqtt.Cluster

open Protocol

abbrev NodeId := Str

/-- The source's hash set of nodes, listed in some order. -/
abbrev NodeSet := List NodeId

namespace NodeSet

def insert (nodes : NodeSet) (nodeId : NodeId) : NodeSet :=
  if nodeId ∈ nodes then nodes else nodeId :: nodes

def remove (nodes : NodeSet) (nodeId : NodeId) : NodeSet := nodes.filter (· ≠ nodeId)

theorem mem_remove {nodes : NodeSet} {nodeId other : NodeId} :
    other ∈ remove nodes nodeId ↔ other ≠ nodeId ∧ other ∈ nodes := by
  rw [remove, List.mem_filter, decide_eq_true_eq, and_comm]

end NodeSet

structure RouteTrieNode where
  children : List (Str × RouteTrieNode)
  singleWildcard : Option RouteTrieNode
  multiWildcardNodes : NodeSet
  exactNodes : NodeSet

namespace RouteTrieNode

def empty : RouteTrieNode := ⟨[], none, [], []⟩

def child (node : RouteTrieNode) (level : Str) : Option RouteTrieNode :=
  if level = ['+'] then node.singleWildcard else AssocList.get node.children level

def setChild (node : RouteTrieNode) (level : Str) (next : RouteTrieNode) : RouteTrieNode :=
  if level = ['+'] then { node with singleWildcard := some next }
  else { node with children := AssocList.put node.children level next }

def addRoute (nodeId : NodeId) : List Str → RouteTrieNode → RouteTrieNode
  | [], node => node
  | level :: rest, node =>
    if level = ['#'] then
      { node with multiWildcardNodes := node.multiWildcardNodes.insert nodeId }
    else
      let child := (node.child level).getD empty
      if rest.isEmpty then
        node.setChild level { child with exactNodes := child.exactNodes.insert nodeId }
      else node.setChild level (addRoute nodeId rest child)

def removeRoute (nodeId : NodeId) : List Str → RouteTrieNode → RouteTrieNode
  | [], node => node
  | level :: rest, node =>
    if level = ['#'] then
      { node with multiWildcardNodes := node.multiWildcardNodes.remove nodeId }
    else
      match node.child level with
      | none => node
      | some child =>
        if rest.isEmpty then
          node.setChild level { child with exactNodes := child.exactNodes.remove nodeId }
        else node.setChild level (removeRoute nodeId rest child)

mutual

def removeNode (nodeId : NodeId) : RouteTrieNode → RouteTrieNode
  | ⟨children, single, multi, exact⟩ =>
    ⟨removeChildren nodeId children, removeSingle nodeId single, NodeSet.remove multi nodeId,
      NodeSet.remove exact nodeId⟩

def removeSingle (nodeId : NodeId) : Option RouteTrieNode → Option RouteTrieNode
  | none => none
  | some node => some (removeNode nodeId node)

def removeChildren (nodeId : NodeId) : List (Str × RouteTrieNode) → List (Str × RouteTrieNode)
  | [] => []
  | (level, node) :: rest => (level, removeNode nodeId node) :: removeChildren nodeId rest

end

def matchRecursive : List Str → RouteTrieNode → NodeSet
  | [], node => node.multiWildcardNodes ++ node.exactNodes
  | segment :: levels, node =>
    node.multiWildcardNodes ++
      ((AssocList.get node.children segment).elim [] (matchRecursive levels) ++
        node.singleWildcard.elim [] (matchRecursive levels))

theorem removeSingle_eq (nodeId : NodeId) (single : Option RouteTrieNode) :
    removeSingle nodeId single = single.map (removeNode nodeId) := by
  cases single with
  | none => rfl
  | some node => rfl

theorem get_removeChildren (nodeId : NodeId) (children : List (Str × RouteTrieNode)) (level : Str) :
    AssocList.get (removeChildren nodeId children) level =
      (AssocList.get children level).map (removeNode nodeId) := by
  induction children with
  | nil => rfl
  | cons entry children ih => grind [removeChildren, AssocList.get]

/-- A node that was removed is found nowhere, and the others are found where they were. -/
theorem mem_matchRecursive_removeNode {nodeId other : NodeId} (levels : List Str)
    (node : RouteTrieNode) : other ∈ matchRecursive levels (removeNode nodeId node) ↔
      other ≠ nodeId ∧ other ∈ matchRecursive levels node := by
  induction levels generalizing node with
  | nil =>
    obtain ⟨children, single, multi, exact⟩ := node
    simp [removeNode, matchRecursive, NodeSet.mem_remove, and_or_left]
  | cons segment levels ih =>
    obtain ⟨children, single, multi, exact⟩ := node
    have hElim : ∀ child : Option RouteTrieNode,
        other ∈ (child.map (removeNode nodeId)).elim [] (matchRecursive levels) ↔
          other ≠ nodeId ∧ other ∈ child.elim [] (matchRecursive levels) := by
      intro child
      cases child with
      | none => simp
      | some child => exact ih child
    simp only [removeNode, matchRecursive, removeSingle_eq, get_removeChildren, List.mem_append,
      NodeSet.mem_remove, hElim, and_or_left]

end RouteTrieNode

structure ClusterRouteTable where
  localId : NodeId
  root : RouteTrieNode

namespace ClusterRouteTable

def new (localId : NodeId) : ClusterRouteTable := ⟨localId, .empty⟩

def addRoute (table : ClusterRouteTable) (filter : TopicFilter) (nodeId : NodeId) :
    ClusterRouteTable :=
  { table with root := .addRoute nodeId filter.text.levels table.root }

def removeRoute (table : ClusterRouteTable) (filter : TopicFilter) (nodeId : NodeId) :
    ClusterRouteTable :=
  { table with root := .removeRoute nodeId filter.text.levels table.root }

def removeAllForNode (table : ClusterRouteTable) (nodeId : NodeId) : ClusterRouteTable :=
  { table with root := .removeNode nodeId table.root }

def resolveNodes (table : ClusterRouteTable) (topic : Topic) : NodeSet :=
  (RouteTrieNode.matchRecursive topic.text.levels table.root).remove table.localId

end ClusterRouteTable

end IndraMqtt.Cluster
