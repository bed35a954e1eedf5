import IndraMqtt.Cluster.Merge
import IndraMqtt.Lib.Runs

/-! Who is an active member. A departure and a `Join` are merged like any other update, at the
incarnation that the message carries and at incarnation zero, so that they only count where the
merge takes them. The licence is asked for a `Join` alone, and only before it expires. -/
namespace IndraMqtt.Cluster

open Protocol Runs

variable {next : SwimMembership}

namespace ClusterRouteTable

/-- Some filter leads to a node. -/
def Routes (table : ClusterRouteTable) (nodeId : NodeId) : Prop :=
  ∃ levels, nodeId ∈ RouteTrieNode.matchRecursive levels table.root

theorem routes_removeAllForNode {table : ClusterRouteTable} {nodeId other : NodeId} :
    (table.removeAllForNode nodeId).Routes other ↔ other ≠ nodeId ∧ table.Routes other := by
  constructor
  · rintro ⟨levels, hMem⟩
    obtain ⟨hNe, hOld⟩ := (RouteTrieNode.mem_matchRecursive_removeNode levels table.root).mp hMem
    exact ⟨hNe, levels, hOld⟩
  · rintro ⟨hNe, levels, hMem⟩
    exact ⟨levels,
      (RouteTrieNode.mem_matchRecursive_removeNode levels table.root).mpr ⟨hNe, hMem⟩⟩

end ClusterRouteTable

namespace SwimMembership

variable {node : SwimMembership} {env : Env} {nodeId : NodeId}

/-! ### Active members -/

theorem mem_getActiveMembers :
    nodeId ∈ node.getActiveMembers ↔ ∃ s, node.view nodeId = some s ∧ s.status.isActive := by
  rw [getActiveMembers, List.mem_map]
  constructor
  · rintro ⟨record, hMem, rfl⟩
    simp_all [KeyedMap.mem_values_iff, MemberState.standing, view]
  · rintro ⟨s, hView, hActive⟩
    obtain ⟨record, hGet, rfl⟩ := Option.map_eq_some_iff.mp hView
    obtain rfl := KeyedMap.key_of_get? hGet
    exact ⟨record, List.mem_filter.mpr ⟨(KeyedMap.mem_values_iff _ _).mpr hGet, hActive⟩, rfl⟩

theorem nodup_getActiveMembers : node.getActiveMembers.Nodup :=
  node.members.nodup_values.sublist (List.filter_sublist.map _)

/-- A node whose record does not change stays what it was. -/
theorem mem_getActiveMembers_of_view_eq {node' : SwimMembership}
    (hView : node'.view nodeId = node.view nodeId) :
    nodeId ∈ node'.getActiveMembers ↔ nodeId ∈ node.getActiveMembers := by
  rw [mem_getActiveMembers, mem_getActiveMembers, hView]

def Routed (node : SwimMembership) (nodeId : NodeId) : Prop :=
  ∃ table, node.routeTable = some table ∧ table.Routes nodeId

/-- An update that is taken and says that its node is gone takes the node's routes. -/
theorem routed_updateRecord (update : MemberUpdate) : (node.updateRecord env update).Routed nodeId ↔
      node.Routed nodeId ∧
        ¬(nodeId = update.nodeId ∧
          ((node.view update.nodeId).getD .initial).shouldUpdate update.standing ∧
          (update.status = .dead ∨ update.status = .left)) := by
  rw [Routed, Routed, updateRecord, standing_recordFor]
  dsimp only
  split
  · next hGone =>
    simp only [Option.map_eq_some_iff]
    constructor
    · rintro ⟨_, ⟨table, hTable, rfl⟩, hRoutes⟩
      obtain ⟨hNe, hOld⟩ := ClusterRouteTable.routes_removeAllForNode.mp hRoutes
      exact ⟨⟨table, hTable, hOld⟩, fun hSame => hNe hSame.1⟩
    · rintro ⟨⟨table, hTable, hOld⟩, hOther⟩
      have hNe : nodeId ≠ update.nodeId := fun hSame => hOther ⟨hSame, hGone⟩
      exact ⟨_, ⟨table, hTable, rfl⟩,
        ClusterRouteTable.routes_removeAllForNode.mpr ⟨hNe, hOld⟩⟩
  · simp_all

theorem routeTable_applyMemberUpdate_local {update : MemberUpdate}
    (hLocal : update.nodeId = node.localId) :
    (node.applyMemberUpdate env update).routeTable = node.routeTable := by
  rw [applyMemberUpdate, if_pos hLocal]
  split <;> rfl

/-! ### Leaving and joining -/

/-- An update about this node itself, or one that does not supersede the record, changes no
record and no route. -/
theorem applyMemberUpdate_ignored (env : Env) (update : MemberUpdate)
    (hIgnored : update.nodeId = node.localId ∨
      ∃ recorded, node.view update.nodeId = some recorded ∧
        recorded.shouldUpdate update.standing = false) (nodeId : NodeId) :
    (node.applyMemberUpdate env update).view nodeId = node.view nodeId ∧
      ((node.applyMemberUpdate env update).Routed nodeId ↔ node.Routed nodeId) := by
  grind [view_applyMemberUpdate_local, Routed, routeTable_applyMemberUpdate_local,
    view_applyMemberUpdate, Standing.merge, applyMemberUpdate, routed_updateRecord]

section

variable {crypto : Crypto} {sender : NodeId} {incarnation : UInt64} {recorded : Standing}

theorem leave_above (hView : node.view sender = some recorded) (hOther : sender ≠ node.localId)
    (hAbove : recorded.incarnation < incarnation) :
    sender ∉ (node.applyMemberUpdate env ⟨sender, .left, incarnation, none⟩).getActiveMembers ∧
      ¬(node.applyMemberUpdate env ⟨sender, .left, incarnation, none⟩).Routed sender := by
  have hTakes : recorded.shouldUpdate ⟨.left, incarnation⟩ = true := by
    rw [Standing.shouldUpdate, if_pos hAbove]
  constructor
  · rw [mem_getActiveMembers, view_applyMemberUpdate _ _ hOther, if_pos rfl, hView,
      Option.getD_some, MemberUpdate.standing, Standing.merge, if_pos hTakes]
    rintro ⟨s, hRecorded, hActive⟩
    cases hRecorded
    cases hActive
  · rw [applyMemberUpdate, if_neg hOther, routed_updateRecord, hView]
    exact fun hRouted => hRouted.2 ⟨rfl, hTakes, Or.inr rfl⟩

theorem leave_iff (hView : node.view sender = some recorded)
    (hRecorded : recorded.incarnation ≤ incarnation) :
    (sender ∉ (node.applyMemberUpdate env ⟨sender, .left, incarnation, none⟩).getActiveMembers ∧
        ¬(node.applyMemberUpdate env ⟨sender, .left, incarnation, none⟩).Routed sender) ↔
      (sender ≠ node.localId ∧ recorded.incarnation < incarnation) ∨
        (sender ∉ node.getActiveMembers ∧ ¬node.Routed sender) := by
  by_cases hTaken : sender ≠ node.localId ∧ recorded.incarnation < incarnation
  · exact iff_of_true (leave_above hView hTaken.1 hTaken.2) (Or.inl hTaken)
  · have hIgnored : sender = node.localId ∨ ∃ recorded, node.view sender = some recorded ∧
        recorded.shouldUpdate ⟨.left, incarnation⟩ = false := by grind [Standing.shouldUpdate]
    obtain ⟨hView', hRouted⟩ :=
      applyMemberUpdate_ignored env ⟨sender, .left, incarnation, none⟩ hIgnored sender
    grind [mem_getActiveMembers_of_view_eq]

theorem join_iff {address : Option Str} :
    sender ∈ (node.applyMemberUpdate env ⟨sender, .alive, 0, address⟩).getActiveMembers ↔
      sender ∈ node.getActiveMembers ∨ (sender ≠ node.localId ∧ node.view sender = none) := by
  by_cases hNew : sender ≠ node.localId ∧ node.view sender = none
  · refine iff_of_true ?_ (Or.inr hNew)
    rw [mem_getActiveMembers, view_applyMemberUpdate _ _ hNew.1, if_pos rfl, hNew.2]
    exact ⟨.initial, rfl, rfl⟩
  · have hIgnored : sender = node.localId ∨ ∃ recorded, node.view sender = some recorded ∧
        recorded.shouldUpdate ⟨.alive, 0⟩ = false := by
      by_cases hLocal : sender = node.localId
      · exact Or.inl hLocal
      · simp_all [Option.ne_none_iff_exists', Standing.shouldUpdate]
    obtain ⟨hView', -⟩ :=
      applyMemberUpdate_ignored env ⟨sender, .alive, 0, address⟩ hIgnored sender
    rw [mem_getActiveMembers_of_view_eq hView']
    exact (or_iff_left hNew).symm

end

theorem applyGossipItem_cases {item : GossipItem}
    (hItem : node.applyGossipItem env item = some next) :
    (∃ update, item = .memberUpdate update ∧ next = node.applyMemberUpdate env update) ∨
      ∃ routeTable licenseKey clusterIdentity clusterTrialStartedAt,
        next = { node with routeTable, licenseKey, clusterIdentity, clusterTrialStartedAt } := by
  cases item with
  | memberUpdate update =>
    cases hItem
    exact Or.inl ⟨update, rfl, rfl⟩
  | routeUpdate nodeId filter isAdd =>
    right
    rw [applyGossipItem, applyRouteUpdate] at hItem
    split at hItem
    · cases hItem
      exact ⟨_, _, _, _, rfl⟩
    · split at hItem
      · cases hItem
      · cases hItem
        exact ⟨_, _, _, _, rfl⟩
      · cases hItem
        exact ⟨_, _, _, _, rfl⟩
  | licenceUpdate token =>
    right
    cases hItem
    split <;> exact ⟨_, _, _, _, rfl⟩
  | clusterIdentity identity trialStartedAt =>
    right
    cases hItem
    split <;> exact ⟨_, _, _, _, rfl⟩

theorem applyGossipBatch_induction {P : SwimMembership → Prop} {gossip : List GossipItem}
    (hStep : ∀ item ∈ gossip, ∀ before after, P before → before.applyGossipItem env item = some
      after → P after)
    (hGossip : node.applyGossipBatch env gossip = some next) (hStart : P node) : P next := by
  induction gossip generalizing node with
  | nil =>
    cases hGossip
    exact hStart
  | cons item gossip ih =>
    obtain ⟨hFirst, hRest⟩ := List.forall_mem_cons.mp hStep
    obtain ⟨middle, hItem, hTail⟩ := Option.bind_eq_some_iff.mp hGossip
    exact ih hRest hTail (hFirst node middle hStart hItem)

theorem localId_applyGossipBatch {gossip : List GossipItem}
    (hGossip : node.applyGossipBatch env gossip = some next) : next.localId = node.localId := by
  refine applyGossipBatch_induction (P := fun after => after.localId = node.localId) ?_ hGossip rfl
  grind [applyGossipItem_cases, localId_applyMemberUpdate]

/-- A departure at or above the recorded incarnation, and a `Join` that the licence admits. -/
theorem leave_and_join_iff (crypto : Crypto) (node : SwimMembership) (env : Env) (sender : NodeId) :
    (∀ incarnation recorded outcome, node.view sender = some recorded →
      recorded.incarnation ≤ incarnation →
      node.handleMessage crypto env (.leave sender incarnation) = some outcome →
      ((sender ∉ outcome.state.getActiveMembers ∧ ¬outcome.state.Routed sender) ↔
        (sender ≠ node.localId ∧ recorded.incarnation < incarnation) ∨
          (sender ∉ node.getActiveMembers ∧ ¬node.Routed sender))) ∧
    (∀ address gossip heard outcome, node.applyGossipBatch env gossip = some heard →
      heard.joinAdmission crypto env = .ok () →
      node.handleMessage crypto env (.join sender address gossip) = some outcome →
      (sender ∈ outcome.state.getActiveMembers ↔
        sender ∈ heard.getActiveMembers ∨
          (sender ≠ node.localId ∧ heard.view sender = none))) := by
  constructor
  · intro incarnation recorded outcome hView hRecorded hHandled
    cases hHandled
    exact leave_iff hView hRecorded
  · intro address gossip heard outcome hGossip hAdmitted hHandled
    rw [handleMessage, hGossip, Option.map_some, hAdmitted] at hHandled
    cases hHandled
    rw [← localId_applyGossipBatch hGossip]
    exact join_iff

def step (crypto : Crypto) (node : SwimMembership) (input : Env × SwimMessage) :
    Option (SwimMembership × Outcome) :=
  (node.handleMessage crypto input.1 input.2).map fun outcome => (outcome.state, outcome)

def lockedCrypto : Crypto :=
  ⟨fun _ => none, fun _ => false, fun _ => .error [], fun _ _ _ => false⟩

def booted (nodeId : NodeId) : SwimMembership :=
  { new nodeId none .default 0 with routeTable := some (.new nodeId) }

def joined : SwimMembership := (booted ['A']).applyMemberUpdate calm ⟨['B'], .alive, 0, none⟩

/-- `B` leaves at an incarnation above the recorded one, and a node that was unknown joins. -/
theorem leave_above_recorded :
    (∃ outcome, joined.handleMessage lockedCrypto calm (.leave ['B'] 1) = some outcome ∧
      ['B'] ∉ outcome.state.getActiveMembers ∧ ¬outcome.state.Routed ['B']) ∧
    (∃ outcome, joined.handleMessage lockedCrypto calm (.join ['C'] none []) = some outcome ∧
      ['C'] ∈ outcome.state.getActiveMembers) := by
  constructor
  · have hLeave := (leave_and_join_iff lockedCrypto joined calm ['B']).1 1 ⟨.alive, 0⟩ _
      (by decide) (by decide) rfl
    exact ⟨_, rfl, hLeave.mpr (Or.inl ⟨by decide, by decide⟩)⟩
  · have hJoin := (leave_and_join_iff lockedCrypto joined calm ['C']).2 none [] _ _ rfl
      (by decide) rfl
    exact ⟨_, rfl, hJoin.mpr (Or.inr ⟨by decide, by decide⟩)⟩

/-- `B` joins, announces a filter and leaves at its incarnation. `B` joins, is found dead and
joins again. -/
theorem leave_and_join_without_effect :
    (∃ run last,
      exec (step lockedCrypto) (booted ['A'])
        [(calm, .join ['B'] none []), (calm, .ping 1 ['B'] [.routeUpdate ['B'] ['x'] true]),
          (calm, .leave ['B'] 0)] = some (run, last) ∧
      ['B'] ∈ last.getActiveMembers ∧ last.Routed ['B']) ∧
    (∃ run last,
      exec (step lockedCrypto) (booted ['A'])
        [(calm, .join ['B'] none []),
          (calm, .ping 1 ['C'] [.memberUpdate ⟨['B'], .dead, 0, none⟩]),
          (calm, .join ['B'] none [])] = some (run, last) ∧
      (∀ t ∈ run, t.output.result = .ok ()) ∧ ['B'] ∉ last.getActiveMembers) := by
  constructor
  · exact ⟨_, _, rfl, by decide, _, rfl, [['x']], by decide⟩
  · exact ⟨_, _, rfl, by decide, by decide⟩

end SwimMembership

end IndraMqtt.Cluster
