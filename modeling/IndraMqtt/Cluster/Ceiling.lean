import IndraMqtt.Cluster.Admission

/-! The licensed number of nodes. A `Join` is refused when the licence has not expired and the
members would be too many. The updates in gossip, in a `JoinAck` and in a departure make members
without asking, so that the bound only holds where none of them does. -/
namespace IndraMqtt.Cluster

open Protocol Runs Standing

variable {payload : LicensePayload}

def GossipItem.update? : GossipItem → Option MemberUpdate
  | memberUpdate update => some update
  | routeUpdate _ _ _ => none
  | licenceUpdate _ => none
  | clusterIdentity _ _ => none

def MemberState.update (state : MemberState) : MemberUpdate :=
  ⟨state.nodeId, state.status, state.incarnation, state.address⟩

/-- The updates that a message applies without asking the licence. -/
def SwimMessage.updates : SwimMessage → List MemberUpdate
  | ping _ _ gossip => gossip.filterMap GossipItem.update?
  | ack _ _ gossip => gossip.filterMap GossipItem.update?
  | pingReq _ _ _ gossip => gossip.filterMap GossipItem.update?
  | join _ _ gossip => gossip.filterMap GossipItem.update?
  | joinAck _ members gossip =>
    gossip.filterMap GossipItem.update? ++ members.map MemberState.update
  | leave sender incarnation => [⟨sender, .left, incarnation, none⟩]

def SwimMessage.isJoin : SwimMessage → Bool
  | join _ _ _ => true
  | _ => false

namespace SwimMembership

variable {crypto : Crypto} {node next : SwimMembership} {env : Env}

/-- An update that cannot make an inactive or unknown node active: it is about this node, about
a member that is active anyway, says that the node is gone, or is not newer than the record. -/
def Harmless (node : SwimMembership) (update : MemberUpdate) : Prop :=
  update.nodeId = node.localId ∨ update.nodeId ∈ node.getActiveMembers ∨
    update.status = .dead ∨ (update.status = .left ∧ update.incarnation ≠ 0) ∨
    ∃ recorded, node.view update.nodeId = some recorded ∧
      update.incarnation ≤ recorded.incarnation

/-- A state that a node reaches by harmless updates: no member is new, and no record is older. -/
structure Tamed (node next : SwimMembership) : Prop where
  localId : next.localId = node.localId
  active : ∀ nodeId ∈ next.getActiveMembers, nodeId ∈ node.getActiveMembers
  newer : ∀ nodeId recorded, node.view nodeId = some recorded →
    ∃ recorded', next.view nodeId = some recorded' ∧
      recorded.incarnation ≤ recorded'.incarnation

theorem Tamed.refl (node : SwimMembership) : Tamed node node :=
  ⟨rfl, fun _ hActive => hActive, fun _ recorded hView => ⟨recorded, hView, UInt64.le_refl _⟩⟩

/-- Fields other than the members do not matter. -/
theorem Tamed.congr (hTamed : Tamed node next) {other : SwimMembership}
    (hLocal : other.localId = next.localId) (hMembers : other.members = next.members) :
    Tamed node other := by
  obtain ⟨hName, hActive, hNewer⟩ := hTamed
  have hView (nodeId : NodeId) : other.view nodeId = next.view nodeId := by
    rw [view, view, hMembers]
  constructor <;> grind [mem_getActiveMembers]

theorem incarnation_le_merge (recorded heard : Standing) :
    recorded.incarnation ≤ (recorded.merge heard).incarnation := by
  grind [merge_of_lt, merge_of_eq, merge_of_gt]

variable {heard : Standing} {gossip : List GossipItem} {outcome : Outcome}

/-- An inactive record stays as it is until something newer is heard. -/
theorem merge_of_inactive {recorded : Standing} (hInactive : ¬recorded.status.isActive)
    (hOld : heard.incarnation ≤ recorded.incarnation) : recorded.merge heard = recorded := by
  obtain hLt | hEq | hGt := lt_or_eq_or_gt recorded heard
  · exact absurd hLt (UInt64.not_lt.mpr hOld)
  · rw [merge_of_eq hEq, if_neg]
    rintro ⟨hNotLeft, -, hWorse⟩
    revert hInactive hNotLeft hWorse
    cases recorded.status <;> cases heard.status <;> decide
  · exact merge_of_gt hGt

/-- A node that was just discovered is gone when it is heard to be, but not when it is heard to
have left at the incarnation of its discovery. -/
theorem initial_merge_of_gone
    (hGone : heard.status = .dead ∨ (heard.status = .left ∧ heard.incarnation ≠ 0)) :
    initial.merge heard = heard := by
  obtain hLt | hEq | hGt := lt_or_eq_or_gt initial heard
  · exact merge_of_lt hLt
  · obtain hDead | ⟨-, hPositive⟩ := hGone
    · rw [merge_of_eq hEq, hDead]
      exact if_pos (by decide)
    · exact absurd hEq hPositive
  · exact absurd hGt UInt64.not_lt_zero

theorem Tamed.not_active (hTamed : Tamed node next) {update : MemberUpdate}
    (hHarmless : node.Harmless update) (hOther : update.nodeId ≠ node.localId)
    (hInactive : update.nodeId ∉ node.getActiveMembers) :
    ¬(((next.view update.nodeId).getD .initial).merge update.standing).status.isActive := by
  have hRecord : ∀ s, next.view update.nodeId = some s → ¬s.status.isActive :=
    fun s hView hActive => hInactive
      (hTamed.active _ (mem_getActiveMembers.mpr ⟨s, hView, hActive⟩))
  have hGone (hHeard : update.status = .dead ∨ (update.status = .left ∧ update.incarnation ≠ 0)) :
      ¬(((next.view update.nodeId).getD .initial).merge update.standing).status.isActive := by
    have hUpdate : ¬update.standing.status.isActive := by
      obtain hDead | ⟨hLeft, -⟩ := hHeard <;> simp_all [MemberUpdate.standing, NodeStatus.isActive]
    have hFresh : initial.merge update.standing = _ := initial_merge_of_gone hHeard
    cases hView : next.view update.nodeId <;> grind [merge]
  obtain hLocal | hActive | hDead | hLeft | ⟨recorded, hView, hOld⟩ := hHarmless
  · exact absurd hLocal hOther
  · exact absurd hActive hInactive
  · exact hGone (Or.inl hDead)
  · exact hGone (Or.inr hLeft)
  · obtain ⟨s, hView', hNewer⟩ := hTamed.newer _ _ hView
    rw [hView', Option.getD_some,
      merge_of_inactive (hRecord s hView') (UInt64.le_trans hOld hNewer)]
    exact hRecord s hView'

theorem Tamed.applyMemberUpdate (hTamed : Tamed node next) {update : MemberUpdate}
    (hHarmless : node.Harmless update) : Tamed node (next.applyMemberUpdate env update) := by
  have hName := localId_applyMemberUpdate next env update
  by_cases hLocal : update.nodeId = next.localId
  · have hView := view_applyMemberUpdate_local next env hLocal
    obtain ⟨hName', hActive, hNewer⟩ := hTamed
    constructor <;> grind [mem_getActiveMembers]
  · have hView := view_applyMemberUpdate next env hLocal
    have hInactive := hTamed.not_active hHarmless (hTamed.localId ▸ hLocal)
    obtain ⟨hName', hActive, hNewer⟩ := hTamed
    constructor
    · grind
    · grind [mem_getActiveMembers]
    · intro nodeId recorded hRecorded
      obtain ⟨s, hNext, hNewer⟩ := hNewer nodeId recorded hRecorded
      have hMerged := UInt64.le_trans hNewer (incarnation_le_merge s update.standing)
      grind

theorem Tamed.applyGossipBatch
    (hHarmless : ∀ update ∈ gossip.filterMap GossipItem.update?, node.Harmless update)
    (hGossip : node.applyGossipBatch env gossip = some next) : Tamed node next := by
  refine applyGossipBatch_induction ?_ hGossip (.refl node)
  intro item hMem before after hTamed hItem
  obtain ⟨update, rfl, rfl⟩ | ⟨_, _, _, _, rfl⟩ := applyGossipItem_cases hItem
  · exact hTamed.applyMemberUpdate (hHarmless update (List.mem_filterMap.mpr ⟨_, hMem, rfl⟩))
  · exact hTamed.congr rfl rfl

theorem Tamed.applyMemberStates (hTamed : Tamed node next) {states : List MemberState}
    (hHarmless : ∀ update ∈ states.map MemberState.update, node.Harmless update) :
    Tamed node (next.applyMemberStates env states) := by
  induction states generalizing next with
  | nil => exact hTamed
  | cons state states ih =>
    rw [List.map_cons, List.forall_mem_cons] at hHarmless
    exact ih (hTamed.applyMemberUpdate hHarmless.1) hHarmless.2

/-! ### The licence -/

def licence (crypto : Crypto) (node : SwimMembership) : Option LicensePayload :=
  (ClusterLicense.tokenOf node.licenseKey).bind fun token =>
    (ClusterLicense.verified crypto node.trustedKeys token node.clusterIdentity).toOption

def Licensed (crypto : Crypto) (node : SwimMembership) (epoch : UInt64) (ceiling : Nat) : Prop :=
  ∃ payload ∈ node.licence crypto, payload.maxNodes = ceiling ∧
    (payload.expiresAt < epoch → epoch - payload.expiresAt ≤ payload.graceSecs)

instance (crypto : Crypto) (node : SwimMembership) (epoch : UInt64) (ceiling : Nat) :
    Decidable (node.Licensed crypto epoch ceiling) :=
  inferInstanceAs (Decidable (∃ payload ∈ node.licence crypto, payload.maxNodes = ceiling ∧
    (payload.expiresAt < epoch → epoch - payload.expiresAt ≤ payload.graceSecs)))

theorem evaluate_of_licence (hLicence : node.licence crypto = some payload) (currentNodes : Nat)
    (epoch : UInt64) :
    ClusterLicense.evaluate crypto node.trustedKeys node.licenseKey currentNodes epoch
      node.clusterIdentity = payload.status currentNodes epoch := by
  obtain ⟨token, hToken, hVerified⟩ := Option.bind_eq_some_iff.mp hLicence
  grind [ClusterLicense.evaluate, Except.toOption]

/-- A `Join` under a licence that has not expired is admitted within its ceiling only. -/
theorem length_lt_of_admitted (hLicence : node.licence crypto = some payload)
    (hUnexpired : env.epoch ≤ payload.expiresAt)
    (hAdmitted : node.joinAdmission crypto env = .ok ()) :
    node.getActiveMembers.length < payload.maxNodes := by
  rw [joinAdmission, evaluate_of_licence hLicence, LicensePayload.status,
    if_neg (UInt64.not_lt.mpr hUnexpired)] at hAdmitted
  by_contra hFull
  rw [if_pos (by omega)] at hAdmitted
  cases hAdmitted

theorem licence_applyMemberUpdate (update : MemberUpdate) :
    (node.applyMemberUpdate env update).licence crypto = node.licence crypto := by
  unfold SwimMembership.applyMemberUpdate
  split_ifs <;> rfl

/-! ### The bound -/

theorem length_le_of_subset {before : SwimMembership}
    (hSubset : ∀ nodeId ∈ node.getActiveMembers, nodeId ∈ before.getActiveMembers) :
    node.getActiveMembers.length ≤ before.getActiveMembers.length :=
  (nodup_getActiveMembers.subperm hSubset).length_le

theorem length_applyMemberUpdate_le (update : MemberUpdate) :
    (node.applyMemberUpdate env update).getActiveMembers.length ≤
      node.getActiveMembers.length + 1 := by
  have hSubset : (node.applyMemberUpdate env update).getActiveMembers ⊆
      update.nodeId :: node.getActiveMembers := by
    intro nodeId hActive
    by_cases hLocal : update.nodeId = node.localId
    · grind [mem_getActiveMembers, view_applyMemberUpdate_local]
    · grind [mem_getActiveMembers, view_applyMemberUpdate]
  exact (nodup_getActiveMembers.subperm hSubset).length_le

/-- Every message but a `Join` keeps to the members that were active. -/
theorem tamed_of_not_join {message : SwimMessage}
    (hHandled : node.handleMessage crypto env message = some outcome)
    (hNotJoin : message.isJoin = false)
    (hHarmless : ∀ update ∈ message.updates, node.Harmless update) : Tamed node outcome.state := by
  cases message with
  | ping seq sender gossip =>
    obtain ⟨heard, hGossip, rfl⟩ := Option.map_eq_some_iff.mp hHandled
    exact (Tamed.applyGossipBatch hHarmless hGossip).congr rfl rfl
  | ack seq sender gossip =>
    obtain ⟨heard, hGossip, rfl⟩ := Option.map_eq_some_iff.mp hHandled
    exact (Tamed.applyGossipBatch hHarmless hGossip).congr rfl rfl
  | pingReq seq sender target gossip =>
    obtain ⟨heard, hGossip, rfl⟩ := Option.map_eq_some_iff.mp hHandled
    exact Tamed.applyGossipBatch hHarmless hGossip
  | join sender address gossip => cases hNotJoin
  | joinAck sender members gossip =>
    obtain ⟨heard, hGossip, rfl⟩ := Option.map_eq_some_iff.mp hHandled
    obtain ⟨hItems, hMembers⟩ := List.forall_mem_append.mp hHarmless
    exact (Tamed.applyGossipBatch hItems hGossip).applyMemberStates hMembers
  | leave sender incarnation =>
    cases hHandled
    exact (Tamed.refl node).applyMemberUpdate (List.forall_mem_singleton.mp hHarmless)

/-- A `Join` under a licence that has not expired stays within its ceiling. -/
theorem length_le_of_join {sender : NodeId} {address : Option Str}
    (hHandled : node.handleMessage crypto env (.join sender address gossip) = some outcome)
    (hLicence : outcome.state.licence crypto = some payload)
    (hUnexpired : env.epoch ≤ payload.expiresAt)
    (hHarmless : ∀ update ∈ gossip.filterMap GossipItem.update?, node.Harmless update) :
    outcome.state.getActiveMembers.length ≤ max payload.maxNodes node.getActiveMembers.length := by
  obtain ⟨heard, hGossip, hOutcome⟩ := Option.map_eq_some_iff.mp hHandled
  have hHeard := length_le_of_subset (Tamed.applyGossipBatch hHarmless hGossip).active
  cases hAdmission : heard.joinAdmission crypto env with
  | error e =>
    rw [hAdmission] at hOutcome
    cases hOutcome
    exact le_max_of_le_right hHeard
  | ok _ =>
    rw [hAdmission] at hOutcome
    cases hOutcome
    have hSame : heard.licence crypto = some payload := by
      rw [← hLicence]
      exact (licence_applyMemberUpdate _).symm
    have hRoom := length_lt_of_admitted hSame hUnexpired hAdmission
    have hOne : (heard.admitSender env sender address).state.getActiveMembers.length ≤
        heard.getActiveMembers.length + 1 := length_applyMemberUpdate_le _
    exact le_max_of_le_left (Nat.le_trans hOne hRoom)

/-- While the licence has the same ceiling, is not expired whenever a node joins and no other
message makes a member, the active members stay within the ceiling, or within what they were. -/
theorem active_members_le_ceiling {ceiling : Nat} {node last : SwimMembership}
    {run : List (Transition SwimMembership (Env × SwimMessage) Outcome)}
    (hRun : Run (step crypto) node run last)
    (hLicensed : ∀ t ∈ run, t.after.Licensed crypto t.input.1.epoch ceiling)
    (hUnexpired : ∀ t ∈ run, t.input.2.isJoin → ∀ payload ∈ t.after.licence crypto,
      t.input.1.epoch ≤ payload.expiresAt)
    (hHarmless : ∀ t ∈ run, ∀ update ∈ t.input.2.updates, t.before.Harmless update) :
    last.getActiveMembers.length ≤ max ceiling node.getActiveMembers.length := by
  refine hRun.history (P := fun _ state =>
    state.getActiveMembers.length ≤ max ceiling node.getActiveMembers.length)
    (Nat.le_max_right _ _) ?_
  rintro front ⟨before, ⟨env, message⟩, outcome, after⟩ hMem hStep hBefore
  obtain ⟨outcome', hHandled, hResult⟩ := Option.map_eq_some_iff.mp hStep
  simp only [Prod.mk.injEq] at hResult
  obtain ⟨rfl, rfl⟩ := hResult
  cases hJoin : message.isJoin with
  | false =>
    have hTamed := tamed_of_not_join hHandled hJoin (hHarmless _ hMem)
    exact Nat.le_trans (length_le_of_subset hTamed.active) hBefore
  | true =>
    cases message with
    | join sender address gossip =>
      obtain ⟨payload, hLicence, rfl, -⟩ := hLicensed _ hMem
      have hBound := length_le_of_join hHandled hLicence (hUnexpired _ hMem rfl payload hLicence)
        (hHarmless _ hMem)
      exact Nat.le_trans hBound (max_le (Nat.le_max_left _ _) hBefore)
    | _ => cases hJoin

/-- A licence of two nodes for the cluster `A`, with a day of grace after the time 100. -/
def twoNodes : LicensePayload := ⟨['x'], 2, 100, [], ['A'], ['k'], 1⟩

def openCrypto : Crypto :=
  ⟨fun _ => some (List.replicate 64 0), fun _ => true, fun _ => .ok twoNodes, fun _ _ _ => true⟩

def licensed : SwimMembership :=
  { booted ['A'] with
    licenseKey := some (tokenWord ++ ['.', 'p', '.', 's'])
    trustedKeys := ⟨[(['k'], [])]⟩ }

/-- The second node joins and the third one is refused. -/
theorem third_node_refused :
    ∃ run last, Run (step openCrypto) licensed run last ∧
      run.map (·.input.2) = [.join ['B'] none [], .join ['C'] none []] ∧
      last.getActiveMembers.length ≤ max 2 licensed.getActiveMembers.length := by
  have hFacts : ∃ result ∈ exec (step openCrypto) licensed
      [(calm, .join ['B'] none []), (calm, .join ['C'] none [])],
      result.1.map (·.input.2) = [.join ['B'] none [], .join ['C'] none []] ∧
      ∀ t ∈ result.1, t.after.Licensed openCrypto t.input.1.epoch 2 ∧
        (∀ payload ∈ t.after.licence openCrypto, t.input.1.epoch ≤ payload.expiresAt) ∧
        t.input.2.updates = [] := by
    decide +kernel
  obtain ⟨⟨run, last⟩, hExec, hInputs, hFacts⟩ := hFacts
  refine ⟨run, last, Run.of_exec hExec, hInputs,
    active_members_le_ceiling (Run.of_exec hExec) (fun t hMem => (hFacts t hMem).1)
      (fun t hMem _ => (hFacts t hMem).2.1) ?_⟩
  intro t hMem update hUpdate
  rw [(hFacts t hMem).2.2] at hUpdate
  cases hUpdate

/-- Two members by gossip, two by a `JoinAck`, and two that join in the grace period: three active
members each time. -/
theorem three_nodes_on_two :
    licensed.getActiveMembers.length = 1 ∧
    (∃ run last,
      exec (step openCrypto) licensed
        [(calm, .ping 1 ['B'] [.memberUpdate ⟨['B'], .alive, 0, none⟩,
          .memberUpdate ⟨['C'], .alive, 0, none⟩])] = some (run, last) ∧
      (∀ t ∈ run, t.after.Licensed openCrypto t.input.1.epoch 2) ∧
      last.getActiveMembers.length = 3) ∧
    (∃ run last,
      exec (step openCrypto) licensed
        [(calm, .joinAck ['B'] [⟨['B'], .alive, 0, none, 0⟩, ⟨['C'], .alive, 0, none, 0⟩] [])] =
          some (run, last) ∧
      (∀ t ∈ run, t.after.Licensed openCrypto t.input.1.epoch 2) ∧
      last.getActiveMembers.length = 3) ∧
    (∃ run last,
      exec (step openCrypto) licensed
        [({ calm with epoch := 200 }, .join ['B'] none []),
          ({ calm with epoch := 200 }, .join ['C'] none [])] = some (run, last) ∧
      (∀ t ∈ run, t.after.Licensed openCrypto t.input.1.epoch 2) ∧
      last.getActiveMembers.length = 3) := by
  refine ⟨by decide, ⟨_, _, rfl, ?_, ?_⟩, ⟨_, _, rfl, ?_, ?_⟩, ⟨_, _, rfl, ?_, ?_⟩⟩
  all_goals decide +kernel

end SwimMembership

end IndraMqtt.Cluster
