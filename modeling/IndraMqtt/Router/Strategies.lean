import IndraMqtt.Lib.Bytes
import IndraMqtt.Router.SharedGroups

/-! The dispatch strategies of shared groups. A delivery sorts the matched members of each
group and picks one of them by a cursor, a seed, a hash or a pinned client. Cursors and pins
are kept in shards of bounded size, which other deliveries change at the same time. -/
namespace IndraMqtt.Routing

open Protocol Bytes

variable {members : List Subscription} {matched : SubscriptionSet}

inductive SharedStrategy where
  | roundRobin
  | random
  | hashClientId
  | hashTopic
  | sticky
  deriving DecidableEq

def fnvOffset : UInt64 := 0xcbf29ce484222325
def fnvPrime : UInt64 := 0x100000001b3

def fnvStep (hash : UInt64) (byte : UInt8) : UInt64 := (hash ^^^ byte.toUInt64) * fnvPrime

def fnv1a64 (text : Str) : UInt64 := (asBytes text).foldl fnvStep fnvOffset

/-- `fingerprint_members`, with a byte between two client ids. -/
def fingerprintMembers (members : List Subscription) : UInt64 :=
  members.foldl
    (fun hash member => fnvStep ((asBytes member.clientId).foldl fnvStep hash) 0xff) fnvOffset

def maxSharedGroups : Nat := 1024
def numGroupShards : Nat := 32
def maxSharedGroupsPerShard : Nat := maxSharedGroups / numGroupShards

def groupShard (group : Str) : Nat := (fnv1a64 group).toNat % numGroupShards

abbrev GroupKey := Str × Str

structure StickyEntry where
  pinned : Str
  fingerprint : UInt64
  deriving DecidableEq

/-- What deliveries keep from one message to the next. The entries of a shard are listed in
the map's order of iteration. -/
structure DeliveryState where
  cursors : Nat → List (GroupKey × UInt64)
  sticky : Nat → List (GroupKey × StickyEntry)
  randomSeed : UInt64

namespace DeliveryState

/-- `Router::new`, with the seed that was read from the clock. -/
def new (seed : UInt64) : DeliveryState := ⟨fun _ => [], fun _ => [], seed⟩

def putCursor (state : DeliveryState) (key : GroupKey) (cursor : UInt64) : DeliveryState :=
  let shard := groupShard key.2
  { state with
    cursors := Function.update state.cursors shard
      (AssocList.put (state.cursors shard) key cursor) }

def putSticky (state : DeliveryState) (key : GroupKey) (entry : StickyEntry) : DeliveryState :=
  let shard := groupShard key.2
  { state with
    sticky := Function.update state.sticky shard (AssocList.put (state.sticky shard) key entry) }

end DeliveryState

def makeRoom {V : Type} (entries : List (GroupKey × V)) : List (GroupKey × V) :=
  if maxSharedGroupsPerShard ≤ entries.length then
    match entries with
    | [] => []
    | (victim, _) :: _ => AssocList.del entries victim
  else entries

/-- The index expression at a position taken modulo the length. The value `none` is the panic
on no members. -/
def memberAt (members : List Subscription) (position : Nat) : Option Subscription :=
  members[position % members.length]?

def advanceCursor (state : DeliveryState) (key : GroupKey) (members : List Subscription)
    (cursor : UInt64) : Option (DeliveryState × Subscription) :=
  (memberAt members cursor.toNat).map fun member => (state.putCursor key (cursor + 1), member)

/-- `Router::pick_round_robin`. The write lock is taken after the read lock is given back, and
`others` is what happens to the state in between. -/
def pickRoundRobin (others : DeliveryState → DeliveryState) (state : DeliveryState)
    (key : GroupKey) (members : List Subscription) : Option (DeliveryState × Subscription) :=
  match AssocList.get (state.cursors (groupShard key.2)) key with
  | some cursor => advanceCursor state key members cursor
  | none =>
    let state := others state
    let shard := groupShard key.2
    match AssocList.get (state.cursors shard) key with
    | some cursor => advanceCursor state key members cursor
    | none =>
      members[0]?.map fun member =>
        let state :=
          { state with
            cursors := Function.update state.cursors shard (makeRoom (state.cursors shard)) }
        (state.putCursor key 1, member)

def pickRandom (state : DeliveryState) (members : List Subscription) :
    Option (DeliveryState × Subscription) :=
  let x := if state.randomSeed == 0 then 0x2545F4914F6CDD1D else state.randomSeed
  let x := x ^^^ (x >>> 12)
  let x := x ^^^ (x <<< 25)
  let x := x ^^^ (x >>> 27)
  let mixed := x * 0x2545F4914F6CDD1D
  (memberAt members (mixed >>> 32).toNat).map fun member =>
    ({ state with randomSeed := state.randomSeed + 0x9E3779B97F4A7C15 }, member)

def pickHash (members : List Subscription) (key : Str) : Option Subscription :=
  memberAt members (fnv1a64 key).toNat

def pinnedMember (entry : Option StickyEntry) (members : List Subscription) : Option Subscription :=
  entry.bind fun entry =>
    if entry.fingerprint = fingerprintMembers members then
      members.find? (·.clientId == entry.pinned)
    else none

/-- `Router::pick_sticky`, with `others` between its two locks. -/
def pickSticky (others : DeliveryState → DeliveryState) (state : DeliveryState)
    (key : GroupKey) (members : List Subscription) : Option (DeliveryState × Subscription) :=
  let shard := groupShard key.2
  match pinnedMember (AssocList.get (state.sticky shard) key) members with
  | some pinned => some (state, pinned)
  | none =>
    (memberAt members (fnv1a64 key.2).toNat).map fun pick =>
      let state := others state
      match pinnedMember (AssocList.get (state.sticky shard) key) members with
      | some pinned => (state, pinned)
      | none =>
        let entries := state.sticky shard
        let room := if (AssocList.get entries key).isNone then makeRoom entries else entries
        let state := { state with sticky := Function.update state.sticky shard room }
        (state.putSticky key ⟨pick.clientId, fingerprintMembers members⟩, pick)

/-- One call of the router with what it reads: the strategy table, the topic and the
publishing client. -/
structure Delivery where
  strategies : List (Str × SharedStrategy)
  topic : Topic
  publisher : Option Str

/-- What other deliveries do to the state before a group is served and while it is served. -/
structure Interference where
  before : DeliveryState → DeliveryState
  between : DeliveryState → DeliveryState

def Interference.none : Interference := ⟨id, id⟩

namespace Delivery

def strategy (delivery : Delivery) (group : Str) : SharedStrategy :=
  (AssocList.get delivery.strategies group).getD .roundRobin

def pick (delivery : Delivery) (others : Interference) (state : DeliveryState) (key : GroupKey)
    (members : List Subscription) : Option (DeliveryState × Subscription) :=
  let state := others.before state
  match delivery.strategy key.2 with
  | .roundRobin => pickRoundRobin others.between state key members
  | .random => pickRandom state members
  | .hashClientId =>
    (pickHash members (delivery.publisher.getD [])).map fun member => (state, member)
  | .hashTopic => (pickHash members delivery.topic.text).map fun member => (state, member)
  | .sticky => pickSticky others.between state key members

def pickAll (delivery : Delivery) (matched : SubscriptionSet) (state : DeliveryState) :
    List (GroupKey × Interference) → Option (DeliveryState × List Subscription)
  | [] => some (state, [])
  | (key, others) :: order =>
    (delivery.pick others state key (groupMembers matched key)).bind fun first =>
      (delivery.pickAll matched first.1 order).map fun rest => (rest.1, first.2 :: rest.2)

/-- `Router::balance_shared_groups` with the strategies and their state. -/
def balanceSharedGroups (delivery : Delivery) (state : DeliveryState)
    (order : List (GroupKey × Interference)) (matched : SubscriptionSet) :
    Option (DeliveryState × SubscriptionSet) :=
  if !matched.any (·.group.isSome) then some (state, matched)
  else
    (delivery.pickAll matched state order).map fun picked =>
      (picked.1, matched.filter (·.group.isNone) ++ picked.2)

end Delivery

/-! ### Every pick is a member -/

def PicksFrom (members : List Subscription) (picked : Option (DeliveryState × Subscription)) :
    Prop :=
  ∃ state member, picked = some (state, member) ∧ member ∈ members

theorem memberAt_mem (hSome : members ≠ []) (position : Nat) :
    ∃ member, memberAt members position = some member ∧ member ∈ members := by
  have hPos := List.length_pos_iff.mpr hSome
  have hLt : position % members.length < members.length := Nat.mod_lt _ hPos
  exact ⟨_, List.getElem?_eq_getElem hLt, List.getElem_mem hLt⟩

theorem picksFrom_memberAt (hSome : members ≠ []) (position : Nat)
    (next : Subscription → DeliveryState) :
    PicksFrom members ((memberAt members position).map fun member => (next member, member)) := by
  obtain ⟨member, hMember, hMem⟩ := memberAt_mem hSome position
  exact ⟨next member, member, by rw [hMember]; rfl, hMem⟩

variable (others : DeliveryState → DeliveryState) (delivery : Delivery) (state : DeliveryState)
  (key : GroupKey)

theorem picksFrom_roundRobin (hSome : members ≠ []) :
    PicksFrom members (pickRoundRobin others state key members) := by
  unfold pickRoundRobin
  split
  · exact picksFrom_memberAt hSome _ _
  · simp only
    split
    · exact picksFrom_memberAt hSome _ _
    · cases members with
      | nil => exact absurd rfl hSome
      | cons first rest => exact ⟨_, first, rfl, List.mem_cons_self⟩

theorem pinnedMember_mem {entry : Option StickyEntry} {pinned : Subscription}
    (hPinned : pinnedMember entry members = some pinned) : pinned ∈ members := by
  obtain ⟨entry, -, hFind⟩ := Option.bind_eq_some_iff.mp hPinned
  split at hFind
  · exact List.mem_of_find?_eq_some hFind
  · cases hFind

theorem picksFrom_sticky (hSome : members ≠ []) :
    PicksFrom members (pickSticky others state key members) := by
  unfold pickSticky
  simp only
  split
  · next pinned hPinned => exact ⟨state, pinned, rfl, pinnedMember_mem hPinned⟩
  · obtain ⟨member, hMember, hMem⟩ := memberAt_mem hSome (fnv1a64 key.2).toNat
    rw [hMember, Option.map_some]
    split
    · next pinned hPinned => exact ⟨_, pinned, rfl, pinnedMember_mem hPinned⟩
    · exact ⟨_, member, rfl, hMem⟩

theorem Delivery.picksFrom_pick (others : Interference) (state : DeliveryState) (key : GroupKey)
    (hSome : members ≠ []) : PicksFrom members (delivery.pick others state key members) := by
  unfold Delivery.pick
  simp only
  cases delivery.strategy key.2 with
  | roundRobin => exact picksFrom_roundRobin _ _ _ hSome
  | random => exact picksFrom_memberAt hSome _ _
  | hashClientId => exact picksFrom_memberAt hSome _ _
  | hashTopic => exact picksFrom_memberAt hSome _ _
  | sticky => exact picksFrom_sticky _ _ _ hSome

/-! ### The loop over the groups -/

variable {order : List (GroupKey × Interference)}

theorem Delivery.pickAll_spec (hNodup : (order.map Prod.fst).Nodup)
    (hOrder : ∀ key ∈ order.map Prod.fst, key ∈ sharedGroups matched) : ∃ state' chosen,
      delivery.pickAll matched state order =
          some (state', (order.map Prod.fst).filterMap chosen) ∧
        ∀ key ∈ order.map Prod.fst, ∃ member ∈ groupMembers matched key,
          chosen key = some member := by
  induction order generalizing state with
  | nil =>
    refine ⟨state, fun _ => none, rfl, ?_⟩
    intro key hKey
    cases hKey
  | cons entry order ih =>
    obtain ⟨key, others⟩ := entry
    rw [List.map_cons, List.nodup_cons] at hNodup
    rw [List.map_cons, List.forall_mem_cons] at hOrder
    obtain ⟨next, member, hPick, hMember⟩ :=
      delivery.picksFrom_pick others state key (groupMembers_ne_nil hOrder.1)
    obtain ⟨state', chosen, hRest, hChosen⟩ := ih next hNodup.2 hOrder.2
    -- The choice of the first group is added to the choices of the others.
    refine ⟨state', Function.update chosen key (some member), ?_, ?_⟩
    · grind [List.filterMap_congr, pickAll]
    · grind

/-- Whatever the strategies, their state and the other deliveries do, balancing returns, and
its result is that of some choice of a place in each group. -/
theorem Delivery.balance_refines (hOrder : (order.map Prod.fst).Perm (sharedGroups matched)) :
    ∃ state' result pick,
      delivery.balanceSharedGroups state order matched = some (state', result) ∧
        result.Perm (Routing.balanceSharedGroups pick matched) := by
  by_cases hPlain : (!matched.any (·.group.isSome)) = true
  · refine ⟨state, matched, fun _ _ => 0, if_pos hPlain, ?_⟩
    have hNone : sharedGroups matched = [] := by
      simp_all [List.eq_nil_iff_forall_not_mem, mem_sharedGroups, inGroup]
    rw [Routing.balanceSharedGroups, hNone, List.filter_eq_self.mpr (by simp_all),
      List.filterMap_nil, List.append_nil]
  · have hNodup : (order.map Prod.fst).Nodup := hOrder.nodup_iff.mpr (List.nodup_dedup _)
    obtain ⟨state', chosen, hPicks, hChosen⟩ :=
      delivery.pickAll_spec state hNodup fun key => hOrder.mem_iff.mp
    let pick (key : GroupKey) (members : List Subscription) : Nat :=
      (chosen key).elim 0 (members.idxOf ·)
    have hPick : ∀ key ∈ order.map Prod.fst, chosen key =
        (groupMembers matched key)[pick key (groupMembers matched key) %
          (groupMembers matched key).length]? := by grind [Nat.mod_eq_of_lt]
    refine ⟨state', matched.filter (·.group.isNone) ++ (order.map Prod.fst).filterMap chosen, pick,
      ?_, ?_⟩
    · rw [Delivery.balanceSharedGroups, if_neg hPlain, hPicks, Option.map_some]
    · apply List.Perm.append_left
      rw [List.filterMap_congr hPick]
      exact hOrder.filterMap _

/-- Balancing keeps the plain subscriptions and one matched member of each matched group, for
every strategy table, every state of the strategies, every order in which the groups are
served and whatever other deliveries do to the state meanwhile. -/
theorem Delivery.one_member_kept (delivery : Delivery) (state : DeliveryState)
    (matched : SubscriptionSet) (order : List (GroupKey × Interference))
    (hOrder : (order.map Prod.fst).Perm (sharedGroups matched)) :
    ∃ state' result, delivery.balanceSharedGroups state order matched = some (state', result) ∧
      (result.filter (·.group.isNone)).Perm (matched.filter (·.group.isNone)) ∧
      ∀ tenant group, (∃ sub ∈ matched, sub.tenant = tenant ∧ sub.group = some group) →
        ∃ member ∈ matched, result.filter (inGroup (tenant, group)) = [member] := by
  obtain ⟨state', result, pick, hResult, hPerm⟩ := delivery.balance_refines state hOrder
  refine ⟨state', result, hResult, ?_, ?_⟩
  · rw [← balanceSharedGroups_plain pick matched]
    exact hPerm.filter _
  · rintro tenant group ⟨sub, hSub, hTenant, hGroup⟩
    have hKey : (tenant, group) ∈ sharedGroups matched :=
      mem_sharedGroups.mpr ⟨sub, hSub, by simp [inGroup, hTenant, hGroup]⟩
    obtain ⟨member, hOne⟩ := balanceSharedGroups_group pick hKey
    grind [List.mem_singleton_self, List.perm_singleton, balanceSharedGroups_subset]

def worker (clientId : Str) : Subscription :=
  { clientId, connId := 7, qos := .atMostOnce, group := some "pool".toList,
    tenant := "default".toList, noLocal := false, retainAsPublished := true, retainHandling := 0,
    subscriptionId := 0 }

def workItem : Delivery := ⟨[], ⟨"work".toList, rfl⟩, none⟩

theorem pool_served :
    ∃ state result,
      workItem.balanceSharedGroups (.new 1) [(("default".toList, "pool".toList), .none)]
          [worker "b".toList, worker "a".toList] = some (state, result) ∧
        ∃ member ∈ [worker "b".toList, worker "a".toList],
          result.filter (inGroup ("default".toList, "pool".toList)) = [member] := by
  have hOrder : (List.map Prod.fst [(("default".toList, "pool".toList), Interference.none)]).Perm
      (sharedGroups [worker "b".toList, worker "a".toList]) := by decide
  obtain ⟨state, result, hResult, -, hGroups⟩ := workItem.one_member_kept (.new 1)
    [worker "b".toList, worker "a".toList] _ hOrder
  simp_all [worker]

end IndraMqtt.Routing
