import Mathlib.Data.Char
import Mathlib.Data.List.Dedup
import Mathlib.Data.List.Lex
import IndraMqtt.Router.Trie

/-! Shared groups. A match that contains several members of one group is reduced to one of
them, and groups of two tenants are apart even when their names agree. -/
namespace IndraMqtt.Routing

open Protocol

variable {key : Str × Str} {matched : SubscriptionSet}

def sharedGroups (matched : SubscriptionSet) : List (Str × Str) :=
  (matched.filterMap fun sub => sub.group.map fun group => (sub.tenant, group)).dedup

/-- The members of a group in the order of their client ids. -/
def groupMembers (matched : SubscriptionSet) (group : Str × Str) : List Subscription :=
  (matched.filter fun sub => sub.tenant == group.1 && sub.group == some group.2).mergeSort
    fun first second => decide (first.clientId ≤ second.clientId)

/-- `Router::balance_shared_groups`. The strategy of a group computes the place of its member
from a cursor, a seed, a hash or a pinned client. -/
def balanceSharedGroups (pick : Str × Str → List Subscription → Nat) (matched : SubscriptionSet) :
    SubscriptionSet :=
  matched.filter (·.group.isNone) ++
    (sharedGroups matched).filterMap fun group =>
      let members := groupMembers matched group
      members[pick group members % members.length]?

theorem groupMembers_subset (matched : SubscriptionSet) (group : Str × Str) :
    groupMembers matched group ⊆ matched := by
  grind [groupMembers, List.mem_mergeSort]

def inGroup (key : Str × Str) (sub : Subscription) : Bool :=
  sub.tenant == key.1 && sub.group == some key.2

theorem mem_groupMembers {sub : Subscription} :
    sub ∈ groupMembers matched key ↔ sub ∈ matched ∧ inGroup key sub = true := by
  rw [groupMembers, List.mem_mergeSort, List.mem_filter]
  rfl

theorem mem_sharedGroups :
    key ∈ sharedGroups matched ↔ ∃ sub ∈ matched, inGroup key sub = true := by
  grind [sharedGroups, List.mem_dedup, Option.map_eq_some_iff, inGroup]

theorem groupMembers_ne_nil (hKey : key ∈ sharedGroups matched) :
    groupMembers matched key ≠ [] := by
  obtain ⟨sub, hMem, hIn⟩ := mem_sharedGroups.mp hKey
  exact List.ne_nil_of_mem (mem_groupMembers.mpr ⟨hMem, hIn⟩)

theorem filter_one_each {keys : List (Str × Str)} {chosen : Str × Str → Option Subscription}
    (hKeys : keys.Nodup)
    (hChosen : ∀ key ∈ keys, ∃ member, chosen key = some member ∧ inGroup key member = true)
    (hKey : key ∈ keys) : ∃ member, chosen key = some member ∧
      (keys.filterMap chosen).filter (inGroup key) = [member] := by
  induction keys with
  | nil => cases hKey
  | cons first keys ih =>
    rw [List.nodup_cons] at hKeys
    rw [List.forall_mem_cons] at hChosen
    grind [List.filter_eq_nil_iff, inGroup]

variable (pick : Str × Str → List Subscription → Nat)

theorem picked_inGroup (hKey : key ∈ sharedGroups matched) :
    let members := groupMembers matched key
    ∃ member, members[pick key members % members.length]? = some member ∧
      inGroup key member = true := by
  intro members
  have hPos : 0 < members.length := List.length_pos_iff.mpr (groupMembers_ne_nil hKey)
  have hLt : pick key members % members.length < members.length := Nat.mod_lt _ hPos
  exact ⟨_, List.getElem?_eq_getElem hLt, (mem_groupMembers.mp (List.getElem_mem hLt)).2⟩

theorem balanceSharedGroups_plain (matched : SubscriptionSet) :
    (balanceSharedGroups pick matched).filter (·.group.isNone) =
      matched.filter (·.group.isNone) := by
  have hPicks : ∀ sub ∈ (sharedGroups matched).filterMap fun group =>
      let members := groupMembers matched group
      members[pick group members % members.length]?, ¬sub.group.isNone = true := by
    intro sub hSub hPlain
    obtain ⟨key, hKey, hPick⟩ := List.mem_filterMap.mp hSub
    obtain ⟨member, hMember, hIn⟩ := picked_inGroup pick hKey
    grind [inGroup]
  grind [balanceSharedGroups, List.filter_eq_nil_iff, List.filter_filter]

theorem balanceSharedGroups_group (hKey : key ∈ sharedGroups matched) :
    ∃ member, (balanceSharedGroups pick matched).filter (inGroup key) = [member] := by
  obtain ⟨member, -, hOne⟩ := filter_one_each (List.nodup_dedup _)
    (fun key hKey => picked_inGroup pick hKey) hKey
  refine ⟨member, ?_⟩
  have hPlain : ∀ sub ∈ matched.filter (·.group.isNone), ¬inGroup key sub = true := by
    simp_all [inGroup]
  rw [balanceSharedGroups, List.filter_append, List.filter_eq_nil_iff.mpr hPlain, List.nil_append]
  exact hOne

theorem balanceSharedGroups_subset (matched : SubscriptionSet) :
    balanceSharedGroups pick matched ⊆ matched := by
  intro sub hMem
  obtain hPlain | hPicked := List.mem_append.mp hMem
  · exact (List.mem_filter.mp hPlain).1
  · grind [groupMembers_subset]

end IndraMqtt.Routing
