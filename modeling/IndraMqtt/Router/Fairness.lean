import IndraMqtt.Router.Strategies
import Mathlib.Data.List.Rotate
import Mathlib.Data.List.Sort

/-! What the order of the matched set leaves open in a shared group, and how evenly the
round-robin cursor serves its members. Members are sorted by client id alone, so the picked
client is determined, and its entry is when no client has two of them. -/
namespace IndraMqtt.Routing

open Protocol

variable {key : GroupKey} {matched matched' : SubscriptionSet}
  {members members' : List Subscription}

def clientIds (members : List Subscription) : List Str := members.map (·.clientId)

theorem groupMembers_perm (matched : SubscriptionSet) (key : GroupKey) :
    (groupMembers matched key).Perm (matched.filter (inGroup key)) :=
  List.mergeSort_perm _ _

theorem groupMembers_sorted (matched : SubscriptionSet) (key : GroupKey) :
    (groupMembers matched key).Pairwise (·.clientId ≤ ·.clientId) := by
  have hSorted := @List.pairwise_mergeSort _
    (fun first second : Subscription => decide (first.clientId ≤ second.clientId))
    (by simpa using fun _ _ _ => le_trans) (by simpa using fun _ _ => le_total _ _)
    (matched.filter (inGroup key))
  simp only [decide_eq_true_eq] at hSorted
  exact hSorted

section SameMembers

variable (hPerm : (matched'.filter (inGroup key)).Perm (matched.filter (inGroup key)))

include hPerm

theorem groupMembers_perm_of_perm : (groupMembers matched' key).Perm (groupMembers matched key) :=
  (groupMembers_perm matched' key).trans (hPerm.trans (groupMembers_perm matched key).symm)

theorem clientIds_groupMembers :
    clientIds (groupMembers matched' key) = clientIds (groupMembers matched key) := by
  apply ((groupMembers_perm_of_perm hPerm).map _).eq_of_pairwise' (r := (· ≤ ·))
  · exact (groupMembers_sorted matched' key).map _ fun _ _ h => h
  · exact (groupMembers_sorted matched key).map _ fun _ _ h => h

theorem groupMembers_eq (hNodup : (clientIds (matched.filter (inGroup key))).Nodup) :
    groupMembers matched' key = groupMembers matched key := by
  have hOne : (clientIds (groupMembers matched key)).Nodup :=
    ((groupMembers_perm matched key).map _).nodup_iff.mpr hNodup
  apply (groupMembers_perm_of_perm hPerm).eq_of_pairwise ?_ (groupMembers_sorted matched' key)
    (groupMembers_sorted matched key)
  intro first second hFirst hSecond hLe hGe
  exact List.inj_on_of_nodup_map hOne ((groupMembers_perm_of_perm hPerm).subset hFirst) hSecond
    (le_antisymm hLe hGe)

end SameMembers

/-! ### The picked client -/

/-- The state after a pick and the client that was picked. -/
def byClient (picked : Option (DeliveryState × Subscription)) : Option (DeliveryState × Str) :=
  picked.map fun result => (result.1, result.2.clientId)

section SameIds

variable (hIds : clientIds members' = clientIds members)

include hIds

variable (position : Nat)

theorem getElem_clientId :
    (members'[position]?).map (·.clientId) = (members[position]?).map (·.clientId) := by
  have hAt := congrArg (·[position]?) hIds
  simpa [clientIds] using hAt

theorem memberAt_clientId : (memberAt members' position).map (·.clientId) =
      (memberAt members position).map (·.clientId) := by
  have hLength : members'.length = members.length := by
    simpa [clientIds] using congrArg List.length hIds
  rw [memberAt, memberAt, hLength]
  exact getElem_clientId hIds _

theorem byClient_memberAt (next : Str → DeliveryState) :
    byClient ((memberAt members' position).map fun member => (next member.clientId, member)) =
      byClient ((memberAt members position).map fun member => (next member.clientId, member)) := by
  have hAt := congrArg (Option.map fun clientId => (next clientId, clientId))
    (memberAt_clientId hIds position)
  simpa [byClient, Function.comp_def] using hAt

theorem fingerprintMembers_eq : fingerprintMembers members' = fingerprintMembers members := by
  have hFold (list : List Subscription) : fingerprintMembers list =
      (clientIds list).foldl (fun hash id => fnvStep ((Bytes.asBytes id).foldl fnvStep hash) 0xff)
        fnvOffset := by
    rw [clientIds, List.foldl_map]
    rfl
  rw [hFold, hFold, hIds]

theorem pinnedMember_clientId (entry : Option StickyEntry) :
    (pinnedMember entry members').map (·.clientId) =
      (pinnedMember entry members).map (·.clientId) := by
  have hFind (list : List Subscription) (pinned : Str) :
      (list.find? (·.clientId == pinned)).map (·.clientId) =
        (clientIds list).find? (· == pinned) := by
    rw [clientIds, List.find?_map]
    rfl
  cases entry with
  | none => rfl
  | some entry =>
    simp only [pinnedMember, Option.bind_some, fingerprintMembers_eq hIds]
    split
    · rw [hFind, hFind, hIds]
    · rfl

theorem byClient_pickSticky (others : DeliveryState → DeliveryState) (state : DeliveryState)
    (key : GroupKey) : byClient (pickSticky others state key members') =
      byClient (pickSticky others state key members) := by
  have hFirst := pinnedMember_clientId hIds (AssocList.get (state.sticky (groupShard key.2)) key)
  have hAgain := pinnedMember_clientId hIds
    (AssocList.get ((others state).sticky (groupShard key.2)) key)
  have hAt := memberAt_clientId hIds (fnv1a64 key.2).toNat
  simp only [pickSticky, byClient, fingerprintMembers_eq hIds]
  generalize memberAt members' (fnv1a64 key.2).toNat = pick' at hAt ⊢
  generalize memberAt members (fnv1a64 key.2).toNat = pick at hAt ⊢
  cases pick' <;> cases pick <;> grind

/-- The strategies see the members as a list of client ids. -/
theorem Delivery.byClient_pick (delivery : Delivery) (others : Interference)
    (state : DeliveryState) (key : GroupKey) : byClient (delivery.pick others state key members') =
      byClient (delivery.pick others state key members) := by
  unfold Delivery.pick
  cases delivery.strategy key.2 with
  | roundRobin =>
    have hHead := getElem_clientId hIds 0
    simp only [pickRoundRobin]
    split
    · exact byClient_memberAt hIds _ fun _ => _
    · split
      · exact byClient_memberAt hIds _ fun _ => _
      · simp only [byClient, Option.map_map]
        grind
  | random => exact byClient_memberAt hIds _ fun _ => _
  | hashClientId => exact byClient_memberAt hIds _ fun _ => _
  | hashTopic => exact byClient_memberAt hIds _ fun _ => _
  | sticky => exact byClient_pickSticky hIds _ _ _

end SameIds

def lowEntry : Subscription := worker "a".toList
def highEntry : Subscription := { worker "a".toList with qos := .atLeastOnce }

def pool : GroupKey := ("default".toList, "pool".toList)

theorem groupMembers_twoEntries : groupMembers [lowEntry, highEntry] pool = [lowEntry, highEntry] ∧
      groupMembers [highEntry, lowEntry] pool = [highEntry, lowEntry] :=
  ⟨List.mergeSort_of_pairwise (by decide), List.mergeSort_of_pairwise (by decide)⟩

section Cycle

variable {α : Type} {places : List α}

/-- The places that a cursor passes from `start` on. -/
def passed (places : List α) (start n : Nat) : List (Option α) :=
  (List.range' start n).map fun position => places[position % places.length]?

theorem passed_of_le (start : Nat) {n : Nat} (hLe : n ≤ places.length) :
    passed places start n = ((places.rotate start).take n).map some := by
  apply List.ext_getElem?
  intro i
  by_cases hLt : i < n
  · have hPlace : i < places.length := hLt.trans_le hLe
    rw [List.getElem?_map, List.getElem?_take_of_lt hLt, List.getElem?_rotate hPlace]
    simp [passed, hLt, Nat.add_comm start, Nat.mod_lt _ (Nat.zero_lt_of_lt hPlace)]
  · rw [List.getElem?_eq_none, List.getElem?_eq_none] <;> simp [passed] <;> omega

theorem passed_round (start n : Nat) : passed places start (places.length + n) =
      (places.rotate start).map some ++ passed places start n := by
  have hRest : passed places (start + places.length) n = passed places start n := by
    simp only [passed, List.range'_eq_map_range, List.map_map]
    apply List.map_congr_left
    intro i _
    simp [Nat.add_right_comm]
  have hFirst := passed_of_le start (le_refl places.length)
  rw [List.take_of_length_le (by simp)] at hFirst
  rw [← hRest, ← hFirst, passed, passed, passed, ← List.map_append, List.range'_append_1]

theorem count_some [BEq α] [LawfulBEq α] (list : List α) (place : α) :
    (list.map some).count (some place) = list.count place := by
  simp [List.count, List.countP_map, Function.comp_def]

/-- A place that stands `k` times in the list is passed `k` times in each round, wherever the
cursor starts. -/
theorem passed_count [BEq α] [LawfulBEq α] (hSome : 0 < places.length) (start n : Nat) (place : α) :
    places.count place * (n / places.length) ≤ (passed places start n).count (some place) ∧
      (passed places start n).count (some place) ≤
        places.count place * ((n + places.length - 1) / places.length) := by
  have hRotate : (places.rotate start).count place = places.count place :=
    (places.rotate_perm start).count_eq place
  induction n using Nat.strong_induction_on with
  | h n ih =>
    obtain hLt | ⟨rest, rfl⟩ := (Nat.lt_or_ge n places.length).imp_right Nat.exists_eq_add_of_le
    · rw [Nat.div_eq_of_lt hLt, passed_of_le start hLt.le, count_some]
      refine ⟨Nat.zero_le _, ?_⟩
      obtain rfl | hPos := Nat.eq_zero_or_pos n
      · simp
      · have hOne : (n + places.length - 1) / places.length = 1 := by
          rw [Nat.div_eq_iff hSome]
          omega
        rw [hOne, Nat.mul_one, ← hRotate]
        exact (List.take_sublist _ _).count_le _
    · have hUp : (places.length + rest + places.length - 1) / places.length =
          (rest + places.length - 1) / places.length + 1 := by
        rw [← Nat.add_div_right _ hSome]
        congr 1
        omega
      obtain ⟨hLow, hHigh⟩ := ih rest (by omega)
      rw [passed_round, List.count_append, count_some, hRotate, Nat.add_div_left _ hSome, hUp,
        Nat.mul_succ, Nat.mul_succ]
      omega

end Cycle

/-! ### Runs of publishes -/

/-- One publish that matches the group: its strategy table, its matched set and the other
deliveries around it. -/
structure GroupPublish where
  delivery : Delivery
  matched : SubscriptionSet
  others : Interference

/-- The members that consecutive publishes of a group are given to. -/
def serve (key : GroupKey) (state : DeliveryState) :
    List GroupPublish → Option (DeliveryState × List Subscription)
  | [] => some (state, [])
  | publish :: rest =>
    (publish.delivery.pick publish.others state key (groupMembers publish.matched key)).bind
      fun first => (serve key first.1 rest).map fun last => (last.1, first.2 :: last.2)

def cursor (state : DeliveryState) (key : GroupKey) : Option UInt64 :=
  AssocList.get (state.cursors (groupShard key.2)) key

def position (state : DeliveryState) (key : GroupKey) : Nat := (cursor state key).elim 0 (·.toNat)

/-- The other deliveries neither evict nor move the cursor of the group. -/
structure KeepsCursor (key : GroupKey) (others : Interference) : Prop where
  before : ∀ state, cursor (others.before state) key = cursor state key
  between : ∀ state, cursor (others.between state) key = cursor state key

theorem cursor_putCursor (state : DeliveryState) (key : GroupKey) (value : UInt64) :
    cursor (state.putCursor key value) key = some value := by
  simp [cursor, DeliveryState.putCursor, AssocList.get_put]

theorem advanceCursor_spec (state : DeliveryState) (hSome : members ≠ []) (value : UInt64) :
    ∃ state' member, advanceCursor state key members value = some (state', member) ∧
      memberAt members value.toNat = some member ∧ member ∈ members ∧
      position state' key = (value.toNat + 1) % 2 ^ 64 := by
  obtain ⟨member, hMember, hMem⟩ := memberAt_mem hSome value.toNat
  refine ⟨_, member, by rw [advanceCursor, hMember, Option.map_some], hMember, hMem, ?_⟩
  rw [position, cursor_putCursor]
  simp [UInt64.toNat_add]

/-- A round-robin pick serves the place of the cursor and moves it by one. -/
theorem pickRoundRobin_spec {others : DeliveryState → DeliveryState} (state : DeliveryState)
    (hSome : members ≠ []) (hKept : ∀ state, cursor (others state) key = cursor state key) :
    ∃ state' member, pickRoundRobin others state key members = some (state', member) ∧
      memberAt members (position state key) = some member ∧ member ∈ members ∧
      position state' key = (position state key + 1) % 2 ^ 64 := by
  cases hCursor : cursor state key with
  | some value =>
    have hPosition : position state key = value.toNat := by rw [position, hCursor]; rfl
    rw [cursor] at hCursor
    rw [pickRoundRobin, hCursor, hPosition]
    exact advanceCursor_spec state hSome value
  | none =>
    have hPosition : position state key = 0 := by rw [position, hCursor]; rfl
    have hOthers := hKept state
    rw [hCursor, cursor] at hOthers
    rw [cursor] at hCursor
    simp only [pickRoundRobin, hCursor, hOthers, hPosition]
    obtain ⟨member, hMember, hMem⟩ := memberAt_mem hSome 0
    have hFirst : members[0]? = some member := by simpa [memberAt] using hMember
    refine ⟨_, member, by rw [hFirst, Option.map_some], hMember, hMem, ?_⟩
    rw [position, cursor_putCursor]
    rfl

section Serve

variable {publishes : List GroupPublish}
  (hStrategy : ∀ publish ∈ publishes, publish.delivery.strategy key.2 = .roundRobin)
  (hMembers : ∀ publish ∈ publishes,
    (publish.matched.filter (inGroup key)).Perm (matched.filter (inGroup key)))
  (hKept : ∀ publish ∈ publishes, KeepsCursor key publish.others)

include hStrategy hMembers hKept

/-- Consecutive publishes pass the places of the sorted members. The place of the cursor and
the number of publishes agree on the member also when the cursor wraps around in between,
if the number of members divides its range. -/
theorem serve_spec (hSome : matched.filter (inGroup key) ≠ []) (state : DeliveryState) {start : Nat}
    (hStart : publishes ≠ [] → position state key % (groupMembers matched key).length =
      start % (groupMembers matched key).length)
    (hRange : (groupMembers matched key).length ∣ 2 ^ 64 ∨
      position state key + publishes.length ≤ 2 ^ 64) :
    ∃ state' picks, serve key state publishes = some (state', picks) ∧
      (∀ member ∈ picks, member ∈ matched.filter (inGroup key)) ∧
      (clientIds picks).map some =
        passed (clientIds (groupMembers matched key)) start publishes.length := by
  induction publishes generalizing state start with
  | nil => exact ⟨state, [], rfl, by simp, rfl⟩
  | cons publish rest ih =>
    let size := (groupMembers matched key).length
    rw [List.forall_mem_cons] at hStrategy hMembers hKept
    replace hStart := hStart (List.cons_ne_nil _ _)
    have hIds := clientIds_groupMembers hMembers.1
    have hPermMembers := groupMembers_perm_of_perm hMembers.1
    have hNonempty : groupMembers publish.matched key ≠ [] := by
      intro hNil
      rw [hNil] at hPermMembers
      exact hSome ((groupMembers_perm matched key).symm.trans hPermMembers.symm).eq_nil
    obtain ⟨next, member, hPick, hAt, hMem, hNext⟩ :=
      pickRoundRobin_spec (publish.others.before state) hNonempty hKept.1.between
    have hBefore : position (publish.others.before state) key = position state key := by
      rw [position, hKept.1.before, position]
    rw [hBefore] at hAt hNext
    have hPicked : publish.delivery.pick publish.others state key
        (groupMembers publish.matched key) = some (next, member) := by
      simp only [Delivery.pick, hStrategy.1]
      exact hPick
    have hHead : (clientIds (groupMembers matched key))[start %
        (clientIds (groupMembers matched key)).length]? = some member.clientId := by
      have hAt := congrArg (Option.map (·.clientId)) hAt
      rw [memberAt_clientId hIds, memberAt, hStart] at hAt
      simpa [clientIds] using hAt
    rw [List.length_cons] at hRange
    have hRest : rest ≠ [] → position next key % size =
        (start + 1) % size := by
      intro hMore
      have hNoWrap : (position state key + 1) % 2 ^ 64 % size =
          (position state key + 1) % size := by
        obtain hDvd | hRoom := hRange
        · exact Nat.mod_mod_of_dvd _ hDvd
        · have hPos := List.length_pos_iff.mpr hMore
          rw [Nat.mod_eq_of_lt (a := position state key + 1) (b := 2 ^ 64) (by omega)]
      rw [hNext, hNoWrap, Nat.add_mod, hStart, ← Nat.add_mod]
    have hRoom : size ∣ 2 ^ 64 ∨
        position next key + rest.length ≤ 2 ^ 64 := by
      apply hRange.imp_right
      rw [hNext]
      cases rest with
      | nil =>
        intro _
        exact (Nat.mod_lt (position state key + 1) (Nat.two_pow_pos 64)).le
      | cons second rest => grind
    obtain ⟨state', picks, hServe, hPicks, hPassed⟩ :=
      ih hStrategy.2 hMembers.2 hKept.2 next hRest hRoom
    refine ⟨state', member :: picks, ?_, ?_, ?_⟩
    · rw [serve, hPicked, Option.bind_some, hServe, Option.map_some]
    · rw [List.forall_mem_cons]
      exact ⟨(groupMembers_perm matched key).subset (hPermMembers.subset hMem), hPicks⟩
    · rw [clientIds, List.map_cons, List.map_cons, passed, List.length_cons, List.range'_succ,
        List.map_cons, hHead]
      exact congrArg _ hPassed

end Serve

def poolPublish (matched : SubscriptionSet) : GroupPublish := ⟨workItem, matched, .none⟩

end IndraMqtt.Routing
