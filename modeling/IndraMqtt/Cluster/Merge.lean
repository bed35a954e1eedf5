import IndraMqtt.Cluster.Swim

/-! What the gossip merge makes of the updates about one node. At one incarnation the statuses
are ordered, alive below suspect below dead, and a departure stands outside this order: it is
never taken at the recorded incarnation, and nothing is taken over it there. -/
namespace IndraMqtt.Cluster

open Standing

variable {updates : List MemberUpdate} {nodeId : NodeId}

namespace Standing

def initial : Standing := ⟨.alive, 0⟩

def merge (recorded heard : Standing) : Standing :=
  if recorded.shouldUpdate heard then heard else recorded

def rank : NodeStatus → Nat
  | .alive => 0
  | .suspect => 1
  | .dead => 2
  | .left => 0

variable {recorded heard : Standing}

theorem merge_of_lt (hLt : recorded.incarnation < heard.incarnation) :
    recorded.merge heard = heard := by
  rw [merge, shouldUpdate, if_pos hLt, if_pos rfl]

theorem merge_of_gt (hGt : heard.incarnation < recorded.incarnation) :
    recorded.merge heard = recorded := by
  rw [merge, shouldUpdate, if_neg (UInt64.lt_asymm hGt), if_pos hGt, if_neg Bool.false_ne_true]

/-- At the recorded incarnation the worse status stays, unless one of the two is a departure. -/
theorem merge_of_eq (hEq : heard.incarnation = recorded.incarnation) : recorded.merge heard =
      if recorded.status ≠ .left ∧ heard.status ≠ .left ∧
          rank recorded.status < rank heard.status
      then heard else recorded := by
  obtain ⟨status, incarnation⟩ := recorded
  obtain ⟨status', incarnation'⟩ := heard
  cases hEq
  rw [merge, shouldUpdate, if_neg (UInt64.lt_irrefl _), if_neg (UInt64.lt_irrefl _)]
  cases status <;> cases status' <;> rfl

theorem lt_or_eq_or_gt (recorded heard : Standing) :
    recorded.incarnation < heard.incarnation ∨ heard.incarnation = recorded.incarnation ∨
      heard.incarnation < recorded.incarnation := by
  simp only [UInt64.lt_iff_toNat_lt, ← UInt64.toNat_inj]
  omega

/-- A departure at the highest incarnation stays. -/
theorem foldl_merge_of_left (hLeft : recorded.status = .left)
    {heard : List Standing} (hTop : ∀ s ∈ heard, s.incarnation ≤ recorded.incarnation) :
    heard.foldl merge recorded = recorded := by
  induction heard with
  | nil => rfl
  | cons s heard ih =>
    have hStays : recorded.merge s = recorded := by
      obtain hLt | hEq | hGt := lt_or_eq_or_gt recorded s
      · grind
      · simp [merge_of_eq hEq, hLeft]
      · exact merge_of_gt hGt
    simp_all

/-- A node that has not left at the highest incarnation does not leave any more. -/
theorem foldl_merge_of_ne_left (hNotLeft : recorded.status ≠ .left)
    {heard : List Standing} (hTop : ∀ s ∈ heard, s.incarnation ≤ recorded.incarnation) :
    (heard.foldl merge recorded).status ≠ .left := by
  induction heard generalizing recorded with
  | nil => exact hNotLeft
  | cons s heard ih =>
    rw [List.foldl_cons]
    obtain hLt | hEq | hGt := lt_or_eq_or_gt recorded s
    · grind
    · rw [merge_of_eq hEq]
      grind
    · grind [merge_of_gt hGt]

end Standing

/-- What a record that started with the discovery of its node says about the updates that were
heard: none of them is newer, and among those at its incarnation only a departure can be worse
than it. -/
structure Settled (heard : List Standing) (recorded : Standing) : Prop where
  top : ∀ s ∈ heard, s.incarnation ≤ recorded.incarnation
  mem : recorded ∈ initial :: heard
  left : recorded.status = .left → recorded.incarnation ≠ 0
  highest : recorded.status ≠ .left → ∀ s ∈ heard, s.incarnation = recorded.incarnation →
    s.status ≠ .left → rank s.status ≤ rank recorded.status

theorem Settled.merge {heard : List Standing} {recorded : Standing}
    (hSettled : Settled heard recorded) (s : Standing) :
    Settled (heard ++ [s]) (recorded.merge s) := by
  obtain ⟨hTop, hMem, hLeft, hHighest⟩ := hSettled
  obtain hLt | hEq | hGt := lt_or_eq_or_gt recorded s
  · rw [merge_of_lt hLt]
    constructor <;> grind
  · rw [merge_of_eq hEq]
    constructor <;> grind
  · rw [merge_of_gt hGt]
    constructor <;> grind

theorem settled_foldl_merge (heard : List Standing) :
    Settled heard (heard.foldl merge .initial) := by
  induction heard using List.reverseRecOn with
  | nil => constructor <;> simp [initial]
  | append_singleton heard s ih =>
    rw [List.foldl_concat]
    exact ih.merge s

/-- Updates that hold a departure at their highest incarnation together with another status
there. The incarnation is not the one a node is discovered with, at which no departure is
taken. -/
def Contested (heard : List Standing) : Prop :=
  ∃ s ∈ heard, s.status = .left ∧ s.incarnation ≠ 0 ∧
    (∀ t ∈ heard, t.incarnation ≤ s.incarnation) ∧
      ∃ t ∈ heard, t.incarnation = s.incarnation ∧ t.status ≠ .left

instance (heard : List Standing) : Decidable (Contested heard) :=
  inferInstanceAs (Decidable (∃ s ∈ heard, s.status = .left ∧ s.incarnation ≠ 0 ∧
    (∀ t ∈ heard, t.incarnation ≤ s.incarnation) ∧
      ∃ t ∈ heard, t.incarnation = s.incarnation ∧ t.status ≠ .left))

/-- Only which updates there are counts. -/
theorem Contested.of_same {heard heard' : List Standing} (hSame : ∀ s, s ∈ heard ↔ s ∈ heard')
    (hContested : Contested heard) : Contested heard' := by
  obtain ⟨s, hMem, hLeft, hPositive, hTop, t, hOther, hRest⟩ := hContested
  exact ⟨s, (hSame s).mp hMem, hLeft, hPositive, fun u hAny => hTop u ((hSame u).mpr hAny), t,
    (hSame t).mp hOther, hRest⟩

namespace Settled

variable {heard heard' : List Standing} {recorded recorded' : Standing}

/-- A departure on one side only is a contest. -/
theorem contested (hSettled : Settled heard recorded) (hSettled' : Settled heard' recorded')
    (hSubset : ∀ s ∈ heard', s ∈ heard) (hSame : recorded'.incarnation = recorded.incarnation)
    (hLeft : recorded.status = .left) (hNotLeft : recorded'.status ≠ .left) : Contested heard := by
  have hPositive := hSettled.left hLeft
  have hMem := hSettled.mem
  have hMem' := hSettled'.mem
  refine ⟨recorded, ?_, hLeft, hPositive, hSettled.top, recorded', ?_, hSame, hNotLeft⟩
  all_goals grind [initial]

theorem unique (hSettled : Settled heard recorded) (hSettled' : Settled heard' recorded')
    (hHeard : ∀ s, s ∈ heard ↔ s ∈ heard') (hPeace : ¬Contested heard) : recorded = recorded' := by
  have hSame : recorded.incarnation = recorded'.incarnation := by grind [Settled, initial]
  have hLeft : recorded.status = .left ↔ recorded'.status = .left := by
    constructor
    · grind [contested]
    · intro hLeft
      by_contra hNotLeft
      have hContested :=
        hSettled'.contested hSettled (fun s => (hHeard s).mp) hSame hLeft hNotLeft
      exact hPeace (hContested.of_same fun s => (hHeard s).symm)
  have hRank : recorded.status ≠ .left →
      rank recorded.status = rank recorded'.status := by
    grind [Settled, initial, rank]
  obtain ⟨status, incarnation⟩ := recorded
  obtain ⟨status', incarnation'⟩ := recorded'
  cases status <;> cases status' <;> grind [rank]

end Settled

/-! ### The records of a node -/

def calm : Env := ⟨0, 0, fun _ => none⟩

namespace InternalMemberRecord

variable (record : InternalMemberRecord) (env : Env) (update : MemberUpdate)

@[simp] theorem nodeId_heard : (record.heard env update).state.nodeId = record.state.nodeId := by
  rw [heard]
  split <;> rfl

theorem standing_heard : (record.heard env update).state.standing =
    record.state.standing.merge update.standing := by
  rw [heard, merge]
  split <;> rfl

end InternalMemberRecord

namespace SwimMembership

variable (node : SwimMembership) (env : Env) (update : MemberUpdate)

def view (nodeId : NodeId) : Option Standing :=
  (node.members.get? nodeId).map fun record => record.state.standing

theorem nodeId_recordFor : (node.recordFor env update).state.nodeId = update.nodeId := by
  rw [recordFor]
  cases hGet : node.members.get? update.nodeId with
  | none => rfl
  | some record =>
    have hKey := KeyedMap.key_of_get? hGet
    exact hKey

theorem standing_recordFor :
    (node.recordFor env update).state.standing = (node.view update.nodeId).getD .initial := by
  rw [recordFor, view]
  cases node.members.get? update.nodeId with
  | none => rfl
  | some record => rfl

theorem view_updateRecord (nodeId : NodeId) : (node.updateRecord env update).view nodeId =
      if nodeId = update.nodeId then
        some (((node.view nodeId).getD .initial).merge update.standing)
      else node.view nodeId := by
  have hKey := ((node.recordFor env update).nodeId_heard env update).trans
    (node.nodeId_recordFor env update)
  rw [view, updateRecord, KeyedMap.get?_put, hKey]
  split
  · next hSame =>
    rw [Option.map_some, InternalMemberRecord.standing_heard, standing_recordFor, hSame]
  · rfl

theorem view_applyMemberUpdate_local {update : MemberUpdate} (hLocal : update.nodeId = node.localId)
    (nodeId : NodeId) : (node.applyMemberUpdate env update).view nodeId = node.view nodeId := by
  rw [applyMemberUpdate, if_pos hLocal]
  split <;> rfl

theorem view_applyMemberUpdate {update : MemberUpdate} (hOther : update.nodeId ≠ node.localId)
    (nodeId : NodeId) : (node.applyMemberUpdate env update).view nodeId =
      if nodeId = update.nodeId then
        some (((node.view nodeId).getD .initial).merge update.standing)
      else node.view nodeId := by
  rw [applyMemberUpdate, if_neg hOther, view_updateRecord]

@[simp] theorem localId_applyMemberUpdate :
    (node.applyMemberUpdate env update).localId = node.localId := by
  rw [applyMemberUpdate, updateRecord]
  split
  all_goals
    split
    · rfl
    · rfl

def applyUpdates (updates : List (Env × MemberUpdate)) : SwimMembership :=
  updates.foldl (fun node update => node.applyMemberUpdate update.1 update.2) node

def updatesAbout (nodeId : NodeId) (updates : List (Env × MemberUpdate)) : List MemberUpdate :=
  (updates.map Prod.snd).filter (·.nodeId = nodeId)

def hear (view : Option Standing) (update : MemberUpdate) : Option Standing :=
  some ((view.getD .initial).merge update.standing)

theorem view_applyUpdates (hOther : nodeId ≠ node.localId) (updates : List (Env × MemberUpdate)) :
    (node.applyUpdates updates).view nodeId =
      (updatesAbout nodeId updates).foldl hear (node.view nodeId) := by
  induction updates generalizing node with
  | nil => rfl
  | cons entry updates ih =>
    obtain ⟨env, update⟩ := entry
    rw [applyUpdates, List.foldl_cons, ← applyUpdates,
      ih _ (by rwa [localId_applyMemberUpdate]), updatesAbout, updatesAbout, List.map_cons]
    by_cases hAbout : update.nodeId = nodeId
    · rw [List.filter_cons_of_pos (by simpa using hAbout), List.foldl_cons,
        view_applyMemberUpdate _ _ (by rwa [hAbout]), if_pos hAbout.symm]
      rfl
    · rw [List.filter_cons_of_neg (by simpa using hAbout)]
      by_cases hLocal : update.nodeId = node.localId
      · rw [view_applyMemberUpdate_local _ _ hLocal]
      · rw [view_applyMemberUpdate _ _ hLocal, if_neg (Ne.symm hAbout)]

theorem foldl_hear_some (recorded : Standing) (updates : List MemberUpdate) :
    updates.foldl hear (some recorded) =
      some ((updates.map MemberUpdate.standing).foldl merge recorded) := by
  induction updates generalizing recorded with
  | nil => rfl
  | cons update updates ih =>
    rw [List.foldl_cons, List.map_cons, List.foldl_cons, hear, Option.getD_some, ih]

/-- The first update about an unknown node is merged into the record of its discovery. -/
theorem foldl_hear_none (hSome : updates ≠ []) : updates.foldl hear none =
      some ((updates.map MemberUpdate.standing).foldl merge .initial) := by
  cases updates with
  | nil => exact absurd rfl hSome
  | cons update updates => simp [hear, foldl_hear_some]

theorem updatesAbout_map (hAbout : ∀ update ∈ updates, update.nodeId = nodeId) :
    updatesAbout nodeId (updates.map fun update => (env, update)) = updates := by
  simp_all [updatesAbout]

theorem view_first (hOther : nodeId ≠ node.localId) (hUnknown : node.view nodeId = none)
    {update : MemberUpdate} (hAbout : ∀ other ∈ update :: updates, other.nodeId = nodeId)
    (hPositive : update.standing.incarnation ≠ 0) :
    (node.applyUpdates ((update :: updates).map fun other => (env, other))).view nodeId =
      some ((updates.map MemberUpdate.standing).foldl merge update.standing) := by
  have hTaken : initial.merge update.standing = update.standing :=
    merge_of_lt (UInt64.pos_iff_ne_zero.mpr hPositive)
  grind [view_applyUpdates, updatesAbout_map, foldl_hear_none]

/-- Whether updates about an unknown node settle on one record, whatever their order and their
repetitions, on every two nodes. Updates about other nodes may come in between. -/
theorem same_record_iff_not_contested {first second : SwimMembership} {nodeId : NodeId}
    (hFirst : nodeId ≠ first.localId) (hSecond : nodeId ≠ second.localId)
    (hUnknown : first.view nodeId = none) (hUnknown' : second.view nodeId = none)
    {updates : List MemberUpdate} (hAbout : ∀ update ∈ updates, update.nodeId = nodeId) :
    (∀ heard heard' : List (Env × MemberUpdate),
      (∀ update, update ∈ updatesAbout nodeId heard ↔ update ∈ updates) →
      (∀ update, update ∈ updatesAbout nodeId heard' ↔ update ∈ updates) →
      (first.applyUpdates heard).view nodeId = (second.applyUpdates heard').view nodeId) ↔
    ¬Contested (updates.map MemberUpdate.standing) := by
  constructor
  · -- A departure heard first stays, and a status heard first keeps every departure out.
    rintro hSame ⟨s, hMem, hLeft, hPositive, hTop, t, hMem', hLevel, hNotLeft⟩
    obtain ⟨departure, hDeparture, rfl⟩ := List.mem_map.mp hMem
    obtain ⟨other, hOther, rfl⟩ := List.mem_map.mp hMem'
    have hAgain {update : MemberUpdate} (hUpdate : update ∈ updates) :
        ∀ any ∈ update :: updates, any.nodeId = nodeId :=
      List.forall_mem_cons.mpr ⟨hAbout update hUpdate, hAbout⟩
    have hMembers {update : MemberUpdate} (hUpdate : update ∈ updates) (any : MemberUpdate) :
        any ∈ updatesAbout nodeId ((update :: updates).map fun other => (calm, other)) ↔
          any ∈ updates := by grind [updatesAbout_map]
    have hViews := hSame _ _ (hMembers hDeparture) (hMembers hOther)
    rw [view_first first calm hFirst hUnknown (hAgain hDeparture) hPositive,
      view_first second calm hSecond hUnknown' (hAgain hOther) (hLevel ▸ hPositive),
      foldl_merge_of_left hLeft hTop] at hViews
    apply foldl_merge_of_ne_left hNotLeft (hLevel ▸ hTop)
    rw [← Option.some.inj hViews, hLeft]
  · intro hPeace heard heard' hHeard hHeard'
    rw [view_applyUpdates _ hFirst, view_applyUpdates _ hSecond, hUnknown, hUnknown']
    generalize updatesAbout nodeId heard = list at hHeard
    generalize updatesAbout nodeId heard' = list' at hHeard'
    have hStandings {some : List MemberUpdate} (hSome : ∀ update, update ∈ some ↔ update ∈ updates)
        (s : Standing) :
        s ∈ some.map MemberUpdate.standing ↔ s ∈ updates.map MemberUpdate.standing := by
      simp [hSome]
    by_cases hNil : updates = []
    · have hEmpty {some : List MemberUpdate}
          (hSome : ∀ update, update ∈ some ↔ update ∈ updates) : some = [] :=
        List.eq_nil_iff_forall_not_mem.mpr fun update hMem =>
          List.not_mem_nil (hNil ▸ (hSome update).mp hMem)
      rw [hEmpty hHeard, hEmpty hHeard']
    · obtain ⟨update, hUpdate⟩ := List.exists_mem_of_ne_nil updates hNil
      rw [foldl_hear_none (List.ne_nil_of_mem ((hHeard update).mpr hUpdate)),
        foldl_hear_none (List.ne_nil_of_mem ((hHeard' update).mpr hUpdate))]
      congr 1
      refine (settled_foldl_merge _).unique (settled_foldl_merge _) ?_ ?_
      · intro s
        exact (hStandings hHeard s).trans (hStandings hHeard' s).symm
      · exact fun hContested => hPeace (hContested.of_same (hStandings hHeard))

/-- A node that left at its first incarnation and came back at a later one, where it is
suspected. -/
theorem same_record_of_returned :
    ¬Contested [⟨.left, 1⟩, ⟨.alive, 2⟩, ⟨.suspect, 2⟩] ∧
      ∀ heard heard' : List (Env × MemberUpdate),
        (∀ update, update ∈ updatesAbout ['C'] heard ↔
          update ∈ [⟨['C'], .left, 1, none⟩, ⟨['C'], .alive, 2, none⟩,
            ⟨['C'], .suspect, 2, none⟩]) →
        (∀ update, update ∈ updatesAbout ['C'] heard' ↔
          update ∈ [⟨['C'], .left, 1, none⟩, ⟨['C'], .alive, 2, none⟩,
            ⟨['C'], .suspect, 2, none⟩]) →
        ((new ['A'] none .default 0).applyUpdates heard).view ['C'] =
          ((new ['B'] none .default 0).applyUpdates heard').view ['C'] :=
  ⟨by decide,
    (same_record_iff_not_contested (by decide) (by decide) (by decide) (by decide)
      (by decide)).mpr (by decide)⟩

/-- One node hears that `C` left before it hears that `C` is alive at the same incarnation, the
other one the other way round. -/
theorem departure_heard_first_or_last :
    ((new ['A'] none .default 0).applyUpdates
        [(calm, ⟨['C'], .left, 1, none⟩), (calm, ⟨['C'], .alive, 1, none⟩)]).view ['C'] =
      some ⟨.left, 1⟩ ∧
    ((new ['B'] none .default 0).applyUpdates
        [(calm, ⟨['C'], .alive, 1, none⟩), (calm, ⟨['C'], .left, 1, none⟩)]).view ['C'] =
      some ⟨.alive, 1⟩ := by
  decide

theorem hear_foldl_of_mem (view : Option Standing) {update : MemberUpdate}
    (hMem : update ∈ updates) :
    hear (updates.foldl hear view) update = updates.foldl hear view := by
  induction updates using List.reverseRecOn with
  | nil => simp at hMem
  | append_singleton updates last ih =>
    rw [List.foldl_concat]
    grind [hear, merge, shouldUpdate]

/-- Updates that come again, late, in another order and however often, change no record. -/
theorem heard_again (hOther : nodeId ≠ node.localId) (updates : List (Env × MemberUpdate))
    {again : List (Env × MemberUpdate)} (hAgain : again.map Prod.snd ⊆ updates.map Prod.snd) :
    (node.applyUpdates (updates ++ again)).view nodeId = (node.applyUpdates updates).view nodeId := by
  have hKnown : updatesAbout nodeId again ⊆ updatesAbout nodeId updates :=
    List.filter_subset _ hAgain
  simp only [view_applyUpdates _ hOther, updatesAbout, List.map_append, List.filter_append,
    List.foldl_append] at hKnown ⊢
  generalize List.filter _ (again.map Prod.snd) = late at hKnown
  induction late with
  | nil => rfl
  | cons update late ih =>
    rw [List.cons_subset] at hKnown
    rw [List.foldl_cons, hear_foldl_of_mem _ hKnown.1, ih hKnown.2]

theorem departure_heard_again :
    ((new ['A'] none .default 0).applyUpdates ([(calm, ⟨['C'], .left, 1, none⟩),
      (calm, ⟨['C'], .alive, 2, none⟩)] ++ [(calm, ⟨['C'], .left, 1, none⟩)])).view ['C'] =
      some ⟨.alive, 2⟩ :=
  (heard_again _ (by decide) _ (by decide)).trans (by decide)

/-- A node stands above all that it has heard against itself. -/
theorem rumours_refuted (updates : List (Env × MemberUpdate))
    (hRoom : ∀ heard ∈ updates, heard.2.incarnation ≠ -1) :
    (node.applyUpdates updates).localId = node.localId ∧
      ∀ heard ∈ updates, heard.2.nodeId = node.localId →
        heard.2.status = .suspect ∨ heard.2.status = .dead →
        heard.2.incarnation < (node.applyUpdates updates).incarnation := by
  induction updates using List.reverseRecOn with
  | nil => simp [applyUpdates]
  | append_singleton updates last ih =>
    rw [applyUpdates, List.foldl_concat, ← applyUpdates, localId_applyMemberUpdate]
    rw [List.forall_mem_append] at hRoom ⊢
    grind [applyMemberUpdate, updateRecord, broadcastGossip]

theorem suspicion_refuted :
    1 < ((new ['A'] none .default 0).applyUpdates [(calm, ⟨['A'], .suspect, 1, none⟩)]).incarnation :=
  (rumours_refuted _ _ (by decide)).2 (calm, ⟨['A'], .suspect, 1, none⟩) (by simp) rfl (.inl rfl)

end SwimMembership

end IndraMqtt.Cluster
