import IndraMqtt.Router.TrieEntries
import Mathlib.Data.Finset.Card

/-! The router against a flat set of live entries. The abstract router keeps
one entry for each filter, client and tenant and scans all of them at every
publication; the trie is shown to hold the same entries and to collect the same
subscriptions after every history of subscribes and unsubscribes. -/
namespace IndraMqtt.Routing

open Protocol LevelPattern TrieNode

variable {live : Live} {router : Router}

/-- Some filter path of the trie matches the topic and holds the entry. -/
def Reaches (topic : List Str) (node : TrieNode) (sub : Subscription) : Prop :=
  ∃ path, HashLast path ∧ Matches (path.map seg) topic ∧ sub ∈ subsAt path node

theorem reaches_nil_iff (node : TrieNode) (sub : Subscription) :
    Reaches [] node sub ↔ sub ∈ node.multiWildcardSubs ∨ sub ∈ node.exactSubs := by
  constructor
  · intro h
    obtain ⟨path, hPath, hMatch, hSub⟩ := h
    cases path with
    | nil => exact Or.inr hSub
    | cons level rest =>
      by_cases hHash : level = ['#']
      · rw [hHash, subsAt_hash] at hSub
        exact Or.inl hSub
      · simp_all [matches_cons_iff]
  · intro h
    rcases h with hSub | hSub
    · exact ⟨[['#']], ⟨fun _ => rfl, trivial⟩, by simp, by simpa [subsAt_hash] using hSub⟩
    · exact ⟨[], trivial, by simp, hSub⟩

/-- One step of the walk: the entries of a final `#` here, or those reached
through the child of the segment or the child of `+`. -/
theorem reaches_cons_iff (head : Str) (tail : List Str) (node : TrieNode) (sub : Subscription)
    (hPlus : head ≠ ['+']) (hHash : head ≠ ['#']) :
    Reaches (head :: tail) node sub ↔ sub ∈ node.multiWildcardSubs ∨
      (∃ child, AssocList.get node.children head = some child ∧ Reaches tail child sub) ∨
      ∃ child, node.singleWildcard = some child ∧ Reaches tail child sub := by
  have hFixed : node.child head = AssocList.get node.children head := by simp [child, hPlus]
  have hAny : node.child ['+'] = node.singleWildcard := by simp [child]
  constructor
  · intro h
    obtain ⟨path, hPath, hMatch, hSub⟩ := h
    cases path with
    | nil => cases (matches_nil_iff.mp hMatch)
    | cons level rest =>
      by_cases hLevel : level = ['#']
      · rw [hLevel, subsAt_hash] at hSub
        exact Or.inl hSub
      · rw [List.map_cons, matches_cons_iff (by simpa using hLevel)] at hMatch
        obtain ⟨x, ys, hTopic, hFit, hTail⟩ := hMatch
        simp only [List.cons.injEq] at hTopic
        obtain ⟨rfl, rfl⟩ := hTopic
        cases hChild : node.child level with
        | none => simp_all [subsAt_cons_of_none]
        | some next =>
          rw [subsAt_cons_of_some _ _ _ _ hLevel hChild] at hSub
          have hNext : Reaches tail next sub := ⟨rest, hPath.tail, hTail, hSub⟩
          right
          by_cases hWild : level = ['+']
          · simp_all
          · rw [seg_of_ne level hLevel hWild] at hFit
            have hHead : head = level := hFit
            grind
  · intro h
    rcases h with hSub | ⟨next, hChild, path, hPath, hMatch, hSub⟩ |
      ⟨next, hChild, path, hPath, hMatch, hSub⟩
    · exact ⟨[['#']], ⟨fun _ => rfl, trivial⟩, by simp, by simpa [subsAt_hash] using hSub⟩
    · refine ⟨head :: path, ⟨?_, hPath⟩, ?_, ?_⟩
      · intro hRest
        exact absurd ((seg_eq_rest_iff head).mp hRest) hHash
      · rw [List.map_cons, seg_of_ne head hHash hPlus]
        exact ⟨rfl, hMatch⟩
      · rwa [subsAt_cons_of_some _ _ _ _ hHash (hFixed.trans hChild)]
    · refine ⟨['+'] :: path, ⟨?_, hPath⟩, hMatch, ?_⟩
      · intro hRest
        cases hRest
      · rwa [subsAt_cons_of_some _ _ _ _ (by decide) (hAny.trans hChild)]

theorem mem_collectInTenant (subs : SubscriptionSet) (tenant : Str) (sub : Subscription) :
    sub ∈ (collectInTenant subs tenant).1 ↔ sub ∈ subs ∧ sub.tenant = tenant := by
  simp [collectInTenant]

theorem mem_both (first second : SubscriptionSet × Nat) (sub : Subscription) :
    sub ∈ (both first second).1 ↔ sub ∈ first.1 ∨ sub ∈ second.1 := by
  simp [both]

variable (child : Option TrieNode) (filter : TopicFilter) (history : List RouterOp) (topic : Topic)
  (tenant : Str) (sub : Subscription)

theorem mem_collectTerminal : sub ∈ (collectTerminal child tenant).1 ↔
      (∃ next, child = some next ∧ Reaches [] next sub) ∧ sub.tenant = tenant := by
  cases child with
  | none => simp [collectTerminal]
  | some next => grind [collectTerminal, mem_both, mem_collectInTenant, reaches_nil_iff]

/-- The walk collects the tenant's entries on all paths that match. -/
theorem mem_matchRecursiveInTenant (topic : List Str) (node : TrieNode) (tenant : Str)
    (sub : Subscription) (hne : topic ≠ [])
    (hPlain : ∀ level ∈ topic, level ≠ ['+'] ∧ level ≠ ['#']) :
    sub ∈ (matchRecursiveInTenant topic node tenant).1 ↔
      Reaches topic node sub ∧ sub.tenant = tenant := by
  induction topic generalizing node with
  | nil => exact absurd rfl hne
  | cons head tail ih =>
    obtain ⟨hPlus, hHash⟩ := hPlain head (by simp)
    rw [reaches_cons_iff head tail node sub hPlus hHash]
    cases tail with
    | nil =>
      simp [matchRecursiveInTenant, mem_both, mem_collectInTenant, mem_collectTerminal, or_and_right]
    | cons next tail =>
      have hTail : ∀ level ∈ next :: tail, level ≠ ['+'] ∧ level ≠ ['#'] :=
        fun level hl => hPlain level (List.mem_cons_of_mem _ hl)
      have hStep : ∀ child : Option TrieNode,
          sub ∈ (child.elim ([], 0) fun found =>
              matchRecursiveInTenant (next :: tail) found tenant : SubscriptionSet × Nat).1 ↔
            (∃ found, child = some found ∧ Reaches (next :: tail) found sub) ∧
              sub.tenant = tenant := by
        intro child
        cases child with
        | none => simp
        | some found => simpa using ih found (by simp) hTail
      simp [matchRecursiveInTenant, mem_both, mem_collectInTenant, hStep, or_and_right]

/-- The abstract router: the live entries with their filters. -/
abbrev Live := Finset (TopicFilter × Subscription)

namespace Live

def SameEntry (clientId tenant : Str) (entry : TopicFilter × Subscription) : Prop :=
  entry.1 = filter ∧ entry.2.owned clientId tenant = true

instance (filter : TopicFilter) (clientId tenant : Str) :
    DecidablePred (SameEntry filter clientId tenant) :=
  fun entry => inferInstanceAs (Decidable (entry.1 = filter ∧ _))

def Holds (live : Live) (filter : TopicFilter) (clientId tenant : Str) : Prop :=
  ∃ entry ∈ live, SameEntry filter clientId tenant entry

instance (live : Live) (filter : TopicFilter) (clientId tenant : Str) :
    Decidable (live.Holds filter clientId tenant) :=
  inferInstanceAs (Decidable (∃ entry ∈ live, SameEntry filter clientId tenant entry))

def unsubscribe (live : Live) (filter : TopicFilter) (clientId tenant : Str) : Live :=
  Finset.filter (fun entry => ¬SameEntry filter clientId tenant entry) live

/-- One entry for each filter, client and tenant, and at most the bound of
them in all. -/
def subscribe (live : Live) (filter : TopicFilter) (sub : Subscription) : Live × Bool :=
  if ¬live.Holds filter sub.clientId sub.tenant ∧ maxSubscriptions ≤ live.card then (live, false)
  else (insert (filter, sub) (live.unsubscribe filter sub.clientId sub.tenant), true)

theorem mem_unsubscribe (live : Live) (filter found : TopicFilter) (clientId tenant : Str)
    (sub : Subscription) : (found, sub) ∈ live.unsubscribe filter clientId tenant ↔
      (found, sub) ∈ live ∧ (found = filter → sub.owned clientId tenant = false) := by
  simp [unsubscribe, SameEntry]

/-- No two entries of one filter belong to the same client and tenant. -/
def Unique (live : Live) : Prop :=
  ∀ filter sub sub', (filter, sub) ∈ live → (filter, sub') ∈ live →
    sub.owned sub'.clientId sub'.tenant = true → sub = sub'

section

variable (live : Live) (filter : TopicFilter) (clientId tenant : Str)

theorem unsubscribe_of_not_holds (h : ¬live.Holds filter clientId tenant) :
    live.unsubscribe filter clientId tenant = live := by
  apply Finset.filter_true_of_mem
  intro entry hEntry hSame
  exact h ⟨entry, hEntry, hSame⟩

/-- An unsubscribe of a present entry removes exactly that entry. -/
theorem card_unsubscribe_of_holds (hUnique : live.Unique) (h : live.Holds filter clientId tenant) :
    (live.unsubscribe filter clientId tenant).card + 1 = live.card := by
  obtain ⟨⟨found, sub⟩, hSub, hSame⟩ := h
  obtain rfl : found = filter := hSame.1
  have hErase : live.unsubscribe found clientId tenant = live.erase (found, sub) := by
    ext ⟨other, sub'⟩
    simp only [unsubscribe, Finset.mem_filter, Finset.mem_erase, SameEntry, Subscription.owned,
      Bool.and_eq_true, decide_eq_true_eq, ne_eq, Prod.mk.injEq, not_and]
    have hOwned : sub.clientId = clientId ∧ sub.tenant = tenant := by
      simpa [Subscription.owned] using hSame.2
    constructor
    · grind
    · intro hKept
      refine ⟨hKept.2, fun hOther hClient hTenant => ?_⟩
      subst hOther
      refine hKept.1 rfl (hUnique other sub' sub hKept.2 hSub ?_)
      simp [Subscription.owned, hClient, hTenant, hOwned.1, hOwned.2]
  rw [hErase]
  exact Finset.card_erase_add_one hSub

end

end Live

/-- The trie and its counter represent the live entries. -/
structure Refines (router : Router) (live : Live) : Prop where
  entries : ∀ path, HashLast path → ∀ sub,
    sub ∈ subsAt path router.root ↔ ∃ filter, filter.text.levels = path ∧ (filter, sub) ∈ live
  unique : live.Unique
  count : router.subscriptionCount = live.card

theorem levels_eq_iff (filter' : TopicFilter) :
    filter.text.levels = filter'.text.levels ↔ filter = filter' := by
  constructor
  · intro h
    obtain ⟨text, hValid⟩ := filter
    obtain ⟨text', hValid'⟩ := filter'
    obtain rfl : text = text' := Str.levels_injective h
    rfl
  · intro h
    rw [h]

theorem Refines.mem_subsAt (h : Refines router live) (filter : TopicFilter) (sub : Subscription) :
    sub ∈ subsAt filter.text.levels router.root ↔ (filter, sub) ∈ live := by
  rw [h.entries _ (hashLast_levels filter)]
  simp [levels_eq_iff]

theorem Refines.holds_iff (h : Refines router live) (filter : TopicFilter) (clientId tenant : Str) :
    terminalContains filter.text.levels router.root clientId tenant = true ↔
      live.Holds filter clientId tenant := by
  rw [terminalContains_eq _ _ _ _ (Str.levels_ne_nil _)]
  simp only [holds, List.any_eq_true, h.mem_subsAt]
  constructor
  · intro hHolds
    obtain ⟨sub, hSub, hOwned⟩ := hHolds
    exact ⟨(filter, sub), hSub, rfl, hOwned⟩
  · intro hHolds
    obtain ⟨⟨found, sub⟩, hSub, hFound, hOwned⟩ := hHolds
    exact ⟨sub, hFound ▸ hSub, hOwned⟩

theorem refines_empty : Refines Router.empty ∅ where
  entries := by
    intro path _ sub
    simp [Router.empty]
  unique := by
    intro filter sub sub' hSub
    exact absurd hSub (Finset.notMem_empty _)
  count := rfl

/-- An operation that changes the entries of one filter, on both sides alike. -/
theorem Refines.entries_update (h : Refines router live) {filter : TopicFilter} {after : TrieNode}
    {live' : Live} {subs : SubscriptionSet}
    (hAfter : ∀ path, HashLast path → subsAt path after =
      if path = filter.text.levels then subs else subsAt path router.root)
    (hOwn : ∀ other, other ∈ subs ↔ (filter, other) ∈ live')
    (hOthers : ∀ found other, found ≠ filter → ((found, other) ∈ live ↔ (found, other) ∈ live'))
    (path : List Str) (hPath : HashLast path) (other : Subscription) :
    other ∈ subsAt path after ↔ ∃ found, found.text.levels = path ∧ (found, other) ∈ live' := by
  rw [hAfter path hPath]
  by_cases hSame : path = filter.text.levels
  · subst hSame
    simp [levels_eq_iff, hOwn]
  · rw [if_neg hSame, h.entries path hPath]
    apply exists_congr
    intro found
    apply and_congr_right
    rintro rfl
    apply hOthers
    rintro rfl
    exact hSame rfl

section

variable (h : live.Unique) (filter : TopicFilter)
include h

theorem Live.Unique.unsubscribe (clientId tenant : Str) :
    (live.unsubscribe filter clientId tenant).Unique := by
  intro found sub sub' hSub hSub'
  exact h found sub sub' (Finset.mem_filter.mp hSub).1 (Finset.mem_filter.mp hSub').1

theorem Live.Unique.insert (sub : Subscription) :
    Live.Unique (insert (filter, sub) (live.unsubscribe filter sub.clientId sub.tenant)) := by
  have hOld : ∀ other, (filter, other) ∈ live.unsubscribe filter sub.clientId sub.tenant →
      other.owned sub.clientId sub.tenant = false := by
    intro other hOther
    exact ((Live.mem_unsubscribe _ _ _ _ _ _).mp hOther).2 rfl
  intro found first second hFirst hSecond hOwned
  rcases Finset.mem_insert.mp hFirst with hNew | hFirst
  · grind [Subscription.owned]
  · rcases Finset.mem_insert.mp hSecond with hNew' | hSecond
    · simp_all
    · exact h.unsubscribe filter _ _ found first second hFirst hSecond hOwned

/-- The counter moves with the number of live entries. -/
theorem Live.card_insert (sub : Subscription) :
    (insert (filter, sub) (live.unsubscribe filter sub.clientId sub.tenant)).card =
      live.card + if live.Holds filter sub.clientId sub.tenant then 0 else 1 := by
  have hNew : (filter, sub) ∉ live.unsubscribe filter sub.clientId sub.tenant := by
    simp [Live.mem_unsubscribe, Subscription.owned]
  grind [card_unsubscribe_of_holds, unsubscribe_of_not_holds]

end

theorem Refines.added_eq (h : Refines router live) (filter : TopicFilter) (sub : Subscription) :
    (insertOwned filter.text.levels router.root sub).2 =
      !decide (live.Holds filter sub.clientId sub.tenant) := by
  rw [insertOwned_added _ _ _ (Str.levels_ne_nil _) (hashLast_levels filter),
    ← terminalContains_eq _ _ _ _ (Str.levels_ne_nil _)]
  congr 1
  rw [Bool.eq_iff_iff, decide_eq_true_eq]
  exact h.holds_iff filter _ _

@[simp] theorem Router.noteTenant_root (router : Router) (sub : Subscription) :
    (router.noteTenant sub).root = router.root := by
  unfold Router.noteTenant
  split <;> rfl

@[simp] theorem Router.noteTenant_subscriptionCount (router : Router) (sub : Subscription) :
    (router.noteTenant sub).subscriptionCount = router.subscriptionCount := by
  unfold Router.noteTenant
  split <;> rfl

/-- Subscribing keeps the representation and gives the same answer. -/
theorem Refines.subscribe (h : Refines router live) (filter : TopicFilter) (sub : Subscription) :
    Refines (router.subscribe filter sub).1 (live.subscribe filter sub).1 ∧
      (router.subscribe filter sub).2 = (live.subscribe filter sub).2 := by
  have hRefused : (!terminalContains filter.text.levels router.root sub.clientId sub.tenant &&
      decide (maxSubscriptions ≤ router.subscriptionCount)) = true ↔
      ¬live.Holds filter sub.clientId sub.tenant ∧ maxSubscriptions ≤ live.card := by
    rw [Bool.and_eq_true, Bool.not_eq_true', ← Bool.not_eq_true, h.holds_iff, decide_eq_true_eq,
      h.count]
  simp only [Router.subscribe, Router.noteTenant_root, Router.noteTenant_subscriptionCount, hRefused,
    Live.subscribe]
  by_cases hFull : ¬live.Holds filter sub.clientId sub.tenant ∧ maxSubscriptions ≤ live.card
  · simp only [if_pos hFull, and_true]
    exact ⟨by simpa using h.entries, h.unique, by simpa using h.count⟩
  · simp only [if_neg hFull, and_true]
    refine ⟨h.entries_update (fun path => subsAt_insertOwned _ path _ sub (Str.levels_ne_nil _)
      (hashLast_levels filter)) ?_ ?_, h.unique.insert filter sub, ?_⟩
    · simp [replace, without, Live.mem_unsubscribe, h.mem_subsAt]
    · simp +contextual [Live.mem_unsubscribe]
    rw [Live.card_insert h.unique, h.added_eq, h.count]
    simp

theorem Refines.unsubscribe (h : Refines router live) (filter : TopicFilter)
    (clientId tenant : Str) : Refines (router.unsubscribeInTenant filter clientId tenant)
      (live.unsubscribe filter clientId tenant) := by
  have hRemoved := removeOwned_removed filter.text.levels router.root clientId tenant
    (Str.levels_ne_nil _) (hashLast_levels filter)
  rw [← terminalContains_eq _ _ _ _ (Str.levels_ne_nil _)] at hRemoved
  by_cases hHolds : live.Holds filter clientId tenant
  · have hTerminal := (h.holds_iff filter clientId tenant).mpr hHolds
    have hExists := pathExists_of_terminalContains _ _ _ _ hTerminal
    have hCard := live.card_unsubscribe_of_holds filter clientId tenant h.unique hHolds
    simp only [Router.unsubscribeInTenant, hExists, hTerminal, hRemoved, Bool.not_true,
      Bool.false_eq_true, if_false, if_true]
    refine ⟨h.entries_update (fun path => subsAt_removeOwned _ path _ clientId tenant
      (Str.levels_ne_nil _) (hashLast_levels filter)) ?_ ?_, h.unique.unsubscribe _ _ _, ?_⟩
    · simp [without, Live.mem_unsubscribe, h.mem_subsAt]
    · simp +contextual [Live.mem_unsubscribe]
    change router.subscriptionCount - 1 = _
    rw [h.count]
    omega
  · have hTerminal : terminalContains filter.text.levels router.root clientId tenant = false := by
      rw [← Bool.not_eq_true, h.holds_iff]
      exact hHolds
    rw [live.unsubscribe_of_not_holds filter clientId tenant hHolds]
    simp_all [Router.unsubscribeInTenant]

inductive RouterOp where
  | subscribe (filter : TopicFilter) (sub : Subscription)
  | unsubscribe (filter : TopicFilter) (clientId tenant : Str)

def Router.apply (router : Router) : RouterOp → Router
  | .subscribe filter sub => (router.subscribe filter sub).1
  | .unsubscribe filter clientId tenant => router.unsubscribeInTenant filter clientId tenant

def Live.apply (live : Live) : RouterOp → Live
  | .subscribe filter sub => (live.subscribe filter sub).1
  | .unsubscribe filter clientId tenant => live.unsubscribe filter clientId tenant

def Router.run : Router := history.foldl Router.apply Router.empty

def Live.run (history : List RouterOp) : Live := history.foldl Live.apply ∅

theorem Refines.foldl (h : Refines router live) (history : List RouterOp) :
    Refines (history.foldl Router.apply router) (history.foldl Live.apply live) := by
  induction history generalizing router live with
  | nil => exact h
  | cons op history ih =>
    apply ih
    cases op with
    | subscribe filter sub => exact (h.subscribe filter sub).1
    | unsubscribe filter clientId tenant => exact h.unsubscribe filter clientId tenant

theorem run_refines : Refines (Router.run history) (Live.run history) :=
  refines_empty.foldl history

theorem mem_walk_iff_live :
    sub ∈ (matchRecursiveInTenant topic.text.levels (Router.run history).root tenant).1 ↔
      sub.tenant = tenant ∧ ∃ filter, (filter, sub) ∈ Live.run history ∧
        filter.matches topic = true := by
  have h := run_refines history
  rw [mem_matchRecursiveInTenant _ _ _ _ (Str.levels_ne_nil _) topic.level_ne_wildcard]
  simp only [TopicFilter.matches_iff]
  constructor
  · intro hReach
    obtain ⟨⟨path, hPath, hMatch, hSub⟩, hTenant⟩ := hReach
    obtain ⟨filter, rfl, hLive⟩ := (h.entries path hPath sub).mp hSub
    exact ⟨hTenant, filter, hLive, hMatch⟩
  · intro hEntry
    obtain ⟨hTenant, filter, hLive, hMatch⟩ := hEntry
    refine ⟨⟨filter.text.levels, hashLast_levels filter, hMatch, ?_⟩, hTenant⟩
    exact (h.mem_subsAt filter sub).mpr hLive

/-- After every history the trie walk collects, for every topic and tenant,
the subscriptions of exactly those live entries of the tenant whose filter
matches the topic. -/
theorem matchRecursiveInTenant_eq_live (history : List RouterOp) (topic : Topic) (tenant : Str) :
    (matchRecursiveInTenant topic.text.levels (Router.run history).root tenant).1.toFinset =
      ((Live.run history).filter fun entry =>
        entry.2.tenant = tenant ∧ entry.1.matches topic = true).image Prod.snd := by
  ext sub
  rw [List.mem_toFinset, mem_walk_iff_live]
  simp only [Finset.mem_image, Finset.mem_filter]
  grind

theorem mem_terminalSets :
    sub ∈ terminalSets child ↔ sub ∈ (collectTerminal child sub.tenant).1 := by
  cases child with
  | none => rfl
  | some next => simp [terminalSets, collectTerminal, mem_both, mem_collectInTenant]

/-- The walk over all tenants collects what the walks of the single tenants collect. -/
theorem mem_matchRecursive (topic : List Str) (node : TrieNode) (sub : Subscription) :
    sub ∈ matchRecursive topic node ↔ sub ∈ (matchRecursiveInTenant topic node sub.tenant).1 := by
  induction topic generalizing node with
  | nil => rfl
  | cons head tail ih =>
    cases tail with
    | nil =>
      simp [matchRecursive, matchRecursiveInTenant, mem_both, mem_terminalSets, mem_collectInTenant]
    | cons next tail =>
      have hChild (child : Option TrieNode) :
          sub ∈ child.elim [] (fun child => matchRecursive (next :: tail) child) ↔
            sub ∈ (child.elim ([], 0) fun child =>
              matchRecursiveInTenant (next :: tail) child sub.tenant).1 := by
        cases child with
        | none => rfl
        | some child => exact ih child
      simp_all [matchRecursive, matchRecursiveInTenant, mem_both, mem_collectInTenant]

/-- Matching by a filter whose first level is a wildcard. -/
def RestMatches : Prop :=
  filter.text = ['#'] ∨ filter.text.levels.head? = some ['+'] ∧
    matchLevels filter.text.levels.tail topic.text.levels.tail = true

theorem matches_iff_restMatches
    (hWild : filter.text.levels.head? = some ['+'] ∨ filter.text.levels.head? = some ['#']) :
    filter.matches topic = true ↔ RestMatches filter topic := by
  obtain ⟨level, rest, hTopic⟩ := List.exists_cons_of_ne_nil (Str.levels_ne_nil topic.text)
  obtain ⟨part, parts, hFilter⟩ := List.exists_cons_of_ne_nil (Str.levels_ne_nil filter.text)
  rw [hFilter, List.head?_cons, Option.some.injEq, Option.some.injEq] at hWild
  unfold TopicFilter.matches RestMatches
  rw [hFilter, hTopic, List.head?_cons, List.tail_cons, List.tail_cons]
  rcases hWild with rfl | rfl
  · grind [Str.levels_of_not_mem, matchLevels_cons]
  · have hAlone : filter.text = ['#'] := by
      have hLast := (TopicFilter.validate_accepts_iff _).mp filter.valid
      obtain ⟨-, rfl⟩ := hLast.2 [] ['#'] parts hFilter (by decide)
      apply Str.levels_injective
      rw [hFilter]
      rfl
    simp [hAlone, matchLevels]

/-- A filter whose first level is a wildcard matches by the levels behind it, in the check of
one filter and in both walks of the trie. The first character of the topic plays no part, so
that a topic which starts with `$` is matched like any other. -/
theorem wildcard_first_matches (history : List RouterOp) (filter : TopicFilter) (topic : Topic)
    (hWild : filter.text.levels.head? = some ['+'] ∨ filter.text.levels.head? = some ['#']) :
    (filter.matches topic = true ↔ RestMatches filter topic) ∧
      ∀ sub, (filter, sub) ∈ Live.run history →
        (∀ found, (found, sub) ∈ Live.run history → found = filter) →
        (sub ∈ matchRecursive topic.text.levels (Router.run history).root ↔
            RestMatches filter topic) ∧
          (sub ∈ (matchRecursiveInTenant topic.text.levels (Router.run history).root
              sub.tenant).1 ↔ RestMatches filter topic) := by
  grind [matches_iff_restMatches, mem_walk_iff_live, mem_matchRecursive]

def meterSubscription : Subscription :=
  { clientId := "meter".toList, connId := 7, qos := .atMostOnce, group := none,
    tenant := "default".toList, noLocal := false, retainAsPublished := true, retainHandling := 0,
    subscriptionId := 0 }

def everything : TopicFilter := ⟨"#".toList, rfl⟩

def systemTopic : Topic := ⟨"$SYS/up".toList, rfl⟩

/-- The filter `#` and its subscription match the reserved topic. -/
theorem everything_matches_system :
    everything.matches systemTopic = true ∧
      meterSubscription ∈ matchRecursive systemTopic.text.levels
        (Router.run [.subscribe everything meterSubscription]).root ∧
      meterSubscription ∈ (matchRecursiveInTenant systemTopic.text.levels
        (Router.run [.subscribe everything meterSubscription]).root "default".toList).1 := by
  decide

theorem live_everything :
    Live.run [.subscribe everything meterSubscription] = {(everything, meterSubscription)} := by
  decide

theorem everything_collected :
    RestMatches everything systemTopic ∧
      meterSubscription ∈ matchRecursive systemTopic.text.levels
        (Router.run [.subscribe everything meterSubscription]).root := by
  have hRest : RestMatches everything systemTopic := Or.inl rfl
  have hLive : (everything, meterSubscription) ∈
      Live.run [.subscribe everything meterSubscription] := by
    rw [live_everything]
    exact Finset.mem_singleton_self _
  have hOnly : ∀ found, (found, meterSubscription) ∈
      Live.run [.subscribe everything meterSubscription] → found = everything := by
    simp [live_everything]
  have hWalk := (wildcard_first_matches [.subscribe everything meterSubscription] everything
    systemTopic (Or.inr rfl)).2 meterSubscription hLive hOnly
  exact ⟨hRest, hWalk.1.mpr hRest⟩

end IndraMqtt.Routing
