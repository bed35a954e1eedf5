import IndraMqtt.Router.Refinement
import Mathlib.Data.Set.Card

/-! The subscription count of the router against the entries of its trie. -/
namespace IndraMqtt.Routing

open Protocol TrieNode
open Router (run)

variable {live : Live} {router : Router}

def Router.entries (router : Router) : Set (List Str × Subscription) :=
  {entry | HashLast entry.1 ∧ entry.2 ∈ subsAt entry.1 router.root}

theorem Refines.entries_eq (hRefines : Refines router live) :
    router.entries = live.image fun entry => (entry.1.text.levels, entry.2) := by
  ext ⟨path, sub⟩
  simp only [Router.entries, Set.mem_ofPred_eq, Finset.coe_image, Set.mem_image, Finset.mem_coe,
    Prod.mk.injEq, Prod.exists]
  constructor
  · rintro ⟨hPath, hSub⟩
    obtain ⟨filter, rfl, hLive⟩ := (hRefines.entries path hPath sub).mp hSub
    exact ⟨filter, sub, hLive, rfl, rfl⟩
  · rintro ⟨filter, other, hLive, rfl, rfl⟩
    exact ⟨hashLast_levels filter, (hRefines.mem_subsAt filter other).mpr hLive⟩

theorem Refines.count_entries (hRefines : Refines router live) :
    router.entries.Finite ∧ router.subscriptionCount = router.entries.ncard := by
  rw [hRefines.entries_eq, hRefines.count, Set.ncard_coe_finset, Finset.card_image_of_injective]
  · exact ⟨Finset.finite_toSet _, rfl⟩
  · rintro ⟨filter, sub⟩ ⟨filter', sub'⟩ hSame
    simpa [levels_eq_iff] using hSame

theorem Live.card_run_le (history : List RouterOp) : (Live.run history).card ≤ maxSubscriptions := by
  induction history using List.reverseRecOn with
  | nil => exact Nat.zero_le _
  | append_singleton history op ih =>
    have hUnique := (run_refines history).unique
    rw [Live.run, List.foldl_concat]
    cases op with
    | unsubscribe filter clientId tenant => exact (Finset.card_filter_le _ _).trans ih
    | subscribe filter sub =>
      have hCard := Live.card_insert hUnique filter sub
      grind [Live.apply, Live.subscribe, Live.run]

/-- One entry of a client and tenant at most. -/
def OnePerOwner (subs : SubscriptionSet) : Prop :=
  subs.Pairwise fun first second => second.owned first.clientId first.tenant = false

variable {subs : SubscriptionSet}

theorem OnePerOwner.without (hOne : OnePerOwner subs) (clientId tenant : Str) :
    OnePerOwner (without subs clientId tenant) :=
  hOne.filter _

theorem OnePerOwner.replace (hOne : OnePerOwner subs) (sub : Subscription) :
    OnePerOwner (replace subs sub) := by
  refine List.pairwise_cons.mpr ⟨?_, hOne.without _ _⟩
  intro other hOther
  simpa using (List.mem_filter.mp hOther).2

theorem OnePerOwner.filter_length_le (hOne : OnePerOwner subs) (clientId tenant : Str) :
    (subs.filter (·.owned clientId tenant)).length ≤ 1 := by
  have hPairs := hOne.filter (·.owned clientId tenant)
  have hOwned : ∀ sub ∈ subs.filter (·.owned clientId tenant),
      sub.owned clientId tenant = true := fun sub hSub => (List.mem_filter.mp hSub).2
  generalize subs.filter (·.owned clientId tenant) = owned at hPairs hOwned
  match owned with
  | [] | [_] => simp
  | first :: second :: rest =>
    simp only [List.forall_mem_cons, Subscription.owned, Bool.and_eq_true,
      decide_eq_true_eq] at hOwned
    simp_all [Subscription.owned]

theorem onePerOwner_run (history : List RouterOp) {path : List Str} (hPath : HashLast path) :
    OnePerOwner (subsAt path (run history).root) := by
  induction history using List.reverseRecOn with
  | nil => simp [OnePerOwner, run, Router.empty]
  | append_singleton history op ih =>
    rw [run, List.foldl_concat]
    change OnePerOwner (subsAt path ((run history).apply op).root)
    cases op with
    | subscribe filter sub =>
      have hNew := subsAt_insertOwned filter.text.levels path (run history).root sub
        (Str.levels_ne_nil _) (hashLast_levels filter) hPath
      grind [Router.apply, Router.subscribe, Router.noteTenant_root, OnePerOwner.replace]
    | unsubscribe filter clientId tenant =>
      have hLess := subsAt_removeOwned filter.text.levels path (run history).root clientId
        tenant (Str.levels_ne_nil _) (hashLast_levels filter) hPath
      grind [Router.apply, Router.unsubscribeInTenant, OnePerOwner.without]

/-- After every history the count is the number of entries in the trie and within the bound, a
client has one entry for a filter in a tenant, and a subscribe is refused exactly for a new
entry at the bound, with trie and count left as they were. -/
theorem Router.count_run (history : List RouterOp) :
    let router := run history
    router.entries.Finite ∧ router.subscriptionCount = router.entries.ncard ∧
      router.subscriptionCount ≤ 100000 ∧
      (∀ (filter : TopicFilter) clientId tenant,
        ((subsAt filter.text.levels router.root).filter (·.owned clientId tenant)).length ≤ 1) ∧
      ∀ filter sub,
        ((router.subscribe filter sub).2 = false ↔
          (∀ other ∈ subsAt filter.text.levels router.root,
            other.owned sub.clientId sub.tenant = false) ∧
          router.subscriptionCount = 100000) ∧
        ((router.subscribe filter sub).2 = false →
          (router.subscribe filter sub).1.root = router.root ∧
          (router.subscribe filter sub).1.subscriptionCount = router.subscriptionCount) := by
  intro router
  have hRefines := run_refines history
  have hBound : router.subscriptionCount ≤ maxSubscriptions :=
    hRefines.count.trans_le (Live.card_run_le history)
  refine ⟨hRefines.count_entries.1, hRefines.count_entries.2, hBound, ?_, ?_⟩
  · intro filter
    exact (onePerOwner_run history (hashLast_levels filter)).filter_length_le
  · intro filter sub
    have hNew : terminalContains filter.text.levels router.root sub.clientId sub.tenant = false ↔
        ∀ other ∈ subsAt filter.text.levels router.root,
          other.owned sub.clientId sub.tenant = false := by
      rw [terminalContains_eq _ _ _ _ (Str.levels_ne_nil _)]
      simp [holds]
    have hFull : maxSubscriptions ≤ router.subscriptionCount ↔
        router.subscriptionCount = 100000 := ⟨fun hLe => le_antisymm hBound hLe, Eq.ge⟩
    rw [← hNew, ← hFull]
    simp only [Router.subscribe, Router.noteTenant_root, Router.noteTenant_subscriptionCount]
    split <;> simp_all

def RouterOp.tenant : RouterOp → Str
  | .subscribe _ sub => sub.tenant
  | .unsubscribe _ _ tenant => tenant

/-- What other tenants do next, at the bound too, leaves what a publish of this one reaches. -/
theorem walk_after_other_tenants (history later : List RouterOp) (topic : Topic) (tenant : Str)
    (sub : Subscription) : sub ∈ (matchRecursiveInTenant topic.text.levels
        (run (history ++ later.filter (·.tenant ≠ tenant))).root tenant).1 ↔
      sub ∈ (matchRecursiveInTenant topic.text.levels (run history).root tenant).1 := by
  rw [mem_walk_iff_live, mem_walk_iff_live, and_congr_right_iff, Live.run, List.foldl_append]
  rintro rfl
  rw [← Live.run]
  generalize Live.run history = live
  induction later generalizing live with
  | nil => rfl
  | cons op later ih =>
    rw [List.filter_cons]
    split
    · refine (ih _).trans (exists_congr fun filter => and_congr_left' ?_)
      cases op <;> grind [Live.apply, Live.subscribe, Live.mem_unsubscribe, Subscription.owned,
        RouterOp.tenant]
    · exact ih live

end IndraMqtt.Routing
