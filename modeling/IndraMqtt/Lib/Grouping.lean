import Mathlib.Data.List.Perm.Basic

/-! A list cut into groups by a key. The groups put together again are the list in
another order. -/
namespace Grouping

variable {α κ : Type} [DecidableEq κ] (key : α → κ)

def groups (keys : List κ) (items : List α) : List α :=
  keys.flatMap fun k => items.filter fun item => key item == k

theorem groups_cons_perm {k : κ} {keys : List κ} (hNew : k ∉ keys) (items : List α) :
    (groups key (k :: keys) items).Perm
      (items.filter (fun item => key item == k) ++
        groups key keys (items.filter fun item => !(key item == k))) := by
  have hRest : groups key keys items =
      groups key keys (items.filter fun item => !(key item == k)) := by
    unfold groups
    apply List.flatMap_congr
    intro other hOther
    rw [List.filter_filter]
    grind
  unfold groups at hRest ⊢
  rw [List.flatMap_cons, hRest]

theorem groups_perm {keys : List κ} (hNodup : keys.Nodup) {items : List α}
    (hCover : ∀ item ∈ items, key item ∈ keys) : (groups key keys items).Perm items := by
  induction keys generalizing items with
  | nil =>
    cases items with
    | nil => rfl
    | cons item items => cases hCover item List.mem_cons_self
  | cons k keys ih =>
    rw [List.nodup_cons] at hNodup
    have hOthers : ∀ item ∈ items.filter (fun item => !(key item == k)), key item ∈ keys := by grind
    refine (groups_cons_perm key hNodup.1 items).trans ?_
    refine ((ih hNodup.2 hOthers).append_left _).trans ?_
    exact List.filter_append_perm _ items

/-- Lists that differ in one place hold what they share, and each its own list there. -/
theorem flatMap_update_perm {lists : κ → List α} {place : κ} {places : List κ}
    (hNodup : places.Nodup) (hMem : place ∈ places) (list : List α) :
    (list ++ places.flatMap lists).Perm
      (lists place ++ places.flatMap (Function.update lists place list)) := by
  induction places with
  | nil => cases hMem
  | cons first places ih =>
    obtain ⟨hFirst, hRest⟩ := List.nodup_cons.mp hNodup
    rw [List.flatMap_cons, List.flatMap_cons]
    by_cases hPlace : place = first
    · grind [List.flatMap_congr, List.perm_append_comm.append_right]
    · have hLater := ih hRest ((List.mem_cons.mp hMem).resolve_left hPlace)
      rw [Function.update_of_ne (Ne.symm hPlace)]
      have hFront := List.perm_append_comm_assoc list (lists first) (places.flatMap lists)
      have hBack := List.perm_append_comm_assoc (lists first) (lists place)
        (places.flatMap (Function.update lists place list))
      exact (hFront.trans (hLater.append_left (lists first))).trans hBack

end Grouping
