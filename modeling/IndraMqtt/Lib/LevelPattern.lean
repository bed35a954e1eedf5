import Mathlib.Data.List.Forall2

/-! Patterns over sequences of symbols. A position of a pattern is a fixed
symbol, one arbitrary symbol, or an arbitrary remainder. The module compares a
position-by-position walk of two patterns with inclusion of the sets of
sequences they describe. -/
namespace LevelPattern

inductive Seg (α : Type*) where
  | lit (a : α)
  | any
  | rest
  deriving DecidableEq

variable {α : Type*} {as bs ps qs : List (Seg α)} {xs ys : List α}

def Seg.Fits : Seg α → α → Prop
  | .lit a, x => x = a
  | .any, _ => True
  | .rest, _ => True

/-- The sequences described by a pattern. Positions after a remainder are
never consulted. -/
def Matches : List (Seg α) → List α → Prop
  | [], xs => xs = []
  | .rest :: _, _ => True
  | .any :: _, [] => False
  | .any :: ps, _ :: xs => Matches ps xs
  | .lit _ :: _, [] => False
  | .lit a :: ps, x :: xs => x = a ∧ Matches ps xs

@[simp] theorem matches_nil_iff : Matches ([] : List (Seg α)) xs ↔ xs = [] := by
  simp [Matches]

@[simp] theorem matches_rest : Matches (.rest :: ps) xs := by
  simp [Matches]

theorem matches_cons_iff {p : Seg α} (hp : p ≠ .rest) :
    Matches (p :: ps) xs ↔ ∃ x ys, xs = x :: ys ∧ p.Fits x ∧ Matches ps ys := by
  cases p with
  | lit a => cases xs <;> simp [Matches, Seg.Fits]
  | any => cases xs <;> simp [Matches, Seg.Fits]
  | rest => exact absurd rfl hp

/-- A part without remainder consumes exactly one symbol at each position. -/
theorem matches_append_iff (rs : List (Seg α)) (xs : List α) (hRest : Seg.rest ∉ bs) :
    Matches (bs ++ rs) xs ↔
      ∃ ys zs, xs = ys ++ zs ∧ List.Forall₂ Seg.Fits bs ys ∧ Matches rs zs := by
  induction bs generalizing xs with
  | nil => simp
  | cons b bs ih =>
    have hb : b ≠ .rest := fun h => hRest (by simp [h])
    have hbs : Seg.rest ∉ bs := fun h => hRest (List.mem_cons_of_mem _ h)
    rw [List.cons_append, matches_cons_iff hb]
    constructor
    · rintro ⟨x, tail, rfl, hx, htail⟩
      obtain ⟨ys, zs, rfl, hys, hzs⟩ := (ih _ hbs).mp htail
      exact ⟨x :: ys, zs, rfl, .cons hx hys, hzs⟩
    · rintro ⟨_, zs, rfl, hys, hzs⟩
      cases hys with
      | cons hx hys => exact ⟨_, _, rfl, hx, (ih _ hbs).mpr ⟨_, zs, rfl, hys, hzs⟩⟩

theorem matches_iff_forall₂ (hRest : Seg.rest ∉ ps) :
    Matches ps xs ↔ List.Forall₂ Seg.Fits ps xs := by
  have h := matches_append_iff [] xs hRest
  simp_all

/-- A remainder stands only at the last position. -/
def RestLast : List (Seg α) → Prop
  | [] => True
  | p :: ps => (p = .rest → ps = []) ∧ RestLast ps

theorem RestLast.not_mem_left (h : RestLast (as ++ bs)) (hbs : bs ≠ []) : Seg.rest ∉ as := by
  induction as with
  | nil => simp
  | cons a as ih =>
    intro hm
    rcases List.mem_cons.mp hm with rfl | hm
    · exact hbs (List.append_eq_nil_iff.mp (h.1 rfl)).2
    · exact ih h.2 hm

theorem RestLast.tail_eq_nil (h : RestLast (as ++ .rest :: bs)) : bs = [] := by
  induction as with
  | nil => exact h.1 rfl
  | cons a as ih => exact ih h.2

theorem RestLast.not_mem_or_concat (h : RestLast qs) :
    Seg.rest ∉ qs ∨ ∃ bs, qs = bs ++ [.rest] ∧ Seg.rest ∉ bs := by
  rcases List.eq_nil_or_concat qs with rfl | ⟨bs, q, rfl⟩
  · exact Or.inl (by simp)
  · grind [RestLast.not_mem_left]

/-- The first pattern has, position by position, an arbitrary symbol or the
same entry as the second, and never a remainder. -/
def Aligned (as bs : List (Seg α)) : Prop :=
  List.Forall₂ (fun a b => a ≠ .rest ∧ (a = .any ∨ a = b)) as bs

theorem Aligned.rest_not_mem (h : Aligned as bs) : Seg.rest ∉ as := by
  induction h with
  | nil => simp
  | cons hab _ ih => simp [Ne.symm hab.1, ih]

theorem Aligned.fits (h : Aligned as bs) (hys : List.Forall₂ Seg.Fits bs ys) :
    List.Forall₂ Seg.Fits as ys := by
  induction h generalizing ys with
  | nil => exact hys
  | cons hab _ ih =>
    cases hys with
    | cons hy hys =>
      refine .cons ?_ (ih hys)
      rcases hab.2 with rfl | rfl
      · trivial
      · exact hy

/-- An aligned pattern has an arbitrary symbol wherever the other ends in a
remainder. -/
theorem Aligned.concat_rest (h : Aligned as (bs ++ [.rest])) :
    ∃ init, as = init ++ [.any] ∧ Aligned init bs := by
  have hInit := List.forall₂_take_append as bs [.rest] h
  have hLast := List.forall₂_drop_append as bs [.rest] h
  have hSplit := List.take_append_drop bs.length as
  generalize as.take bs.length = init at hInit hSplit
  generalize as.drop bs.length = last at hLast hSplit
  cases hLast with
  | cons hab hNil =>
    cases hNil
    rcases hab.2 with rfl | rfl
    · exact ⟨init, hSplit.symm, hInit⟩
    · exact absurd rfl hab.1

/-- The walk of the second pattern along the first. It stops with success at
a remainder of the first pattern and otherwise asks both patterns to end
together, up to one final remainder of the first. -/
def Covers : List (Seg α) → List (Seg α) → Prop
  | ps, [] => ps = [] ∨ ps = [.rest]
  | [], _ :: _ => False
  | .rest :: _, _ :: _ => True
  | .any :: ps, _ :: qs => Covers ps qs
  | .lit a :: ps, q :: qs => .lit a = q ∧ Covers ps qs

theorem covers_cons_iff {p q : Seg α} (hp : p ≠ .rest) :
    Covers (p :: ps) (q :: qs) ↔ (p = .any ∨ p = q) ∧ Covers ps qs := by
  cases p with
  | lit a => simp [Covers]
  | any => simp [Covers]
  | rest => exact absurd rfl hp

/-- The three ways in which the walk succeeds: at a remainder in the middle of
the walk, at the end of both patterns, or one remainder past the end. -/
theorem covers_iff : Covers ps qs ↔
      (∃ as tail bs more, ps = as ++ .rest :: tail ∧ qs = bs ++ more ∧ more ≠ [] ∧ Aligned as bs) ∨
      Aligned ps qs ∨ ∃ as, ps = as ++ [.rest] ∧ Aligned as qs := by
  constructor
  · intro h
    induction qs generalizing ps with
    | nil =>
      rcases (by simpa [Covers] using h : ps = [] ∨ ps = [.rest]) with rfl | rfl
      · exact Or.inr (Or.inl .nil)
      · exact Or.inr (Or.inr ⟨[], rfl, .nil⟩)
    | cons q qs ih =>
      cases ps with
      | nil => exact absurd h (by simp [Covers])
      | cons p ps =>
        by_cases hp : p = .rest
        · subst hp
          exact Or.inl ⟨[], ps, [], q :: qs, rfl, rfl, by simp, .nil⟩
        · obtain ⟨hpq, hTail⟩ := (covers_cons_iff hp).mp h
          rcases ih hTail with ⟨as, tail, bs, more, rfl, rfl, hMore, hAlign⟩ | hAlign |
            ⟨as, rfl, hAlign⟩
          · exact Or.inl ⟨p :: as, tail, q :: bs, more, rfl, rfl, hMore, .cons ⟨hp, hpq⟩ hAlign⟩
          · exact Or.inr (Or.inl (.cons ⟨hp, hpq⟩ hAlign))
          · exact Or.inr (Or.inr ⟨p :: as, rfl, .cons ⟨hp, hpq⟩ hAlign⟩)
  · rintro (⟨as, tail, bs, more, rfl, rfl, hMore, hAlign⟩ | hAlign | ⟨as, rfl, hAlign⟩)
    · induction hAlign with
      | nil =>
        obtain ⟨q, more, rfl⟩ := List.exists_cons_of_ne_nil hMore
        simp [Covers]
      | cons hab _ ih => exact (covers_cons_iff hab.1).mpr ⟨hab.2, ih⟩
    · induction hAlign with
      | nil => simp [Covers]
      | cons hab _ ih => exact (covers_cons_iff hab.1).mpr ⟨hab.2, ih⟩
    · induction hAlign with
      | nil => simp [Covers]
      | cons hab _ ih => exact (covers_cons_iff hab.1).mpr ⟨hab.2, ih⟩

/-- On a sequence of fixed symbols the walk decides membership. -/
theorem Matches.covers_lit (h : Matches ps xs) (hps : RestLast ps) : Covers ps (xs.map .lit) := by
  induction ps generalizing xs with
  | nil => simp [matches_nil_iff.mp h, Covers]
  | cons p ps ih =>
    by_cases hp : p = .rest
    · subst hp
      rw [hps.1 rfl]
      cases xs <;> simp [Covers]
    · obtain ⟨x, ys, rfl, hFit, hTail⟩ := (matches_cons_iff hp).mp h
      rw [List.map_cons, covers_cons_iff hp]
      refine ⟨?_, ih hTail hps.2⟩
      cases p with
      | lit a => exact Or.inr (congrArg Seg.lit hFit.symm)
      | any => exact Or.inl rfl
      | rest => exact absurd rfl hp

/-- The walk compared an arbitrary symbol of the first pattern with a final
remainder of the second. -/
def Overrun (ps qs : List (Seg α)) : Prop :=
  ∃ as bs, qs = bs ++ [.rest] ∧ Aligned as bs ∧ (ps = as ++ [.any] ∨ ps = as ++ [.any, .rest])

theorem Overrun.covers (h : Overrun ps qs) : Covers ps qs := by
  obtain ⟨as, bs, rfl, hAlign, rfl | rfl⟩ := h
  · refine covers_iff.mpr (Or.inr (Or.inl ?_))
    exact List.rel_append hAlign (.cons ⟨by simp, Or.inl rfl⟩ .nil)
  · refine covers_iff.mpr (Or.inr (Or.inr ⟨as ++ [.any], by simp, ?_⟩))
    exact List.rel_append hAlign (.cons ⟨by simp, Or.inl rfl⟩ .nil)

/-- Apart from that comparison, a successful walk is inclusion. -/
theorem Covers.matches_or_overrun (h : Covers ps qs) (hps : RestLast ps) (hqs : RestLast qs)
    (hMatch : Matches qs xs) : Matches ps xs ∨ Overrun ps qs := by
  rcases covers_iff.mp h with ⟨as, tail, bs, more, rfl, rfl, hMore, hAlign⟩ | hAlign |
    ⟨as, rfl, hAlign⟩
  · grind [matches_append_iff, RestLast.not_mem_left, matches_rest, Aligned.fits]
  · rcases hqs.not_mem_or_concat with hRest | ⟨bs, rfl, -⟩
    · grind [matches_iff_forall₂, Aligned.rest_not_mem, Aligned.fits]
    · obtain ⟨init, rfl, hInit⟩ := hAlign.concat_rest
      exact Or.inr ⟨init, bs, rfl, hInit, Or.inl rfl⟩
  · rcases hqs.not_mem_or_concat with hRest | ⟨bs, rfl, -⟩
    · refine Or.inl ((matches_append_iff _ _ hAlign.rest_not_mem).mpr
        ⟨xs, [], by simp, ?_, matches_rest⟩)
      exact hAlign.fits ((matches_iff_forall₂ hRest).mp hMatch)
    · obtain ⟨init, rfl, hInit⟩ := hAlign.concat_rest
      exact Or.inr ⟨init, bs, rfl, hInit, Or.inr (by simp)⟩

section

variable (h : Aligned as bs) (hbs : Seg.rest ∉ bs) (hMatch : Matches (bs ++ [.rest]) xs)
include h hbs hMatch

/-- The first pattern of an overrun still has to consume one symbol there. -/
theorem Aligned.matches_any_iff : Matches (as ++ [.any]) xs ↔ xs.length = bs.length + 1 := by
  have hLength := List.Forall₂.length_eq h
  constructor
  · intro hAny
    have hRest : Seg.rest ∉ as ++ [.any] := by simp [h.rest_not_mem]
    have hFit := List.Forall₂.length_eq ((matches_iff_forall₂ hRest).mp hAny)
    simpa [hLength] using hFit.symm
  · grind [matches_append_iff, List.Forall₂.length_eq, List.length_eq_one_iff, Aligned.rest_not_mem,
      Aligned.fits, Matches]

theorem Aligned.matches_any_rest_iff :
    Matches (as ++ [.any, .rest]) xs ↔ bs.length < xs.length := by
  have hLength := List.Forall₂.length_eq h
  constructor
  · intro hAny
    obtain ⟨ys, zs, rfl, hys, hzs⟩ := (matches_append_iff _ _ h.rest_not_mem).mp hAny
    have hFit := List.Forall₂.length_eq hys
    cases zs with
    | nil => simp [Matches] at hzs
    | cons z zs =>
      simp only [List.length_append, List.length_cons]
      omega
  · intro hxs
    obtain ⟨ys, zs, rfl, hys, -⟩ := (matches_append_iff _ _ hbs).mp hMatch
    have hFit := List.Forall₂.length_eq hys
    obtain ⟨z, zs, rfl⟩ := List.exists_cons_of_length_pos
      (by simp at hxs; omega : 0 < zs.length)
    exact (matches_append_iff _ _ h.rest_not_mem).mpr
      ⟨ys, z :: zs, rfl, h.fits hys, by simp [Matches]⟩

end

end LevelPattern
