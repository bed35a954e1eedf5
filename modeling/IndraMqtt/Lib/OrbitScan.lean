import Mathlib.Logic.Function.Iterate

/-! The search for the first accepted element along the orbit of a function. A
search over a periodic orbit is decided by one period. -/
namespace OrbitScan

variable {α : Type*}

/-- The first accepted element among `a, next a, next (next a), …`, looking at
no more than the given number of them. -/
def scan (next : α → α) (accept : α → Bool) : Nat → α → Option α
  | 0, _ => none
  | rounds + 1, a => if accept a then some a else scan next accept rounds (next a)

variable {next : α → α} {accept : α → Bool}

variable {rounds : Nat} {a b : α}

/-- What a search returns is accepted and lies on the orbit. -/
theorem scan_some (hScan : scan next accept rounds a = some b) :
    accept b = true ∧ ∃ k < rounds, next^[k] a = b := by
  induction rounds generalizing a with
  | zero => cases hScan
  | succ rounds ih =>
    rw [scan] at hScan
    split at hScan
    · next hAccept =>
      cases hScan
      exact ⟨hAccept, 0, Nat.succ_pos _, rfl⟩
    · obtain ⟨hAccept, k, hLess, hOrbit⟩ := ih hScan
      exact ⟨hAccept, k + 1, Nat.succ_lt_succ hLess, hOrbit⟩

theorem scan_eq_none_iff :
    scan next accept rounds a = none ↔ ∀ k < rounds, accept (next^[k] a) = false := by
  induction rounds generalizing a with
  | zero => simp [scan]
  | succ rounds ih =>
    rw [scan]
    split
    · next hAccept =>
      simp only [reduceCtorEq, false_iff]
      intro hNone
      have hFirst := hNone 0 (Nat.succ_pos _)
      simp [hAccept] at hFirst
    · next hReject =>
      rw [ih]
      constructor
      · intro hNone k hLess
        cases k with
        | zero => simpa using hReject
        | succ k => exact hNone k (Nat.lt_of_succ_lt_succ hLess)
      · intro hNone k hLess
        exact hNone (k + 1) (Nat.succ_lt_succ hLess)

/-- More rounds do not change a result. -/
theorem scan_mono {more : Nat} (hScan : scan next accept rounds a = some b) (hLe : rounds ≤ more) :
    scan next accept more a = some b := by
  induction rounds generalizing a more with
  | zero => cases hScan
  | succ rounds ih =>
    obtain ⟨more, rfl⟩ : ∃ m, more = m + 1 := ⟨more - 1, by omega⟩
    grind [scan]

/-- One period of the orbit decides the search. -/
theorem scan_of_period {period : Nat} (hPos : 0 < period) (hPeriod : next^[period] a = a)
    (hScan : scan next accept rounds a = some b) : scan next accept period a = some b := by
  have hReturns : scan next accept period a ≠ none := by
    intro hNone
    obtain ⟨hAccept, k, -, hOrbit⟩ := scan_some hScan
    have hWrap : next^[k % period] a = b := by
      calc next^[k % period] a
          = next^[k % period] ((next^[period])^[k / period] a) := by
            rw [Function.iterate_fixed hPeriod]
        _ = next^[k] a := by
            rw [← Function.iterate_mul, ← Function.iterate_add_apply, Nat.mod_add_div]
        _ = b := hOrbit
    grind [scan_eq_none_iff, Nat.mod_lt]
  obtain ⟨c, hFound⟩ := Option.ne_none_iff_exists'.mp hReturns
  grind [scan_mono]

end OrbitScan
