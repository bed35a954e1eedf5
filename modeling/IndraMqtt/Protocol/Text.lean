
/-! Rust string slices. A `str` is a sequence of Unicode scalar values, while
every position that the broker computes on it counts bytes of the UTF-8
encoding, so that a slice can fall inside a character. -/
namespace IndraMqtt.Protocol

/-- The scalar values of a Rust `str`, in order. -/
abbrev Str := List Char

namespace Str

/-- `str::len`: the length of the UTF-8 encoding, not of the scalar sequence. -/
def len : Str → Nat
  | [] => 0
  | c :: s => c.utf8Size + len s

/-- `str::find` of one character: the byte position of its first occurrence. -/
def find : Str → Char → Option Nat
  | [], _ => none
  | d :: s, c => if d = c then some 0 else (find s c).map (d.utf8Size + ·)

/-- Splitting at a byte position, which exists only on a character boundary. -/
def splitAtByte : Str → Nat → Option (Str × Str)
  | s, 0 => some ([], s)
  | [], _ + 1 => none
  | c :: s, n + 1 =>
    if c.utf8Size ≤ n + 1 then
      (splitAtByte s (n + 1 - c.utf8Size)).map fun parts => (c :: parts.1, parts.2)
    else none

/-- The index expression `&s[start..stop]`. The value `none` is the panic that
the standard library raises off a character boundary. -/
def slice (s : Str) (start stop : Nat) : Option Str :=
  if start ≤ stop then
    (splitAtByte s start).bind fun parts =>
      (splitAtByte parts.2 (stop - start)).map Prod.fst
  else none

/-- `str::split('/')`: the levels of a topic or of a filter. -/
def levels (s : Str) : List Str := List.splitOn '/' s

@[simp] theorem len_nil : len [] = 0 := rfl

variable (s t : Str) (c : Char)

@[simp] theorem len_cons (s : Str) : len (c :: s) = c.utf8Size + len s := rfl

@[simp] theorem len_append : len (s ++ t) = len s + len t := by
  induction s with
  | nil => simp
  | cons c s ih =>
    rw [List.cons_append, len_cons, len_cons, ih, Nat.add_assoc]

theorem len_replicate (n : Nat) (c : Char) : len (List.replicate n c) = n * c.utf8Size := by
  induction n with
  | zero => simp
  | succ n ih => rw [List.replicate_succ, len_cons, ih, Nat.succ_mul, Nat.add_comm]

theorem len_eq_zero_iff : len s = 0 ↔ s = [] := by
  cases s with
  | nil => simp
  | cons c s =>
    have hc := c.utf8Size_pos
    simp only [len_cons, reduceCtorEq, iff_false]
    omega

/-- A successful search splits the string at the first occurrence. -/
theorem find_eq_some_iff (pos : Nat) :
    find s c = some pos ↔ ∃ before after, s = before ++ c :: after ∧ c ∉ before ∧ pos = len before := by
  induction s generalizing pos with
  | nil => simp [find]
  | cons d s ih =>
    by_cases h : d = c
    · subst h
      simp only [find, if_true, Option.some.injEq]
      constructor
      · rintro rfl
        exact ⟨[], s, rfl, by simp, rfl⟩
      · rintro ⟨before, after, hs, hc, rfl⟩
        cases before with
        | nil => rfl
        | cons b before => simp_all
    · simp only [find, if_neg h, Option.map_eq_some_iff, ih]
      constructor
      · rintro ⟨_, ⟨before, after, rfl, hc, rfl⟩, rfl⟩
        exact ⟨d :: before, after, rfl, by simp [hc, Ne.symm h], by simp⟩
      · rintro ⟨before, after, hs, hc, rfl⟩
        cases before with
        | nil => simp_all
        | cons b before => grind [len]

theorem find_eq_none_iff : find s c = none ↔ c ∉ s := by
  induction s with
  | nil => simp [find]
  | cons d s ih =>
    by_cases h : d = c
    · simp [find, h]
    · simp [find, h, ih, Ne.symm h]

@[simp] theorem splitAtByte_zero : splitAtByte s 0 = some ([], s) := by
  cases s <;> rfl

theorem splitAtByte_append (n : Nat) : splitAtByte (s ++ t) (len s + n) =
      (splitAtByte t n).map fun parts => (s ++ parts.1, parts.2) := by
  induction s with
  | nil => simp
  | cons c s ih =>
    have hc := c.utf8Size_pos
    obtain ⟨k, hk⟩ : ∃ k, len (c :: s) + n = k + 1 := ⟨len (c :: s) + n - 1, by simp; omega⟩
    have hrest : k + 1 - c.utf8Size = len s + n := by
      rw [← hk, len_cons]
      omega
    have hfits : c.utf8Size ≤ k + 1 := by
      rw [← hk, len_cons]
      omega
    simp_all [splitAtByte, Function.comp_def]

/-- A position strictly inside the next character is not a boundary. -/
theorem splitAtByte_inside (k : Nat) (hk : 0 < k) (hc : k < c.utf8Size) :
    splitAtByte (s ++ c :: t) (len s + k) = none := by
  rw [splitAtByte_append]
  obtain ⟨j, rfl⟩ : ∃ j, k = j + 1 := ⟨k - 1, by omega⟩
  rw [splitAtByte, if_neg (by omega)]
  rfl

/-- Slicing out the last byte before position `len s + c.utf8Size` succeeds
exactly when that byte is a whole character. -/
theorem slice_last_byte : slice (s ++ c :: t) (len s + c.utf8Size - 1) (len s + c.utf8Size) =
      if c.utf8Size = 1 then some [c] else none := by
  have hpos := c.utf8Size_pos
  rw [slice, if_pos (by omega)]
  by_cases hc : c.utf8Size = 1
  · rw [if_pos hc, hc, Nat.add_sub_cancel, Nat.add_sub_cancel_left]
    have hsplit := splitAtByte_append s (c :: t) 0
    simp_all [splitAtByte]
  · have hshape : len s + c.utf8Size - 1 = len s + (c.utf8Size - 1) := by omega
    rw [if_neg hc, hshape, splitAtByte_inside s t c (c.utf8Size - 1) (by omega) (by omega)]
    rfl

theorem levels_ne_nil : levels s ≠ [] := List.splitOn_ne_nil _ s

@[simp] theorem levels_nil : levels [] = [[]] := List.splitOn_nil _

theorem levels_append_slash : levels (s ++ '/' :: t) = levels s ++ levels t :=
  List.splitOn_append_cons_self s t

theorem levels_of_not_mem (h : '/' ∉ s) : levels s = [s] := List.splitOn_eq_singleton h

/-- Splitting loses the separators and nothing else. -/
theorem mem_iff_mem_levels (hc : c ≠ '/') : c ∈ s ↔ ∃ level ∈ levels s, c ∈ level := by
  induction s with
  | nil => simp
  | cons d s ih =>
    by_cases hd : d = '/'
    · subst hd
      rw [show '/' :: s = [] ++ '/' :: s from rfl, levels_append_slash]
      simp [ih, hc]
    · have hCons : levels (d :: s) = (levels s).modifyHead (d :: ·) := by
        simp [levels, List.splitOn_cons_eq_if_modifyHead, hd]
      obtain ⟨l, ls, hls⟩ := List.exists_cons_of_ne_nil (levels_ne_nil s)
      rw [hCons, hls, List.mem_cons, ih, hls]
      simp [or_assoc]

theorem slash_not_mem_level : ∀ level ∈ levels s, '/' ∉ level := by
  induction s with
  | nil => simp
  | cons d s ih =>
    by_cases hd : d = '/'
    · subst hd
      rw [show '/' :: s = [] ++ '/' :: s from rfl, levels_append_slash]
      simpa using ih
    · have hCons : levels (d :: s) = (levels s).modifyHead (d :: ·) := by
        simp [levels, List.splitOn_cons_eq_if_modifyHead, hd]
      obtain ⟨l, ls, hls⟩ := List.exists_cons_of_ne_nil (levels_ne_nil s)
      rw [hls] at ih
      rw [hCons, hls]
      simpa [Ne.symm hd] using ih

theorem levels_injective : Function.Injective levels := by
  intro s t h
  have hs := @List.intercalate_splitOn Char s _ _ '/'
  rw [show List.splitOn '/' s = List.splitOn '/' t from h, List.intercalate_splitOn] at hs
  exact hs.symm

/-- Every nonempty sequence of separator-free levels is the split of a text. -/
theorem exists_levels_eq (ls : List Str) (hne : ls ≠ []) (hSlash : ∀ level ∈ ls, '/' ∉ level) :
    ∃ s, levels s = ls :=
  ⟨_, List.splitOn_intercalate '/' hSlash hne⟩

end Str

end IndraMqtt.Protocol
