import Mathlib.Data.List.DropRight
import Mathlib.Data.List.Nodup

/-! Templates. A table gives a value to each pattern, and one pass over the text puts the
values in the place of the patterns. Where the patterns all start with the same two marks,
replacing them one after the other gives the same text, unless the marks are left in it. -/
namespace IndraMqtt.Template

variable {α : Type} {mark next : α}

/-! ### Patterns -/

/-- Patterns that start with two marks. The first mark occurs nowhere else in them, and no
pattern starts another one. -/
structure Marked (mark next : α) (patterns : List (List α)) : Prop where
  shape : ∀ p ∈ patterns, ∃ body, p = mark :: next :: body ∧ mark ∉ next :: body
  unique : ∀ p ∈ patterns, ∀ q ∈ patterns, p <+: q → p = q
  nodup : patterns.Nodup

open List (mem_map_of_mem mem_singleton mem_cons_of_mem)

theorem Marked.of_cons {p : List α} {patterns : List (List α)}
    (hMarked : Marked mark next (p :: patterns)) : Marked mark next patterns where
  shape q hMem := hMarked.shape q (mem_cons_of_mem p hMem)
  unique q hMem r hMem' := hMarked.unique q (mem_cons_of_mem p hMem) r
    (mem_cons_of_mem p hMem')
  nodup := (List.nodup_cons.mp hMarked.nodup).2

theorem Marked.single {p : List α} {patterns : List (List α)}
    (hMarked : Marked mark next (p :: patterns)) : Marked mark next [p] where
  shape q hMem := hMarked.shape q (mem_singleton.mp hMem ▸ List.mem_cons_self)
  unique _ hMem _ hMem' _ := (mem_singleton.mp hMem).trans (mem_singleton.mp hMem').symm
  nodup := List.pairwise_singleton _ p

theorem Marked.eq_of_start {patterns : List (List α)} (hMarked : Marked mark next patterns)
    {p q text : List α} (hP : p ∈ patterns) (hQ : q ∈ patterns) (hStart : p <+: text)
    (hStart' : q <+: text) : p = q := by
  cases List.prefix_or_prefix_of_prefix hStart hStart' with
  | inl hPrefix => exact hMarked.unique p hP q hQ hPrefix
  | inr hPrefix => exact (hMarked.unique q hQ p hP hPrefix).symm

theorem infix_cons_of_head {text : List α} (hHead : text.head? = some next) :
    [mark, next] <:+: mark :: text := by
  cases text with
  | nil => cases hHead
  | cons c text =>
    cases hHead
    exact ⟨[], text, rfl⟩

/-- What starts with a mark does not start in a text without it. -/
theorem infix_of_append {body pattern rest : List α} (hFree : mark ∉ body)
    (hInfix : mark :: pattern <:+: body ++ rest) : mark :: pattern <:+: rest := by
  induction body with
  | nil => exact hInfix
  | cons c body ih => grind [List.infix_cons_iff]

variable [DecidableEq α] {table : List (List α × List α)}

/-! ### Substitution in one pass -/

/-- The pass over the text; the first number counts what is left of a pattern. -/
def substituteLoop (table : List (List α × List α)) : Nat → List α → List α
  | _, [] => []
  | skip + 1, _ :: rest => substituteLoop table skip rest
  | 0, c :: rest =>
    match table.find? fun entry => entry.1.isPrefixOf (c :: rest) with
    | some entry => entry.2 ++ substituteLoop table (entry.1.length - 1) rest
    | none => c :: substituteLoop table 0 rest

def substitute (table : List (List α × List α)) (text : List α) : List α :=
  substituteLoop table 0 text

theorem substituteLoop_eq (skip : Nat) (text : List α) :
    substituteLoop table skip text = substitute table (text.drop skip) := by
  induction skip generalizing text with
  | zero => rfl
  | succ skip ih =>
    cases text with
    | nil => rfl
    | cons c text =>
      rw [substituteLoop, ih]
      rfl

theorem substitute_plain {c : α} {rest : List α}
    (hNone : ∀ entry ∈ table, ¬ entry.1 <+: c :: rest) :
    substitute table (c :: rest) = c :: substitute table rest := by
  grind [substitute, substituteLoop]

theorem substitute_empty (text : List α) : substitute [] text = text := by
  induction text with
  | nil => rfl
  | cons c text ih => rw [substitute_plain fun _ hMem => absurd hMem List.not_mem_nil, ih]

section

variable (hMarked : Marked mark next (table.map Prod.fst))
include hMarked

theorem substitute_pattern {entry : List α × List α} (hMem : entry ∈ table) (rest : List α) :
    substitute table (entry.1 ++ rest) = entry.2 ++ substitute table rest := by
  obtain ⟨body, hShape, -⟩ := hMarked.shape entry.1 (mem_map_of_mem hMem)
  have hFind : table.find? (fun other => other.1.isPrefixOf (entry.1 ++ rest)) = some entry := by
    cases hFound : table.find? fun other => other.1.isPrefixOf (entry.1 ++ rest) with
    | none => grind
    | some found =>
      have hFoundMem := List.mem_of_find?_eq_some hFound
      have hStart : found.1 <+: entry.1 ++ rest := by grind
      have hSame : found.1 = entry.1 := hMarked.eq_of_start (mem_map_of_mem hFoundMem)
        (mem_map_of_mem hMem) hStart (List.prefix_append entry.1 rest)
      have hInj := List.inj_on_of_nodup_map hMarked.nodup
      rw [hInj hFoundMem hMem hSame]
  grind [substitute, substituteLoop, substituteLoop_eq]

/-- Where no pattern starts, the text is kept. -/
theorem Marked.plain_of_ne {c : α} {rest : List α} (hFree : c = mark → rest.head? ≠ some next) :
    substitute table (c :: rest) = c :: substitute table rest := by
  apply substitute_plain
  intro entry hMem hStart
  obtain ⟨body, hShape, -⟩ := hMarked.shape entry.1 (mem_map_of_mem hMem)
  obtain ⟨tail, hTail⟩ := hStart
  rw [hShape] at hTail
  cases hTail
  exact hFree rfl rfl

/-- The second mark starts no pattern, so it stays where it is. -/
theorem Marked.head_next (hNe : next ≠ mark) {text : List α} (hHead : text.head? = some next) :
    (substitute table text).head? = some next := by
  cases text with
  | nil => cases hHead
  | cons c text =>
    cases hHead
    rw [hMarked.plain_of_ne fun hEq => absurd hEq hNe]
    rfl

/-- A text in front of which nothing completes a mark is kept, letter by letter. -/
theorem Marked.substitute_kept (hNe : next ≠ mark) {value rest : List α}
    (hClean : ¬ [mark, next] <:+: value ++ substitute table rest) :
    substitute table (value ++ rest) = value ++ substitute table rest := by
  induction value with
  | nil => rfl
  | cons c value ih =>
    -- the marks would stand next to each other in the result as well
    grind [List.infix_cons, Marked.plain_of_ne, Marked.head_next, infix_cons_of_head]

end

/-- What stands at the start of a text: nothing, a pattern of the table, or a plain letter. -/
theorem start_cases (table : List (List α × List α)) (text : List α) :
    text = [] ∨ (∃ entry ∈ table, ∃ rest, text = entry.1 ++ rest) ∨
      ∃ c rest, text = c :: rest ∧ ∀ entry ∈ table, ¬ entry.1 <+: text := by
  cases text with
  | nil => exact .inl rfl
  | cons c rest =>
    by_cases hStart : ∃ entry ∈ table, entry.1 <+: c :: rest
    · obtain ⟨entry, hMem, tail, hTail⟩ := hStart
      exact .inr (.inl ⟨entry, hMem, tail, hTail.symm⟩)
    · grind

/-- A text without the first mark is kept. -/
theorem Marked.substitute_free (hMarked : Marked mark next (table.map Prod.fst))
    {body rest : List α} (hFree : mark ∉ body) :
    substitute table (body ++ rest) = body ++ substitute table rest := by
  induction body with
  | nil => rfl
  | cons c body ih => grind [Marked.plain_of_ne]

/-- Replacing one pattern leaves the others as they are. -/
theorem Marked.substitute_other {p v : List α}
    (hMarked : Marked mark next ((p, v) :: table |>.map Prod.fst)) {entry : List α × List α}
    (hMem : entry ∈ table) (rest : List α) :
    substitute [(p, v)] (entry.1 ++ rest) = entry.1 ++ substitute [(p, v)] rest := by
  have hSingle : Marked mark next ([(p, v)].map Prod.fst) := hMarked.single
  have hEntry : entry.1 ∈ table.map Prod.fst := mem_map_of_mem hMem
  obtain ⟨body, hShape, hFree⟩ := hMarked.shape entry.1 (mem_cons_of_mem p hEntry)
  have hNone : ∀ other ∈ [(p, v)], ¬ other.1 <+: mark :: (next :: body ++ rest) := by
    intro other hOther hStart
    rw [mem_singleton.mp hOther] at hStart
    have hWhole : entry.1 <+: mark :: (next :: body ++ rest) := by
      rw [hShape]
      exact ⟨rest, rfl⟩
    have hSame := hMarked.eq_of_start List.mem_cons_self (mem_cons_of_mem p hEntry) hStart hWhole
    exact (List.nodup_cons.mp hMarked.nodup).1 (hSame ▸ hEntry)
  rw [hShape, List.cons_append, substitute_plain hNone, hSingle.substitute_free hFree]
  rfl

/-- One replacement followed by the others at once is the substitution of all of them. -/
theorem Marked.substitute_cons (hNe : next ≠ mark) {p v : List α}
    (hMarked : Marked mark next ((p, v) :: table |>.map Prod.fst)) (text : List α)
    (hClean : ¬ [mark, next] <:+: substitute ((p, v) :: table) text) :
    substitute table (substitute [(p, v)] text) = substitute ((p, v) :: table) text := by
  have hRest : Marked mark next (table.map Prod.fst) := hMarked.of_cons
  have hSingle : Marked mark next ([(p, v)].map Prod.fst) := hMarked.single
  induction hLength : text.length using Nat.strong_induction_on generalizing text with
  | _ n ih =>
    obtain rfl | ⟨entry, hMem, rest, rfl⟩ | ⟨c, rest, rfl, hNone⟩ :=
      start_cases ((p, v) :: table) text
    · rfl
    · obtain ⟨body, hShape, -⟩ := hMarked.shape entry.1 (mem_map_of_mem hMem)
      have hShorter : rest.length < n := by grind
      grind [substitute_pattern, Marked.substitute_kept, Marked.substitute_other]
    · have hShorter : rest.length < n := by
        rw [← hLength]
        exact Nat.lt_succ_self _
      rw [substitute_plain hNone] at hClean ⊢
      have hTail := ih rest.length hShorter rest
        (fun hInfix => hClean (List.infix_cons hInfix)) rfl
      have hFirst : substitute [(p, v)] (c :: rest) = [c] ++ substitute [(p, v)] rest :=
        substitute_plain fun other hOther =>
          hNone other (mem_singleton.mp hOther ▸ List.mem_cons_self)
      grind [Marked.substitute_kept]

/-- Replacing the patterns one after the other is the same as replacing them at once, when the
result does not show the marks. -/
theorem Marked.foldl_substitute (hNe : next ≠ mark)
    (hMarked : Marked mark next (table.map Prod.fst)) (text : List α)
    (hClean : ¬ [mark, next] <:+: substitute table text) :
    table.foldl (fun text entry => substitute [entry] text) text = substitute table text := by
  induction table generalizing text with
  | nil => exact (substitute_empty text).symm
  | cons entry table ih => grind [Marked.substitute_cons, Marked.of_cons]

/-- The value of one pattern stands between pieces that do not depend on it. -/
theorem Marked.exists_pieces {before after : List (List α × List α)} {p : List α}
    (hMarked : ∀ v, Marked mark next ((before ++ (p, v) :: after).map Prod.fst)) (text : List α) :
    ∃ (first : List α) (pieces : List (List α)),
      (∀ v, substitute (before ++ (p, v) :: after) text =
        first ++ pieces.flatMap fun piece => v ++ piece) ∧
      (p <:+: text → pieces ≠ []) := by
  induction hLength : text.length using Nat.strong_induction_on generalizing text with
  | _ n ih =>
    have hPattern : ∀ v, (p, v) ∈ before ++ (p, v) :: after :=
      fun v => List.mem_append_right before List.mem_cons_self
    obtain ⟨body, hP, -⟩ := (hMarked []).shape p (mem_map_of_mem (hPattern []))
    obtain rfl | ⟨entry, hMem, rest, rfl⟩ | ⟨c, rest, rfl, hNone⟩ :=
      start_cases (before ++ (p, []) :: after) text
    · refine ⟨[], [], fun v => rfl, fun hInfix => ?_⟩
      rw [hP] at hInfix
      cases List.infix_nil.mp hInfix
    · obtain ⟨body', hShape, hFree⟩ := (hMarked []).shape entry.1 (mem_map_of_mem hMem)
      have hShorter : rest.length < n := by grind
      obtain ⟨first, pieces, hEq, hSome⟩ := ih rest.length hShorter rest rfl
      by_cases hSame : entry.1 = p
      · refine ⟨[], first :: pieces, fun v => ?_, fun _ => List.cons_ne_nil _ _⟩
        have hHead := substitute_pattern (hMarked v) (hPattern v) rest
        grind
      · have hOther : ∀ v, entry ∈ before ++ (p, v) :: after := by grind
        refine ⟨entry.2 ++ first, pieces, fun v => ?_, fun hInfix => hSome ?_⟩
        · rw [substitute_pattern (hMarked v) (hOther v), hEq v, List.append_assoc]
        · rw [hShape, List.cons_append] at hInfix
          cases List.infix_cons_iff.mp hInfix with
          | inl hStart =>
            have hWhole : entry.1 <+: mark :: (next :: body' ++ rest) := ⟨rest, by rw [hShape]; rfl⟩
            have hEq := (hMarked []).eq_of_start (mem_map_of_mem hMem)
              (mem_map_of_mem (hPattern [])) hWhole hStart
            exact absurd hEq hSame
          | inr hTail =>
            rw [hP] at hTail ⊢
            exact infix_of_append hFree hTail
    · have hShorter : rest.length < n := by
        rw [← hLength]
        exact Nat.lt_succ_self _
      obtain ⟨first, pieces, hEq, hSome⟩ := ih rest.length hShorter rest rfl
      refine ⟨c :: first, pieces, fun v => ?_, fun hInfix => hSome ?_⟩
      · have hNone' : ∀ entry ∈ before ++ (p, v) :: after, ¬ entry.1 <+: c :: rest := by
          intro entry hMem
          grind
        rw [substitute_plain hNone', hEq v]
        rfl
      · grind [List.infix_cons_iff]

/-! ### Surrounding blanks -/

section Strip

variable {β : Type} {blank : β → Bool} {text : List β}

def strip (blank : β → Bool) (text : List β) : List β :=
  (text.dropWhile blank).rdropWhile blank

def solid (blank : β → Bool) (text : List β) : Nat := text.countP fun c => !blank c

theorem solid_append (text rest : List β) :
    solid blank (text ++ rest) = solid blank text + solid blank rest :=
  List.countP_append

theorem dropWhile_eq_nil (hBlank : solid blank text = 0) : text.dropWhile blank = [] :=
  List.dropWhile_eq_nil_iff.mpr (by simpa [solid, List.countP_eq_zero] using hBlank)

theorem solid_dropWhile (text : List β) : solid blank (text.dropWhile blank) = solid blank text := by
  induction text with
  | nil => rfl
  | cons c text ih => grind [List.dropWhile_cons_of_pos, solid, List.dropWhile_cons_of_neg]

theorem solid_reverse (text : List β) : solid blank text.reverse = solid blank text :=
  List.countP_reverse

theorem solid_strip (text : List β) : solid blank (strip blank text) = solid blank text := by
  rw [strip, List.rdropWhile, solid_reverse, solid_dropWhile, solid_reverse, solid_dropWhile]

theorem strip_eq_nil (hBlank : solid blank text = 0) : strip blank text = [] := by
  rw [strip, dropWhile_eq_nil hBlank, List.rdropWhile_nil]

/-- Blanks at the start are dropped up to the first letter. -/
theorem dropWhile_append (hSolid : solid blank text ≠ 0) (rest : List β) :
    (text ++ rest).dropWhile blank = text.dropWhile blank ++ rest := by
  have hSome : (text.dropWhile blank).isEmpty = false := by simp_all [solid]
  rw [List.dropWhile_append, hSome, if_neg Bool.false_ne_true]

theorem rdropWhile_append (hSolid : solid blank text ≠ 0) (front : List β) :
    (front ++ text).rdropWhile blank = front ++ text.rdropWhile blank := by
  simp_all [solid_reverse, List.rdropWhile, dropWhile_append]

theorem rdropWhile_blank {rest : List β} (hBlank : solid blank rest = 0) (text : List β) :
    (text ++ rest).rdropWhile blank = text.rdropWhile blank := by
  have hNil : rest.reverse.dropWhile blank = [] := dropWhile_eq_nil (by rwa [solid_reverse])
  rw [List.rdropWhile, List.reverse_append, List.dropWhile_append, hNil]
  rfl

/-- Of two starts of a text that end in a letter, the one with as many letters is the same. -/
theorem eq_of_starts {start start' text : List β} (hStart : start <+: text)
    (hStart' : start' <+: text) (hSolid : solid blank start = solid blank start')
    (hEnd : start.rdropWhile blank = start) (hEnd' : start'.rdropWhile blank = start') :
    start = start' := by
  have hLonger : ∀ short long : List β, short <+: long → solid blank short = solid blank long →
      long.rdropWhile blank = long → short = long := by
    rintro short long ⟨rest, rfl⟩ hCount hLast
    grind [solid_append, rdropWhile_blank, List.rdropWhile_prefix, List.length_append,
      List.length_eq_zero_iff]
  grind [List.prefix_or_prefix_of_prefix]

/-- Of two ends of a text that start with a letter, the one with as many letters is the same. -/
theorem eq_of_ends {tail tail' text : List β} (hTail : tail <:+ text) (hTail' : tail' <:+ text)
    (hSolid : solid blank tail = solid blank tail') (hFirst : tail.dropWhile blank = tail)
    (hFirst' : tail'.dropWhile blank = tail') : tail = tail' := by
  have hMirror : ∀ part : List β, part.dropWhile blank = part →
      part.reverse.rdropWhile blank = part.reverse := by
    intro part hPart
    rw [List.rdropWhile_reverse, hPart]
  have hReverse := eq_of_starts (List.reverse_prefix.mpr hTail) (List.reverse_prefix.mpr hTail')
    (by rw [solid_reverse, solid_reverse, hSolid]) (hMirror tail hFirst) (hMirror tail' hFirst')
  exact List.reverse_injective hReverse

theorem rdropWhile_strip (text : List β) : (strip blank text).rdropWhile blank = strip blank text :=
  List.rdropWhile_idempotent blank _

theorem dropWhile_strip (text : List β) : (strip blank text).dropWhile blank = strip blank text := by
  by_cases hBlank : solid blank text = 0
  · rw [strip_eq_nil hBlank]
    rfl
  · have hSolid : solid blank (strip blank text) ≠ 0 := by rwa [solid_strip]
    obtain ⟨rest, hRest⟩ := List.rdropWhile_prefix blank (text.dropWhile blank)
    have hDrop := List.dropWhile_idempotent blank (l := text)
    rw [← hRest] at hDrop
    have hKept := dropWhile_append hSolid rest
    exact List.append_cancel_right (hKept.symm.trans hDrop)

theorem strip_append_right (hSolid : solid blank text ≠ 0) (rest : List β) :
    strip blank text <+: strip blank (text ++ rest) := by
  grind [strip, dropWhile_append, rdropWhile_blank, rdropWhile_append, List.rdropWhile_prefix]

theorem strip_append_left (hSolid : solid blank text ≠ 0) (front : List β) :
    strip blank text <:+ strip blank (front ++ text) := by
  have hOwn : strip blank text <:+ text.rdropWhile blank := by
    obtain ⟨blanks, hBlanks⟩ := List.dropWhile_suffix blank (l := text)
    have hDropped : solid blank (text.dropWhile blank) ≠ 0 := by rwa [solid_dropWhile]
    have hSplit := rdropWhile_append hDropped blanks
    rw [hBlanks] at hSplit
    exact ⟨blanks, hSplit.symm⟩
  grind [strip, List.dropWhile_append, dropWhile_eq_nil, dropWhile_append, rdropWhile_append]

/-- A value between pieces is known from the whole, up to the blanks around it. -/
theorem strip_eq_of_pieces {first value value' : List β} {pieces : List (List β)}
    (hPieces : pieces ≠ [])
    (hSame : strip blank (first ++ pieces.flatMap fun piece => value ++ piece) =
      strip blank (first ++ pieces.flatMap fun piece => value' ++ piece)) :
    strip blank value = strip blank value' := by
  have hCount : ∀ (v : List β) (ps : List (List β)),
      solid blank (ps.flatMap fun piece => v ++ piece) =
        ps.length * solid blank v + solid blank ps.flatten := by
    intro v ps
    induction ps with
    | nil => simp [solid]
    | cons piece ps ih => grind [solid_append]
  have hTotal := congrArg (solid blank) hSame
  rw [solid_strip, solid_strip, solid_append, solid_append, hCount, hCount] at hTotal
  have hSolid : solid blank value = solid blank value' :=
    Nat.eq_of_mul_eq_mul_left (List.length_pos_iff.mpr hPieces) (by omega)
  by_cases hBlank : solid blank value = 0
  · rw [strip_eq_nil hBlank, strip_eq_nil (hSolid ▸ hBlank)]
  · have hBlank' : solid blank value' ≠ 0 := hSolid ▸ hBlank
    cases pieces with
    | nil => exact absurd rfl hPieces
    | cons piece pieces =>
      have hSplit : ∀ v : List β, first ++ (piece :: pieces).flatMap (fun piece => v ++ piece) =
          (first ++ v) ++ (piece ++ pieces.flatMap fun piece => v ++ piece) := by
        intro v
        simp
      rw [hSplit value, hSplit value'] at hSame
      -- first what comes before the first piece is found, then the value at its end
      have hFront : strip blank (first ++ value) = strip blank (first ++ value') := by
        have hStart := strip_append_right (by rw [solid_append]; omega :
          solid blank (first ++ value) ≠ 0) (piece ++ pieces.flatMap fun piece => value ++ piece)
        grind [strip_append_right, solid, eq_of_starts, solid_strip, rdropWhile_strip]
      grind [eq_of_ends, strip_append_left, solid_strip, dropWhile_strip]

end Strip

end IndraMqtt.Template
