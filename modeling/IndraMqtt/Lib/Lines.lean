import Mathlib.Data.List.Infix

/-! Texts made of lines. A line ends at a line feed, and a carriage return in front of it
belongs to the line end. The text behind the last line feed is a line when it is not empty. The
alphabet is arbitrary, so that a file can be read as bytes or as characters. -/
namespace Lines

variable {α β : Type} [DecidableEq α] [DecidableEq β]

def chomp (cr : α) (line : List α) : List α :=
  if line.getLast? = some cr then line.dropLast else line

def linesFrom (lf cr : α) (line : List α) : List α → List (List α)
  | [] => if line.isEmpty then [] else [line]
  | c :: text =>
    if c = lf then chomp cr line :: linesFrom lf cr [] text
    else linesFrom lf cr (line ++ [c]) text

def lines (lf cr : α) (text : List α) : List (List α) := linesFrom lf cr [] text

def unlines (lf : α) (ls : List (List α)) : List α := ls.flatMap fun line => line ++ [lf]

variable {lf cr : α}

variable {line text : List α}

theorem linesFrom_append {front : List α} (hFront : lf ∉ front) (text : List α) :
    linesFrom lf cr line (front ++ text) = linesFrom lf cr (line ++ front) text := by
  induction front generalizing line with
  | nil => rw [List.nil_append, List.append_nil]
  | cons c front ih => grind [linesFrom]

/-- What stands behind a line does not change it. -/
theorem lines_line (hLine : lf ∉ line) (text : List α) :
    lines lf cr (line ++ lf :: text) = chomp cr line :: lines lf cr text := by
  rw [lines, linesFrom_append hLine, List.nil_append, linesFrom, if_pos rfl, lines]

theorem lines_unlines {ls : List (List α)} (hLines : ∀ line ∈ ls, lf ∉ line) (text : List α) :
    lines lf cr (unlines lf ls ++ text) = ls.map (chomp cr) ++ lines lf cr text := by
  induction ls with
  | nil => rfl
  | cons line ls ih => simp_all [unlines, lines_line]

/-- A text without a line feed is at most one line. -/
theorem lines_of_not_mem (hText : lf ∉ text) :
    lines lf cr text = if text.isEmpty then [] else [text] := by
  have hAppend : linesFrom lf cr [] (text ++ []) = linesFrom lf cr ([] ++ text) [] :=
    linesFrom_append hText []
  rw [List.append_nil, List.nil_append] at hAppend
  rw [lines, hAppend, linesFrom]

theorem linesFrom_concat (line text more : List α) : linesFrom lf cr line (text ++ lf :: more) =
      linesFrom lf cr line (text ++ [lf]) ++ lines lf cr more := by
  induction text generalizing line with
  | nil =>
    rw [List.nil_append, List.nil_append, linesFrom, if_pos rfl, linesFrom, if_pos rfl]
    rfl
  | cons c text ih => grind [linesFrom]

def AtStart (lf : α) (text : List α) : Prop := text = [] ∨ text.getLast? = some lf

instance (text : List α) : Decidable (AtStart lf text) := inferInstanceAs (Decidable (_ ∨ _))

/-- What is added at the start of a line leaves the lines in front of it. -/
theorem lines_append (hStart : AtStart lf text) (more : List α) :
    lines lf cr (text ++ more) = lines lf cr text ++ lines lf cr more := by
  rcases hStart with rfl | hLast
  · rfl
  · obtain ⟨front, rfl⟩ := List.getLast?_eq_some_iff.mp hLast
    rw [List.append_assoc, List.singleton_append]
    exact linesFrom_concat [] front more

theorem length_lines_part (hLine : lf ∉ line) (hPart : text <+: line ++ [lf]) :
    (lines lf cr text).length ≤ 1 := by
  grind [List.prefix_concat_iff, lines_line, lines_of_not_mem]

theorem not_mem_of_mem_linesFrom {found : List α} (hLine : lf ∉ line)
    (hFound : found ∈ linesFrom lf cr line text) : lf ∉ found := by
  induction text generalizing line with
  | nil => simp_all [linesFrom]
  | cons c text ih => grind [linesFrom, chomp, List.mem_of_mem_dropLast]

/-! ### Lines of an encoded text -/

structure KeepsLines (code : α → List β) (lf cr : α) (lf' cr' : β) : Prop where
  feed : code lf = [lf']
  back : code cr = [cr']
  nonempty : ∀ c, code c ≠ []
  inside : ∀ c, lf' ∈ code c → c = lf
  last : ∀ c, (code c).getLast? = some cr' → c = cr

section Code

variable {code : α → List β} {lf' cr' : β}

section

variable (hCode : KeepsLines code lf cr lf' cr')
include hCode

theorem KeepsLines.chomp (line : List α) :
    chomp cr' (line.flatMap code) = (Lines.chomp cr line).flatMap code := by
  induction line using List.reverseRecOn with
  | nil => rfl
  | append_singleton front c _ =>
    have hLast : ((front ++ [c]).flatMap code).getLast? = (code c).getLast? := by
      rw [List.flatMap_append, List.flatMap_singleton,
        List.getLast?_append_of_ne_nil _ (hCode.nonempty c)]
    rw [Lines.chomp, hLast, Lines.chomp, List.getLast?_concat]
    by_cases hBack : c = cr
    · rw [hBack, hCode.back, if_pos List.getLast?_singleton, if_pos rfl, List.flatMap_append,
        List.flatMap_singleton, hCode.back, List.dropLast_concat, List.dropLast_concat]
    · rw [if_neg fun hLast => hBack (hCode.last c hLast),
        if_neg fun hSame => hBack (Option.some.inj hSame)]

theorem KeepsLines.linesFrom (line text : List α) :
    linesFrom lf' cr' (line.flatMap code) (text.flatMap code) =
      (Lines.linesFrom lf cr line text).map (·.flatMap code) := by
  induction text generalizing line with
  | nil =>
    rw [List.flatMap_nil, Lines.linesFrom, Lines.linesFrom]
    cases line with
    | nil => rfl
    | cons c line =>
      have hSome : ((c :: line).flatMap code).isEmpty = false := by
        rw [List.flatMap_cons]
        exact List.isEmpty_eq_false_iff.mpr fun hNil =>
          hCode.nonempty c (List.append_eq_nil_iff.mp hNil).1
      rw [hSome]
      rfl
  | cons c text ih =>
    rw [List.flatMap_cons]
    by_cases hFeed : c = lf
    · rw [hFeed, hCode.feed, List.singleton_append, Lines.linesFrom, if_pos rfl,
        Lines.linesFrom, if_pos rfl, List.map_cons, hCode.chomp]
      exact congrArg _ (ih [])
    · have hInside : lf' ∉ code c := fun hMem => hFeed (hCode.inside c hMem)
      grind [linesFrom_append, linesFrom]

theorem KeepsLines.lines (text : List α) :
    lines lf' cr' (text.flatMap code) = (Lines.lines lf cr text).map (·.flatMap code) :=
  hCode.linesFrom [] text

end

end Code

end Lines
