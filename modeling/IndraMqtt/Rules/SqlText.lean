import IndraMqtt.Kernel.TenantExpression

/-! The scanners of a rule's SQL text. Both walk over the characters and, at a letter that can
begin their keyword, compare the four bytes from there, whether or not the fourth of them ends a
character. What `char::is_alphanumeric` holds of is left open. -/
namespace IndraMqtt.Rules

open Protocol Protocol.Str Kernel

variable {σ : Type}

/-- `str::eq_ignore_ascii_case` with a text of small letters. -/
def eqIgnoreAsciiCase (text small : Str) : Bool := text.map Char.toLower == small

/-- What the loops of both functions share: the keyword, the letters it begins with, and a state
along the text that says where the keyword counts. -/
structure Scanner (σ : Type) where
  keyword : Str
  letters : List Char
  isWord : Char → Bool
  counts : σ → Bool
  next : σ → Char → σ

namespace Scanner

variable (scanner : Scanner σ)

/-- The test at one character, with `none` for the panic of a slice that ends inside of one. -/
def keywordAt (state : σ) (before : Str) : Str → Option Bool
  | [] => some false
  | c :: rest =>
    if scanner.counts state ∧ c ∈ scanner.letters ∧ 4 ≤ len (c :: rest) then
      (splitAtByte (c :: rest) 4).map fun parts =>
        eqIgnoreAsciiCase parts.1 scanner.keyword &&
          (before.isEmpty || !scanner.isWord (before.getLast?.getD ' ')) &&
          (parts.2.isEmpty || !scanner.isWord (parts.2.head?.getD ' '))
    else some false

def find (state : σ) (before : Str) : Str → Option (Option (Str × Str))
  | [] => some none
  | c :: rest =>
    (scanner.keywordAt state before (c :: rest)).bind fun found =>
      if found then some (some (before, c :: rest))
      else find (scanner.next state c) (before ++ [c]) rest

end Scanner

def quotes : Str := "\"'\x60".toList

variable (alphanumeric : Char → Bool)

/-! ### `normalize_from_target` -/

def fromScanner : Scanner Unit where
  keyword := "from".toList
  letters := ['f', 'F']
  isWord c := alphanumeric c || c == '_'
  counts _ := true
  next _ _ := ()

def rewriteTarget (before rest : Str) : Str :=
  let space := (rest.drop 4).takeWhile isWhitespace
  let kept := before ++ rest.take 4 ++ space ++ "stream".toList
  match (rest.drop 4).dropWhile isWhitespace with
  | [] => before ++ rest
  | first :: target =>
    if first ∈ quotes then
      match target.dropWhile (· ≠ first) with
      | [] => before ++ rest
      | _ :: behind => kept ++ behind
    else kept ++ (first :: target).dropWhile fun c => !(isWhitespace c || c ∈ [';', ',', '(', ')'])

def normalizeFromTarget (sql : Str) : Option Str :=
  ((fromScanner alphanumeric).find () [] sql).map fun found =>
    found.elim sql fun parts => rewriteTarget parts.1 parts.2

/-! ### `split_into_connector` -/

inductive RuleEngineError where
  | invalidRule (reason : String)
  deriving DecidableEq, Repr

def invalid (reason : String) : RuleEngineError := .invalidRule ("invalid INTO clause: " ++ reason)

/-- The open parentheses, as the release build counts them, and the quote that is open. -/
structure Nesting where
  depth : UInt32
  inString : Option Char
  deriving DecidableEq, Repr

def Nesting.next (nesting : Nesting) (c : Char) : Nesting :=
  match nesting.inString with
  | some quote => if c = quote then { nesting with inString := none } else nesting
  | none =>
    if c ∈ quotes then { nesting with inString := some c }
    else if c = '(' then { nesting with depth := nesting.depth + 1 }
    else if c = ')' then { nesting with depth := nesting.depth - min nesting.depth 1 }
    else nesting

def intoScanner : Scanner Nesting where
  keyword := "into".toList
  letters := ['i', 'I']
  isWord c := alphanumeric c || c == '_'
  counts nesting := nesting.inString.isNone && nesting.depth == 0
  next := Nesting.next

def trimEndMatches (matched : Char → Bool) (text : Str) : Str :=
  (text.reverse.dropWhile matched).reverse

def intoClause (isWord : Char → Bool) (before rest : Str) :
    Except RuleEngineError (Str × Option Str) :=
  let target := (rest.drop 4).dropWhile isWhitespace
  if !eqIgnoreAsciiCase (target.takeWhile isWord) "connector".toList then
    .error (invalid "INTO must target connector(\"<id>\")")
  else
    match (target.dropWhile isWord).dropWhile isWhitespace with
    | '(' :: arguments =>
      match arguments.dropWhile isWhitespace with
      | quote :: text =>
        if quote ∈ "\"'".toList then
          match text.dropWhile (· ≠ quote) with
          | [] => .error (invalid "unterminated connector id")
          | _ :: close =>
            match close.dropWhile isWhitespace with
            | ')' :: tail =>
              let id := text.takeWhile (· ≠ quote)
              let trimmed := trimEndMatches isWhitespace (trimEndMatches (· == ';') (trim tail))
              if id.isEmpty then .error (invalid "connector id must not be empty")
              else if !trimmed.isEmpty then
                .error (invalid "unexpected trailing input after ')'")
              else .ok (trimEndMatches isWhitespace before, some id)
            | _ => .error (invalid "expected ')' after connector id")
        else .error (invalid "connector id must be quoted")
      | [] => .error (invalid "connector id must be quoted")
    | _ => .error (invalid "expected '(' after connector")

def splitIntoConnector (sql : Str) : Option (Except RuleEngineError (Str × Option Str)) :=
  ((intoScanner alphanumeric).find ⟨0, none⟩ [] sql).map fun found =>
    found.elim (.ok (sql, none)) fun parts =>
      intoClause (intoScanner alphanumeric).isWord parts.1 parts.2

/-! ### When a scanner panics -/

namespace Scanner

variable {scanner : Scanner σ}

/-- A place where the keyword is looked for and the fourth byte ends inside a character. -/
def Cut (scanner : Scanner σ) (state : σ) (rest : Str) : Prop :=
  scanner.counts state ∧ (∃ c ∈ scanner.letters, rest.head? = some c) ∧ 4 ≤ len rest ∧
    splitAtByte rest 4 = none

theorem keywordAt_eq_none_iff {state : σ} {before rest : Str} :
    scanner.keywordAt state before rest = none ↔ scanner.Cut state rest := by
  cases rest with
  | nil => simp [keywordAt, Cut]
  | cons c rest =>
    rw [keywordAt, Cut]
    split_ifs <;> simp_all

/-- No keyword is found at any of the first characters. -/
def Passes (scanner : Scanner σ) (state : σ) (before front rest : Str) : Prop :=
  ∀ first c last, front = first ++ c :: last →
    scanner.keywordAt (first.foldl scanner.next state) (before ++ first) (c :: last ++ rest) ≠
      some true

theorem passes_cons {state : σ} {before front rest : Str} {c : Char} :
    scanner.Passes state before (c :: front) rest ↔
      scanner.keywordAt state before (c :: front ++ rest) ≠ some true ∧
        scanner.Passes (scanner.next state c) (before ++ [c]) front rest := by
  constructor
  · intro hPasses
    refine ⟨by simpa using hPasses [] c front rfl, ?_⟩
    rintro first d last rfl
    simpa using hPasses (c :: first) d last rfl
  · rintro ⟨hHere, hPasses⟩ first d last hFront
    cases first with
    | nil =>
      obtain ⟨rfl, rfl⟩ := List.cons.inj hFront
      simpa using hHere
    | cons e first =>
      obtain ⟨rfl, rfl⟩ := List.cons.inj hFront
      simpa using hPasses first d last rfl

/-- The scanner meets a cut before its keyword. -/
def Stumbles (scanner : Scanner σ) (state : σ) (before rest : Str) : Prop :=
  ∃ front tail, rest = front ++ tail ∧ scanner.Cut (front.foldl scanner.next state) tail ∧
    scanner.Passes state before front tail

theorem find_eq_none_iff (state : σ) (before rest : Str) :
    scanner.find state before rest = none ↔ scanner.Stumbles state before rest := by
  induction rest generalizing state before with
  | nil => simp [find, Stumbles, Cut]
  | cons c rest ih =>
    rw [find]
    constructor
    · intro hPanic
      cases hHere : scanner.keywordAt state before (c :: rest) with
      | none => exact ⟨[], c :: rest, rfl, keywordAt_eq_none_iff.mp hHere, by simp [Passes]⟩
      | some found =>
        cases found with
        | true => simp [hHere] at hPanic
        | false =>
          rw [hHere] at hPanic
          obtain ⟨front, tail, rfl, hCut, hPasses⟩ := (ih _ _).mp hPanic
          exact ⟨c :: front, tail, rfl, hCut, passes_cons.mpr ⟨by simp [hHere], hPasses⟩⟩
    · rintro ⟨front, tail, hSplit, hCut, hPasses⟩
      cases front with
      | nil => grind [keywordAt_eq_none_iff]
      | cons d front =>
        obtain ⟨rfl, rfl⟩ := List.cons.inj hSplit
        obtain ⟨hHere, hPasses⟩ := passes_cons.mp hPasses
        have hRest := (ih _ _).mpr ⟨front, tail, rfl, hCut, hPasses⟩
        simp_all

theorem isSome_find_iff (state : σ) (rest : Str) :
    (scanner.find state [] rest).isSome ↔ ¬scanner.Stumbles state [] rest := by
  rw [Option.isSome_iff_ne_none, Ne, find_eq_none_iff]

end Scanner

/-- Both functions return for a text exactly when, in front of the keyword that each is looking
for, no letter that can begin it has its fourth byte inside a character. -/
theorem scanners_return_iff (alphanumeric : Char → Bool) (sql : Str) :
    ((normalizeFromTarget alphanumeric sql).isSome ↔
      ¬(fromScanner alphanumeric).Stumbles () [] sql) ∧
    ((splitIntoConnector alphanumeric sql).isSome ↔
      ¬(intoScanner alphanumeric).Stumbles ⟨0, none⟩ [] sql) := by
  constructor
  · rw [normalizeFromTarget, Option.isSome_map, Scanner.isSome_find_iff]
  · rw [splitIntoConnector, Option.isSome_map, Scanner.isSome_find_iff]

/-- A column `profité` in front of FROM, and a column `inté` in front of INTO. -/
theorem accented_columns_panic :
    normalizeFromTarget Char.isAlphanum "SELECT profité FROM s".toList = none ∧
      splitIntoConnector Char.isAlphanum "SELECT inté FROM s".toList = none ∧
      normalizeFromTarget Char.isAlphanum "SELECT prix FROM \"capteurs/été\"".toList =
        some "SELECT prix FROM stream".toList ∧
      splitIntoConnector Char.isAlphanum "SELECT a FROM s INTO connector( 'r1' ) ;".toList =
        some (.ok ("SELECT a FROM s".toList, some "r1".toList)) := by
  decide +kernel

/-! ### What `normalize_from_target` rewrites -/

/-- The search for FROM outside of quotes and parentheses. -/
def topScanner : Scanner Nesting :=
  { intoScanner alphanumeric with keyword := "from".toList, letters := ['f', 'F'] }

def endsTarget (c : Char) : Bool := isWhitespace c || c ∈ [';', ',', '(', ')']

/-- What stands behind FROM: a quoted text, or what goes up to a character that ends it. -/
inductive IsTarget : Str → Str → Prop
  | quoted {quote : Char} {name : Str} (behind : Str) (hQuote : quote ∈ quotes)
      (hName : quote ∉ name) : IsTarget (quote :: name ++ [quote]) behind
  | bare {target behind : Str} (hTarget : ∀ c ∈ target, endsTarget c = false)
      (hBehind : ∀ c ∈ behind.head?, endsTarget c = true) : IsTarget target behind

/-- The text is the same but for the target behind the keyword, if it has one. -/
def TargetOnly (before rest result : Str) : Prop :=
  result = before ++ rest ∨ ∃ space target behind, (∀ c ∈ space, isWhitespace c = true) ∧
    IsTarget target behind ∧ rest.drop 4 = space ++ (target ++ behind) ∧
    result = before ++ rest.take 4 ++ space ++ "stream".toList ++ behind

theorem rewriteTarget_targetOnly (before rest : Str) :
    TargetOnly before rest (rewriteTarget before rest) := by
  have hRest := (List.takeWhile_append_dropWhile (p := isWhitespace) (l := rest.drop 4)).symm
  have hSpace : ∀ c ∈ (rest.drop 4).takeWhile isWhitespace, isWhitespace c = true :=
    fun _ => List.mem_takeWhile_imp
  unfold rewriteTarget
  split
  · exact .inl rfl
  next first target hTarget =>
  rw [hTarget] at hRest
  split
  · next hQuote =>
    split
    · exact .inl rfl
    · next close behind hClose =>
      have hName := List.takeWhile_append_dropWhile (p := (· ≠ first)) (l := target)
      have hHead := List.head?_dropWhile_not (· ≠ first) target
      rw [hClose] at hName hHead
      obtain rfl : close = first := by simpa using hHead
      have hFree : close ∉ target.takeWhile (· ≠ close) :=
        fun hMem => by simpa using List.mem_takeWhile_imp hMem
      refine .inr ⟨_, _, behind, hSpace, .quoted behind hQuote hFree, ?_, rfl⟩
      rw [List.append_assoc, List.cons_append, List.singleton_append, hName]
      exact hRest
  · refine .inr ⟨_, (first :: target).takeWhile (!endsTarget ·), _, hSpace,
      .bare (fun c hMem => by simpa using List.mem_takeWhile_imp hMem) fun c hMem => ?_, ?_, rfl⟩
    · have hHead := List.head?_dropWhile_not (!endsTarget ·) (first :: target)
      change (List.dropWhile (!endsTarget ·) (first :: target)).head? = some c at hMem
      simpa [hMem] using hHead
    · exact hRest.trans (congrArg _ List.takeWhile_append_dropWhile.symm)

variable {alphanumeric : Char → Bool}

theorem keywordAt_topScanner (nesting : Nesting) (before rest : Str) :
    (topScanner alphanumeric).keywordAt nesting before rest =
      if (topScanner alphanumeric).counts nesting then
        (fromScanner alphanumeric).keywordAt () before rest
      else some false := by
  cases rest <;> simp [Scanner.keywordAt, topScanner, intoScanner, fromScanner]
  grind

/-- A FROM at the top level that is the first one of all is the first one of the top level. -/
theorem find_topScanner (nesting : Nesting) {before rest front tail : Str}
    (hFound : (fromScanner alphanumeric).find () before rest = some (some (front, tail)))
    (hTop : ∀ between, front = before ++ between →
      between.foldl Nesting.next nesting = ⟨0, none⟩) : before ++ rest = front ++ tail ∧
      (topScanner alphanumeric).find nesting before rest = some (some (front, tail)) := by
  induction rest generalizing nesting before with
  | nil => cases hFound
  | cons c rest ih =>
    rw [Scanner.find] at hFound ⊢
    rw [keywordAt_topScanner]
    cases hHere : (fromScanner alphanumeric).keywordAt () before (c :: rest) with
    | none => simp [hHere] at hFound
    | some found =>
      cases found with
      | true =>
        simp only [hHere, Option.bind_some, if_true] at hFound
        cases hFound
        obtain rfl : nesting = ⟨0, none⟩ := hTop [] (List.append_nil _).symm
        exact ⟨rfl, rfl⟩
      | false =>
        rw [hHere, Option.bind_some, if_neg Bool.false_ne_true] at hFound
        rw [ite_self, Option.bind_some, if_neg Bool.false_ne_true]
        have hRest := ih _ hFound fun between hFront => hTop (c :: between) (by simp [hFront])
        rwa [List.append_assoc] at hRest

end IndraMqtt.Rules
