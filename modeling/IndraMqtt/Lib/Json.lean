import IndraMqtt.Lib.AssocList
import Mathlib.Algebra.GroupWithZero.Nat
import Mathlib.Data.List.DropRight
import Mathlib.Tactic.Common

/-! JSON texts. The parser takes a value off the front of a text and returns it with the rest.
Its nesting is bounded, and the bound is what its recursion descends on. Objects keep the order
in which their members were set. Numbers are kept exactly when they are naturals of 64 bits;
any other number is kept as it was written. The writer is for objects whose members are not
nested, and the parser reads back what it writes. -/
namespace Json

variable {c : Char} {rest text : List Char}

inductive Number where
  | natural (n : UInt64)
  | other (literal : List Char)
  deriving DecidableEq

inductive Value where
  | null
  | bool (b : Bool)
  | number (n : Number)
  | string (text : List Char)
  | array (items : List Value)
  | object (members : List (List Char × Value))

namespace Value

def get? : Value → List Char → Option Value
  | object members, key => AssocList.get members key
  | _, _ => none

def asU64 : Value → Option UInt64
  | number (.natural n) => some n
  | _ => none

def asStr : Value → Option (List Char)
  | string text => some text
  | _ => none

def asBool : Value → Option Bool
  | bool b => some b
  | _ => none

def asArray : Value → Option (List Value)
  | array items => some items
  | _ => none

end Value

/-! ### Strings -/

def isSpace (c : Char) : Bool := c == ' ' || c == '\n' || c == '\t' || c == '\r'

def skipSpace (text : List Char) : List Char := text.dropWhile isSpace

def unescape (letter : Char) : Option Char :=
  if letter = '"' then some '"'
  else if letter = '\\' then some '\\'
  else if letter = '/' then some '/'
  else if letter = 'b' then some '\x08'
  else if letter = 'f' then some '\x0c'
  else if letter = 'n' then some '\n'
  else if letter = 'r' then some '\r'
  else if letter = 't' then some '\t'
  else none

def hexDigits : List Char := "0123456789abcdef".toList

def hexValue (c : Char) : Option Nat := hexDigits.idxOf? c.toLower

def hexFour (a b c d : Char) : Option Nat :=
  (hexValue a).bind fun a => (hexValue b).bind fun b => (hexValue c).bind fun c =>
    (hexValue d).map fun d => ((a * 16 + b) * 16 + c) * 16 + d

/-- What is at the front of the rest of a string: its closing quote or a character. -/
inductive Piece where
  | stop (rest : List Char)
  | char (c : Char) (rest : List Char)

/-- The character of a code unit. The first half of a surrogate pair is completed by a second
escape, and no half stands alone. -/
def codeUnit (n : Nat) (rest : List Char) : Option Piece :=
  if 0xDC00 ≤ n ∧ n ≤ 0xDFFF then none
  else if 0xD800 ≤ n ∧ n ≤ 0xDBFF then
    match rest with
    | '\\' :: 'u' :: a :: b :: c :: d :: rest =>
      (hexFour a b c d).bind fun low =>
        if 0xDC00 ≤ low ∧ low ≤ 0xDFFF then
          some (.char (Char.ofNat (0x10000 + (n - 0xD800) * 1024 + (low - 0xDC00))) rest)
        else none
    | _ => none
  else some (.char (Char.ofNat n) rest)

def piece : List Char → Option Piece
  | [] => none
  | first :: rest =>
    if first = '"' then some (.stop rest)
    else if first = '\\' then
      match rest with
      | 'u' :: a :: b :: c :: d :: rest => (hexFour a b c d).bind fun n => codeUnit n rest
      | letter :: rest => (unescape letter).map fun c => .char c rest
      | [] => none
    else if first.toNat < 32 then none
    else some (.char first rest)

/-- The rest of a string up to its closing quote. Each turn takes a character at least. -/
def pieces : Nat → List Char → Option (List Char × List Char)
  | 0, _ => none
  | turns + 1, text =>
    (piece text).bind fun
      | .stop rest => some ([], rest)
      | .char c rest => (pieces turns rest).map fun taken => (c :: taken.1, taken.2)

def stringBody (text : List Char) : Option (List Char × List Char) := pieces text.length text

/-! ### Numbers -/

def digits (text : List Char) : Option (List Char × List Char) :=
  let front := text.takeWhile Char.isDigit
  if front.isEmpty then none else some (front, text.dropWhile Char.isDigit)

def whole (text : List Char) : Option (List Char × List Char) :=
  (digits text).bind fun taken =>
    if taken.1.head? = some '0' ∧ 1 < taken.1.length then none else some taken

def fraction : List Char → Option (Option (List Char) × List Char)
  | [] => some (none, [])
  | c :: rest =>
    if c = '.' then (digits rest).map fun taken => (some taken.1, taken.2)
    else some (none, c :: rest)

def exponent : List Char → Option (Option Int × List Char)
  | [] => some (none, [])
  | c :: rest =>
    if c = 'e' ∨ c = 'E' then
      let sign := rest.head?.filter fun c => c == '+' || c == '-'
      (digits (if sign.isSome then rest.tail else rest)).map fun taken =>
        let n : Int := Nat.ofDigitChars 10 taken.1 0
        (some (if sign = some '-' then -n else n), taken.2)
    else some (none, c :: rest)

/-- The number `mantissa * 10 ^ power` is beyond the finite numbers of double precision. -/
def tooLarge (mantissa : List Char) (power : Int) : Bool :=
  let n := Nat.ofDigitChars 10 mantissa 0
  let limit := 2 ^ 1024 - 2 ^ 970
  if n = 0 then false
  else if power + mantissa.length < 300 then false
  else if 310 < power then true
  else limit * 10 ^ (-power).toNat ≤ n * 10 ^ power.toNat

def number (text : List Char) : Option (Number × List Char) :=
  let negative := text.head? = some '-'
  (whole (if negative then text.tail else text)).bind fun front =>
    (fraction front.2).bind fun behind =>
      (exponent behind.2).bind fun power =>
        let n := Nat.ofDigitChars 10 front.1 0
        if ¬ negative ∧ behind.1 = none ∧ power.1 = none ∧ n < 2 ^ 64 then
          some (.natural (UInt64.ofNat n), power.2)
        else
          let decimals := behind.1.getD []
          if tooLarge (front.1 ++ decimals) (power.1.getD 0 - decimals.length) then none
          else some (.other (text.take (text.length - power.2.length)), power.2)

/-! ### Values -/

section Parser

variable {A : Type}

def items (item : List Char → Option (A × List Char)) (close : Char) :
    Nat → List Char → Option (List A × List Char)
  | 0, _ => none
  | turns + 1, text =>
    (item text).bind fun first =>
      match skipSpace first.2 with
      | [] => none
      | c :: rest =>
        if c = ',' then
          (items item close turns rest).map fun others => (first.1 :: others.1, others.2)
        else if c = close then some ([first.1], rest)
        else none

def bracketed (item : List Char → Option (A × List Char)) (close : Char) (text : List Char) :
    Option (List A × List Char) :=
  if (skipSpace text).head? = some close then some ([], (skipSpace text).tail)
  else items item close text.length text

def member (value : List Char → Option (A × List Char)) (text : List Char) :
    Option ((List Char × A) × List Char) :=
  if (skipSpace text).head? = some '"' then
    (stringBody (skipSpace text).tail).bind fun key =>
      if (skipSpace key.2).head? = some ':' then
        (value (skipSpace key.2).tail).map fun taken => ((key.1, taken.1), taken.2)
      else none
  else none

def word (letters : List Char) (value : A) (text : List Char) : Option (A × List Char) :=
  (letters.isPrefixOf? text).map fun rest => (value, rest)

end Parser

/-- A value with at most `depth` brackets around each other. -/
def value : Nat → List Char → Option (Value × List Char)
  | depth, text =>
    match skipSpace text with
    | [] => none
    | first :: rest =>
      if first = 'n' then word "ull".toList .null rest
      else if first = 't' then word "rue".toList (.bool true) rest
      else if first = 'f' then word "alse".toList (.bool false) rest
      else if first = '"' then (stringBody rest).map fun taken => (.string taken.1, taken.2)
      else if first = '[' then
        match depth with
        | 0 => none
        | depth + 1 =>
          (bracketed (value depth) ']' rest).map fun taken => (.array taken.1, taken.2)
      else if first = '{' then
        match depth with
        | 0 => none
        | depth + 1 =>
          (bracketed (member (value depth)) '}' rest).map fun taken =>
            (.object (AssocList.setAll [] taken.1), taken.2)
      else (number (first :: rest)).map fun taken => (.number taken.1, taken.2)

def parse (depth : Nat) (text : List Char) : Option Value :=
  (value depth (text.rdropWhile isSpace)).bind fun taken =>
    if taken.2.isEmpty then some taken.1 else none

variable (depth : Nat) (fields : List (List Char × Scalar)) (scalar : Scalar)
  (field : List Char × Scalar)

theorem parse_space (text : List Char) (hSpace : isSpace c = true) :
    parse depth (text ++ [c]) = parse depth text := by
  rw [parse, List.rdropWhile_concat_pos _ _ _ hSpace, parse]

/-! ### Writing -/

inductive Scalar where
  | null
  | bool (b : Bool)
  | natural (n : UInt64)
  | string (text : List Char)

def Scalar.value : Scalar → Value
  | null => .null
  | bool b => .bool b
  | natural n => .number (.natural n)
  | string text => .string text

def escape (c : Char) : List Char :=
  if c = '"' then ['\\', '"']
  else if c = '\\' then ['\\', '\\']
  else if c = '\x08' then ['\\', 'b']
  else if c = '\t' then ['\\', 't']
  else if c = '\n' then ['\\', 'n']
  else if c = '\x0c' then ['\\', 'f']
  else if c = '\r' then ['\\', 'r']
  else if c.toNat < 32 then
    ['\\', 'u', '0', '0', hexDigits.getD (c.toNat / 16) '0', hexDigits.getD (c.toNat % 16) '0']
  else [c]

def quoted (text : List Char) : List Char := '"' :: (text.flatMap escape ++ ['"'])

def Scalar.print : Scalar → List Char
  | null => "null".toList
  | bool true => "true".toList
  | bool false => "false".toList
  | natural n => Nat.toDigits 10 n.toNat
  | string text => quoted text

def printMember : List Char := quoted field.1 ++ ':' :: field.2.print

def printRest : List (List Char × Scalar) → List Char
  | [] => ['}']
  | field :: fields => ',' :: (printMember field ++ printRest fields)

def printObject : List (List Char × Scalar) → List Char
  | [] => ['{', '}']
  | field :: fields => '{' :: (printMember field ++ printRest fields)

def membersOf : List (List Char × Value) :=
  fields.map fun field => (field.1, field.2.value)

/-! ### Reading back what is written -/

theorem skipSpace_cons (hSpace : isSpace c = false) (rest : List Char) :
    skipSpace (c :: rest) = c :: rest := by
  rw [skipSpace, List.dropWhile_cons_of_neg (by simp [hSpace])]

theorem hexFour_low : ∀ n < 32,
    hexFour '0' '0' (hexDigits.getD (n / 16) '0') (hexDigits.getD (n % 16) '0') =
    some n := by decide +kernel

theorem codeUnit_of_lt {n : Nat} (hLow : n < 0xD800) (rest : List Char) :
    codeUnit n rest = some (.char (Char.ofNat n) rest) := by
  unfold codeUnit
  rw [if_neg (by omega), if_neg (by omega)]

theorem piece_unicode (a b c d : Char) (rest : List Char) :
    piece ('\\' :: 'u' :: a :: b :: c :: d :: rest) =
      (hexFour a b c d).bind fun n => codeUnit n rest := rfl

theorem escape_cases (c : Char) :
    (∃ letter, unescape letter = some c ∧ letter ≠ 'u' ∧ 32 ≤ letter.toNat ∧
      escape c = ['\\', letter]) ∨
    (c.toNat < 32 ∧ escape c = ['\\', 'u', '0', '0', hexDigits.getD (c.toNat / 16) '0',
      hexDigits.getD (c.toNat % 16) '0']) ∨
    (c ≠ '"' ∧ c ≠ '\\' ∧ 32 ≤ c.toNat ∧ escape c = [c]) := by
  have hLetter : ∀ letter d, unescape letter = some d → letter ≠ 'u' → 32 ≤ letter.toNat →
      escape d = ['\\', letter] → c = d → ∃ letter, unescape letter = some c ∧ letter ≠ 'u' ∧
        32 ≤ letter.toNat ∧ escape c = ['\\', letter] := by simp_all
  by_cases hQuote : c = '"'
  · exact Or.inl (hLetter '"' _ rfl (by decide) (by decide) rfl hQuote)
  by_cases hBackslash : c = '\\'
  · exact Or.inl (hLetter '\\' _ rfl (by decide) (by decide) rfl hBackslash)
  by_cases hBackspace : c = '\x08'
  · exact Or.inl (hLetter 'b' _ rfl (by decide) (by decide) rfl hBackspace)
  by_cases hTab : c = '\t'
  · exact Or.inl (hLetter 't' _ rfl (by decide) (by decide) rfl hTab)
  by_cases hFeed : c = '\n'
  · exact Or.inl (hLetter 'n' _ rfl (by decide) (by decide) rfl hFeed)
  by_cases hForm : c = '\x0c'
  · exact Or.inl (hLetter 'f' _ rfl (by decide) (by decide) rfl hForm)
  by_cases hReturn : c = '\r'
  · exact Or.inl (hLetter 'r' _ rfl (by decide) (by decide) rfl hReturn)
  grind [escape]

theorem piece_letter {letter : Char} (hNot : letter ≠ 'u') (rest : List Char) :
    piece ('\\' :: letter :: rest) = (unescape letter).map fun c => .char c rest := by
  unfold piece
  simp_all

open List (cons_append append_assoc)

theorem piece_escape (c : Char) (rest : List Char) :
    piece (escape c ++ rest) = some (.char c rest) := by
  rcases escape_cases c with ⟨letter, hUnescape, hNot, -, hEscape⟩ | ⟨hLow, hEscape⟩ |
    ⟨hQuote, hBackslash, hHigh, hEscape⟩
  · simp_all [piece_letter]
  · rw [hEscape, cons_append, cons_append, cons_append, cons_append,
      cons_append, List.singleton_append, piece_unicode, hexFour_low c.toNat hLow,
      Option.bind_some, codeUnit_of_lt (by omega), Char.ofNat_toNat]
  · simp_all [piece]

theorem pieces_escaped {turns : Nat} (hTurns : text.length < turns) (rest : List Char) :
    pieces turns (text.flatMap escape ++ '"' :: rest) = some (text, rest) := by
  induction text generalizing turns with
  | nil =>
    cases turns with
    | zero => exact absurd hTurns (Nat.not_lt_zero _)
    | succ turns => rfl
  | cons c text ih =>
    cases turns with
    | zero => exact absurd hTurns (Nat.not_lt_zero _)
    | succ turns => simp_all [pieces, piece_escape]

theorem length_escape (c : Char) : 1 ≤ (escape c).length := by
  rcases escape_cases c with ⟨letter, -, -, -, hEscape⟩ | ⟨-, hEscape⟩ | ⟨-, -, -, hEscape⟩
  · rw [hEscape]
    exact Nat.le_add_left 1 1
  · rw [hEscape]
    exact Nat.le_add_left 1 5
  · rw [hEscape]
    exact Nat.le_refl 1

theorem length_escaped (text : List Char) : text.length ≤ (text.flatMap escape).length := by
  induction text with
  | nil => exact Nat.le_refl _
  | cons c text ih => grind [length_escape]

theorem stringBody_quoted (text rest : List Char) :
    stringBody (text.flatMap escape ++ '"' :: rest) = some (text, rest) := by
  apply pieces_escaped
  have hLength := length_escaped text
  rw [List.length_append, List.length_cons]
  omega

theorem head?_toDigits {n : Nat} (hPos : 0 < n) : (Nat.toDigits 10 n).head? ≠ some '0' := by
  induction n using Nat.strongRecOn with
  | ind n ih =>
    by_cases hSmall : n < 10
    · rw [Nat.toDigits_of_lt_base hSmall]
      have hDigit : ∀ n < 10, 0 < n → n.digitChar ≠ '0' := by decide +kernel
      exact fun hHead => hDigit n hSmall hPos (Option.some.inj hHead)
    · have hHigh : 0 < n / 10 := by omega
      have hSplit := Nat.toDigits_append_toDigits (b := 10) (by decide) hHigh
        (Nat.mod_lt n (by decide))
      grind [List.head?_append_of_ne_nil, Nat.toDigits_ne_nil]

/-- What stands behind a number that is a member. -/
def Ends (rest : List Char) : Prop := rest.head? = some ',' ∨ rest.head? = some '}'

theorem digits_append {front : List Char} (hFront : ∀ c ∈ front, c.isDigit = true)
    (hNonempty : front ≠ []) (hRest : ∀ c, rest.head? = some c → c.isDigit = false) :
    digits (front ++ rest) = some (front, rest) := by
  have hTake : rest.takeWhile Char.isDigit = [] := by
    cases rest with
    | nil => rfl
    | cons c rest => rw [List.takeWhile_cons_of_neg (by simp [hRest c rfl])]
  simp_all [digits]

theorem number_toDigits (n : UInt64) (hEnds : Ends rest) :
    number (Nat.toDigits 10 n.toNat ++ rest) = some (.natural n, rest) := by
  have hDigits : ∀ c ∈ Nat.toDigits 10 n.toNat, c.isDigit = true := fun c hMem =>
    Nat.isDigit_of_mem_toDigits (by decide) (by decide) hMem
  have hRest : ∀ c, rest.head? = some c → c.isDigit = false := by
    intro c hHead
    rcases hEnds with hEnd | hEnd
    all_goals cases hEnd.symm.trans hHead; rfl
  have hNonempty : Nat.toDigits 10 n.toNat ≠ [] := Nat.toDigits_ne_nil
  have hSign : (Nat.toDigits 10 n.toNat ++ rest).head? ≠ some '-' := by
    rw [List.head?_append_of_ne_nil _ hNonempty]
    intro hHead
    exact absurd (hDigits '-' (List.mem_of_mem_head? hHead)) (by decide)
  have hWhole : whole (Nat.toDigits 10 n.toNat ++ rest) = some (Nat.toDigits 10 n.toNat, rest) := by
    rw [whole, digits_append hDigits hNonempty hRest, Option.bind_some, if_neg]
    intro hZero
    by_cases hPos : 0 < n.toNat
    · exact head?_toDigits hPos hZero.1
    · simp_all
  have hBehind : fraction rest = some (none, rest) ∧ exponent rest = some (none, rest) := by
    cases rest with
    | nil => exact ⟨rfl, rfl⟩
    | cons c rest =>
      rcases hEnds with hEnd | hEnd
      all_goals cases Option.some.inj hEnd; exact ⟨rfl, rfl⟩
  have hValue : Nat.ofDigitChars 10 (Nat.toDigits 10 n.toNat) 0 = n.toNat :=
    Nat.ofDigitChars_toDigits (by decide) (by decide)
  simp only [number, hSign, if_false, hWhole, Option.bind_some, hBehind.1, hBehind.2, hValue]
  rw [if_pos ⟨not_false, trivial, trivial, n.toNat_lt⟩, UInt64.ofNat_toNat]

theorem value_of_digit (hDigit : c.isDigit = true) (depth : Nat) (rest : List Char) :
    value depth (c :: rest) =
      (number (c :: rest)).map fun taken => (.number taken.1, taken.2) := by
  have hOther : ∀ d : Char, d.isDigit = false → c ≠ d := by
    rintro d hNot rfl
    rw [hNot] at hDigit
    cases hDigit
  have hSpace : isSpace c = false := by
    simp [isSpace, hOther ' ' rfl, hOther '\n' rfl, hOther '\t' rfl, hOther '\r' rfl]
  simp_all [value, skipSpace_cons]

theorem value_quote (text : List Char) : value depth ('"' :: text) =
      (stringBody text).map fun taken => (.string taken.1, taken.2) := by
  unfold value
  rfl

theorem value_brace (text : List Char) : value (depth + 1) ('{' :: text) =
      (bracketed (member (value depth)) '}' text).map fun taken =>
        (.object (AssocList.setAll [] taken.1), taken.2) := by
  unfold value
  rfl

theorem quoted_append (text rest : List Char) :
    quoted text ++ rest = '"' :: (text.flatMap escape ++ '"' :: rest) := by
  rw [quoted, cons_append, append_assoc, List.singleton_append]

/-- A scalar is read back. -/
theorem value_scalar (hEnds : Ends rest) :
    value depth (scalar.print ++ rest) = some (scalar.value, rest) := by
  cases scalar with
  | null => unfold value; rfl
  | bool b =>
    cases b with
    | false => unfold value; rfl
    | true => unfold value; rfl
  | string text =>
    rw [Scalar.print, quoted_append, value_quote, stringBody_quoted, Option.map_some]
    rfl
  | natural n =>
    have hNumber := number_toDigits n hEnds
    have hDigits : ∀ c ∈ Nat.toDigits 10 n.toNat, c.isDigit = true := fun c hMem =>
      Nat.isDigit_of_mem_toDigits (by decide) (by decide) hMem
    rw [Scalar.print]
    cases hText : Nat.toDigits 10 n.toNat with
    | nil => exact absurd hText Nat.toDigits_ne_nil
    | cons c digits =>
      rw [hText] at hNumber hDigits
      rw [cons_append, value_of_digit (hDigits c List.mem_cons_self),
        ← cons_append, hNumber]
      rfl

theorem member_printMember (hEnds : Ends rest) : member (value depth) (printMember field ++ rest) =
      some ((field.1, field.2.value), rest) := by
  have hColon : skipSpace (':' :: (field.2.print ++ rest)) = ':' :: (field.2.print ++ rest) :=
    skipSpace_cons rfl _
  rw [printMember, append_assoc, cons_append, quoted_append, member,
    skipSpace_cons rfl, List.head?_cons, if_pos rfl, List.tail_cons, stringBody_quoted,
    Option.bind_some, hColon, List.head?_cons, if_pos rfl, List.tail_cons,
    value_scalar depth field.2 hEnds, Option.map_some]

theorem ends_printRest (rest : List Char) : Ends (printRest fields ++ rest) := by
  cases fields with
  | nil => exact Or.inr rfl
  | cons field fields => exact Or.inl rfl

theorem items_print {turns : Nat} (field : List Char × Scalar)
    {fields : List (List Char × Scalar)} (hTurns : fields.length < turns) (rest : List Char) :
    items (member (value depth)) '}' turns (printMember field ++ (printRest fields ++ rest)) =
      some (membersOf (field :: fields), rest) := by
  induction fields generalizing turns field with
  | nil =>
    cases turns with
    | zero => exact absurd hTurns (Nat.not_lt_zero _)
    | succ turns =>
      rw [items, member_printMember depth field (ends_printRest [] rest)]
      rfl
  | cons next fields ih =>
    cases turns with
    | zero => exact absurd hTurns (Nat.not_lt_zero _)
    | succ turns =>
      have hComma : skipSpace (printRest (next :: fields) ++ rest) =
          ',' :: (printMember next ++ (printRest fields ++ rest)) := by
        rw [printRest, cons_append, append_assoc, skipSpace_cons rfl]
      rw [items, member_printMember depth field (ends_printRest (next :: fields) rest),
        Option.bind_some]
      simp only [hComma, if_true]
      rw [ih next (Nat.lt_of_succ_lt_succ hTurns), Option.map_some]
      rfl

theorem length_printRest : fields.length < (printRest fields).length := by
  induction fields with
  | nil => exact Nat.one_pos
  | cons field fields ih =>
    rw [printRest, List.length_cons, List.length_cons, List.length_append]
    omega

/-- The members of a written object are read back. -/
theorem bracketed_print :
    bracketed (member (value depth)) '}' (printMember field ++ printRest fields) =
      some (membersOf (field :: fields), []) := by
  have hShape : printMember field ++ printRest fields =
      '"' :: (field.1.flatMap escape ++ '"' :: (':' :: field.2.print ++ printRest fields)) := by
    rw [printMember, append_assoc, quoted_append]
  have hHead : (skipSpace (printMember field ++ printRest fields)).head? ≠ some '}' := by
    rw [hShape, skipSpace_cons rfl, List.head?_cons]
    decide
  have hTurns : fields.length < (printMember field ++ printRest fields).length := by
    have hRest := length_printRest fields
    rw [List.length_append]
    omega
  have hItems := items_print depth field hTurns []
  rw [List.append_nil] at hItems
  rw [bracketed, if_neg hHead, hItems]

/-! ### Characters of a written text -/

def Printable (text : List Char) : Prop := ∀ c ∈ text, 32 ≤ c.toNat

theorem printable_of_all (hAll : text.all (fun c => 32 ≤ c.toNat) = true) : Printable text := by
  intro c hMem
  exact of_decide_eq_true (List.all_eq_true.mp hAll c hMem)

theorem Printable.append {more : List Char} (hText : Printable text) (hMore : Printable more) :
    Printable (text ++ more) :=
  List.forall_mem_append.mpr ⟨hText, hMore⟩

theorem Printable.cons (hText : Printable text) (hFirst : 32 ≤ c.toNat) : Printable (c :: text) :=
  List.forall_mem_cons.mpr ⟨hFirst, hText⟩

theorem escape_printable (c : Char) : Printable (escape c) := by
  have hHex : ∀ n < 16, 32 ≤ (hexDigits.getD n '0').toNat := by decide +kernel
  have hBackslash : Printable ['\\'] := printable_of_all rfl
  rcases escape_cases c with ⟨letter, -, -, hLetter, hEscape⟩ | ⟨hLow, hEscape⟩ |
    ⟨-, -, hHigh, hEscape⟩
  · rw [hEscape]
    exact hBackslash.append (List.forall_mem_singleton.mpr hLetter)
  · grind [printable_of_all]
  · rw [hEscape]
    exact List.forall_mem_singleton.mpr hHigh

theorem quoted_printable (text : List Char) : Printable (quoted text) := by
  have hBody : Printable (text.flatMap escape) := by
    intro c hMem
    obtain ⟨d, -, hEscape⟩ := List.mem_flatMap.mp hMem
    exact escape_printable d c hEscape
  exact (hBody.append (printable_of_all rfl)).cons (by decide)

theorem Scalar.print_printable : Printable scalar.print := by
  cases scalar with
  | null => exact printable_of_all rfl
  | bool b =>
    cases b with
    | false => exact printable_of_all rfl
    | true => exact printable_of_all rfl
  | natural n =>
    intro c hMem
    have hDigit : c.isDigit = true := Nat.isDigit_of_mem_toDigits (by decide) (by decide) hMem
    simp only [Char.isDigit, Bool.and_eq_true, decide_eq_true_eq] at hDigit
    have hLow : 48 ≤ c.toNat := hDigit.1
    omega
  | string text => exact quoted_printable text

theorem printMember_printable : Printable (printMember field) :=
  (quoted_printable field.1).append (field.2.print_printable.cons (by decide))

theorem printRest_printable : Printable (printRest fields) := by
  induction fields with
  | nil => exact printable_of_all rfl
  | cons field fields ih => exact ((printMember_printable field).append ih).cons (by decide)

/-- No control character is written. -/
theorem printObject_printable : Printable (printObject fields) := by
  cases fields with
  | nil => exact printable_of_all rfl
  | cons field fields =>
    exact ((printMember_printable field).append (printRest_printable fields)).cons (by decide)

theorem printRest_eq : ∃ front, printRest fields = front ++ ['}'] := by
  induction fields with
  | nil => exact ⟨[], rfl⟩
  | cons field fields ih => grind [printRest]

/-- An object ends at its closing bracket. -/
theorem getLast?_printObject : (printObject fields).getLast? = some '}' := by
  cases fields with
  | nil => rfl
  | cons field fields =>
    obtain ⟨front, hFront⟩ := printRest_eq fields
    rw [printObject, hFront, ← append_assoc, ← cons_append, List.getLast?_concat]

/-- An object with different keys is read back. -/
theorem parse_printObject {fields : List (List Char × Scalar)}
    (hKeys : (fields.map Prod.fst).Nodup) : parse (depth + 1) (printObject fields) =
      some (.object (membersOf fields)) := by
  have hNodup : (([] ++ membersOf fields).map Prod.fst).Nodup := by
    rw [List.nil_append, membersOf, List.map_map]
    exact hKeys
  have hTrim : (printObject fields).rdropWhile isSpace = printObject fields := by
    obtain ⟨front, hFront⟩ := List.getLast?_eq_some_iff.mp (getLast?_printObject fields)
    rw [hFront, List.rdropWhile_concat_neg _ _ _ (by decide)]
  rw [parse, hTrim]
  cases fields with
  | nil => rfl
  | cons field fields =>
    simp_all [printObject, value_brace, bracketed_print, AssocList.setAll_of_nodup]

end Json
