
/-! Base64 with the standard alphabet and with padding. Three bytes are written as four digits
in base 64. The decoder accepts the canonical form only: the padding has to be there, and the
bits behind the last byte have to be zero. -/
namespace Base64

def alphabet : List Char :=
  "ABCDEFGHIJKLMNOPQRSTUVWXYZabcdefghijklmnopqrstuvwxyz0123456789+/".toList

def symbol (n : Nat) : Char := alphabet.getD n '='

def digit (c : Char) : Option Nat := alphabet.idxOf? c

theorem digit_symbol : ∀ n < 64, digit (symbol n) = some n := by decide +kernel

theorem symbol_ne_pad : ∀ n < 64, symbol n ≠ '=' := by decide +kernel

def encode : List UInt8 → List Char
  | [] => []
  | [x] => [symbol (x.toNat / 4), symbol (x.toNat % 4 * 16), '=', '=']
  | [x, y] =>
    let n := x.toNat * 256 + y.toNat
    [symbol (n / 1024), symbol (n / 16 % 64), symbol (n % 16 * 4), '=']
  | x :: y :: z :: rest =>
    let n := x.toNat * 65536 + y.toNat * 256 + z.toNat
    symbol (n / 262144) :: symbol (n / 4096 % 64) :: symbol (n / 64 % 64) :: symbol (n % 64) ::
      encode rest

def group (a b c d : Char) : Option (List UInt8) :=
  (digit a).bind fun i => (digit b).bind fun j => (digit c).bind fun k => (digit d).map fun l =>
    let n := i * 262144 + j * 4096 + k * 64 + l
    [UInt8.ofNat (n / 65536), UInt8.ofNat (n / 256), UInt8.ofNat n]

def lastGroup (a b c d : Char) : Option (List UInt8) :=
  if d = '=' then
    if c = '=' then
      (digit a).bind fun i => (digit b).bind fun j =>
        if j % 16 = 0 then some [UInt8.ofNat (i * 4 + j / 16)] else none
    else
      (digit a).bind fun i => (digit b).bind fun j => (digit c).bind fun k =>
        if k % 4 = 0 then
          let n := i * 1024 + j * 16 + k / 4
          some [UInt8.ofNat (n / 256), UInt8.ofNat n]
        else none
  else group a b c d

def decode : List Char → Option (List UInt8)
  | [] => some []
  | a :: b :: c :: d :: rest =>
    if rest.isEmpty then lastGroup a b c d
    else (group a b c d).bind fun bytes => (decode rest).map (bytes ++ ·)
  | _ => none

/-- A group without padding is read in the same way wherever it stands. -/
theorem decode_group {a b c d : Char} (hLast : d ≠ '=') (rest : List Char) :
    decode (a :: b :: c :: d :: rest) =
      (group a b c d).bind fun bytes => (decode rest).map (bytes ++ ·) := by
  simp_all [decode, lastGroup]

theorem ofNat_eq {n : Nat} {x : UInt8} (hLow : n % 256 = x.toNat) : UInt8.ofNat n = x := by
  apply UInt8.toNat_inj.mp
  rw [UInt8.toNat_ofNat']
  exact hLow

theorem digits_sum (n : Nat) :
    n / 262144 * 262144 + n / 4096 % 64 * 4096 + n / 64 % 64 * 64 + n % 64 = n := by
  omega

/-- Every text that the encoder writes is read back. -/
theorem decode_encode (bytes : List UInt8) : decode (encode bytes) = some bytes := by
  induction bytes using encode.induct with
  | case1 => rfl
  | case2 x =>
    have hx := x.toNat_lt
    grind [ofNat_eq, encode, decode, lastGroup, digit_symbol]
  | case3 x y =>
    have hx := x.toNat_lt
    have hy := y.toNat_lt
    simp only [encode, decode, lastGroup, List.isEmpty_nil, if_true]
    generalize hn : x.toNat * 256 + y.toNat = n
    have hPad := symbol_ne_pad (n % 16 * 4) (by omega)
    have hFirst : UInt8.ofNat ((n / 1024 * 1024 + n / 16 % 64 * 16 + n % 16 * 4 / 4) / 256) = x :=
      ofNat_eq (by omega)
    grind [ofNat_eq, digit_symbol]
  | case4 x y z rest ih =>
    have hx := x.toNat_lt
    have hy := y.toNat_lt
    have hz := z.toNat_lt
    simp only [encode]
    generalize hn : x.toNat * 65536 + y.toNat * 256 + z.toNat = n
    have hFirst : UInt8.ofNat (n / 65536) = x := ofNat_eq (by omega)
    have hSecond : UInt8.ofNat (n / 256) = y := ofNat_eq (by omega)
    have hThird : UInt8.ofNat n = z := ofNat_eq (by omega)
    have hGroup : group (symbol (n / 262144)) (symbol (n / 4096 % 64)) (symbol (n / 64 % 64))
        (symbol (n % 64)) = some [x, y, z] := by grind [group, digit_symbol, digits_sum]
    rw [decode_group (symbol_ne_pad _ (by omega)), hGroup, ih]
    rfl

end Base64
