/-! Numerals: digits of a radix, decimal output, and unsigned numbers with an
upper bound. -/

namespace DnsForwarder.Text

/-- The value of a digit below `radix`; letters of either case stand for ten and
more. -/
def digit? (radix : Nat) (c : Char) : Option Nat :=
  let value? :=
    if '0' ≤ c ∧ c ≤ '9' then some (c.toNat - '0'.toNat)
    else if 'a' ≤ c ∧ c ≤ 'z' then some (c.toNat - 'a'.toNat + 10)
    else if 'A' ≤ c ∧ c ≤ 'Z' then some (c.toNat - 'A'.toNat + 10)
    else none
  value?.filter (· < radix)

/-- The value of a row of digits, most significant first; characters that are no
digits count as zero. -/
def ofDigits (radix : Nat) (digits : List Char) : Nat :=
  digits.foldl (fun value c => value * radix + (digit? radix c).getD 0) 0

def ofDigits? (radix : Nat) (text : List Char) : Option Nat :=
  if text ≠ [] ∧ text.all (fun c => (digit? radix c).isSome) then
    some (ofDigits radix text)
  else none

/-- An unsigned decimal number up to `limit`. One plus sign in front and any
number of leading zeros are allowed. -/
def unsigned? (limit : Nat) (text : List Char) : Option Nat :=
  let digits :=
    match text with
    | '+' :: rest => rest
    | _ => text
  (ofDigits? 10 digits).filter (· ≤ limit)

def signed? (text : List Char) : Option Int :=
  match text with
  | '-' :: rest => (ofDigits? 10 rest).map fun value => -value
  | '+' :: rest => (ofDigits? 10 rest).map Int.ofNat
  | _ => (ofDigits? 10 text).map Int.ofNat

def decimal (value : Nat) : List Char :=
  Nat.toDigits 10 value

def hexadecimal (value : Nat) : List Char :=
  Nat.toDigits 16 value

end DnsForwarder.Text
