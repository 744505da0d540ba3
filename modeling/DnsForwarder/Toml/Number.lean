import DnsForwarder.Text.Numeral

/-! Numbers of TOML. Integers may be written in four radices; a decimal with a
fraction or an exponent is a number only if some finite double is nearest to
it. -/

namespace DnsForwarder.Toml

def ungrouped? (radix : Nat) : List Char → Option (List Char)
  | [] => none
  | [c] => if (Text.digit? radix c).isSome then some [c] else none
  | c :: '_' :: rest =>
      if (Text.digit? radix c).isSome then
        (ungrouped? radix rest).map (c :: ·)
      else none
  | c :: rest =>
      if (Text.digit? radix c).isSome then
        (ungrouped? radix rest).map (c :: ·)
      else none

def unsignedPart : List Char → List Char
  | '+' :: rest => rest
  | '-' :: rest => rest
  | text => text

/-- Decimal digits, where a zero in front stands alone. -/
def wholeDigits? (text : List Char) : Option (List Char) := do
  let digits ← ungrouped? 10 text
  if digits.head? = some '0' ∧ 1 < digits.length then none else some digits

def grouped? (radix : Nat) (text : List Char) : Option Nat :=
  (ungrouped? radix text).map (Text.ofDigits radix)

def withSign (token : List Char) (size : Nat) : Int :=
  if token.head? = some '-' then -size else size

/-- Integers up to 128 bits are told apart; others are no values. -/
def inRange (value : Int) : Bool :=
  -(Int.pow 2 127) ≤ value && value < Int.pow 2 128

def integer? (token : List Char) : Option Int := do
  let value ←
    match token with
    | '0' :: 'x' :: rest => (grouped? 16 rest).map Int.ofNat
    | '0' :: 'o' :: rest => (grouped? 8 rest).map Int.ofNat
    | '0' :: 'b' :: rest => (grouped? 2 rest).map Int.ofNat
    | _ =>
        (wholeDigits? (unsignedPart token)).map fun digits =>
          withSign token (Text.ofDigits 10 digits)
  if inRange value then some value else none

/-- The size of a decimal number: its digits, and the power of ten that they
count. -/
structure Decimal where
  digits : List Char
  exponent : Int
  deriving DecidableEq, Repr

namespace Decimal

/-- The least size that rounds to no finite double: half a step above the
greatest of them. -/
def overflow : Nat := Nat.pow 2 1024 - Nat.pow 2 970

def overflowPlaces : Nat := 309

/-- Whether the number rounds to a finite double. Where it has fewer or more
digits before its point than `overflow`, these decide. -/
def isFinite (number : Decimal) : Bool :=
  let digits := number.digits.dropWhile (· == '0')
  let places := digits.length + number.exponent
  if digits = [] ∨ places < overflowPlaces then true
  else if overflowPlaces < places then false
  else
    Text.ofDigits 10 digits * Nat.pow 10 number.exponent.toNat <
      overflow * Nat.pow 10 (-number.exponent).toNat

end Decimal

def isExponentMark (c : Char) : Bool :=
  c == 'e' || c == 'E'

def decimal? (token : List Char) : Option Decimal := do
  let body := unsignedPart token
  let mantissa := body.takeWhile fun c => !isExponentMark c
  let whole ← wholeDigits? (mantissa.takeWhile (· != '.'))
  let fraction ←
    match mantissa.dropWhile (· != '.') with
    | [] => some []
    | _ :: digits => ungrouped? 10 digits
  let exponent ←
    match body.dropWhile fun c => !isExponentMark c with
    | [] => if fraction = [] then none else some 0
    | _ :: text =>
        (grouped? 10 (unsignedPart text)).map (withSign text)
  return ⟨whole ++ fraction, exponent - fraction.length⟩

/-- Whether a text is a finite number that is no integer, or names no finite
number. -/
def isFloat (token : List Char) : Bool :=
  let body := unsignedPart token
  body == ['i', 'n', 'f'] || body == ['n', 'a', 'n'] ||
    (decimal? token).any Decimal.isFinite

end DnsForwarder.Toml
