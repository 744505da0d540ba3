import DnsForwarder.Text.Numeral

/-! Dates and times of TOML. A time may leave out its seconds, and then has no
fraction either. -/

namespace DnsForwarder.Toml

def twoDigits? (high low : Char) : Option Nat :=
  Text.ofDigits? 10 [high, low]

def isLeapYear (year : Nat) : Bool :=
  year % 4 == 0 && (year % 100 != 0 || year % 400 == 0)

def daysInMonth (year month : Nat) : Nat :=
  if month = 2 then (if isLeapYear year then 29 else 28)
  else if month = 4 ∨ month = 6 ∨ month = 9 ∨ month = 11 then 30
  else 31

def isDate : List Char → Bool
  | [y1, y2, y3, y4, '-', m1, m2, '-', d1, d2] =>
      match Text.ofDigits? 10 [y1, y2, y3, y4], twoDigits? m1 m2,
        twoDigits? d1 d2 with
      | some year, some month, some day =>
          1 ≤ month && month ≤ 12 && 1 ≤ day && day ≤ daysInMonth year month
      | _, _, _ => false
  | _ => false

def isClock (h1 h2 m1 m2 : Char) : Bool :=
  match twoDigits? h1 h2, twoDigits? m1 m2 with
  | some hour, some minute => hour ≤ 23 && minute ≤ 59
  | _, _ => false

def isOffset : List Char → Bool
  | ['Z'] => true
  | ['z'] => true
  | [sign, h1, h2, ':', m1, m2] =>
      (sign == '+' || sign == '-') && isClock h1 h2 m1 m2
  | _ => false

/-- The rest of a time behind its seconds and their fraction, which it may leave
out. -/
def skipSeconds : List Char → Option (List Char)
  | ':' :: s1 :: s2 :: rest =>
      if (twoDigits? s1 s2).any (· ≤ 60) then
        match rest with
        | '.' :: fraction =>
            if fraction.head?.any Char.isDigit then
              some (fraction.dropWhile Char.isDigit) else none
        | _ => some rest
      else none
  | rest => some rest

/-- A time of day, with an offset where `zoned` allows one. -/
def isTime (zoned : Bool) : List Char → Bool
  | h1 :: h2 :: ':' :: m1 :: m2 :: rest =>
      isClock h1 h2 m1 m2 &&
        (skipSeconds rest).any fun offset => offset.isEmpty ||
        (zoned && isOffset offset)
  | _ => false

def isDateTime (token : List Char) : Bool :=
  let date := token.take 10
  match token.drop 10 with
  | [] => isDate date || isTime false token
  | separator :: time =>
      let parted := separator == 'T' || separator == 't' || separator == ' '
      (isDate date && parted && isTime true time) || isTime false token

end DnsForwarder.Toml
