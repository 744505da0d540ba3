import DnsForwarder.Toml.DateTime
import DnsForwarder.Toml.Number
import DnsForwarder.Toml.Value

/-! Unquoted values of TOML: booleans, numbers, dates and times. -/

namespace DnsForwarder.Toml

def isTokenChar (c : Char) : Bool :=
  c.isAlphanum || c == '_' || c == '-' || c == '+' || c == '.' || c == ':'

/-- Takes an unquoted value off a text. A date may be followed by a blank and a
time. -/
def takeToken (text : List Char) : List Char × List Char :=
  let token := text.takeWhile isTokenChar
  let rest := text.dropWhile isTokenChar
  match rest with
  | ' ' :: next :: more =>
      if isDate token && next.isDigit then
        (token ++ ' ' :: (next :: more).takeWhile isTokenChar,
          (next :: more).dropWhile isTokenChar)
      else (token, rest)
  | _ => (token, rest)

def scalar? (token : List Char) : Option Value :=
  if token = "true".toList then some (.boolean true)
  else if token = "false".toList then some (.boolean false)
  else
    match integer? token with
    | some value => some (.integer value)
    | none =>
        if isFloat token then some (.float (String.ofList token))
        else if isDateTime token then some (.dateTime (String.ofList token))
        else none

end DnsForwarder.Toml
