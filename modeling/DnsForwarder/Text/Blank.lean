/-! Characters that stand between words or control a terminal, and the removal
of white space around a text. Texts are lists of characters wherever a law is
stated about them. -/

namespace DnsForwarder.Text

/-- White space: the characters with the Unicode property White_Space. -/
def isBlank (c : Char) : Bool :=
  let code := c.toNat
  (9 ≤ code && code ≤ 13) || code == 0x20 || code == 0x85 || code == 0xA0 ||
    code == 0x1680 || (0x2000 ≤ code && code ≤ 0x200A) || code == 0x2028 ||
    code == 0x2029 || code == 0x202F || code == 0x205F || code == 0x3000

/-- Control characters: the Unicode general category Cc. -/
def isControl (c : Char) : Bool :=
  c.toNat < 0x20 || (0x7F ≤ c.toNat && c.toNat < 0xA0)

def trimRight (text : List Char) : List Char :=
  (text.reverse.dropWhile isBlank).reverse

def trim (text : List Char) : List Char :=
  trimRight (text.dropWhile isBlank)

/-- Lowercases the ASCII letters and keeps every other character. -/
def fold (text : List Char) : List Char :=
  text.map Char.toLower

@[simp] theorem length_fold (text : List Char) :
    (fold text).length = text.length := by
  simp [fold]

@[simp] theorem fold_append (left right : List Char) :
    fold (left ++ right) = fold left ++ fold right := by
  simp [fold]

end DnsForwarder.Text
