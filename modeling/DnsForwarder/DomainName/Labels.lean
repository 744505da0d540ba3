import DnsForwarder.Octets

/-! Domain names as messages carry them: rows of labels, each a row of bytes.
The root has none. -/

namespace DnsForwarder

abbrev Label := List UInt8

abbrev Labels := List Label

namespace Labels

/-- How many bytes the labels take, each behind its length, without the byte
that ends a name. -/
def span (labels : Labels) : Nat :=
  labels.foldr (fun label rest => label.length + 1 + rest) 0

/-- The longest name in a message, with the byte that ends it. -/
def maxLength : Nat := 255

def isValid (labels : Labels) : Bool :=
  labels.all (fun label => 1 ≤ label.length && label.length ≤ 63) &&
    labels.span + 1 ≤ maxLength

def lowerByte (byte : UInt8) : UInt8 :=
  if 0x41 ≤ byte ∧ byte ≤ 0x5A then byte + 0x20 else byte

def lower (labels : Labels) : Labels :=
  labels.map fun label => label.map lowerByte

@[simp] theorem span_nil : span [] = 0 := rfl

@[simp] theorem span_cons (label : Label) (labels : Labels) :
    span (label :: labels) = label.length + 1 + labels.span := rfl

@[simp] theorem span_lower (labels : Labels) :
    labels.lower.span = labels.span := by
  simp [span, lower, List.foldr_map]

end Labels

end DnsForwarder
