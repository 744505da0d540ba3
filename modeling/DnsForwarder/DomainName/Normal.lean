import DnsForwarder.Error
import DnsForwarder.Text.Blank
import DnsForwarder.Text.Split
import DnsForwarder.Text.Utf8

/-! The normal form of a domain name's text: no white space around it, no final
dot, ASCII letters in lowercase. The root keeps its dot. -/

namespace DnsForwarder.DomainName

def labelFault? (whole label : List Char) : Option NameFault :=
  if label = [] then some (.emptyLabel (String.ofList whole))
  else if NameFault.maxLabelLength < Text.byteLength label then
    some (.labelTooLong (String.ofList label))
  else if label.any fun c => Text.isBlank c || Text.isControl c then
    some (.badCharacter (String.ofList whole))
  else none

/-- The normal form of a text, or the first fault of its labels from the
left. -/
def normalizeText (text : List Char) : Except NameFault (List Char) :=
  let trimmed := Text.trim text
  if trimmed = ['.'] then .ok ['.']
  else
    let bare := (Text.dropEnding? ['.'] trimmed).getD trimmed
    if bare = [] then .error .empty
    else if NameFault.maxNameLength < Text.byteLength bare then .error .tooLong
    else
      match (Text.split '.' bare).findSome? (labelFault? trimmed) with
      | some fault => .error fault
      | none => .ok (Text.fold bare)

def normalize (name : String) : Except NameFault String :=
  (normalizeText name.toList).map String.ofList

end DnsForwarder.DomainName
