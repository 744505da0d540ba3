import DnsForwarder.Message.Cursor
import DnsForwarder.Text.Utf8

/-! Parameters of services: pieces of data, each behind a key and its length, in
rising order of their keys. -/

namespace DnsForwarder.Message

def areProtocols (data : Octets) : Bool :=
  match Cursor.strings? data.length data.length (Cursor.ofOffset data 0) with
  | some (names, _) =>
      !names.isEmpty && names.all fun name => (Text.decode? name).isSome
  | none => false

/-- Whether the data of a parameter has the form that its key asks for: 0 lists
mandatory keys, 1 protocols, 2 is a mark without data, 3 a port, 4 and 6 list
addresses. -/
def parameterFits (key : UInt16) (data : Octets) : Bool :=
  if key = 0 then !data.isEmpty && data.length % 2 == 0
  else if key = 1 then areProtocols data
  else if key = 2 then data.isEmpty
  else if key = 3 then 2 ≤ data.length
  else if key = 4 then data.length % 4 == 0
  else if key = 6 then data.length % 16 == 0
  else true

def parametersFit (last? : Option UInt16) : Octets → Bool
  | [] => true
  | k₁ :: k₂ :: high :: low :: rest =>
      let key := wordOfBytes k₁ k₂
      let length := (wordOfBytes high low).toNat
      last?.all (· < key) && length ≤ rest.length &&
        parameterFits key (rest.take length) &&
        parametersFit (some key) (rest.drop length)
  | _ => false
termination_by bytes => bytes.length
decreasing_by
  simp only [List.length_drop, List.length_cons]
  omega

end DnsForwarder.Message
