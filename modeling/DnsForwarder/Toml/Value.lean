/-! Values of a TOML document. -/

namespace DnsForwarder.Toml

/-- How a table came to be, which decides what may still be added to it. -/
inductive Origin where
  /-- It has a header of its own, or is one of an array of tables. -/
  | header
  /-- It was only named on the way to a header further down. -/
  | implied
  /-- It was only named on the way to a dotted key. -/
  | dotted
  /-- It stands between braces and is complete. -/
  | inline
  deriving DecidableEq, Repr

inductive Value where
  | string (text : String)
  | integer (value : Int)
  | float (text : String)
  | boolean (value : Bool)
  | dateTime (text : String)
  | array (ofTables : Bool) (items : List Value)
  | table (origin : Origin) (entries : List (String × Value))
  deriving Repr

abbrev Entries := List (String × Value)

namespace Entries

def put (key : String) (value : Value) : Entries → Entries
  | [] => [(key, value)]
  | (other, old) :: rest =>
      if other = key then (key, value) :: rest
      else (other, old) :: put key value rest

def insert? (key : String) (value : Value) (entries : Entries) :
    Option Entries :=
  if (entries.lookup key).isSome then none else some (entries.put key value)

/-- Changes the table that a path of keys leads to. Missing tables on the way
are made with the given origin. A path leads through an array of tables into its
last one, and never into a complete value. With dotted keys it does not lead
into a table with a header either. -/
def change (made : Origin) (act : Origin → Entries → Option Entries) :
    (path : List String) → Origin → Entries → Option Entries
  | [], origin, entries => act origin entries
  | key :: path, _, entries =>
      match entries.lookup key with
      | none => do
          let inner ← change made act path made []
          return entries.put key (.table made inner)
      | some (.table origin inner) =>
          if origin = .inline ∨ (made = .dotted ∧ origin = .header) then none
          else do
            let inner ← change made act path origin inner
            return entries.put key (.table origin inner)
      | some (.array true items) =>
          match items.getLast? with
          | some (.table origin inner) => do
              let inner ← change made act path origin inner
              return entries.put key
                (.array true (items.dropLast ++ [.table origin inner]))
          | _ => none
      | some _ => none

/-- Opens the table of a header. It may have been implied before, but not
defined. -/
def openTable? (path : List String) (key : String) (entries : Entries) :
    Option Entries :=
  change .implied
    (fun _ inner =>
      match inner.lookup key with
      | none => some (inner.put key (.table .header []))
      | some (.table .implied below) =>
          some (inner.put key (.table .header below))
      | some _ => none)
    path .header entries

def appendTable? (path : List String) (key : String) (entries : Entries) :
    Option Entries :=
  change .implied
    (fun _ inner =>
      match inner.lookup key with
      | none => some (inner.put key (.array true [.table .header []]))
      | some (.array true items) =>
          some (inner.put key (.array true (items ++ [.table .header []])))
      | some _ => none)
    path .header entries

/-- Puts a value under a dotted key. All but its last part name tables that only
dotted keys made. -/
def assign? (path : List String) (key : String) (value : Value)
    (entries : Entries) :
    Option Entries :=
  change .dotted
    (fun origin inner =>
      if (origin == .dotted) == path.isEmpty then none
      else inner.insert? key value)
    path .header entries

end Entries

end DnsForwarder.Toml
