/-!
# TOML values

What a TOML document says: a table of keys and values, followed by tables under headers. Floating
point numbers and dates have no place here, since no document of this library uses them.

A dotted key stands for nested tables. Several dotted keys with a common beginning add to one
table; no key is given twice.
-/

namespace BuildQueue
namespace Toml

/-- A value of a document. -/
inductive Value where
  | bool (value : Bool)
  | integer (value : Int)
  | string (value : String)
  | array (items : List Value)
  /-- A table, and whether dotted keys may still add to it. -/
  | table (entries : List (String × Value)) (extensible : Bool)
deriving Inhabited, Repr

/-- Keys with their values, in the order of the document. -/
abbrev Entries := List (String × Value)

/-- The value of nested tables down to a dotted key. -/
def nest (value : Value) : List String → Value
  | [] => value
  | key :: rest => .table [(key, nest value rest)] true

/-- Entries with one more under the dotted key `key.rest`, none if the key is taken. -/
def addDotted (key : String) (rest : List String) (value : Value) : Entries → Option Entries
  | [] => some [(key, nest value rest)]
  | (other, held) :: entries =>
    if other ≠ key then (addDotted key rest value entries).map ((other, held) :: ·)
    else
      match rest, held with
      | inner :: more, .table innerEntries true => do
        return (other, .table (← addDotted inner more value innerEntries) true) :: entries
      | _, _ => none
termination_by entries => (rest.length, entries.length)

/-- The header of a table. -/
structure Header where
  /-- The dotted key of the header. -/
  path : List String
  /-- Whether the header adds a table to a list of tables. -/
  listed : Bool
deriving DecidableEq, Repr

/-- A document: the entries before the first header, and the entries under each header. -/
structure Document where
  root : Entries
  sections : List (Header × Entries)
deriving Repr

end Toml
end BuildQueue
