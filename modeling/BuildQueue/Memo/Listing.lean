import BuildQueue.Memo
import BuildQueue.Text.Character

/-!
# Listings

A listing is the text by which something is shown to developers: the name of each structure with
its fields in braces, names in quotes, absent values as `None`. That of a memo table has its time
limit and, for each shard that is not empty, its keys with the states of their slots, from the least
to the most recently used.
-/

namespace BuildQueue

/-! ## Forms of listings -/

/-- A structure with its fields. -/
def listRecord (name : String) (fields : List (String × String)) : String :=
  name ++ " \x7b " ++
    String.intercalate ", " (fields.map fun (field, text) => field ++ ": " ++ text) ++ " \x7d"

/-- An optional value. -/
def listOption {α : Type} (text : α → String) : Option α → String
  | none => "None"
  | some value => "Some(" ++ text value ++ ")"

/-- Named values in braces, the names in quotes. -/
def listMap (entries : List (String × String)) : String :=
  "\x7b" ++ String.intercalate ", "
    (entries.map fun (name, text) => Text.quoted name ++ ": " ++ text) ++ "\x7d"

/-- A duration of whole seconds; the empty one is given in nanoseconds. -/
def listSeconds (seconds : Nat) : String :=
  if seconds = 0 then "0ns" else toString seconds ++ "s"

/-! ## Memo tables -/

/-- The state of a slot. -/
def Slot.listing {ν : Type} : Slot ν → String
  | waiting generation => "Waiting(" ++ toString generation ++ ")"
  | complete _ _ => "Complete"

/-- The listing of a memo table. -/
def Memo.listing {ν : Type} (memo : Memo String ν) : String :=
  let shards := (List.range memo.shardCount).filterMap fun index =>
    let entries := memo.shard index
    if entries.isEmpty then none
    else some ("hash_vec[" ++ toString index ++ "]",
      listMap (entries.map fun (key, slot) => (key, slot.listing)))
  listRecord "Asyncmemo" (("ttl", listOption listSeconds memo.ttl) :: shards)

end BuildQueue
