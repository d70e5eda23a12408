import BuildQueue.Ident
import BuildQueue.Json
import BuildQueue.Outcome
import BuildQueue.Timestamp

/-!
# Reading values from JSON

Decoders for the values that records are made of, and for records themselves. A record is an
object with a member for each field, or an array of all its fields in their order. Members of
other names are ignored; a field that may be absent is absent when its member is missing or null.

Of several faults the one that is met first is reported: the members of an object are met in the
order of their names, the items of an array in their order, and what is missing comes last.
-/

namespace BuildQueue
namespace Json

/-- Why a value is refused. -/
inductive Refusal where
  /-- The value does not have the shape that is asked for. -/
  | illTyped
  /-- The value is a code of no outcome. -/
  | unknownOutcome (code : Int)
deriving DecidableEq, Repr

/-- What is said of a refused value, if more than that it has the wrong shape. -/
def Refusal.message? : Refusal → Option String
  | illTyped => none
  | unknownOutcome code => some (Outcome.unknownCodeMessage code)

/-- A way to read values of type `α`. -/
abbrev Decoder (α : Type) := Json → Except Refusal α

namespace Decoder

variable {α β : Type}

/-- Reads an integer of a range. -/
def between (low high : Int) : Decoder Int
  | .integer value => if low ≤ value ∧ value ≤ high then .ok value else .error .illTyped
  | _ => .error .illTyped

/-- Reads a 64-bit integer. -/
def int64 : Decoder Int := between Int64.minValue.toInt Int64.maxValue.toInt

/-- Reads a 32-bit integer. -/
def int32 : Decoder Int := between Int32.minValue.toInt Int32.maxValue.toInt

/-- Reads a byte. -/
def byte : Decoder UInt8 := fun json => do
  return UInt8.ofNat (← between 0 255 json).toNat

/-- Reads a string. -/
def text : Decoder String
  | .string value => .ok value
  | _ => .error .illTyped

/-- Reads a boolean. -/
def bool : Decoder Bool
  | .bool value => .ok value
  | _ => .error .illTyped

/-- Reads any value. -/
def any : Decoder Json := .ok

/-- Reads null as none and anything else by a decoder. -/
def nullable (decoder : Decoder α) : Decoder (Option α)
  | .null => .ok none
  | json => some <$> decoder json

/-- Reads an array, each item by a decoder. -/
def list (decoder : Decoder α) : Decoder (List α)
  | .array items => items.mapM decoder
  | _ => .error .illTyped

/-- Reads an identifier. -/
def ident {entity : Entity} : Decoder (Ident entity) := fun json => return ⟨← int64 json⟩

/-- Reads a timestamp. -/
def timestamp : Decoder Timestamp := fun json => return ⟨← int64 json⟩

/-- Reads an outcome from its code. -/
def outcome : Decoder Outcome := fun json => do
  let code ← int32 json
  match Outcome.ofCode? code with
  | some outcome => return outcome
  | none => throw (.unknownOutcome code)

end Decoder

/-- The result of reading some members of a record: a value, or the first refusal with the place
at which it was met. -/
inductive Reading (α : Type) where
  | value (value : α)
  | refused (place : Nat) (why : Refusal)

namespace Reading

variable {α β : Type}

/-- Applies a function that was read to an argument that was read; of two refusals the one at
the earlier place counts. -/
def apply (f : Reading (α → β)) (a : Reading α) : Reading β :=
  match f, a with
  | value f, value a => value (f a)
  | refused place why, value _ => refused place why
  | value _, refused place why => refused place why
  | refused place why, refused other otherWhy =>
    if other < place then refused other otherWhy else refused place why

instance : Applicative Reading where
  pure := value
  seq f a := f.apply (a ())

@[simp] theorem map_value (f : α → β) (a : α) : f <$> Reading.value a = Reading.value (f a) := rfl

@[simp] theorem seq_value (f : α → β) (a : α) :
    Reading.value f <*> Reading.value a = Reading.value (f a) := rfl

end Reading

/-- The members of a record that are there, in the order in which they are met, and whether
there are as many as the form asks for. -/
structure Members where
  met : List (String × Json)
  sized : Bool

namespace Members

variable {α : Type}

/-- The members of a record with the given field names. -/
def of? (names : List String) : Json → Except Refusal Members
  | .object members => .ok ⟨members, true⟩
  | .array items => .ok ⟨names.zip items, items.length = names.length⟩
  | _ => .error .illTyped

/-- The place and the value of a member in a list whose first member has the given place. -/
def locate (name : String) (place : Nat) : List (String × Json) → Option (Nat × Json)
  | [] => none
  | (n, json) :: rest => if n = name then some (place, json) else locate name (place + 1) rest

/-- What a decoder makes of a member at a place. -/
def readAt (decoder : Decoder α) (place : Nat) (json : Json) : Reading α :=
  match decoder json with
  | .ok value => .value value
  | .error why => .refused place why

/-- Reads a member that has to be there. -/
def field (members : Members) (name : String) (decoder : Decoder α) : Reading α :=
  match locate name 0 members.met with
  | some (place, json) => readAt decoder place json
  | none => .refused members.met.length .illTyped

/-- Reads a member that may be missing or null. -/
def optional (members : Members) (name : String) (decoder : Decoder α) : Reading (Option α) :=
  match locate name 0 members.met with
  | some (place, json) => readAt decoder.nullable place json
  | none => .value none

end Members

/-- Reads a record with the given field names. -/
def record {α : Type} (names : List String) (fields : Members → Reading α) : Decoder α :=
  fun json => do
    let members ← Members.of? names json
    match fields members with
    | .refused _ why => throw why
    | .value value => if members.sized then return value else throw .illTyped

end Json
end BuildQueue
