import BuildQueue.Json
import BuildQueue.Binary64.Shortest

/-!
# Writing JSON text

The text of a value has no blanks. Control characters, quotes and backslashes in strings are
escaped, all other characters stand for themselves.
-/

namespace BuildQueue
namespace Json

/-- The lower-case hexadecimal digits of a number, at least `width` of them. -/
def hexText (width value : Nat) : String :=
  let digits := Nat.toDigits 16 value
  String.ofList (List.replicate (width - digits.length) '0' ++ digits)

/-- A character as it stands in the text of a string. -/
def charText (c : Char) : String :=
  match c with
  | '"' => "\\\""
  | '\\' => "\\\\"
  | '\n' => "\\n"
  | '\r' => "\\r"
  | '\t' => "\\t"
  | c => if c.toNat < 0x20 then "\\u" ++ hexText 4 c.toNat else String.singleton c

/-- The text of a string. -/
def stringText (value : String) : String :=
  "\"" ++ String.join (value.toList.map charText) ++ "\""

mutual

/-- The text of a value. -/
def render : Json → String
  | .null => "null"
  | .bool true => "true"
  | .bool false => "false"
  | .integer value => toString value
  | .float value => value.render
  | .string value => stringText value
  | .array items => "[" ++ String.intercalate "," (renderItems items) ++ "]"
  | .object members => "\x7b" ++ String.intercalate "," (renderMembers members) ++ "\x7d"

/-- The texts of the items of an array. -/
def renderItems : List Json → List String
  | [] => []
  | item :: rest => render item :: renderItems rest

/-- The texts of the members of an object. -/
def renderMembers : List (String × Json) → List String
  | [] => []
  | (name, value) :: rest => (stringText name ++ ":" ++ render value) :: renderMembers rest

end

end Json
end BuildQueue
