import BuildQueue.Json
import BuildQueue.Text.Scan

/-!
# Reading JSON text

The text of a value follows the JSON grammar strictly. Arrays and objects nest at most
`maxDepth` deep. A number without fraction and exponent that fits 64 bits is an integer, any
other number is the binary64 number nearest to its leading digits, scaled.
-/

namespace BuildQueue
namespace Json

open Scan

/-- How deep arrays and objects may nest. -/
def maxDepth : Nat := 127

/-- The largest unsigned 64-bit number. -/
def maxUnsigned : Nat := UInt64.size - 1

/-- The largest magnitude of a negative 64-bit number. -/
def maxNegative : Nat := UInt64.size / 2

/-- Takes white space: blanks, tabs and line ends. -/
def skipSpace : Scan Unit := do
  let _ ← run fun c => c = ' ' || c = '\t' || c = '\n' || c = '\r'

/-- The value of a decimal digit. -/
def digitValue (c : Char) : Nat := c.toNat - '0'.toNat

/-- The value of a hexadecimal digit. -/
def hexValue? (c : Char) : Option Nat :=
  if c.isDigit then some (c.toNat - '0'.toNat)
  else if 'a' ≤ c && c ≤ 'f' then some (c.toNat - 'a'.toNat + 10)
  else if 'A' ≤ c && c ≤ 'F' then some (c.toNat - 'A'.toNat + 10)
  else none

/-- The number written with the given hexadecimal digits. -/
def hexNumber? (digits : List Char) : Option Nat :=
  digits.foldlM (fun value c => return 16 * value + (← hexValue? c)) 0

/-- A 16-bit unit written as four hexadecimal digits. -/
def unit : Scan Nat := do
  match hexNumber? (← take 4) with
  | some value => return value
  | none => refuse

/-- The character after an escaping backslash and `u`: one unit, or a surrogate pair. -/
def escapedUnits : Scan Char := do
  let first ← unit
  if 0xd800 ≤ first && first < 0xdc00 then
    require '\\'
    require 'u'
    let second ← unit
    if 0xdc00 ≤ second && second < 0xe000 then
      return Char.ofNat (0x10000 + (first - 0xd800) * 0x400 + (second - 0xdc00))
    else refuse
  else if 0xdc00 ≤ first && first < 0xe000 then refuse
  else return Char.ofNat first

/-- The character that an escape sequence stands for, after the backslash. -/
def escaped : Scan Char := do
  match ← next with
  | '"' => return '"'
  | '\\' => return '\\'
  | '/' => return '/'
  | 'b' => return '\x08'
  | 'f' => return '\x0c'
  | 'n' => return '\n'
  | 'r' => return '\r'
  | 't' => return '\t'
  | 'u' => escapedUnits
  | _ => refuse

/-- The next character of a string, none at the closing quote. -/
def stringItem : Scan (Option Char) := do
  match ← next with
  | '"' => return none
  | '\\' => return some (← escaped)
  | c => if c.toNat < 0x20 then refuse else return some c

/-- The rest of a string after its opening quote. -/
def stringBody : Scan String := do
  return String.ofList (← collect stringItem)

/-- The number of a run of digits as far as it fits 64 bits, starting from a given number, with
the digits that are left. -/
def leading (value : Nat) : List Char → Nat × List Char
  | [] => (value, [])
  | c :: rest =>
    let longer := 10 * value + digitValue c
    if longer ≤ maxUnsigned then leading longer rest else (value, c :: rest)

/-- A nonempty run of digits. -/
def digits : Scan (List Char) := do
  let taken ← run Char.isDigit
  if taken.isEmpty then refuse else return taken

/-- The digits before the point: a single zero or a run that does not start with one. -/
def wholeDigits : Scan (List Char) := do
  let taken ← digits
  if taken.length > 1 && taken.head? = some '0' then refuse else return taken

/-- The digits after the point, none if there is no point. -/
def fractionDigits : Scan (Option (List Char)) := do
  if ← accept '.' then return some (← digits) else return none

/-- The number that a run of digits stands for. -/
def natural (digits : List Char) : Nat :=
  digits.foldl (fun value c => 10 * value + digitValue c) 0

/-- An integer with an optional sign. -/
def signed : Scan Int := do
  if ← accept '-' then return -(natural (← digits) : Int)
  let _ ← accept '+'
  return natural (← digits)

/-- The decimal exponent, none if there is none. -/
def exponent? : Scan (Option Int) := do
  match ← peek with
  | some 'e' | some 'E' =>
    let _ ← next
    return some (← signed)
  | _ => return none

/-- The value of a number without fraction and exponent: negative zero and what does not fit 64
bits are floating-point numbers. -/
def ofWhole (negative : Bool) (value : Nat) : Option Json :=
  if negative && (value = 0 || maxNegative < value) then
    (Binary64.ofDecimal true value 0).map Json.float
  else some (.integer (if negative then -value else value))

/-- A number. Digits that do not fit 64 bits only count as places. -/
def number : Scan Json := do
  let negative ← accept '-'
  let whole ← wholeDigits
  let fraction ← fractionDigits
  let exponent ← exponent?
  let (value, unread) := leading 0 whole
  let (value, rest) := leading value (fraction.getD [])
  let used := (fraction.getD []).length - rest.length
  let power : Int := (unread.length : Int) - used + exponent.getD 0
  let result :=
    if fraction.isNone && exponent.isNone && unread.isEmpty then ofWhole negative value
    else (Binary64.ofDecimal negative value power).map Json.float
  match result with
  | some json => return json
  | none => refuse

/-- A word that stands for a value. -/
def word (text : String) (value : Json) : Scan Json := do
  if ← acceptText text.toList then return value else refuse

/-- What follows an item of a list: a comma, or the closing bracket, which ends the list. -/
def separator (close : Char) : Scan Bool := do
  skipSpace
  if ← accept ',' then return true
  require close
  return false

/-- Items up to a closing bracket, separated by commas. -/
def sequence {α : Type} (close : Char) (item : Scan α) : Scan (List α) := do
  skipSpace
  if ← accept close then return []
  let first ← item
  let rest ← collect do
    if ← separator close then return some (← item) else return none
  return first :: rest

/-- A member of an object: name, colon, value. -/
def memberOf (value : Scan Json) : Scan (String × Json) := do
  skipSpace
  require '"'
  let name ← stringBody
  skipSpace
  require ':'
  return (name, ← value)

/-- A value whose items and members are scanned by `inner`; without it, no brackets. -/
def valueOver (inner : Option (Scan Json)) : Scan Json := do
  skipSpace
  match ← peek with
  | some '"' =>
    let _ ← next
    return .string (← stringBody)
  | some '[' =>
    let _ ← next
    let some item := inner | refuse
    return .array (← sequence ']' item)
  | some '\x7b' =>
    let _ ← next
    let some item := inner | refuse
    return ofMembers (← sequence '\x7d' (memberOf item))
  | some 't' => word "true" (.bool true)
  | some 'f' => word "false" (.bool false)
  | some 'n' => word "null" .null
  | _ => number

/-- A value that nests at most `depth` deep. -/
def valueWithin : Nat → Scan Json
  | 0 => valueOver none
  | depth + 1 => valueOver (some (valueWithin depth))

/-- The value of a JSON text. -/
def read (text : String) : Option Json :=
  whole (do
    let value ← valueWithin maxDepth
    skipSpace
    return value) text

end Json
end BuildQueue
