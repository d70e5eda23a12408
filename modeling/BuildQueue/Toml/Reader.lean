import BuildQueue.Toml.Lexeme

/-!
# Reading TOML documents

A document is read line by line: a header, or a key with its value. Arrays may stretch over
several lines, tables in braces may not.
-/

namespace BuildQueue
namespace Toml

open Scan

/-- Takes blanks, comments and line ends inside an array. -/
def skipLines : Scan Unit := do
  let _ ← collect do
    skipBlanks
    if ← accept '\n' then return some ()
    if ← comment then return some ()
    return none

/-- The items of an array after the opening bracket, up to the closing one. A comma may follow
the last item. -/
def arrayItems (item : Scan Value) : Scan (List Value) := do
  let items ← collect do
    skipLines
    if (← peek) = some ']' then return none
    let value ← item
    skipLines
    unless ← accept ',' do
      unless (← peek) = some ']' do refuse
    return some value
  require ']'
  return items

/-- One entry of a table, added to those before it. -/
def entry (value : Scan Value) (entries : Entries) : Scan Entries := do
  let (key, rest) ← dottedKey
  require '='
  skipBlanks
  let held ← value
  match addDotted key rest held entries with
  | some entries => return entries
  | none => refuse

/-- Entries of a table in braces, up to the closing brace. -/
def inlineEntries (value : Scan Value) (entries : Entries) : Nat → Scan Entries
  | 0 => refuse
  | limit + 1 => do
    let entries ← entry value entries
    skipBlanks
    if ← accept '\x7d' then return entries
    require ','
    skipBlanks
    inlineEntries value entries limit

/-- A table in braces, after the opening brace. -/
def inlineTable (value : Scan Value) : Scan Value := do
  skipBlanks
  if ← accept '\x7d' then return .table [] false
  return .table (← inlineEntries value [] (← get).length) false

/-- A value whose items and entries are scanned by `inner`. -/
def valueOver (inner : Scan Value) : Scan Value := do
  match ← peek with
  | some '"' =>
    let _ ← next
    return .string (← stringAfter '"')
  | some '\'' =>
    let _ ← next
    return .string (← stringAfter '\'')
  | some '[' =>
    let _ ← next
    return .array (← arrayItems inner)
  | some '\x7b' =>
    let _ ← next
    inlineTable inner
  | some '+' =>
    let _ ← next
    integerOf (← run isBareChar)
  | _ =>
    match ← run isBareChar with
    | ['t', 'r', 'u', 'e'] => return .bool true
    | ['f', 'a', 'l', 's', 'e'] => return .bool false
    | word => integerOf word

/-- A value that nests less than `depth` deep. -/
def valueWithin : Nat → Scan Value
  | 0 => refuse
  | depth + 1 => valueOver (valueWithin depth)

/-- A value. Its depth is bounded by the length of the text. -/
def value : Scan Value := do valueWithin ((← get).length + 1)

/-- The header of a table, to the end of its line. -/
def header : Scan Header := do
  require '['
  let listed ← accept '['
  skipBlanks
  let (first, rest) ← dottedKey
  require ']'
  if listed then require ']'
  restOfLine
  return ⟨first :: rest, listed⟩

/-- A key with its value, to the end of its line. -/
def keyLine (entries : Entries) : Scan Entries := do
  let entries ← entry value entries
  restOfLine
  return entries

/-- Takes lines without content. -/
def skipEmptyLines : Scan Unit := skipLines

/-- The entries up to the next header or the end of the text. -/
def entriesUpTo (entries : Entries) : Nat → Scan Entries
  | 0 => refuse
  | limit + 1 => do
    skipEmptyLines
    match ← peek with
    | none | some '[' => return entries
    | some _ => entriesUpTo (← keyLine entries) limit

/-- The entries of one table. -/
def entries : Scan Entries := do entriesUpTo [] ((← get).length + 1)

/-- A whole document. -/
def document : Scan Document := do
  let root ← entries
  let sections ← collect do
    if (← peek).isNone then return none
    let head ← header
    return some (head, ← entries)
  return ⟨root, sections⟩

/-- The text with each carriage return before a line end left out. -/
def foldLineEnds : List Char → List Char
  | '\r' :: '\n' :: rest => '\n' :: foldLineEnds rest
  | c :: rest => c :: foldLineEnds rest
  | [] => []

/-- The text without a byte order mark at its beginning. -/
def dropMark : List Char → List Char
  | '\ufeff' :: rest => rest
  | text => text

/-- Reads a document. -/
def read (text : String) : Option Document :=
  (StateT.run document (foldLineEnds (dropMark text.toList))).map (·.1)

end Toml
end BuildQueue
