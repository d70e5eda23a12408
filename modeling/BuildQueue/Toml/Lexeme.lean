import BuildQueue.Text.Scan
import BuildQueue.Toml

/-!
# TOML lexemes

The scanners of blanks, comments, strings, keys and numbers. They work on text whose line ends
are single newline characters; a carriage return elsewhere belongs to no lexeme.
-/

namespace BuildQueue
namespace Toml

open Scan

/-- Whether a character may stand in a string or a comment: a tab, or anything from the blank
on. -/
def isTextChar (c : Char) : Bool := c = '\t' || 0x20 ≤ c.toNat

/-- Whether a character may stand for itself in a string. -/
def isStringChar (c : Char) : Bool := isTextChar c && c.toNat ≠ 0x7f

/-- Whether a character may stand in a key without quotes. Numbers and words use the same
characters. -/
def isBareChar (c : Char) : Bool := c.isAlphanum || c = '-' || c = '_'

/-- Takes blanks and tabs. -/
def skipBlanks : Scan Unit := do
  let _ ← run fun c => c = ' ' || c = '\t'

/-- Takes the end of a line, or finds the end of the text. -/
def lineEnd : Scan Unit := do
  match ← peek with
  | none => return
  | some '\n' =>
    let _ ← next
  | some _ => refuse

/-- Takes a comment with the end of its line, and says whether there was one. -/
def comment : Scan Bool := do
  if ← accept '#' then
    let _ ← run isTextChar
    lineEnd
    return true
  else return false

/-- Takes a comment or the end of the line. -/
def restOfLine : Scan Unit := do
  skipBlanks
  unless ← comment do lineEnd

/-- Whether a digit belongs to a number system. -/
def digitOf? (radix : Nat) (c : Char) : Option Nat :=
  let value :=
    if c.isDigit then c.toNat - '0'.toNat
    else if 'a' ≤ c && c ≤ 'f' then c.toNat - 'a'.toNat + 10
    else if 'A' ≤ c && c ≤ 'F' then c.toNat - 'A'.toNat + 10
    else radix
  if value < radix then some value else none

/-- The number that digits of a number system stand for, none if one is no digit. -/
def numeral? (radix : Nat) (digits : List Char) : Option Nat :=
  digits.foldlM (fun value c => return radix * value + (← digitOf? radix c)) 0

/-- A character given by as many hexadecimal digits as asked for. -/
def hexChar (count : Nat) : Scan Char := do
  match numeral? 16 (← take count) with
  | some point => if Nat.isValidChar point then return Char.ofNat point else refuse
  | none => refuse

/-- Takes the white space after a backslash that ends a line: the line must end after blanks. -/
def continuation : Scan Unit := do
  skipBlanks
  match ← peek with
  | some '\n' | none =>
    let _ ← run fun c => c = ' ' || c = '\t' || c = '\n'
  | some _ => refuse

/-- What an escape sequence adds to a string, after the backslash. Only a string of several lines
may escape the end of a line, which adds nothing. -/
def escaped (multiline : Bool) : Scan (List Char) := do
  match ← peek with
  | some ' ' | some '\t' | some '\n' =>
    if multiline then
      continuation
      return []
    else refuse
  | _ =>
    match ← next with
    | '"' => return ['"']
    | '\\' => return ['\\']
    | 'b' => return ['\x08']
    | 'f' => return ['\x0c']
    | 'n' => return ['\n']
    | 'r' => return ['\r']
    | 't' => return ['\t']
    | 'u' => return [← hexChar 4]
    | 'U' => return [← hexChar 8]
    | _ => refuse

/-- The next part of a string of one line, none at the closing quote. Only strings in double
quotes have escape sequences. -/
def linePart (quote : Char) : Scan (Option (List Char)) := do
  let c ← next
  if c = quote then return none
  else if c = '\\' && quote = '"' then return some (← escaped false)
  else if isStringChar c then return some [c]
  else refuse

/-- The next part of a string of several lines, none at the three closing quotes. -/
def blockPart (quote : Char) : Scan (Option (List Char)) := do
  if ← acceptText [quote, quote, quote] then return none
  let c ← next
  if c = '\\' && quote = '"' then return some (← escaped true)
  else if c = '\n' || isStringChar c then return some [c]
  else refuse

/-- A string of one line after its opening quote. -/
def lineString (quote : Char) : Scan String := do
  return String.ofList (← collect (linePart quote)).flatten

/-- A string of several lines after its opening quotes. A line end right after them does not
count, and up to two quotes right before the closing ones do. -/
def blockString (quote : Char) : Scan String := do
  let _ ← accept '\n'
  let body := (← collect (blockPart quote)).flatten
  let first ← accept quote
  let second ← if first then accept quote else pure false
  let extra := (if first then [quote] else []) ++ if second then [quote] else []
  return String.ofList (body ++ extra)

/-- A string in the given quotes, after its first quote. -/
def stringAfter (quote : Char) : Scan String := do
  if ← acceptText [quote, quote] then blockString quote else lineString quote

/-- One part of a key: bare, or a string of one line. -/
def keyPart : Scan String := do
  match ← peek with
  | some '"' =>
    let _ ← next
    if ← acceptText ['"', '"'] then refuse else lineString '"'
  | some '\'' =>
    let _ ← next
    if ← acceptText ['\'', '\''] then refuse else lineString '\''
  | _ =>
    let word ← run isBareChar
    if word.isEmpty then refuse else return String.ofList word

/-- A dotted key: its first part and the others. Blanks may surround the dots. -/
def dottedKey : Scan (String × List String) := do
  let first ← keyPart
  skipBlanks
  let rest ← collect do
    if ← accept '.' then
      skipBlanks
      let part ← keyPart
      skipBlanks
      return some part
    else return none
  return (first, rest)

/-- The digits of a number without the underscores, none if an underscore does not stand between
two digits. -/
def ungrouped? : List Char → Option (List Char)
  | [] => none
  | '_' :: _ => none
  | [c] => some [c]
  | c :: '_' :: rest => (ungrouped? rest).map (c :: ·)
  | c :: rest => (ungrouped? rest).map (c :: ·)

/-- The natural that a word of digits stands for. -/
def natural? (radix : Nat) (word : List Char) : Option Nat := do numeral? radix (← ungrouped? word)

/-- Whether a decimal word has zeros in front of its first other digit. -/
def hasLeadingZero : List Char → Bool
  | '0' :: _ :: _ => true
  | _ => false

/-- A decimal word without a sign. -/
def decimal? (word : List Char) : Option Nat :=
  if hasLeadingZero word then none else natural? 10 word

/-- The integer that a word stands for: in hexadecimal, octal or binary digits, or in decimal
digits with an optional minus. -/
def integerWord? (word : List Char) : Option Int :=
  match word with
  | '0' :: 'x' :: digits => (natural? 16 digits).map Int.ofNat
  | '0' :: 'o' :: digits => (natural? 8 digits).map Int.ofNat
  | '0' :: 'b' :: digits => (natural? 2 digits).map Int.ofNat
  | '-' :: digits => (decimal? digits).map fun value => -(value : Int)
  | digits => (decimal? digits).map Int.ofNat

/-- The 64-bit integer that a word stands for. A point or a colon after it would make it another
kind of number. -/
def integerOf (word : List Char) : Scan Value := do
  match integerWord? word with
  | some value =>
    if Int64.minValue.toInt ≤ value && value ≤ Int64.maxValue.toInt then
      return .integer value
    else refuse
  | none => refuse

end Toml
end BuildQueue
