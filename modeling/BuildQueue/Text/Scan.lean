/-!
# Scanning text

A scanner takes characters from the front of a text and gives a value, or refuses the text.
Repetition is bounded by the length of what is left, since every repeated scanner takes at least
one character.
-/

namespace BuildQueue

/-- A scanner of values of type `α`. -/
abbrev Scan (α : Type) := StateT (List Char) Option α

namespace Scan

variable {α : Type}

/-- Refuses every text. -/
def refuse : Scan α := fun _ => none

/-- The next character, which stays. -/
def peek : Scan (Option Char) := fun text => some (text.head?, text)

/-- Takes the next character; refuses at the end. -/
def next : Scan Char
  | [] => none
  | c :: rest => some (c, rest)

/-- Takes a given character if it is the next one, and says so. -/
def accept (c : Char) : Scan Bool
  | [] => some (false, [])
  | d :: rest => if c = d then some (true, rest) else some (false, d :: rest)

/-- Takes a given text if it is next, and says so. -/
def acceptText (word : List Char) : Scan Bool := fun text =>
  if word.isPrefixOf text then some (true, text.drop word.length) else some (false, text)

/-- Takes a given character, which has to be next. -/
def require (c : Char) : Scan Unit := do
  unless ← accept c do refuse

/-- Takes the longest run of characters that satisfy a condition. -/
def run (p : Char → Bool) : Scan (List Char) := fun text => some (text.span p)

/-- Takes as many characters as asked for. -/
def take (count : Nat) : Scan (List Char) := fun text =>
  if count ≤ text.length then some (text.splitAt count) else none

/-- Succeeds only at the end of the text. -/
def finish : Scan Unit
  | [] => some ((), [])
  | _ :: _ => none

/-- Repeats a scanner until it gives none; refuses if that takes more than `limit` times. -/
def repeatUpTo (item : Scan (Option α)) : Nat → Scan (List α)
  | 0 => refuse
  | limit + 1 => do
    match ← item with
    | none => return []
    | some value => return value :: (← repeatUpTo item limit)

/-- Repeats a scanner that takes at least one character whenever it gives a value. -/
def collect (item : Scan (Option α)) : Scan (List α) := do
  repeatUpTo item ((← get).length + 1)

/-- The value scanned from a whole text. -/
def whole (scanner : Scan α) (text : String) : Option α :=
  (StateT.run scanner text.toList).bind fun (value, rest) =>
    if rest.isEmpty then some value else none

end Scan
end BuildQueue
