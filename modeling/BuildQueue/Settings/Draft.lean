import BuildQueue.Toml

/-!
# Drafts of settings

What a configuration document says before it is checked: every part is optional, names may be
empty or given twice, and limits may be any integer. A table with fixed entries may also be
written as an array of exactly these entries in their order.
-/

namespace BuildQueue
namespace Settings

/-- A setting as written: switched on or off, or the name of a strategy. -/
inductive RawSetting where
  | enabled (value : Bool)
  | named (name : String)
deriving DecidableEq, Repr

/-- The limits of the view cache as written. -/
structure RawLimits where
  entryLimit : Option Int
  ttl : Option Int
deriving DecidableEq, Repr

/-- The entry of a builder as written. -/
structure RawBuilder where
  name : Option String
  collapse : Option RawSetting
deriving DecidableEq, Repr

/-- A configuration as written, with the builder entries in the order of the document. -/
structure Draft where
  collapse : Option RawSetting
  cache : Option RawLimits
  builders : List RawBuilder
deriving DecidableEq, Repr

open Toml

namespace RawSetting

def ofToml? : Value → Option RawSetting
  | .bool value => some (enabled value)
  | .string name => some (named name)
  | _ => none

end RawSetting

/-- An integer entry. -/
def integerOfToml? : Value → Option Int
  | .integer value => some value
  | _ => none

/-- A text entry. -/
def textOfToml? : Value → Option String
  | .string value => some value
  | _ => none

/-- An entry that may be missing but has to be of the right kind if it is there. -/
def optionalEntry {α : Type} (read : Value → Option α) (key : String) (entries : Entries) :
    Option (Option α) :=
  match entries.lookup key with
  | none => some none
  | some value => (read value).map some

/-- Whether all entries have one of the known keys. -/
def knownOnly (keys : List String) (entries : Entries) : Bool :=
  entries.all fun (key, _) => keys.contains key

namespace RawLimits

def ofEntries? (entries : Entries) : Option RawLimits := do
  guard (knownOnly ["entry_limit", "ttl_secs"] entries)
  return ⟨← optionalEntry integerOfToml? "entry_limit" entries,
    ← optionalEntry integerOfToml? "ttl_secs" entries⟩

def ofToml? : Value → Option RawLimits
  | .table entries _ => ofEntries? entries
  | .array [entryLimit, ttl] => do
    return ⟨some (← integerOfToml? entryLimit), some (← integerOfToml? ttl)⟩
  | _ => none

end RawLimits

namespace RawBuilder

def ofEntries? (entries : Entries) : Option RawBuilder := do
  guard (knownOnly ["name", "collapse_requests"] entries)
  return ⟨← optionalEntry textOfToml? "name" entries,
    ← optionalEntry RawSetting.ofToml? "collapse_requests" entries⟩

def ofToml? : Value → Option RawBuilder
  | .table entries _ => ofEntries? entries
  | .array [name, collapse] => do
    return ⟨some (← textOfToml? name), some (← RawSetting.ofToml? collapse)⟩
  | _ => none

end RawBuilder

namespace Draft

/-- The builder entries of an array. -/
def buildersOfToml? : Value → Option (List RawBuilder)
  | .array items => items.mapM RawBuilder.ofToml?
  | _ => none

/-- What the entries before the first header say. -/
def ofRoot? (entries : Entries) : Option Draft := do
  guard (knownOnly ["collapse_requests", "cache", "builders"] entries)
  return {
    collapse := ← optionalEntry RawSetting.ofToml? "collapse_requests" entries
    cache := ← optionalEntry RawLimits.ofToml? "cache" entries
    builders := ((← optionalEntry buildersOfToml? "builders" entries).getD []) }

/-- Adds what a table under a header says. The limits have one table, builders a list of them. -/
def addSection? (draft : Draft) (head : Header) (entries : Entries) : Option Draft :=
  match head with
  | ⟨["cache"], false⟩ => do
    guard draft.cache.isNone
    return { draft with cache := some (← RawLimits.ofEntries? entries) }
  | ⟨["builders"], true⟩ => do
    return { draft with builders := draft.builders ++ [← RawBuilder.ofEntries? entries] }
  | _ => none

/-- What a document says, none if a part has the wrong shape or an unknown name. Builders are
listed under headers or in one array, not both. -/
def ofDocument? (document : Document) : Option Draft := do
  let listed := document.sections.any fun (head, _) => head.path == ["builders"]
  guard !(listed && (document.root.lookup "builders").isSome)
  document.sections.foldlM (fun draft (head, entries) => draft.addSection? head entries)
    (← ofRoot? document.root)

end Draft
end Settings
end BuildQueue
