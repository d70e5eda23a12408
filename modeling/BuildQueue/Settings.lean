import BuildQueue.SortedMap
import BuildQueue.Text.Character

/-!
# Settings

Which builders collapse their pending build requests, by which rules, and how long assembled
views of requests may be reused. A builder follows its own setting if it has one, else the global
one, else the standard rules.
-/

namespace BuildQueue

/-- How pending requests of a builder are collapsed. -/
inductive Setting where
  /-- By the standard rules. -/
  | standard
  /-- Not at all. -/
  | disabled
  /-- By the strategy registered under a name. -/
  | named (name : String)
deriving DecidableEq, Repr, Inhabited

/-- The name of a strategy that a setting mentions. -/
def Setting.name? : Setting → Option String
  | named name => some name
  | _ => none

/-- How many views may be kept, and for how many seconds a view may be served. Without a time
limit views are served until they are evicted. -/
structure CacheLimits where
  entryLimit : Nat
  ttl : Option Nat
deriving DecidableEq, Repr, Inhabited

namespace CacheLimits

/-- The number of views that are kept unless configured otherwise. -/
def defaultEntryLimit : Nat := 1000

/-- For how many seconds a view is served unless configured otherwise. -/
def defaultTtl : Nat := 60

/-- The limits of a configuration that says nothing of them. -/
def default : CacheLimits := ⟨defaultEntryLimit, some defaultTtl⟩

end CacheLimits

/-- A valid configuration. -/
structure Settings where
  /-- The setting of the builders that have none of their own. -/
  collapse : Option Setting
  /-- The limits of the view cache. -/
  cache : CacheLimits
  /-- The builders that are mentioned, with their own settings. -/
  builders : SortedMap String (Option Setting)
deriving DecidableEq

namespace Settings

/-- The configuration of an empty document. -/
def default : Settings := ⟨none, .default, ∅⟩

/-- The setting that a builder follows. -/
def effective (settings : Settings) (builderName : String) : Setting :=
  ((settings.builders.get? builderName).join.or settings.collapse).getD .standard

/-- The settings that are written down, the global one first. -/
def mentioned (settings : Settings) : List Setting :=
  settings.collapse.toList ++ settings.builders.values.filterMap id

/-- The names of strategies that are written down, the global one first. -/
def strategyNames (settings : Settings) : List String := settings.mentioned.filterMap Setting.name?

end Settings
end BuildQueue
