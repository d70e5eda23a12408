import BuildQueue.Settings
import BuildQueue.Settings.Draft

/-!
# Validation of settings

A draft is valid if each builder entry has a name, no name is given twice, no strategy name is
blank, the entry limit is positive and the time limit is not negative. The first violation is
reported: builder entries in the order of the document, each with its name, its setting and its
being a duplicate in this order, then the global setting, the entry limit and the time limit.
-/

namespace BuildQueue
namespace Settings

/-- Why a configuration is invalid. -/
inductive Invalid where
  | duplicateBuilder (name : String)
  | missingBuilderName
  | emptyStrategyName
  | unknownStrategy (name : String)
  | entryLimit (limit : Int)
  | ttl (seconds : Int)
deriving DecidableEq, Repr

/-- The wording of a violation. -/
def Invalid.message : Invalid → String
  | duplicateBuilder name => "Builder " ++ name ++ " is configured more than once"
  | missingBuilderName => "Builder configuration is missing a name"
  | emptyStrategyName => "Collapse function name must not be empty"
  | unknownStrategy name => "Unknown collapse function " ++ name
  | entryLimit limit => "Cache entry limit must be positive, got " ++ toString limit
  | ttl seconds => "Cache ttl_secs must not be negative, got " ++ toString seconds

/-- The setting that is meant, with the blanks around a name dropped. -/
def RawSetting.validate : RawSetting → Except Invalid Setting
  | enabled true => .ok .standard
  | enabled false => .ok .disabled
  | named name =>
    let name := Text.trim name
    if name = "" then .error .emptyStrategyName else .ok (.named name)

/-- An optional setting that is meant. -/
def validateOptional : Option RawSetting → Except Invalid (Option Setting)
  | none => .ok none
  | some raw => raw.validate.map some

/-- The limits that are meant. What is not given stays at its default. -/
def RawLimits.validate (raw : RawLimits) : Except Invalid CacheLimits := do
  let entryLimit ←
    match raw.entryLimit with
    | none => pure CacheLimits.defaultEntryLimit
    | some limit => if limit ≤ 0 then throw (.entryLimit limit) else pure limit.toNat
  let ttl ←
    match raw.ttl with
    | none => pure CacheLimits.defaultTtl
    | some seconds => if seconds < 0 then throw (.ttl seconds) else pure seconds.toNat
  return ⟨entryLimit, some ttl⟩

/-- The name and the setting of a builder entry. -/
def RawBuilder.validate (raw : RawBuilder) : Except Invalid (String × Option Setting) :=
  match raw.name with
  | none | some "" => .error .missingBuilderName
  | some name => do return (name, ← validateOptional raw.collapse)

/-- Adds a builder entry to those before it. -/
def addBuilder (builders : SortedMap String (Option Setting)) (raw : RawBuilder) :
    Except Invalid (SortedMap String (Option Setting)) := do
  let (name, setting) ← raw.validate
  if builders.contains name then throw (.duplicateBuilder name)
  return builders.insert name setting

/-- The configuration that a draft means. -/
def Draft.validate (draft : Draft) : Except Invalid Settings := do
  let builders ← draft.builders.foldlM addBuilder ∅
  let collapse ← validateOptional draft.collapse
  let cache ←
    match draft.cache with
    | none => pure CacheLimits.default
    | some raw => raw.validate
  return ⟨collapse, cache, builders⟩

end Settings
end BuildQueue
