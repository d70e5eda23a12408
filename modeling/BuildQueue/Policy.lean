import BuildQueue.Settings.Validation

/-!
# Policies

A policy joins settings with the strategies that they name. It exists only if every name that the
settings mention is registered, so that no setting is dropped in silence.
-/

namespace BuildQueue

/-- Settings together with registered strategies of type `σ`. -/
structure Policy (σ : Type) where
  settings : Settings
  registered : SortedMap String σ

/-- How the requests of one builder are collapsed. -/
inductive Choice (σ : Type) where
  | standard
  | registered (strategy : σ)
deriving DecidableEq, Repr

namespace Policy

variable {σ : Type}

/-- The policy of some settings; fails at the first name that is not registered. -/
def of (settings : Settings) (registered : SortedMap String σ) :
    Except Settings.Invalid (Policy σ) :=
  match settings.strategyNames.find? fun name => !registered.contains name with
  | some unknown => .error (.unknownStrategy unknown)
  | none => .ok ⟨settings, registered⟩

/-- The policy by which every builder follows the standard rules. -/
def standard : Policy σ := ⟨.default, ∅⟩

/-- How the requests of a builder are collapsed, none if they are not. -/
def forBuilder (policy : Policy σ) (builderName : String) : Option (Choice σ) :=
  match policy.settings.effective builderName with
  | .standard => some .standard
  | .disabled => none
  | .named name => (policy.registered.get? name).map .registered

end Policy
end BuildQueue
