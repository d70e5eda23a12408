import BuildQueue.Policy

/-!
# Policies drop no strategy

Settings that write down a strategy which is not registered make no policy. So under a policy the
name that a builder follows leads to the strategy that is registered under it, and only a builder
that is switched off goes without.
-/

namespace BuildQueue

variable {settings : Settings} {name builderName : String}

/-! ## The names that are checked -/

/-- Settings write the name of a strategy down, as the common setting or as that of a builder. It
does not matter whether any builder follows it, nor whether there is such a builder. -/
inductive Settings.Mentions (settings : Settings) (name : String) : Prop
  | common (written : settings.collapse = some (.named name))
  | own
      (builderName : String)
      (written : settings.builders.get? builderName = some (some (.named name)))

@[simp] theorem Setting.name?_eq_some_iff {setting : Setting} :
    setting.name? = some name ↔ setting = .named name := by
  cases setting <;> simp [Setting.name?]

theorem Settings.mem_mentioned_iff {setting : Setting} :
    setting ∈ settings.mentioned ↔
      settings.collapse = some setting ∨
        ∃ builderName, settings.builders.get? builderName = some (some setting) := by
  simp [mentioned, SortedMap.mem_values_iff]

/-- The names that are checked are those that are written down. -/
theorem Settings.mem_strategyNames_iff :
    name ∈ settings.strategyNames ↔ settings.Mentions name := by
  simp only [strategyNames, List.mem_filterMap, Setting.name?_eq_some_iff, exists_eq_right,
    mem_mentioned_iff]
  constructor
  · rintro (written | ⟨builderName, written⟩)
    · exact .common written
    · exact .own builderName written
  · rintro (written | ⟨builderName, written⟩)
    · exact .inl written
    · exact .inr ⟨builderName, written⟩

/-- The name that a builder follows is written down, be it for the builder or for all. -/
theorem Settings.mentions_of_effective
    (follows : settings.effective builderName = .named name) :
    settings.Mentions name := by
  unfold effective at follows
  cases own : (settings.builders.get? builderName).join with
  | some setting =>
      obtain rfl : setting = .named name := by simpa [own] using follows
      exact .own builderName (Option.join_eq_some_iff.1 own)
  | none =>
      cases common : settings.collapse with
      | some setting =>
          obtain rfl : setting = .named name := by simpa [own, common] using follows
          exact .common common
      | none => simp [own, common] at follows

/-! ## What a policy makes of them -/

namespace Policy

variable {σ : Type}

/-- A name is written down that is not registered. -/
def Unknown (settings : Settings) (registered : SortedMap String σ) (name : String) : Prop :=
  settings.Mentions name ∧ registered.get? name = none

/-- The first name that is not registered is the reason for which there is no policy. -/
theorem of_cases (settings : Settings) (registered : SortedMap String σ) :
    (∃ name, Unknown settings registered name ∧
        Policy.of settings registered = .error (.unknownStrategy name)) ∨
      (∀ name, ¬Unknown settings registered name) ∧
        Policy.of settings registered = .ok ⟨settings, registered⟩ := by
  cases found : settings.strategyNames.find? fun name => !registered.contains name with
  | some name =>
      have missing : registered.get? name = none := by
        simpa [SortedMap.contains] using List.find?_some found
      have mentioned := Settings.mem_strategyNames_iff.1 (List.mem_of_find?_eq_some found)
      exact .inl ⟨name, ⟨mentioned, missing⟩, by simp [Policy.of, found]⟩
  | none =>
      refine .inr ⟨fun name unknown => ?_, by simp [Policy.of, found]⟩
      have known := List.find?_eq_none.1 found name (Settings.mem_strategyNames_iff.2 unknown.1)
      simp [SortedMap.contains, unknown.2] at known

/-- Under a policy that knows all names that its settings write down, a builder is switched off, or
follows the standard rules, or a name with the strategy that is registered under it. -/
theorem forBuilder_cases
    (policy : Policy σ)
    (complete : ∀ name, ¬Unknown policy.settings policy.registered name)
    (builderName : String) :
    (policy.settings.effective builderName = .disabled ∧ policy.forBuilder builderName = none) ∨
      (policy.settings.effective builderName = .standard ∧
        policy.forBuilder builderName = some .standard) ∨
        ∃ name strategy, policy.settings.effective builderName = .named name ∧
          policy.registered.get? name = some strategy ∧
            policy.forBuilder builderName = some (.registered strategy) := by
  cases follows : policy.settings.effective builderName with
  | disabled => simp [forBuilder, follows]
  | standard => simp [forBuilder, follows]
  | named name =>
      cases found : policy.registered.get? name with
      -- The name was looked for when the policy was made.
      | none => exact absurd ⟨Settings.mentions_of_effective follows, found⟩ (complete name)
      | some strategy => simp [forBuilder, follows, found]

/-- Settings make a policy just if every strategy that they write down is registered; otherwise they
are refused for the name of one that is not. Under a policy a builder goes without a strategy just
if it is switched off, it has the standard one just if it follows the standard rules, and if it
follows a name it has the strategy that is registered under this name. -/
theorem strategies_kept (settings : Settings) (registered : SortedMap String σ) :
    ((∃ why, Policy.of settings registered = .error why) ↔
        ∃ name, Unknown settings registered name) ∧
      (∀ why, Policy.of settings registered = .error why →
        ∃ name, Unknown settings registered name ∧ why = .unknownStrategy name) ∧
        ∀ policy, Policy.of settings registered = .ok policy → ∀ builderName,
          (policy.forBuilder builderName = none ↔
              settings.effective builderName = .disabled) ∧
            (policy.forBuilder builderName = some .standard ↔
              settings.effective builderName = .standard) ∧
              ∀ name, settings.effective builderName = .named name →
                ∃ strategy, registered.get? name = some strategy ∧
                  policy.forBuilder builderName = some (.registered strategy) := by
  obtain ⟨name, unknown, refused⟩ | ⟨complete, made⟩ := of_cases settings registered
  · rw [refused]
    refine ⟨iff_of_true ⟨_, rfl⟩ ⟨name, unknown⟩, ?_, by rintro _ ⟨⟩⟩
    rintro _ ⟨⟩
    exact ⟨name, unknown, rfl⟩
  · rw [made]
    refine ⟨iff_of_false (by simp) (by simpa using complete), by rintro _ ⟨⟩, ?_⟩
    rintro policy ⟨⟩ builderName
    obtain ⟨follows, has⟩ | ⟨follows, has⟩ | ⟨name, strategy, follows, found, has⟩ :=
      forBuilder_cases ⟨settings, registered⟩ complete builderName
    · simp [follows, has]
    · simp [follows, has]
    · simp [follows, found, has]

/-- A common strategy, and builders none of which follows it. -/
def shadowed (common own : String) : Settings where
  collapse := some (.named common)
  cache := .default
  builders := .ofList [("arm", some .disabled), ("linux", some (.named own))]

/-- A common strategy that no builder follows has to be registered all the same. -/
theorem strategies_kept_shadowed :
    let registered := SortedMap.ofList [("oldest", 1), ("newest", 2)]
    Policy.of (shadowed "latest" "newest") registered = .error (.unknownStrategy "latest") ∧
      Unknown (shadowed "latest" "newest") registered "latest" ∧
        Policy.of (shadowed "oldest" "newest") registered =
            .ok ⟨shadowed "oldest" "newest", registered⟩ ∧
          forBuilder ⟨shadowed "oldest" "newest", registered⟩ "arm" = none ∧
            forBuilder ⟨shadowed "oldest" "newest", registered⟩ "linux" =
              some (.registered 2) := by
  intro registered
  have refused : Policy.of (shadowed "latest" "newest") registered =
      .error (.unknownStrategy "latest") := rfl
  have made : Policy.of (shadowed "oldest" "newest") registered =
      .ok ⟨shadowed "oldest" "newest", registered⟩ := rfl
  obtain ⟨_, unknown, same⟩ :=
    (strategies_kept (shadowed "latest" "newest") registered).2.1 _ refused
  cases same
  have serves := (strategies_kept (shadowed "oldest" "newest") registered).2.2 _ made
  obtain ⟨strategy, found, has⟩ := (serves "linux").2.2 "newest" rfl
  cases found
  exact ⟨refused, unknown, made, (serves "arm").1.2 rfl, has⟩

end Policy
end BuildQueue
