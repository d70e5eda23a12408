import BuildQueue.Proofs.Settings.Checking
import Mathlib.Data.List.Perm.Basic

/-!
# Valid drafts

Nothing is wrong with a draft just if it is valid: the builders have names of their own, no strategy
has a blank name and no limit is too small. What a valid draft means does not depend on the order of
its builders. A builder follows the setting of its entry, else the common setting, else the standard
rules.
-/

namespace BuildQueue
namespace Settings

/-! ## Validity -/

/-- A setting that may be missing is not the name of a strategy that consists of blanks. -/
def Legible (raw : Option RawSetting) : Prop :=
  ∀ name, raw = some (.named name) → ∃ c ∈ name.toList, Text.isBlank c = false

/-- The entry of a builder gives a name. -/
def RawBuilder.Named (raw : RawBuilder) : Prop := ∃ name, raw.name = some name ∧ name ≠ ""

/-- A draft in which nothing is missing, given twice, blank or too small. -/
structure Draft.Valid (draft : Draft) : Prop where
  named : ∀ raw ∈ draft.builders, raw.Named
  legible : ∀ raw ∈ draft.builders, Legible raw.collapse
  distinct : (draft.builders.map RawBuilder.name).Nodup
  common : Legible draft.collapse
  entryLimit : ∀ limit, draft.entryLimit? = some limit → 1 ≤ limit
  ttl : ∀ seconds, draft.ttl? = some seconds → 0 ≤ seconds

theorem violationIf_eq_nil_iff
    {violated : Bool}
    {why : Invalid} :
    violationIf violated why = [] ↔ violated = false := by
  cases violated <;> simp [violationIf]

theorem settingViolations_eq_nil_iff
    {raw : Option RawSetting} :
    settingViolations raw = [] ↔ Legible raw := by
  rcases raw with _ | value | name
  · simp [settingViolations, Legible]
  · simp [settingViolations, RawSetting.violations, Legible]
  · change violationIf _ _ = [] ↔ _
    rw [violationIf_eq_nil_iff, List.all_eq_false]
    simp [Legible]

theorem limitViolations_eq_nil_iff
    {tooSmall : Int → Bool}
    {why : Int → Invalid}
    {limit : Option Int} :
    limitViolations tooSmall why limit = [] ↔
      ∀ given, limit = some given → tooSmall given = false := by
  cases limit with
  | none => simp [limitViolations]
  | some given => simp [limitViolations, violationIf_eq_nil_iff]

theorem RawBuilder.named_iff (raw : RawBuilder) : raw.Named ↔ (raw.name.getD "" == "") = false := by
  rw [Named, beq_eq_false_iff_ne]
  cases raw.name <;> simp

theorem RawBuilder.violations_eq_nil_iff
    {earlier : List RawBuilder}
    {raw : RawBuilder} :
    raw.violations earlier = [] ↔
      raw.Named ∧ Legible raw.collapse ∧ raw.name ∉ earlier.map RawBuilder.name := by
  have new : (earlier.map RawBuilder.name).contains raw.name = false ↔
      raw.name ∉ earlier.map RawBuilder.name := by
    rw [← List.contains_iff_mem, Bool.not_eq_true]
  rw [violations, List.append_eq_nil_iff, List.append_eq_nil_iff, violationIf_eq_nil_iff,
    settingViolations_eq_nil_iff, violationIf_eq_nil_iff, named_iff, and_assoc, new]

/-- Nothing is wrong with entries of builders that come after others just if nothing is wrong with
each of them, and they differ in their names from each other and from the others. -/
theorem builderViolations_eq_nil_iff
    {earlier rest : List RawBuilder} :
    builderViolations earlier rest = [] ↔
      (∀ raw ∈ rest, raw.Named) ∧ (∀ raw ∈ rest, Legible raw.collapse) ∧
        (rest.map RawBuilder.name).Nodup ∧
          ∀ raw ∈ rest, raw.name ∉ earlier.map RawBuilder.name := by
  induction rest generalizing earlier with
  | nil => simp [builderViolations]
  | cons raw rest inductionHypothesis =>
      have apart : (∀ later ∈ rest, later.name ∉ (earlier ++ [raw]).map RawBuilder.name) ↔
          raw.name ∉ rest.map RawBuilder.name ∧
            ∀ later ∈ rest, later.name ∉ earlier.map RawBuilder.name := by
        simp only [List.map_append, List.map_cons, List.map_nil, List.mem_append,
          List.mem_singleton, not_or, List.mem_map, not_exists, not_and]
        exact ⟨fun all => ⟨fun later listed => (all later listed).2,
          fun later listed => (all later listed).1⟩,
          fun both later listed => ⟨both.2 later listed, both.1 later listed⟩⟩
      rw [builderViolations, List.append_eq_nil_iff, RawBuilder.violations_eq_nil_iff,
        inductionHypothesis, apart, List.map_cons, List.nodup_cons]
      simp only [List.forall_mem_cons]
      tauto

theorem Draft.violations_eq_nil_iff (draft : Draft) : draft.violations = [] ↔ draft.Valid := by
  rw [violations, List.append_eq_nil_iff, List.append_eq_nil_iff, List.append_eq_nil_iff,
    builderViolations_eq_nil_iff, settingViolations_eq_nil_iff, limitViolations_eq_nil_iff,
    limitViolations_eq_nil_iff]
  constructor
  · rintro ⟨⟨named, legible, distinct, -⟩, common, entryLimit, ttl⟩
    refine ⟨named, legible, distinct, common, fun limit given => ?_, fun seconds given => ?_⟩
    · have := of_decide_eq_false (entryLimit limit given)
      omega
    · have := of_decide_eq_false (ttl seconds given)
      omega
  · rintro ⟨named, legible, distinct, common, entryLimit, ttl⟩
    refine ⟨⟨named, legible, distinct, by simp⟩, common, fun limit given => ?_,
      fun seconds given => ?_⟩
    · have := entryLimit limit given
      exact decide_eq_false (by omega)
    · have := ttl seconds given
      exact decide_eq_false (by omega)

theorem Draft.Valid.of_perm
    {draft : Draft}
    {builders : List RawBuilder}
    (valid : draft.Valid)
    (same : builders.Perm draft.builders) :
    Draft.Valid { draft with builders } where
  named raw listed := valid.named raw (same.mem_iff.1 listed)
  legible raw listed := valid.legible raw (same.mem_iff.1 listed)
  distinct := (same.map RawBuilder.name).nodup_iff.2 valid.distinct
  common := valid.common
  entryLimit := valid.entryLimit
  ttl := valid.ttl

/-! ## The meaning of a draft -/

/-- No entry of a builder has a setting. -/
def Draft.Silent (draft : Draft) (builderName : String) : Prop :=
  ∀ raw ∈ draft.builders, raw.name = some builderName → raw.collapse = none

/-- The setting that a builder gets: that of its own entry, else the common one, else the standard
one. -/
inductive Draft.Follows (draft : Draft) (builderName : String) : Setting → Prop where
  | own {raw : RawBuilder} {written : RawSetting} {setting : Setting}
      (listed : raw ∈ draft.builders)
      (named : raw.name = some builderName)
      (given : raw.collapse = some written)
      (means : written.Means setting) :
      Follows draft builderName setting
  | common {written : RawSetting} {setting : Setting}
      (silent : draft.Silent builderName)
      (given : draft.collapse = some written)
      (means : written.Means setting) :
      Follows draft builderName setting
  | standard
      (silent : draft.Silent builderName)
      (missing : draft.collapse = none) :
      Follows draft builderName .standard

theorem rel_means_unique
    {raw : Option RawSetting}
    {setting other : Option Setting}
    (means : Option.Rel RawSetting.Means raw setting)
    (meansToo : Option.Rel RawSetting.Means raw other) :
    setting = other := by
  cases means with
  | none => cases meansToo; rfl
  | some means =>
      cases meansToo with
      | some meansToo => exact congrArg some (means.eq meansToo)

theorem exists_written
    {raw : Option RawSetting}
    {setting : Setting}
    (means : Option.Rel RawSetting.Means raw (some setting)) :
    ∃ written, raw = some written ∧ written.Means setting := by
  cases means with
  | some means => exact ⟨_, rfl, means⟩

theorem rightUnique_means : Relator.RightUnique RawBuilder.Means := by
  rintro raw ⟨name, setting⟩ ⟨other, otherSetting⟩ means meansToo
  obtain rfl : name = other := Option.some.inj (means.name.symm.trans meansToo.name)
  exact congrArg (Prod.mk name) (rel_means_unique means.setting meansToo.setting)

theorem MeansLimits.eq
    {entryLimit ttl : Option Int}
    {limits other : CacheLimits}
    (means : MeansLimits entryLimit ttl limits)
    (meansToo : MeansLimits entryLimit ttl other) :
    limits = other := by
  obtain ⟨first, seconds⟩ := limits
  obtain ⟨second, otherSeconds⟩ := other
  obtain ⟨number, rfl, ttlMeant⟩ := means.ttl
  obtain ⟨otherNumber, rfl, otherTtlMeant⟩ := meansToo.ttl
  obtain rfl : first = second := Int.ofNat.inj (means.entryLimit.trans meansToo.entryLimit.symm)
  obtain rfl : number = otherNumber := Int.ofNat.inj (ttlMeant.trans otherTtlMeant.symm)
  rfl

/-- What entries of builders mean does not depend on their order. -/
theorem MeansBuilders.eq_of_perm
    {entries others : List RawBuilder}
    {builders otherBuilders : SortedMap String (Option Setting)}
    (means : MeansBuilders entries builders)
    (meansToo : MeansBuilders others otherBuilders)
    (same : others.Perm entries) :
    otherBuilders = builders := by
  obtain ⟨overrides, meant, listed⟩ := means
  obtain ⟨otherOverrides, meantToo, listedToo⟩ := meansToo
  have sameOverrides : otherOverrides.Perm overrides :=
    List.rel_perm_imp rightUnique_means meantToo meant same
  exact SortedMap.eq_of_perm (listedToo.trans (sameOverrides.trans listed.symm))

/-- A builder has an override just if it has an entry that means this override. -/
theorem MeansBuilders.get?_eq_some_iff
    {entries : List RawBuilder}
    {builders : SortedMap String (Option Setting)}
    {builderName : String}
    {setting : Option Setting}
    (means : MeansBuilders entries builders) :
    builders.get? builderName = some setting ↔
      ∃ raw ∈ entries, raw.Means (builderName, setting) := by
  obtain ⟨overrides, meant, listed⟩ := means
  rw [SortedMap.get?_eq_some_iff, listed.mem_iff]
  clear listed
  induction meant with
  | nil => simp
  | @cons raw override entries overrides head tail inductionHypothesis =>
      have first : (builderName, setting) = override ↔ raw.Means (builderName, setting) :=
        ⟨fun same => same ▸ head, fun means => rightUnique_means means head⟩
      rw [List.mem_cons, first, inductionHypothesis]
      simp only [List.mem_cons, exists_eq_or_imp]

theorem MeansBuilders.exists_means
    {entries : List RawBuilder}
    {builders : SortedMap String (Option Setting)}
    {raw : RawBuilder}
    (means : MeansBuilders entries builders)
    (listed : raw ∈ entries) :
    ∃ override, raw.Means override := by
  obtain ⟨overrides, meant, -⟩ := means
  induction meant with
  | nil => cases listed
  | cons head _ inductionHypothesis =>
      rcases List.mem_cons.1 listed with rfl | later
      · exact ⟨_, head⟩
      · exact inductionHypothesis later

namespace Draft.Means

variable {draft : Draft} {settings : Settings}

theorem eq_of_perm
    {builders : List RawBuilder}
    {other : Settings}
    (means : draft.Means settings)
    (meansToo : Draft.Means { draft with builders } other)
    (same : builders.Perm draft.builders) :
    other = settings := by
  obtain ⟨collapse, limits, overrides⟩ := settings
  obtain ⟨otherCollapse, otherLimits, otherOverrides⟩ := other
  obtain rfl : otherOverrides = overrides := means.builders.eq_of_perm meansToo.builders same
  obtain rfl : collapse = otherCollapse := rel_means_unique means.collapse meansToo.collapse
  obtain rfl : limits = otherLimits := means.limits.eq meansToo.limits
  rfl

/-- Every setting that is written down is meant by a written one. -/
theorem exists_means_of_mentioned
    {setting : Setting}
    (means : draft.Means settings)
    (mentioned : setting ∈ settings.mentioned) :
    ∃ raw : RawSetting, raw.Means setting := by
  rcases List.mem_append.1 mentioned with global | override
  · obtain ⟨raw, -, meant⟩ := exists_written (Option.mem_toList.1 global ▸ means.collapse)
    exact ⟨raw, meant⟩
  · obtain ⟨_, listed, rfl⟩ := List.mem_filterMap.1 override
    obtain ⟨⟨builderName, _⟩, entryListed, rfl⟩ := List.mem_map.1 listed
    obtain ⟨raw, -, meant⟩ := means.builders.get?_eq_some_iff.1
      (SortedMap.get?_eq_some_iff.2 entryListed)
    obtain ⟨written, -, means⟩ := exists_written meant.setting
    exact ⟨written, means⟩

/-- The names of strategies are neither empty nor between blanks. -/
theorem strategyNames_tight
    {name : String}
    (means : draft.Means settings)
    (listed : name ∈ settings.strategyNames) :
    name ≠ "" ∧ Text.Tight name := by
  obtain ⟨setting, mentioned, named⟩ := List.mem_filterMap.1 listed
  obtain ⟨raw, meant⟩ := means.exists_means_of_mentioned mentioned
  cases meant with
  | standard => cases named
  | disabled => cases named
  | named trims nonempty =>
      cases named
      exact ⟨nonempty, trims.toTight⟩

/-- A builder follows the setting of its entry, else the common one, else the standard one. -/
theorem follows
    (means : draft.Means settings)
    (builderName : String) :
    draft.Follows builderName (settings.effective builderName) := by
  cases own : (settings.builders.get? builderName).join with
  | some setting =>
      obtain ⟨raw, listed, meant⟩ :=
        means.builders.get?_eq_some_iff.1 (Option.join_eq_some_iff.1 own)
      obtain ⟨written, given, means⟩ := exists_written meant.setting
      rw [effective, own]
      exact .own listed meant.name given means
  | none =>
      have silent : draft.Silent builderName := by
        intro raw listed named
        obtain ⟨⟨name, setting⟩, meant⟩ := means.builders.exists_means listed
        obtain rfl : name = builderName := Option.some.inj (meant.name.symm.trans named)
        have held := means.builders.get?_eq_some_iff.2 ⟨raw, listed, meant⟩
        rw [held] at own
        obtain rfl : setting = none := own
        cases hasNone : raw.collapse with
        | none => rfl
        | some written => exact nomatch hasNone ▸ meant.setting
      have common := means.collapse
      rw [effective, own, Option.none_or]
      generalize written : draft.collapse = collapse at common
      generalize settings.collapse = setting at common
      cases common with
      | none => exact .standard silent written
      | some meant => exact .common silent written meant

end Draft.Means

/-! ## Validation -/

/-- The validation of a draft accepts just the valid ones, and refuses the others with the first
thing that is wrong with them. What it makes of a valid draft is what the draft means: an override
for each entry of a builder, strategies with names that are neither empty nor between blanks, and
for every builder the setting that it gets. The order of the builders does not matter for it. -/
theorem drafts_validated (draft : Draft) :
    ((∃ settings, draft.validate = .ok settings) ↔ draft.Valid) ∧
      (∀ why, draft.validate = .error why ↔ draft.violations.head? = some why) ∧
        ∀ settings, draft.validate = .ok settings →
          draft.Means settings ∧
            (∀ name ∈ settings.strategyNames, name ≠ "" ∧ Text.Tight name) ∧
              (∀ builderName, draft.Follows builderName (settings.effective builderName)) ∧
                ∀ builders, builders.Perm draft.builders →
                  Draft.validate { draft with builders } = .ok settings := by
  refine ⟨?_, fun why => draft.checks.eq_error_iff, fun settings accepted => ?_⟩
  · rw [draft.checks.exists_ok_iff, draft.violations_eq_nil_iff]
  · obtain ⟨nothing, means⟩ := (accepted ▸ draft.checks).of_ok
    refine ⟨means, fun name => means.strategyNames_tight, means.follows, fun builders same => ?_⟩
    have valid := (draft.violations_eq_nil_iff.1 nothing).of_perm same
    obtain ⟨other, acceptedToo⟩ :=
      (Draft.checks _).exists_ok_iff.2 ((Draft.violations_eq_nil_iff _).2 valid)
    have meansToo := (acceptedToo ▸ Draft.checks _).of_ok.2
    rw [acceptedToo, means.eq_of_perm meansToo same]

/-- A draft with the name of a strategy between blanks. -/
def padded : Draft where
  collapse := some (.enabled false)
  cache := some ⟨some 1, some 0⟩
  builders := [⟨some "linux", some (.named " oldest\t")⟩, ⟨some "arm", none⟩]

/-- What the padded draft means. -/
def paddedSettings : Settings where
  collapse := some .disabled
  cache := ⟨1, some 0⟩
  builders := .ofList [("arm", none), ("linux", some (.named "oldest"))]

theorem drafts_validated_padded :
    padded.validate = .ok paddedSettings ∧
      padded.Follows "linux" (.named "oldest") ∧ padded.Follows "arm" .disabled ∧
        Draft.validate { padded with builders := padded.builders.reverse } =
          .ok paddedSettings := by
  have accepted : padded.validate = .ok paddedSettings := by decide
  obtain ⟨-, -, follows, anyOrder⟩ := (drafts_validated padded).2.2 paddedSettings accepted
  exact ⟨accepted, follows "linux", follows "arm", anyOrder _ (List.reverse_perm _)⟩

end Settings
end BuildQueue
