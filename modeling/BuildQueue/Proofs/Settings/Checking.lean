import BuildQueue.Settings.Validation
import BuildQueue.Proofs.SortedMap
import BuildQueue.Proofs.Text.Trimming
import Mathlib.Data.List.Forall2

/-!
# Checks of drafts

What is wrong with a draft is listed in the order of the document, each entry of a builder with its
name first, then its setting, then its being a duplicate. A check finds the first item of this list,
or else what the draft means. Checks that follow each other find the first item of the joined lists,
so what a validation finds is put together from what its parts find.
-/

namespace BuildQueue
namespace Settings

/-! ## What is wrong -/

/-- One item if there is a violation. -/
def violationIf (violated : Bool) (why : Invalid) : List Invalid := if violated then [why] else []

/-- What is wrong with a setting: the name of a strategy may be blank. -/
def RawSetting.violations : RawSetting → List Invalid
  | .enabled _ => []
  | .named name => violationIf (name.toList.all Text.isBlank) .emptyStrategyName

/-- What is wrong with a setting that may be missing. -/
def settingViolations (raw : Option RawSetting) : List Invalid :=
  (raw.map RawSetting.violations).getD []

/-- What is wrong with the entry of a builder that comes after some others. -/
def RawBuilder.violations (earlier : List RawBuilder) (raw : RawBuilder) : List Invalid :=
  let name := raw.name.getD ""
  violationIf (name == "") .missingBuilderName ++ settingViolations raw.collapse ++
    violationIf ((earlier.map RawBuilder.name).contains raw.name) (.duplicateBuilder name)

/-- What is wrong with entries of builders that come after some others. -/
def builderViolations (earlier : List RawBuilder) : List RawBuilder → List Invalid
  | [] => []
  | raw :: rest => raw.violations earlier ++ builderViolations (earlier ++ [raw]) rest

/-- What is wrong with a limit that may be missing. -/
def limitViolations (tooSmall : Int → Bool) (why : Int → Invalid) (limit : Option Int) :
    List Invalid :=
  (limit.map fun limit => violationIf (tooSmall limit) (why limit)).getD []

/-- The number of views that a draft allows to keep, if it says so. -/
def Draft.entryLimit? (draft : Draft) : Option Int := draft.cache.bind RawLimits.entryLimit

/-- For how many seconds a draft allows to serve a view, if it says so. -/
def Draft.ttl? (draft : Draft) : Option Int := draft.cache.bind RawLimits.ttl

/-- All that is wrong with a draft, in the order of the document. -/
def Draft.violations (draft : Draft) : List Invalid :=
  builderViolations [] draft.builders ++ (settingViolations draft.collapse ++
    (limitViolations (fun limit => limit ≤ 0) .entryLimit draft.entryLimit? ++
      limitViolations (fun seconds => seconds < 0) .ttl draft.ttl?))

/-! ## What is meant -/

/-- The setting that a written one means. Blanks around the name of a strategy do not count. -/
inductive RawSetting.Means : RawSetting → Setting → Prop where
  | standard : Means (.enabled true) .standard
  | disabled : Means (.enabled false) .disabled
  | named {name core : String} (trims : Text.Trims name core) (nonempty : core ≠ "") :
      Means (.named name) (.named core)

/-- The number that a limit means. What is not given stays at its default. -/
def Bounds (limit : Option Int) (standard number : Nat) : Prop :=
  (number : Int) = limit.getD standard

/-- The limits that are meant. -/
structure MeansLimits (entryLimit ttl : Option Int) (limits : CacheLimits) : Prop where
  entryLimit : Bounds entryLimit CacheLimits.defaultEntryLimit limits.entryLimit
  ttl : ∃ seconds, limits.ttl = some seconds ∧ Bounds ttl CacheLimits.defaultTtl seconds

/-- The override that the entry of a builder means: the name of the builder with its setting. -/
structure RawBuilder.Means (raw : RawBuilder) (entry : String × Option Setting) : Prop where
  name : raw.name = some entry.1
  named : entry.1 ≠ ""
  setting : Option.Rel RawSetting.Means raw.collapse entry.2

/-- The overrides that some entries of builders mean: one for each entry. -/
def MeansBuilders
    (entries : List RawBuilder)
    (builders : SortedMap String (Option Setting)) : Prop :=
  ∃ overrides, List.Forall₂ RawBuilder.Means entries overrides ∧ builders.entries.Perm overrides

/-- The configuration that a draft means. -/
structure Draft.Means (draft : Draft) (settings : Settings) : Prop where
  builders : MeansBuilders draft.builders settings.builders
  collapse : Option.Rel RawSetting.Means draft.collapse settings.collapse
  limits : MeansLimits draft.entryLimit? draft.ttl? settings.cache

theorem RawSetting.Means.eq
    {raw : RawSetting}
    {setting other : Setting}
    (means : raw.Means setting)
    (meansToo : raw.Means other) :
    setting = other := by
  cases means with
  | standard => cases meansToo; rfl
  | disabled => cases meansToo; rfl
  | named trims nonempty =>
      cases meansToo with
      | named trimsToo nonemptyToo =>
          exact congrArg Setting.named (trims.trim_eq.symm.trans trimsToo.trim_eq)

/-! ## Checks -/

/-- What a check comes to that looks for violations in their order: the first of them, or else
something that is meant. -/
inductive Checks {α : Type} (violations : List Invalid) (meant : α → Prop) :
    Except Invalid α → Prop where
  | accepted {value : α} (none : violations = []) (means : meant value) :
      Checks violations meant (.ok value)
  | refused {first : Invalid} {rest : List Invalid} (violated : violations = first :: rest) :
      Checks violations meant (.error first)

namespace Checks

variable {α β : Type} {first second violations : List Invalid} {meant : α → Prop}
  {meantToo : β → Prop} {outcome : Except Invalid α} {why : Invalid} {value : α}

/-- A check that is followed by another one looks for the violations of both. -/
theorem bind
    {next : α → Except Invalid β}
    (checks : Checks first meant outcome)
    (checksNext : ∀ value, meant value → Checks second meantToo (next value)) :
    Checks (first ++ second) meantToo (outcome >>= next) := by
  cases checks with
  | accepted none means =>
      rw [none]
      exact checksNext _ means
  | refused violated =>
      rw [violated]
      exact .refused List.cons_append

theorem pure (means : meant value) : Checks [] meant (Pure.pure value) := .accepted rfl means

/-- A check of one condition. -/
theorem ite
    {violated : Prop}
    [Decidable violated]
    (checks : ¬ violated → Checks [] meant outcome) :
    Checks (violationIf (decide violated) why) meant
      (if violated then .error why else outcome) := by
  by_cases wrong : violated
  · rw [if_pos wrong, violationIf, if_pos (decide_eq_true wrong)]
    exact .refused rfl
  · rw [if_neg wrong, violationIf, if_neg (by simpa using wrong)]
    exact checks wrong

/-- A check that accepts has found nothing wrong. -/
theorem of_ok
    (checks : Checks violations meant (.ok value)) :
    violations = [] ∧ meant value := by
  cases checks with
  | accepted none means => exact ⟨none, means⟩

theorem exists_ok_iff
    (checks : Checks violations meant outcome) :
    (∃ value, outcome = .ok value) ↔ violations = [] := by
  cases checks with
  | accepted none means => simp [none]
  | refused violated => simp [violated]

theorem eq_error_iff
    (checks : Checks violations meant outcome) :
    outcome = .error why ↔ violations.head? = some why := by
  cases checks with
  | accepted none means => simp [none]
  | refused violated => simp [violated]

end Checks

/-! ## The parts of a validation -/

theorem RawSetting.checks (raw : RawSetting) : Checks raw.violations raw.Means raw.validate := by
  cases raw with
  | enabled value => cases value <;> exact .accepted rfl (by constructor)
  | named name =>
      have blank : name.toList.all Text.isBlank = decide (Text.trim name = "") := by
        rw [Bool.eq_iff_iff, List.all_eq_true, decide_eq_true_iff, Text.trim_eq_empty_iff]
      change Checks (violationIf (name.toList.all Text.isBlank) _) _ _
      rw [blank]
      exact .ite fun nonempty => .pure (.named (Text.trims_trim name) nonempty)

theorem checks_validateOptional (raw : Option RawSetting) :
    Checks (settingViolations raw) (Option.Rel RawSetting.Means raw) (validateOptional raw) := by
  cases raw with
  | none => exact .accepted rfl .none
  | some raw =>
      change Checks raw.violations _ (raw.validate.map some)
      have checks := raw.checks
      generalize raw.validate = outcome at checks
      cases checks with
      | accepted none means => exact .accepted none (.some means)
      | refused violated => exact .refused violated

/-- The number that a limit means, if it is not too small. -/
def numberOf (tooSmall : Int → Bool) (why : Int → Invalid) (standard : Nat) :
    Option Int → Except Invalid Nat
  | none => .ok standard
  | some limit => if tooSmall limit then .error (why limit) else .ok limit.toNat

theorem checks_numberOf
    {tooSmall : Int → Bool}
    (why : Int → Invalid)
    (standard : Nat)
    (limit : Option Int)
    (natural : ∀ limit, tooSmall limit = false → 0 ≤ limit) :
    Checks (limitViolations tooSmall why limit) (Bounds limit standard)
      (numberOf tooSmall why standard limit) := by
  cases limit with
  | none => exact .pure rfl
  | some limit =>
      change Checks (violationIf (tooSmall limit) (why limit)) _ (if _ then _ else _)
      cases small : tooSmall limit with
      | false => exact .pure (Int.toNat_of_nonneg (natural limit small))
      | true => exact .refused rfl

/-- The two limits are checked one after the other. -/
theorem RawLimits.validate_eq (raw : RawLimits) :
    raw.validate = do
      let entryLimit ← numberOf (fun limit => limit ≤ 0) .entryLimit CacheLimits.defaultEntryLimit
        raw.entryLimit
      let ttl ← numberOf (fun seconds => seconds < 0) .ttl CacheLimits.defaultTtl raw.ttl
      return ⟨entryLimit, some ttl⟩ := by
  obtain ⟨entryLimit, ttl⟩ := raw
  have last (limits : Nat → CacheLimits) :
      (do
        let ttl ←
          match ttl with
          | none => pure CacheLimits.defaultTtl
          | some seconds => if seconds < 0 then throw (.ttl seconds) else pure seconds.toNat
        return limits ttl) =
      (do
        let ttl ← numberOf (fun seconds => seconds < 0) .ttl CacheLimits.defaultTtl ttl
        return limits ttl) := by
    cases ttl with
    | none => rfl
    | some seconds =>
        by_cases negative : seconds < 0 <;> simp only [numberOf, negative, decide_true,
          decide_false, if_true, if_false] <;> rfl
  cases entryLimit with
  | none => exact last _
  | some limit =>
      unfold validate
      by_cases small : limit ≤ 0
      · simp only [numberOf, small, decide_true, if_true]
        rfl
      · simp only [numberOf, small, decide_false, if_false]
        exact last _

theorem RawLimits.checks (raw : RawLimits) :
    Checks
      (limitViolations (fun limit => limit ≤ 0) .entryLimit raw.entryLimit ++
        limitViolations (fun seconds => seconds < 0) .ttl raw.ttl)
      (MeansLimits raw.entryLimit raw.ttl) raw.validate := by
  rw [validate_eq]
  refine (checks_numberOf .entryLimit _ raw.entryLimit ?_).bind fun entryLimit entryLimitMeant => ?_
  · intro limit large
    have := of_decide_eq_false large
    omega
  rw [← List.append_nil (limitViolations _ _ raw.ttl)]
  refine (checks_numberOf .ttl _ raw.ttl ?_).bind fun ttl ttlMeant => ?_
  · intro seconds large
    have := of_decide_eq_false large
    omega
  exact .pure ⟨entryLimitMeant, ttl, rfl, ttlMeant⟩

theorem RawBuilder.checks (raw : RawBuilder) :
    Checks
      (violationIf (raw.name.getD "" == "") .missingBuilderName ++ settingViolations raw.collapse)
      raw.Means raw.validate := by
  unfold validate
  split
  · next missing =>
    rw [missing]
    exact .refused rfl
  · next missing =>
    rw [missing]
    exact .refused rfl
  · next name nonempty named =>
    rw [named, Option.getD_some, beq_false_of_ne nonempty, ← List.append_nil (_ ++ _)]
    refine (checks_validateOptional raw.collapse).bind fun setting means => ?_
    exact .pure ⟨named, nonempty, means⟩

/-- The overrides of some entries are under the names of these entries. -/
theorem contains_eq
    {entries : List RawBuilder}
    {builders : SortedMap String (Option Setting)}
    (means : MeansBuilders entries builders)
    (name : String) :
    builders.contains name = (entries.map RawBuilder.name).contains (some name) := by
  obtain ⟨overrides, meant, same⟩ := means
  have names : entries.map RawBuilder.name = overrides.map fun entry => some entry.1 := by
    rw [← List.forall₂_eq_eq_eq, List.forall₂_map_left_iff, List.forall₂_map_right_iff]
    exact meant.imp fun _ _ means => means.name
  rw [names, Bool.eq_iff_iff, SortedMap.contains, Option.isSome_iff_exists]
  simp [SortedMap.get?_eq_some_iff, same.mem_iff]

theorem checks_addBuilder
    {entries : List RawBuilder}
    {builders : SortedMap String (Option Setting)}
    (means : MeansBuilders entries builders)
    (raw : RawBuilder) :
    Checks (raw.violations entries) (MeansBuilders (entries ++ [raw]))
      (addBuilder builders raw) := by
  refine raw.checks.bind fun (name, setting) meant => ?_
  have contains := contains_eq means name
  obtain ⟨overrides, meantBefore, same⟩ := means
  rw [meant.name, ← contains]
  dsimp only
  cases held : builders.contains name with
  | true => exact .refused rfl
  | false =>
      have missing : builders.get? name = none := by simpa [SortedMap.contains] using held
      refine .pure ⟨overrides ++ [(name, setting)], ?_, ?_⟩
      · exact List.rel_append meantBefore (.cons meant .nil)
      · exact (SortedMap.perm_entries_insert missing).trans (same.append_right _)

theorem checks_builders
    {entries : List RawBuilder}
    {builders : SortedMap String (Option Setting)}
    (means : MeansBuilders entries builders)
    (rest : List RawBuilder) :
    Checks (builderViolations entries rest) (MeansBuilders (entries ++ rest))
      (rest.foldlM addBuilder builders) := by
  induction rest generalizing entries builders with
  | nil =>
      rw [List.append_nil]
      exact .pure means
  | cons raw rest inductionHypothesis =>
      rw [List.foldlM_cons, builderViolations, List.append_cons entries raw rest]
      exact (checks_addBuilder means raw).bind fun _ => inductionHypothesis

/-- The validation of a draft finds the first item of what is wrong with it, or else what it
means. -/
theorem Draft.checks (draft : Draft) : Checks draft.violations draft.Means draft.validate := by
  obtain ⟨collapse, cache, builders⟩ := draft
  have nothing : MeansBuilders [] .empty := ⟨[], .nil, .refl _⟩
  refine (checks_builders nothing builders).bind fun overrides buildersMeant => ?_
  refine (checks_validateOptional collapse).bind fun setting settingMeant => ?_
  cases cache with
  | none =>
      exact .pure ⟨buildersMeant, settingMeant, ⟨rfl, CacheLimits.defaultTtl, rfl, rfl⟩⟩
  | some raw =>
      rw [← List.append_nil (_ ++ _)]
      exact raw.checks.bind fun limits limitsMeant =>
        .pure ⟨buildersMeant, settingMeant, limitsMeant⟩

example :
    Draft.violations {
      collapse := some (.named " ")
      cache := some ⟨some 0, some (-1)⟩
      builders := [⟨some "arm", some (.named "")⟩, ⟨some "arm", none⟩, ⟨none, none⟩] } =
    [.emptyStrategyName, .duplicateBuilder "arm", .missingBuilderName, .emptyStrategyName,
      .entryLimit 0, .ttl (-1)] := by
  decide

end Settings
end BuildQueue
