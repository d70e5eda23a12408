import BuildQueue.Proofs.Order
import BuildQueue.Proofs.SortedMap
import BuildQueue.Sample
import BuildQueue.View.Merge

/-!
# Fingerprints of views

What two views have in common if one request is redundant with the other, unless they are of one
buildset: of each source where its code comes from and which revision it is built at, unless changes
went into it, and of the properties the values that a scheduler set. Redundancy compares these
fingerprints and the identifiers and nothing else, so it is an order on requests of different
buildsets.
-/

namespace BuildQueue

/-- What a source is built at: a revision, or whatever its changes have come to. -/
inductive Head where
  | changed
  | revision (revision : Option String)
deriving DecidableEq, Repr

/-- What matters of a source that is not patched. -/
structure Outline where
  repository : String
  branch : Option String
  project : String
  head : Head
deriving DecidableEq, Repr

/-- What matters of a view, by codebases and by the names of properties. -/
@[ext]
structure Fingerprint where
  sources : String → Option Outline
  properties : String → Option Json

/-- Fingerprints are the same if their properties are equal as JSON values, and all else is. -/
structure Fingerprint.Same (first second : Fingerprint) : Prop where
  sources : first.sources = second.sources
  properties : ∀ name,
    Option.Rel (fun a b => Json.same a b = true) (first.properties name) (second.properties name)

/-- The outline of a source. -/
def Source.outline (source : Source) : Outline where
  repository := source.repository
  branch := source.branch
  project := source.project
  head := if source.hasChanges then .changed else .revision source.revision

namespace View

/-- The fingerprint of a view: the outlines of its sources, and the values of the properties that a
scheduler set, except its own name. -/
def fingerprint (view : View) : Fingerprint where
  sources codebase := (view.sources.get? codebase).map Source.outline
  properties name := (view.properties.get? name).bind fun property =>
    if name ≠ Properties.schedulerProperty ∧ property.source = Properties.schedulerSource then
      some property.value
    else none

/-- No source of the view is patched. -/
def Unpatched (view : View) : Prop :=
  ∀ codebase source, view.sources.get? codebase = some source → source.patch = none

end View

/-- Sources have the same origin and revision, and both of them are patched or neither, and likewise
changed. Nothing is said of the patches and changes themselves. -/
structure Source.Resembles (source twin : Source) : Prop where
  repository : source.repository = twin.repository
  branch : source.branch = twin.branch
  project : source.project = twin.project
  revision : source.revision = twin.revision
  patched : source.patch = none ↔ twin.patch = none
  changed : source.hasChanges = twin.hasChanges

/-- Views agree in their identifiers, in their sources by codebase, and in what a scheduler set
besides its own name. Nothing is said of the rest of their properties, nor of their builders,
priorities, reasons and times. -/
structure View.Resembles (view twin : View) : Prop where
  id : view.id = twin.id
  buildsetId : view.buildsetId = twin.buildsetId
  sources : ∀ codebase,
    Option.Rel Source.Resembles (view.sources.get? codebase) (twin.sources.get? codebase)
  properties : ∀ name property, name ≠ Properties.schedulerProperty →
    property.source = Properties.schedulerSource →
      (view.properties.get? name = some property ↔ twin.properties.get? name = some property)

/-! ## Fingerprints -/

theorem Fingerprint.Same.trans
    {first second third : Fingerprint}
    (earlier : first.Same second)
    (later : second.Same third) :
    first.Same third where
  sources := earlier.sources.trans later.sources
  properties name := by
    have values := earlier.properties name
    have valuesToo := later.properties name
    generalize first.properties name = a at values
    generalize second.properties name = b at values valuesToo
    generalize third.properties name = c at valuesToo
    cases values with
    | none => exact valuesToo
    | some same =>
        cases valuesToo with
        | some sameToo => exact .some (Json.same_trans same sameToo)

namespace Source

variable {new old : Source}

theorem outline_eq_iff :
    new.outline = old.outline ↔
      new.repository = old.repository ∧ new.branch = old.branch ∧ new.project = old.project ∧
        new.hasChanges = old.hasChanges ∧
          (new.hasChanges = true ∨ new.revision = old.revision) := by
  simp only [outline, Outline.mk.injEq]
  cases new.hasChanges <;> cases old.hasChanges <;> simp

theorem Resembles.refl (source : Source) : source.Resembles source :=
  ⟨rfl, rfl, rfl, rfl, .rfl, rfl⟩

theorem Resembles.outline_eq
    (alike : new.Resembles old) :
    new.outline = old.outline :=
  outline_eq_iff.2
    ⟨alike.repository, alike.branch, alike.project, alike.changed, .inr alike.revision⟩

/-- Sources match if none is patched and they have the same outline. -/
theorem isMatch_iff :
    new.isMatch old = true ↔ new.patch = none ∧ old.patch = none ∧ new.outline = old.outline := by
  simp only [isMatch, Bool.and_eq_true, Bool.or_eq_true, beq_iff_eq, Option.isNone_iff_eq_none,
    outline_eq_iff]
  tauto

/-- The same of sources that may be missing. -/
theorem rel_isMatch_iff {new old : Option Source} :
    Option.Rel (fun a b => a.isMatch b = true) new old ↔
      (∀ source, new = some source → source.patch = none) ∧
        (∀ source, old = some source → source.patch = none) ∧
          new.map outline = old.map outline := by
  cases new with
  | none => cases old <;> simp
  | some source => cases old <;> simp [isMatch_iff]

end Source

namespace View

variable {new old a b c : View}

/-- Views have the same sources if those of each codebase match, or are missing in both. -/
theorem sameSources_iff :
    new.sameSources old = true ↔
      ∀ codebase, Option.Rel (fun a b => a.isMatch b = true) (new.sources.get? codebase)
        (old.sources.get? codebase) := by
  simp only [sameSources, Bool.and_eq_true, beq_iff_eq, List.all_eq_true, Prod.forall]
  constructor
  · rintro ⟨keys, matched⟩ codebase
    have sameKey := SortedMap.isSome_get?_of_keys_eq keys codebase
    cases found : new.sources.get? codebase with
    | none =>
        rw [found] at sameKey
        cases other : old.sources.get? codebase with
        | none => exact .none
        | some _ =>
            rw [other] at sameKey
            cases sameKey
    | some source =>
        have isMatch := matched codebase source (SortedMap.get?_eq_some_iff.1 found)
        cases other : old.sources.get? codebase with
        | none =>
            rw [other] at isMatch
            cases isMatch
        | some _ =>
            rw [other] at isMatch
            exact .some isMatch
  · intro related
    refine ⟨SortedMap.keys_eq_of_rel related, fun codebase source listed => ?_⟩
    have sources := related codebase
    rw [SortedMap.get?_eq_some_iff.2 listed] at sources
    generalize old.sources.get? codebase = second at sources
    cases sources with
    | some isMatch => exact isMatch

theorem beq_members_iff {members others : List (String × Json)} :
    (members == others) = true ↔
      List.Forall₂ (fun first second => first.1 = second.1 ∧ Json.same first.2 second.2 = true)
        members others := by
  induction members generalizing others with
  | nil =>
      cases others with
      | nil => exact iff_of_true rfl .nil
      | cons => exact iff_of_false (by simp) (by simp)
  | cons member rest inductionHypothesis =>
      cases others with
      | nil => exact iff_of_false (by simp) (by simp)
      | cons other others =>
          rw [List.cons_beq_cons, Bool.and_eq_true, inductionHypothesis, List.forall₂_cons]
          change (member.1 == other.1 && Json.same member.2 other.2) = true ∧ _ ↔ _
          rw [Bool.and_eq_true, beq_iff_eq]

/-- The properties of a fingerprint are what a scheduler gave. -/
theorem properties_fingerprint (view : View) (name : String) :
    view.fingerprint.properties name = view.properties.schedulerValues.get? name := by
  rw [Properties.schedulerValues, SortedMap.get?_mapValues, SortedMap.get?_filter]
  dsimp only [fingerprint]
  cases view.properties.get? name with
  | none => rfl
  | some property =>
      rw [Option.filter_some, Option.bind_some]
      simp only [Bool.and_eq_true, bne_iff_ne, beq_iff_eq]
      split <;> rfl

/-- What a scheduler gave is equal just if it is under each name. -/
theorem schedulerValues_beq_iff :
    (new.properties.schedulerValues == old.properties.schedulerValues) = true ↔
      ∀ name, Option.Rel (fun a b => Json.same a b = true) (new.fingerprint.properties name)
        (old.fingerprint.properties name) := by
  simp only [properties_fingerprint]
  exact beq_members_iff.trans
    (SortedMap.forall₂_entries_iff fun a b => Json.same a b = true)

/-- A request is redundant with another of its buildset, and with one that is not older if no source
of either is patched and their fingerprints are the same. -/
theorem canCollapse_iff :
    new.canCollapse old = true ↔
      new.buildsetId = old.buildsetId ∨
        old.id ≤ new.id ∧ new.Unpatched ∧ old.Unpatched ∧
          new.fingerprint.Same old.fingerprint := by
  have sources : new.sameSources old = true ↔
      new.Unpatched ∧ old.Unpatched ∧ new.fingerprint.sources = old.fingerprint.sources := by
    rw [sameSources_iff, funext_iff]
    simp only [Source.rel_isMatch_iff, forall_and]
    rfl
  simp only [canCollapse, Bool.or_eq_true, Bool.and_eq_true, beq_iff_eq, decide_eq_true_eq,
    sources, schedulerValues_beq_iff]
  refine or_congr_right ⟨?_, ?_⟩
  · rintro ⟨⟨inOrder, unpatched, unpatchedToo, outlines⟩, values⟩
    exact ⟨inOrder, unpatched, unpatchedToo, outlines, values⟩
  · rintro ⟨inOrder, unpatched, unpatchedToo, outlines, values⟩
    exact ⟨⟨inOrder, unpatched, unpatchedToo, outlines⟩, values⟩

theorem fingerprint_congr
    (sources : a.sources = b.sources)
    (properties : a.properties = b.properties) :
    a.fingerprint = b.fingerprint := by
  rw [fingerprint, fingerprint, sources, properties]

theorem properties_fingerprint_eq_some_iff {view : View} {name : String} {value : Json} :
    view.fingerprint.properties name = some value ↔
      name ≠ Properties.schedulerProperty ∧
        view.properties.get? name = some ⟨value, Properties.schedulerSource⟩ := by
  dsimp only [fingerprint]
  cases view.properties.get? name with
  | none => simp
  | some property =>
      obtain ⟨content, label⟩ := property
      simp only [Option.bind_some, Option.ite_none_right_eq_some, Option.some.injEq,
        Property.mk.injEq]
      tauto

/-! ## What redundancy does not depend on -/

theorem Resembles.refl (view : View) : view.Resembles view where
  id := rfl
  buildsetId := rfl
  sources codebase := by
    cases view.sources.get? codebase with
    | none => exact .none
    | some source => exact .some (.refl source)
  properties _ _ _ _ := .rfl

/-- Resembling views have the same fingerprint. -/
theorem Resembles.fingerprint_eq
    (alike : a.Resembles b) :
    a.fingerprint = b.fingerprint := by
  refine Fingerprint.ext (funext fun codebase => ?_) (funext fun name => Option.ext fun value => ?_)
  · exact SortedMap.map_eq_of_rel (alike.sources codebase) fun _ _ resembling =>
      resembling.outline_eq
  · rw [properties_fingerprint_eq_some_iff, properties_fingerprint_eq_some_iff]
    exact and_congr_right fun other => alike.properties name ⟨value, _⟩ other rfl

/-- If no source of a view is patched, none of a view that it resembles is. -/
theorem Resembles.unpatched_iff
    (alike : a.Resembles b) :
    a.Unpatched ↔ b.Unpatched :=
  forall_congr' fun codebase =>
    SortedMap.forall_eq_some_iff_of_rel (alike.sources codebase) fun _ _ resembling =>
      resembling.patched

/-- Whether a request is redundant with another is the same for views that theirs resemble. -/
theorem Resembles.canCollapse_eq
    {newTwin oldTwin : View}
    (newAlike : new.Resembles newTwin)
    (oldAlike : old.Resembles oldTwin) :
    new.canCollapse old = newTwin.canCollapse oldTwin := by
  rw [Bool.eq_iff_iff, canCollapse_iff, canCollapse_iff, newAlike.id, newAlike.buildsetId,
    newAlike.unpatched_iff, newAlike.fingerprint_eq, oldAlike.id, oldAlike.buildsetId,
    oldAlike.unpatched_iff, oldAlike.fingerprint_eq]

end View

namespace Sample

/-- The view of a request for a change of the main codebase. -/
def asked (number : Nat) (scheduler : String) (changeId : ChangeId) : View where
  id := ⟨number⟩
  buildsetId := ⟨number⟩
  builderId := linux.id
  builderName := linux.name
  priority := 0
  submittedAt := some submittedAt
  reason := "commit"
  properties := schedulerProperties scheduler [("arch", "x86")]
  sources := (∅ : SortedMap String Source).insert mainCodebase
    { sourceStamp ⟨1⟩ mainCodebase none with changes := [change changeId "alice" "abc"] }
  waitedFor := false

/-- The view with everything changed that a user sets who asks for it again. -/
def retried (view : View) : View :=
  { view with
    builderId := mac.id
    builderName := mac.name
    priority := 5
    submittedAt := none
    reason := "retry"
    properties := view.properties.set "owner" (.string "alice") "Force"
    waitedFor := true }

/-- The view still resembles what it was if it had no owner. -/
theorem resembles_retried
    {view : View}
    (unowned : view.properties.get? "owner" = none) :
    view.Resembles (retried view) :=
  { View.Resembles.refl view with
    properties := by
      intro name property _ scheduled
      change _ ↔ (view.properties.insert "owner" ⟨_, "Force"⟩).get? name = some property
      rw [SortedMap.get?_insert]
      by_cases own : name = "owner"
      · subst own
        rw [unowned]
        refine iff_of_false (by simp) fun forced => ?_
        obtain rfl : _ = property := Option.some.inj (by simpa using forced)
        exact absurd scheduled (by decide)
      · simp [own] }

end Sample

/-! ## Order -/

namespace View

variable {a b c : View}

theorem canCollapse_trans_of_buildsetId_ne
    (different : a.buildsetId ≠ b.buildsetId)
    (differentToo : b.buildsetId ≠ c.buildsetId)
    (first : a.canCollapse b = true)
    (second : b.canCollapse c = true) :
    a.canCollapse c = true := by
  rw [canCollapse_iff] at first second ⊢
  obtain ⟨below, unpatched, -, same⟩ := first.resolve_left different
  obtain ⟨belowToo, -, unpatchedToo, sameToo⟩ := second.resolve_left differentToo
  exact .inr ⟨le_trans belowToo below, unpatched, unpatchedToo, same.trans sameToo⟩

theorem id_eq_of_canCollapse
    (different : a.buildsetId ≠ b.buildsetId)
    (first : a.canCollapse b = true)
    (second : b.canCollapse a = true) :
    a.id = b.id := by
  rw [canCollapse_iff] at first second
  obtain ⟨below, -⟩ := first.resolve_left different
  obtain ⟨above, -⟩ := second.resolve_left different.symm
  exact le_antisymm above below

/-- Redundancy compares buildsets, the order of identifiers and fingerprints, so views that resemble
others can stand in for them. Between requests of different buildsets it is transitive, and of two
requests only one is redundant with the other. -/
theorem redundancy_compares_fingerprints :
    (∀ new old : View,
      new.canCollapse old = true ↔
        new.buildsetId = old.buildsetId ∨
          old.id ≤ new.id ∧ new.Unpatched ∧ old.Unpatched ∧
            new.fingerprint.Same old.fingerprint) ∧
      (∀ new old newTwin oldTwin : View, new.Resembles newTwin → old.Resembles oldTwin →
        new.canCollapse old = newTwin.canCollapse oldTwin) ∧
      (∀ a b c : View, a.buildsetId ≠ b.buildsetId → b.buildsetId ≠ c.buildsetId →
        a.canCollapse b = true → b.canCollapse c = true → a.canCollapse c = true) ∧
      ∀ a b : View, a.buildsetId ≠ b.buildsetId → a.id ≠ b.id →
        ¬(a.canCollapse b = true ∧ b.canCollapse a = true) :=
  ⟨fun _ _ => canCollapse_iff,
    fun _ _ _ _ newAlike oldAlike => newAlike.canCollapse_eq oldAlike,
    fun _ _ _ different differentToo first second =>
      canCollapse_trans_of_buildsetId_ne different differentToo first second,
    fun _ _ different others both => others (id_eq_of_canCollapse different both.1 both.2)⟩

/-- Three views of different buildsets, whose schedulers and changes differ, and the newest of them
as it would be if a user had asked for it elsewhere. -/
theorem redundancy_compares_fingerprints_retried :
    let newest := Sample.asked 3 "nightly" ⟨30⟩
    let middle := Sample.asked 2 "hourly" ⟨20⟩
    let oldest := Sample.asked 1 "nightly" ⟨10⟩
    newest.canCollapse middle = true ∧ middle.canCollapse oldest = true ∧
      newest.canCollapse oldest = true ∧ oldest.canCollapse newest ≠ true ∧
        newest.fingerprint.Same oldest.fingerprint ∧
          newest.Resembles (Sample.retried newest) ∧
            (Sample.retried newest).canCollapse oldest = true := by
  intro newest middle oldest
  obtain ⟨compared, resembling, transitive, oneWay⟩ := redundancy_compares_fingerprints
  have first : newest.canCollapse middle = true := by decide +kernel
  have second : middle.canCollapse oldest = true := by decide +kernel
  have both : newest.canCollapse oldest = true :=
    transitive newest middle oldest (by decide) (by decide) first second
  have different : newest.buildsetId ≠ oldest.buildsetId := by decide
  have same : newest.fingerprint.Same oldest.fingerprint :=
    (((compared newest oldest).1 both).resolve_left different).2.2.2
  have alike : newest.Resembles (Sample.retried newest) := Sample.resembles_retried rfl
  refine ⟨first, second, both, fun backwards => ?_, same, alike, ?_⟩
  · exact oneWay newest oldest different (by decide) ⟨both, backwards⟩
  · rw [← resembling newest oldest (Sample.retried newest) oldest alike (.refl oldest)]
    exact both

end View
end BuildQueue
