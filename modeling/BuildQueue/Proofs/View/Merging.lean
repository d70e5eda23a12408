import BuildQueue.Proofs.View.Assembling
import BuildQueue.View.Merge

/-!
# Merged sources

Of the views that are merged the last one with a source for a codebase decides on it. So the merged
sources are one for each codebase, and merging in two steps comes to the same as merging at once.
-/

namespace BuildQueue
namespace View

variable {view : View} {views others : List View} {codebase : String} {source : Source}

/-- The sources stand under their own codebases. -/
def Keyed (view : View) : Prop := view.sources.FiledBy (·.codebase)

/-- This is the source of its codebase in the last of some views that have one. -/
def IsLast (views : List View) (source : Source) : Prop :=
  ∃ earlier view later, views = earlier ++ view :: later ∧
    view.sources.get? source.codebase = some source ∧
      ∀ other ∈ later, other.sources.get? source.codebase = none

theorem keyed_of_sources_eq
    {sources : List Source}
    (same : view.sources = .ofList (Source.byCodebase sources)) :
    view.Keyed := by
  intro codebase source found
  rw [same] at found
  exact ((SortedMap.get?_insertAll_map_cases found).resolve_right (by rintro ⟨⟩)).2

/-- The sources of a view that a store assembles stand under their own codebases. -/
theorem keyed_of_assembly
    {store : Store}
    {changes : SourceStampId → List Change}
    {id : RequestId}
    (assembled : store.Assembly changes id (.ok view)) :
    view.Keyed := by
  cases assembled with
  | assembled _ _ _ _ _ _ one =>
      intro codebase source found
      have listed := one.mem_iff.1 (SortedMap.get?_eq_some_iff.1 found)
      obtain ⟨stamp, -, same⟩ := List.mem_map.1 listed
      cases same
      rfl

/-! ## The last source of a codebase -/

/-- The source of a codebase in the last of some views that have one. -/
def lastSource? (views : List View) (codebase : String) : Option Source :=
  views.reverse.findSome? fun view => view.sources.get? codebase

@[simp] theorem lastSource?_cons (view : View) (views : List View) (codebase : String) :
    lastSource? (view :: views) codebase =
      (lastSource? views codebase).or (view.sources.get? codebase) := by
  simp [lastSource?, List.findSome?_append]

theorem lastSource?_eq_some_iff :
    lastSource? views codebase = some source ↔
      ∃ earlier view later, views = earlier ++ view :: later ∧
        view.sources.get? codebase = some source ∧
          ∀ other ∈ later, other.sources.get? codebase = none := by
  rw [lastSource?, List.findSome?_eq_some_iff]
  constructor
  · rintro ⟨later, view, earlier, split, has, missing⟩
    refine ⟨earlier.reverse, view, later.reverse, ?_, has, by simpa using missing⟩
    simpa using congrArg List.reverse split
  · rintro ⟨earlier, view, later, split, has, missing⟩
    exact ⟨later.reverse, view, earlier.reverse, by simp [split], has, by simpa using missing⟩

theorem isLast_iff : IsLast views source ↔ lastSource? views source.codebase = some source :=
  lastSource?_eq_some_iff.symm

theorem isSome_lastSource?_iff :
    (lastSource? views codebase).isSome ↔
      ∃ view ∈ views, (view.sources.get? codebase).isSome := by
  simp only [lastSource?, List.findSome?_isSome_iff, List.mem_reverse]

/-! ## Merging one after the other -/

/-- The sources of views put one after the other in place of those of their codebases. -/
def mergeInto (merged : SortedMap String Source) (views : List View) : SortedMap String Source :=
  views.foldl (fun merged view => merged.insertAll view.sources.entries) merged

theorem mergedSources_eq (view : View) (others : List View) :
    view.mergedSources others = mergeInto view.sources others := by
  change mergeInto (SortedMap.ofList view.sources.entries) others = _
  rw [SortedMap.ofList_entries]

theorem mergeInto_append (merged : SortedMap String Source) (first rest : List View) :
    mergeInto merged (first ++ rest) = mergeInto (mergeInto merged first) rest :=
  List.foldl_append

/-- A codebase has the source of the last view that has one, or the one that it had before. -/
theorem get?_mergeInto (merged : SortedMap String Source) (views : List View) (codebase : String) :
    (mergeInto merged views).get? codebase =
      (lastSource? views codebase).or (merged.get? codebase) := by
  induction views generalizing merged with
  | nil => rfl
  | cons view rest inductionHypothesis =>
      -- The sources of the first view give way to those of the rest.
      change (mergeInto (merged.insertAll view.sources.entries) rest).get? codebase = _
      rw [inductionHypothesis, SortedMap.get?_insertAll_entries, lastSource?_cons,
        Option.or_assoc]

theorem get?_mergedSources :
    (view.mergedSources others).get? codebase = lastSource? (view :: others) codebase := by
  rw [mergedSources_eq, get?_mergeInto, lastSource?_cons]

/-- The merged sources stand under their own codebases. -/
theorem filedBy_mergedSources (keyed : ∀ one ∈ view :: others, one.Keyed) :
    (view.mergedSources others).FiledBy (·.codebase) := by
  intro codebase source found
  rw [get?_mergedSources] at found
  obtain ⟨earlier, last, later, split, has, -⟩ := lastSource?_eq_some_iff.1 found
  exact keyed last (by simp [split]) codebase source has

theorem mem_mergeSources_iff (keyed : ∀ one ∈ view :: others, one.Keyed) :
    source ∈ view.mergeSources others ↔ IsLast (view :: others) source := by
  rw [isLast_iff, ← get?_mergedSources, (filedBy_mergedSources keyed).get?_eq_some_iff]
  exact (and_iff_left rfl).symm

/-- A view with the merged sources can stand in for the views that were merged. -/
theorem mergeSources_of_merged
    {merged : View}
    (keyed : ∀ one ∈ view :: others, one.Keyed)
    (mergedKeyed : merged.Keyed)
    (same : merged.sources.values = view.mergeSources others)
    (views : List View) :
    merged.mergeSources views = view.mergeSources (others ++ views) := by
  have sources : merged.sources = view.mergedSources others :=
    SortedMap.FiledBy.eq_of_values mergedKeyed (filedBy_mergedSources keyed) same
  rw [mergeSources, mergeSources, mergedSources_eq, mergedSources_eq, mergeInto_append, sources,
    mergedSources_eq]

/-- Merging the sources of views that keep them under their own codebases gives one source for each
codebase of the views, in strictly ascending order, which is that of the last view with a source for
it. Merging further views into a view with just these sources comes to the same as merging all of
them at once. -/
theorem last_sources_merged
    (view : View)
    (others further : List View)
    (keyed : ∀ one ∈ view :: others, one.Keyed) :
    (view.mergeSources others).Pairwise
        (fun source next => compare source.codebase next.codebase = .lt) ∧
      (∀ codebase,
        (∃! source, source ∈ view.mergeSources others ∧ source.codebase = codebase) ↔
          ∃ one ∈ view :: others, (one.sources.get? codebase).isSome) ∧
        (∀ source, source ∈ view.mergeSources others ↔ IsLast (view :: others) source) ∧
          ∀ merged : View, merged.Keyed → merged.sources.values = view.mergeSources others →
            merged.mergeSources further = view.mergeSources (others ++ further) := by
  have filed := filedBy_mergedSources keyed
  refine ⟨filed.pairwise_values, fun codebase => ?_, fun _ => mem_mergeSources_iff keyed,
    fun merged mergedKeyed same => mergeSources_of_merged keyed mergedKeyed same further⟩
  have one : ∀ source, source ∈ view.mergeSources others ∧ source.codebase = codebase ↔
      (view.mergedSources others).get? codebase = some source :=
    fun source => filed.get?_eq_some_iff.symm
  simp only [one, ← isSome_lastSource?_iff, get?_mergedSources]
  cases lastSource? (view :: others) codebase <;> simp

end View

namespace Sample

/-- A source without changes. -/
def plain (number : Nat) (codebase : String) : Source :=
  ⟨sourceStamp ⟨number⟩ codebase none, []⟩

/-- A view of a request that builds these sources. -/
def building (sources : List Source) : View :=
  .showing early ⟨⟨1⟩, "commit", none, submittedAt, false, none, none⟩ ∅
    (.ofList (Source.byCodebase sources))

end Sample

namespace View

/-- Two views that both build the main codebase, merged before a third is and together with it. -/
theorem last_sources_merged_overlapping :
    let first := Sample.building [Sample.plain 1 "main", Sample.plain 2 "lib"]
    let second := Sample.building [Sample.plain 3 "main"]
    let third := Sample.building [Sample.plain 4 "doc", Sample.plain 5 "lib"]
    let merged := Sample.building (first.mergeSources [second])
    ((∀ one ∈ [first, second], one.Keyed) ∧ merged.Keyed ∧
        merged.sources.values = first.mergeSources [second]) ∧
      first.mergeSources [second] = [Sample.plain 2 "lib", Sample.plain 3 "main"] ∧
        IsLast [first, second] (Sample.plain 3 "main") ∧
          merged.mergeSources [third] =
            [Sample.plain 4 "doc", Sample.plain 5 "lib", Sample.plain 3 "main"] := by
  intro first second third merged
  have keyed : ∀ one ∈ [first, second], one.Keyed := by
    simp only [List.forall_mem_cons]
    exact ⟨keyed_of_sources_eq rfl, keyed_of_sources_eq rfl, by simp⟩
  have mergedKeyed : merged.Keyed := keyed_of_sources_eq rfl
  have same : merged.sources.values = first.mergeSources [second] := rfl
  have sources : first.mergeSources [second] = [Sample.plain 2 "lib", Sample.plain 3 "main"] := rfl
  obtain ⟨-, -, last, composes⟩ := last_sources_merged first [second] [third] keyed
  refine ⟨⟨keyed, mergedKeyed, same⟩, sources, (last _).1 ?_, ?_⟩
  · rw [sources]
    exact .tail _ (.head _)
  · rw [composes merged mergedKeyed same]
    rfl

end View
end BuildQueue
