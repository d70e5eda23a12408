import BuildQueue.View

/-!
# Requests that stand in for others

An older pending request may be redundant with a newer one. Requests of one buildset always are.
Otherwise the newer one must not have been submitted before the older, both must build the same
codebases from matching sources, and a scheduler must have given them the same properties.

A request that stands in for others builds the sources of all of them, for all their reasons.
-/

namespace BuildQueue

/-! ## Redundancy -/

/-- Whether two sources of a codebase are interchangeable. A patched source matches nothing. Of
sources with changes only repository, branch and project count, since changes only accumulate. -/
def Source.isMatch (new old : Source) : Bool :=
  new.repository == old.repository && new.branch == old.branch && new.project == old.project &&
    new.patch.isNone && old.patch.isNone && new.hasChanges == old.hasChanges &&
    (new.hasChanges || new.revision == old.revision)

namespace View

/-- Whether two views have the same codebases, with interchangeable sources for each. -/
def sameSources (new old : View) : Bool :=
  new.sources.keys == old.sources.keys &&
    new.sources.entries.all fun (codebase, source) =>
      ((old.sources.get? codebase).map source.isMatch).getD false

/-- Whether the request of the view `old` is redundant with that of the view `new`. -/
def canCollapse (new old : View) : Bool :=
  new.buildsetId == old.buildsetId ||
    (old.id ≤ new.id && new.sameSources old &&
      new.properties.schedulerValues == old.properties.schedulerValues)

/-! ## Merging -/

/-- The sources of a view and of others, of which the last of a codebase counts. -/
def mergedSources (view : View) (others : List View) : SortedMap String Source :=
  (view :: others).foldl (fun merged view => merged.insertAll view.sources.entries) ∅

/-- One source per codebase over a view and others, in the order of the codebases. -/
def mergeSources (view : View) (others : List View) : List Source :=
  (view.mergedSources others).values

/-- The distinct texts of a list that are not empty, in the order of their first occurrence. -/
def distinctTexts (texts : List String) : List String :=
  texts.foldl (fun seen text => if text = "" || seen.contains text then seen else seen ++ [text]) []

/-- Every reason of a view and of others once, joined by commas. -/
def mergeReasons (view : View) (others : List View) : String :=
  String.intercalate ", " (distinctTexts ((view :: others).map (·.reason)))

end View
end BuildQueue
