import BuildQueue.Proofs.View.Fingerprint
import BuildQueue.Source.LookupKey

/-!
# Identity of sources

A look-up key flattens the patch of a source, which may be missing, into five fields that may be
missing. Nothing is lost by it: level and body are there just if the patch is. So keys are equal
just for sources that check out the same code, and for sources without patches and changes these
are the interchangeable ones.
-/

namespace BuildQueue

/-- Source stamps say the same of what is checked out. Nothing is said of their identifiers. -/
structure SourceStamp.SameCode (stamp other : SourceStamp) : Prop where
  codebase : stamp.codebase = other.codebase
  repository : stamp.repository = other.repository
  branch : stamp.branch = other.branch
  project : stamp.project = other.project
  revision : stamp.revision = other.revision
  patch : stamp.patch = other.patch

/-- A patch that may be missing is determined by its fields, each of which is missing without it. -/
theorem Patch.ext_flattened
    {patch other : Option Patch}
    (level : patch.map (·.level) = other.map (·.level))
    (body : patch.map (·.body) = other.map (·.body))
    (subdir : patch.bind (·.subdir) = other.bind (·.subdir))
    (author : patch.bind (·.author) = other.bind (·.author))
    (comment : patch.bind (·.comment) = other.bind (·.comment)) :
    patch = other := by
  cases patch with
  | none =>
      cases other with
      | none => rfl
      | some other => cases level
  | some patch =>
      cases other with
      | none => cases level
      | some other =>
          cases patch
          cases other
          simp_all

/-- Equal keys are those of source stamps that check out the same code. -/
theorem SourceStamp.lookupKey_eq_iff {stamp other : SourceStamp} :
    stamp.lookupKey = other.lookupKey ↔ stamp.SameCode other := by
  constructor
  · intro same
    simp only [lookupKey, LookupKey.mk.injEq] at same
    obtain ⟨codebase, repository, branch, project, revision, level, body, subdir, flattened⟩ := same
    exact ⟨codebase, repository, branch, project, revision,
      Patch.ext_flattened level body subdir flattened.1 flattened.2⟩
  · rintro ⟨codebase, repository, branch, project, revision, patch⟩
    simp only [lookupKey, codebase, repository, branch, project, revision, patch]

namespace Source

/-- Without patches and changes sources of a codebase are interchangeable just if they check out the
same code. -/
theorem isMatch_iff_sameCode
    {source other : Source}
    (codebase : source.codebase = other.codebase)
    (unpatched : source.patch = none ∧ other.patch = none)
    (unchanged : source.changes = [] ∧ other.changes = []) :
    source.isMatch other = true ↔ source.SameCode other.toSourceStamp := by
  rw [isMatch_iff, outline_eq_iff]
  simp only [hasChanges, unchanged.1, unchanged.2, unpatched.1, unpatched.2, List.isEmpty_nil,
    Bool.not_true, Bool.false_eq_true, false_or, true_and]
  constructor
  · rintro ⟨repository, branch, project, revision⟩
    exact ⟨codebase, repository, branch, project, revision, unpatched.1.trans unpatched.2.symm⟩
  · intro same
    exact ⟨same.repository, same.branch, same.project, same.revision⟩

/-- The look-up keys of sources are equal just if the sources check out the same code, whatever
their identifiers and changes. For sources of a codebase without patches and changes the keys are
equal just if the sources are interchangeable. -/
theorem lookupKey_identifies :
    (∀ source other : Source,
      source.lookupKey = other.lookupKey ↔ source.SameCode other.toSourceStamp) ∧
      ∀ source other : Source,
        source.codebase = other.codebase →
          source.patch = none ∧ other.patch = none →
            source.changes = [] ∧ other.changes = [] →
              (source.lookupKey = other.lookupKey ↔ source.isMatch other = true) := by
  refine ⟨fun _ _ => SourceStamp.lookupKey_eq_iff, ?_⟩
  intro source other codebase unpatched unchanged
  rw [SourceStamp.lookupKey_eq_iff, isMatch_iff_sameCode codebase unpatched unchanged]

/-- Two rows of one source, a source of the same codebase at another revision, and the first with a
patch whose fields are missing where they may be. -/
theorem lookupKey_identifies_filed :
    let source : Source := ⟨Sample.sourceStamp ⟨1⟩ Sample.mainCodebase none, []⟩
    let twin : Source := ⟨Sample.sourceStamp ⟨2⟩ Sample.mainCodebase none, []⟩
    let pinned : Source := ⟨Sample.sourceStamp ⟨3⟩ Sample.mainCodebase (some ""), []⟩
    let patched : Source := { source with patch := some ⟨0, [], none, none, none⟩ }
    (source.isMatch twin = true ∧ source.lookupKey = twin.lookupKey) ∧
      (source.isMatch pinned ≠ true ∧ source.lookupKey ≠ pinned.lookupKey) ∧
        source.lookupKey ≠ patched.lookupKey := by
  intro source twin pinned patched
  obtain ⟨identifies, interchangeable⟩ := lookupKey_identifies
  have matching : source.isMatch twin = true := by decide
  have distinct : source.isMatch pinned ≠ true := by decide
  refine ⟨⟨matching, ?_⟩, ⟨distinct, ?_⟩, fun same => ?_⟩
  · exact (interchangeable source twin rfl ⟨rfl, rfl⟩ ⟨rfl, rfl⟩).2 matching
  · exact fun same => distinct
      ((interchangeable source pinned rfl ⟨rfl, rfl⟩ ⟨rfl, rfl⟩).1 same)
  · cases ((identifies source patched).1 same).patch

end Source
end BuildQueue
