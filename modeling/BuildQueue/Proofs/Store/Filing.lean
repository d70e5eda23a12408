import BuildQueue.Proofs.Sample
import BuildQueue.Proofs.Store.Links

/-!
# What becomes of submitted source stamps

Source stamps are filed under identifiers that the submitter chooses, and buildsets share them: a
stamp that is submitted under an identifier takes the place of an earlier one there. So a buildset
shows, under each identifier of its list, the stamp that was filed there last. It shows what was
submitted with it as long as its identifiers are not used for anything else, whatever was submitted
before.
-/

namespace BuildQueue
namespace Store

variable {before after : Store} {filed : List SourceStamp} {stamp : SourceStamp}

/-- The source stamp that was filed last under the identifier of a given one. -/
def latest (filed : List SourceStamp) (stamp : SourceStamp) : SourceStamp :=
  (filed.reverse.find? fun other => other.id == stamp.id).getD stamp

theorem find?_eq_latest (listed : stamp ∈ filed) :
    (filed.reverse.find? fun other => other.id == stamp.id) = some (latest filed stamp) := by
  have there : (filed.reverse.find? fun other => other.id == stamp.id).isSome := by
    rw [List.find?_isSome]
    exact ⟨stamp, by simpa using listed, by simp⟩
  obtain ⟨last, found⟩ := Option.isSome_iff_exists.1 there
  rw [latest, found, Option.getD_some]

/-- A source stamp is the latest one of its identifier if no other one was filed there. -/
theorem latest_eq_self
    (listed : stamp ∈ filed)
    (same : ∀ other ∈ filed, other.id = stamp.id → other = stamp) :
    latest filed stamp = stamp := by
  have found := find?_eq_latest listed
  apply same
  · simpa using List.mem_of_find?_eq_some found
  · simpa using List.find?_some found

theorem lookup_stamps (id : SourceStampId) (stamps : List SourceStamp) :
    SortedMap.lookup id (stamps.map fun stamp => (stamp.id, stamp)) =
      stamps.find? fun stamp => stamp.id == id := by
  induction stamps with
  | nil => rfl
  | cons stamp rest inductionHypothesis =>
      rw [List.map_cons, SortedMap.lookup, List.find?_cons]
      by_cases same : stamp.id = id
      · simp [same]
      · have other : compare id stamp.id ≠ .eq := fun equal =>
          same (Std.LawfulEqCmp.eq_of_compare equal).symm
        rw [if_neg other, inductionHypothesis, beq_eq_false_iff_ne.2 same]

/-- After some source stamps were filed, each of them shows as the latest one of its identifier. -/
theorem get?_filed
    (map : SortedMap SourceStampId SourceStamp)
    (listed : stamp ∈ filed) :
    (map.insertAll (filed.map fun stamp => (stamp.id, stamp))).get? stamp.id =
      some (latest filed stamp) := by
  rw [SortedMap.get?_insertAll, ← List.map_reverse, lookup_stamps, find?_eq_latest listed,
    Option.some_or]

/-- What a buildset shows after further updates: for each source stamp that was submitted with it,
in their order, the one that was filed last under this identifier, by itself or by a submission
that was accepted later. If its identifiers were not used for any other source stamps, these are the
source stamps that were submitted. -/
theorem submitted_stamps
    {submission : Submission}
    {now : Timestamp}
    {submitted : Submitted}
    (accepted : before.addBuildset submission now = .ok (submitted, after))
    (later : List Update) :
    let filed := submission.sourceStamps ++ (after.additions later).flatMap Addition.stamps
    (after.evolve later).stampsOf submitted.buildsetId =
        .ok (submission.sourceStamps.map (latest filed)) ∧
      ((∀ stamp ∈ submission.sourceStamps, ∀ other ∈ filed, other.id = stamp.id → other = stamp) →
        (after.evolve later).stampsOf submitted.buildsetId = .ok submission.sourceStamps) := by
  intro filed
  have submits := Store.submits accepted
  have table : (after.evolve later).sourceStamps =
      before.sourceStamps.insertAll (filed.map fun stamp => (stamp.id, stamp)) := by
    rw [sourceStamps_evolve, submits.sourceStamps, ← SortedMap.insertAll_append,
      ← List.map_append]
  have listed : (after.evolve later).stampIds.get? submitted.buildsetId =
      some (submission.sourceStamps.map (·.id)) := by
    have below : submitted.buildsetId < after.nextBuildset := by
      rw [submits.buildsetId, submits.nextBuildset]
      exact Ident.lt_next _
    rw [(buildset_evolve later below).2.2, submits.stampIds, submits.buildsetId,
      SortedMap.get?_insert, if_pos Std.ReflCmp.compare_self]
  have filedAll : ∀ stamp ∈ submission.sourceStamps, stamp ∈ filed :=
    fun stamp own => List.mem_append_left _ own
  have shown : (after.evolve later).stampsOf submitted.buildsetId =
      .ok (submission.sourceStamps.map (latest filed)) := by
    rw [stampsOf, listed, Option.getD_some]
    apply mapM_sourceStamp
    intro stamp own
    rw [table]
    exact get?_filed before.sourceStamps (filedAll stamp own)
  refine ⟨shown, fun single => ?_⟩
  have unchanged : submission.sourceStamps.map (latest filed) = submission.sourceStamps := by
    calc submission.sourceStamps.map (latest filed)
        = submission.sourceStamps.map id := List.map_congr_left fun stamp own =>
          latest_eq_self (filedAll stamp own) (single stamp own)
      _ = submission.sourceStamps := List.map_id _
  rw [shown, unchanged]

/-- A submission under another identifier and a change leave a submitted source stamp as it is. -/
theorem submitted_stamps_others :
    let submission := Sample.stamped [Sample.sourceStamp ⟨1⟩ Sample.mainCodebase none]
    let other := Sample.stamped [Sample.sourceStamp ⟨2⟩ Sample.mainCodebase (some "abc")]
    let later : List Update :=
      [.operation (.add (.buildset other Sample.submittedAt)),
        .operation (.add (.change ⟨1⟩ (Sample.change ⟨1⟩ "alice" "abc")))]
    ∃ submitted after,
      Sample.ready.addBuildset submission Sample.submittedAt = .ok (submitted, after) ∧
      (after.evolve later).sourceStamps.size = 2 ∧
      (after.evolve later).stampsOf submitted.buildsetId = .ok submission.sourceStamps := by
  intro submission other later
  refine ⟨_, _, rfl, by decide +kernel, ?_⟩
  exact (submitted_stamps (rfl : Sample.ready.addBuildset submission Sample.submittedAt = _)
    later).2 (by decide +kernel)

/-- A submitted source stamp is replaced by another one under its identifier, whether this is
submitted later or later in the same list. -/
theorem submitted_stamp_replaced :
    let plain := Sample.sourceStamp ⟨1⟩ Sample.mainCodebase none
    let revised := Sample.sourceStamp ⟨1⟩ Sample.mainCodebase (some "abc")
    let library := Sample.sourceStamp ⟨1⟩ Sample.libCodebase none
    plain ≠ revised ∧ plain ≠ library ∧
      (∃ submitted after,
        Sample.ready.addBuildset (Sample.stamped [plain]) Sample.submittedAt =
          .ok (submitted, after) ∧
        (after.add (.buildset (Sample.stamped [revised]) Sample.submittedAt)).stampsOf
          submitted.buildsetId = .ok [revised]) ∧
      ∃ submitted after,
        Sample.ready.addBuildset (Sample.stamped [plain, library]) Sample.submittedAt =
          .ok (submitted, after) ∧
        after.stampsOf submitted.buildsetId = .ok [library, library] := by
  intro plain revised library
  exact ⟨by decide, by decide, ⟨_, _, rfl, rfl⟩, _, _, rfl, rfl⟩

end Store
end BuildQueue
