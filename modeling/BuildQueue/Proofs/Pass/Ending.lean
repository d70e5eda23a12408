import BuildQueue.Proofs.Pass.Alone
import BuildQueue.Proofs.Sample

/-!
# How a pass alone ends

A pass that nobody else disturbs retires exactly the requests that its new requests make redundant,
in whichever order and however often these are given. If a call fails then the pass fails with it,
and it leaves at most one request behind that is claimed and not complete: the one whose completion
has failed, if the release of its claim failed as well.
-/

namespace BuildQueue

namespace Sample

/-- The course on which the clocks tick with every step and some calls fail. -/
def ticking (failure : Call → Option Failure) : Course where
  failure _ := failure
  now step := ⟨step⟩
  instant step := step

/-- What a pass alone makes of two requests for the same, the second of which is being built. -/
def collapseStarted (failure : Call → Option Failure) (newIds : List RequestId) :
    Except Failure (List RequestId) × Episode :=
  (ticking failure).run (Pass.collapse .standard newIds)
    (.start (site started) (world started).views)

end Sample

namespace Course

variable {firstRequest : RequestId} {operations : List Operation} {site : Site}
  {views : Memo RequestId View} {policy : Policy Strategy} {newIds : List RequestId}
  {course : Course}

/-- A pass alone of which no call fails, and which can compare what it has to compare, returns in
ascending order the pending requests that its new requests retire. These it has skipped, each
claimed and completed at one time, and nothing else has changed. It depends neither on the order of
the new requests, nor on their repetition, nor on the clocks, but for the times in the store. -/
theorem collapse_exact
    (reached : site.store = .reached firstRequest operations)
    (empty : views.entries = [])
    (standard : policy.IsStandard)
    (known : ∀ new ∈ newIds, site.store.requests.contains new = true)
    (assembles : ∀ new ∈ newIds, ∀ old, site.store.claimable old = true →
      site.store.Compares policy new old →
      (∃ view, site.store.view new = .ok view) ∧ ∃ view, site.store.view old = .ok view)
    (clear : course.IsClear) :
    let ended := course.run (Pass.collapse policy newIds) (.start site views)
    ∃ ids, ended.1 = .ok ids ∧ ids.Pairwise (· < ·) ∧
      (∀ old, old ∈ ids ↔ site.store.claimable old = true ∧
        ∃ new ∈ newIds, site.store.Retires policy new old) ∧
      (∃ times, ended.2.store = site.store.skipAll ids times) ∧
      ∀ (otherIds : List RequestId) (other : Course),
        (∀ new, new ∈ otherIds ↔ new ∈ newIds) → other.IsClear →
        let again := other.run (Pass.collapse policy otherIds) (.start site views)
        again.1 = .ok ids ∧ again.2.store.untimed = ended.2.store.untimed := by
  intro ended
  have wellformed : site.store.Wellformed := reached ▸ .reached firstRequest operations
  -- Any such pass comes to an end, whose new requests are the same.
  have skips : ∀ (otherIds : List RequestId) (other : Course),
      (∀ new, new ∈ otherIds ↔ new ∈ newIds) → other.IsClear →
      let ended := other.run (Pass.collapse policy otherIds) (.start site views)
      ∃ ids, ended.1 = .ok ids ∧ Skipped site.store policy otherIds ids ended.2.store := by
    intro otherIds other same otherClear
    rcases @collapse_skips other policy (.start site views) wellformed otherClear
      (Memo.holdsViews_of_empty empty _) standard otherIds with
      ⟨failure, -, new, listed, hindered⟩ | skipped
    · have isNew := (same new).1 listed
      exact absurd hindered (not_hindered (known new isNew) (assembles new isNew))
    · exact skipped
  obtain ⟨ids, returned, skipped⟩ := skips newIds course (fun _ => Iff.rfl) clear
  refine ⟨ids, returned, skipped.ascending, fun _ => skipped.mem_iff, skipped.store, ?_⟩
  intro otherIds other same otherClear
  obtain ⟨otherList, again, others⟩ := skips otherIds other same otherClear
  obtain ⟨rfl, alike⟩ := skipped.unique others same
  exact ⟨again, alike⟩

/-- The first of two requests for the same is retired, however often the second one is given. -/
theorem collapse_exact_started :
    (Sample.collapseStarted (fun _ => none) [⟨2⟩]).1 = .ok [⟨1⟩] ∧
    (Sample.collapseStarted (fun _ => none) [⟨2⟩, ⟨2⟩]).1 = .ok [⟨1⟩] ∧
    ∃ times, (Sample.collapseStarted (fun _ => none) [⟨2⟩]).2.store =
      Sample.started.skipAll [⟨1⟩] times := by
  have returned : (Sample.collapseStarted (fun _ => none) [⟨2⟩]).1 = .ok [⟨1⟩] := by
    decide +kernel
  have reached : (Sample.site Sample.started).store = .reached ⟨1⟩ _ := rfl
  have known : ∀ new ∈ [⟨2⟩], Sample.started.requests.contains new = true := by decide +kernel
  have assembles : Sample.started.Assembles := by decide +kernel
  have clear : (Sample.ticking fun _ => none).IsClear := fun _ _ => rfl
  have standard : (Policy.standard : Policy Strategy).IsStandard :=
    Policy.isStandard_of_registered rfl
  have ended := collapse_exact reached
    (rfl : (Sample.world Sample.started).views.entries = []) standard known ?compared clear
  case compared =>
    rintro new - old - ⟨-, newRequest, oldRequest, -, newFound, oldFound, -⟩
    exact ⟨assembles.exists_view newFound, assembles.exists_view oldFound⟩
  obtain ⟨ids, same, -, -, store, again⟩ := ended
  obtain rfl : ids = [⟨1⟩] := Except.ok.inj (same.symm.trans returned)
  exact ⟨returned, (again [⟨2⟩, ⟨2⟩] _ (by simp) clear).1, store⟩

/-- A pass alone that fails has failed to find its candidates, and then it has changed nothing and
made no call that writes; or it broke off at one of them. Then those before are skipped, and all
other requests are as they were, except that the candidate stays claimed if its completion has
failed and the release of its claim failed as well. The pass fails as the claim or the completion
did. -/
theorem collapse_breaks
    (reached : site.store = .reached firstRequest operations)
    (standard : policy.IsStandard)
    {failure : Failure}
    (failed : (course.run (Pass.collapse policy newIds) (.start site views)).1 = .error failure) :
    let finding := (course.run (newIds.mapM (Pass.findRedundant policy)) (.start site views)).1
    let after := (course.run (Pass.collapse policy newIds) (.start site views)).2
    (finding = .error failure ∧ after.store = site.store ∧
      ∀ exchange ∈ after.exchanges, exchange.call.method.isWrite = false) ∨
    ∃ found, finding = .ok found ∧
      let candidates := Pass.ascending found.flatten
      (∀ id ∈ candidates, site.store.claimable id = true) ∧
      (views.HoldsViews site.store → ∀ old, old ∈ candidates ↔ site.store.claimable old = true ∧
        ∃ new ∈ newIds, site.store.Retires policy new old) ∧
      ∃ id ∈ candidates, ∃ times earlier last, after.exchanges = earlier ++ last ∧
        Breaks failure id (site.store.skipAll (candidates.filter (· < id)) times) last
          after.store := by
  intro finding after
  have wellformed : site.store.Wellformed := reached ▸ .reached firstRequest operations
  have lawful : site.store.Lawful := reached ▸ Store.lawful_reached firstRequest operations
  rcases @collapse_cases course policy (.start site views) wellformed (fun _ => lawful) standard
    newIds with ⟨_, missed, again, still⟩ | ⟨found, finds, pending, ended⟩
  · obtain rfl := Except.error.inj (failed.symm.trans again)
    obtain ⟨reads, exchanges, harmless⟩ := still.reads
    refine .inl ⟨missed, still.store, fun exchange listed => harmless exchange ?_⟩
    rw [exchanges] at listed
    exact listed
  · rw [failed] at ended
    refine .inr ⟨found, finds, fun id listed => ?_, fun holds old => ?_, ended.2⟩
    · exact pending id (Pass.mem_ascending_iff.1 listed)
    · rcases @find_exactly course policy (.start site views) wellformed holds standard newIds with
        ⟨_, impossible, -⟩ | ⟨_, again, exactly⟩
      · rw [finds] at impossible
        cases impossible
      · obtain rfl := Except.ok.inj (finds.symm.trans again)
        exact Pass.mem_ascending_iff.trans (exactly old)

/-- When neither the completion nor the release of a claim goes through, the candidate stays claimed
and the pass fails as the completion did. -/
theorem collapse_breaks_started :
    let failure (call : Call) : Option Failure :=
      match call with
      | .complete _ _ _ => some (.other "completion")
      | .unclaim _ => some (.other "release")
      | _ => none
    let ended := Sample.collapseStarted failure [⟨2⟩]
    ended.1 = .error (.other "completion") ∧
      ∃ time, ended.2.store = Sample.started.updateRequests [⟨1⟩] (·.claim time) := by
  intro failure ended
  have failed : ended.1 = .error (.other "completion") := by decide +kernel
  have limbo : ended.2.store.claimable ⟨1⟩ = false := by decide +kernel
  have waiting : Sample.started.claimable ⟨1⟩ = true := by decide +kernel
  have only : ∀ id ∈ Sample.started.requests.keys, Sample.started.claimable id = true →
      id = ⟨1⟩ := by
    decide +kernel
  have reached : (Sample.site Sample.started).store = .reached ⟨1⟩ _ := rfl
  have standard : (Policy.standard : Policy Strategy).IsStandard :=
    Policy.isStandard_of_registered rfl
  refine ⟨failed, ?_⟩
  -- The store is not the one before, so the claim was neither refused nor released.
  have changed : ended.2.store ≠ Sample.started := by
    intro same
    rw [same, waiting] at limbo
    cases limbo
  rcases collapse_breaks reached standard failed with
    ⟨-, unchanged, -⟩ | ⟨found, -, pending, -, id, listed, times, earlier, last, -, breaks⟩
  · exact absurd unchanged changed
  · have first : ∀ other ∈ Pass.ascending found.flatten, other = ⟨1⟩ := by
      intro other member
      obtain ⟨request, found, -⟩ := Store.claimable_iff.1 (pending other member)
      exact only other (SortedMap.mem_keys_of_get?_eq_some found) (pending other member)
    obtain rfl := first id listed
    have none : (Pass.ascending found.flatten).filter (· < ⟨1⟩) = [] := by
      refine List.filter_eq_nil_iff.2 fun other member => ?_
      simp [first other member]
    rw [none, Store.skipAll_nil] at breaks
    change Breaks _ _ _ _ ended.2.store at breaks
    generalize ended.2.store = after at changed breaks ⊢
    cases breaks with
    | unclaimed time => exact absurd rfl changed
    | released time => exact absurd rfl changed
    | stuck time releaseFailure => exact ⟨time, rfl⟩

end Course
end BuildQueue
