import BuildQueue.Proofs.Pass.Attest
import BuildQueue.Proofs.Store.Chronicle
import BuildQueue.Proofs.System.Moves

/-!
# Claims and completions happen once

Under any schedule of passes and other clients a request is not claimed again before its claim was
released, and it is completed at most once. What a pass returns it has claimed and completed itself,
so no two passes return the same request, and the request stays skipped.
-/

namespace BuildQueue
namespace System

open Script (Ensures)

variable {ι κ : Type}

/-- The history of a system is a chronicle, and every pass is going to return only what its part of
the history attests. -/
structure Accounted (system : System ι κ) : Prop where
  chronicle : Chronicle system.history system.site.store
  passes : ∀ who, ∃ own, (∀ exchange ∈ own, ⟨exchange, some who⟩ ∈ system.history) ∧
    Ensures attesting
      (OnResult (fun ids own => ids.Pairwise (· < ·) ∧ ∀ id ∈ ids, Attested own id)
        fun _ _ => True)
      (system.passes who).rest own

theorem accounted_start
    {site : Site}
    (wellformed : site.store.Wellformed)
    (caches : κ → ViewCache)
    (jobs : ι → Job κ) :
    Accounted (start site caches jobs) where
  chronicle := .nil wellformed
  passes _ := ⟨[], fun _ listed => absurd listed List.not_mem_nil,
    Pass.collapse_ensures_attesting _ _⟩

/-- Every exchange of a turn goes on with the chronicle. -/
theorem Moves.chronicle
    {turn : Turn ι κ}
    {before after : System ι κ}
    (moves : Moves turn before after)
    (chronicle : Chronicle before.history before.site.store) :
    Chronicle after.history after.site.store := by
  have concat : ∀ {faulty call} {reply : call.Reply} {client : Option ι} {store : Store},
      before.site.store.Answers faulty call reply store →
      Chronicle (before.history ++ [⟨⟨call, reply⟩, client⟩]) store := by
    intro faulty call reply client store answered
    have writes : before.site.store.Writes ⟨call, reply⟩ store := answered.writes
    exact chronicle.concat writes (chronicle.wellformed.of_asSubmitted answered.alike)
  cases moves with
  | quiet store history rest =>
      rw [store, history]
      exact chronicle
  | acted who fault action next reply asked answered history rest others =>
      rw [history]
      cases action with
      | call account call => exact concat answered
      | direct call => exact concat answered
      | time =>
          rw [show after.site.store = before.site.store from answered]
          exact (List.append_nil before.history).symm ▸ chronicle
      | count counter =>
          rw [show after.site.store = before.site.store from answered]
          exact (List.append_nil before.history).symm ▸ chronicle
      | log level message =>
          rw [show after.site.store = before.site.store from answered]
          exact (List.append_nil before.history).symm ▸ chronicle
  | viewed who fault id next result asked polled store history rest others =>
      rw [store, history]
      exact chronicle
  | loaded client cache generation call next reply asked answered history rest =>
      rw [history]
      exact concat answered
  | called call reply answered history rest =>
      rw [history]
      exact concat answered
  | submitted addition store history rest =>
      rw [store, history]
      exact chronicle.add addition

/-- The history of a system only grows. -/
theorem Moves.history_subset
    {turn : Turn ι κ}
    {before after : System ι κ}
    (moves : Moves turn before after) :
    before.history ⊆ after.history := by
  cases moves with
  | quiet store history rest => rw [history]; exact List.Subset.refl _
  | acted who fault action next reply asked answered history rest others =>
      rw [history]; exact List.subset_append_left _ _
  | viewed who fault id next result asked polled store history rest others =>
      rw [history]; exact List.Subset.refl _
  | loaded client cache generation call next reply asked answered history rest =>
      rw [history]; exact List.subset_append_left _ _
  | called call reply answered history rest =>
      rw [history]; exact List.subset_append_left _ _
  | submitted addition store history rest => rw [history]; exact List.Subset.refl _

variable [DecidableEq ι] [DecidableEq κ] {system : System ι κ}

theorem Accounted.step
    (accounted : Accounted system)
    (turn : Turn ι κ) :
    Accounted (system.step turn) := by
  have moves := moves_step system turn
  generalize system.step turn = after at moves
  have chronicle := moves.chronicle accounted.chronicle
  have grown := moves.history_subset
  -- A pass that has not gone on ensures the same of the same exchanges.
  have still : ∀ who, (after.passes who).rest = (system.passes who).rest →
      ∃ own, (∀ exchange ∈ own, ⟨exchange, some who⟩ ∈ after.history) ∧
        Ensures attesting
          (OnResult (fun ids own => ids.Pairwise (· < ·) ∧ ∀ id ∈ ids, Attested own id)
            fun _ _ => True)
          (after.passes who).rest own := by
    intro who same
    obtain ⟨own, recorded, ensured⟩ := accounted.passes who
    rw [same]
    exact ⟨own, fun exchange made => grown (recorded exchange made), ensured⟩
  refine ⟨chronicle, fun other => ?_⟩
  cases moves with
  | quiet store history rest => exact still other (rest other)
  | acted who fault action next reply asked answered history rest others =>
      by_cases same : other = who
      · subst same
        obtain ⟨own, recorded, ensured⟩ := accounted.passes other
        rw [asked] at ensured
        rw [rest]
        refine ⟨own ++ action.exchanges reply, fun exchange made => ?_, ensured.2 reply _ rfl⟩
        rcases List.mem_append.1 made with before | new
        · exact grown (recorded exchange before)
        · rw [history]
          exact List.mem_append_right _ (List.mem_map.2 ⟨exchange, new, rfl⟩)
      · exact still other (others other same)
  | viewed who fault id next result asked polled store history rest others =>
      by_cases same : other = who
      · subst same
        obtain ⟨own, recorded, ensured⟩ := accounted.passes other
        rw [asked] at ensured
        rw [rest]
        exact ⟨own, fun exchange made => grown (recorded exchange made),
          ensured.2 result own rfl⟩
      · exact still other (others other same)
  | loaded client cache generation call next reply asked answered history rest =>
      exact still other (rest other)
  | called call reply answered history rest => exact still other (rest other)
  | submitted addition store history rest => exact still other (rest other)

theorem Accounted.run
    (accounted : Accounted system)
    (turns : List (Turn ι κ)) :
    Accounted (system.run turns) :=
  run_induction Accounted accounted fun _ turn _ invariant => invariant.step turn

theorem history_subset_run
    (system : System ι κ)
    (turns : List (Turn ι κ)) :
    system.history ⊆ (system.run turns).history :=
  run_induction (fun later => system.history ⊆ later.history) (List.Subset.refl _)
    fun before turn _ grown => List.Subset.trans grown (moves_step before turn).history_subset

omit [DecidableEq ι] [DecidableEq κ] in
/-- What a pass has returned is attested by its part of the history. -/
theorem Accounted.returned
    (accounted : Accounted system)
    {who : ι}
    {ids : List RequestId}
    (returned : (system.passes who).result? = some (.ok ids)) :
    ids.Pairwise (· < ·) ∧ ∀ id ∈ ids, ∃ time,
      ⟨⟨.claim [id] time, .ok true⟩, some who⟩ ∈ system.history ∧
      ⟨⟨.complete [id] .skipped time, .ok ()⟩, some who⟩ ∈ system.history := by
  obtain ⟨own, recorded, ensured⟩ := accounted.passes who
  unfold Running.result? at returned
  split at returned
  · next result ended =>
    cases returned
    rw [ended] at ensured
    refine ⟨ensured.1, fun id listed => ?_⟩
    obtain ⟨time, claimed, completed⟩ := ensured.2 id listed
    exact ⟨time, recorded _ claimed, recorded _ completed⟩
  · cases returned

/-- Under any schedule, with any strategies, caches and other clients: between two claims of a
request it is released; a request is completed at most once; the passes return every request at most
once; and a request that a pass returns was claimed by this pass and stays skipped. -/
theorem claimed_and_completed_once
    (firstRequest : RequestId)
    (operations : List Operation)
    (site : Site)
    (caches : κ → ViewCache)
    (jobs : ι → Job κ)
    (turns more : List (Turn ι κ)) :
    let before := start { site with store := .reached firstRequest operations } caches jobs
    let now := before.run turns
    (∀ id (i j : Nat) first second, i < j → now.history[i]? = some first →
      now.history[j]? = some second → first.claims id = true → second.claims id = true →
      ∃ k release, i < k ∧ k < j ∧ now.history[k]? = some release ∧
        release.releases id = true) ∧
    (∀ id (i j : Nat) first second outcome other, now.history[i]? = some first →
      now.history[j]? = some second → first.completes? id = some outcome →
      second.completes? id = some other → i = j) ∧
    (∀ who ids, (now.passes who).result? = some (.ok ids) → ids.Nodup ∧
      ∀ other others, other ≠ who → (now.passes other).result? = some (.ok others) →
        ∀ id ∈ ids, id ∉ others) ∧
    (∀ who ids id, (now.passes who).result? = some (.ok ids) → id ∈ ids →
      (∃ time, ⟨⟨.claim [id] time, .ok true⟩, some who⟩ ∈ now.history) ∧
        (now.run more).site.store.Settled id .skipped) := by
  intro before now
  have wellformed : before.site.store.Wellformed := .reached firstRequest operations
  have accounted : Accounted now := (accounted_start wellformed caches jobs).run turns
  have completed : ∀ {id : RequestId} {time} {who : ι},
      (⟨⟨.complete [id] .skipped time, .ok ()⟩, some who⟩ : Event ι).completes? id =
        some .skipped := by
    intro id time who
    simp [Exchange.completes?]
  refine ⟨fun _ _ _ _ _ => accounted.chronicle.alternates,
    fun _ _ _ _ _ _ _ => accounted.chronicle.once, ?disjoint, ?settled⟩
  case disjoint =>
    intro who ids returned
    obtain ⟨ordered, attested⟩ := accounted.returned returned
    refine ⟨ordered.imp fun below => ne_of_lt below, ?_⟩
    intro other others different otherReturned id listed otherListed
    obtain ⟨-, otherAttested⟩ := accounted.returned otherReturned
    obtain ⟨time, -, done⟩ := attested id listed
    obtain ⟨otherTime, -, otherDone⟩ := otherAttested id otherListed
    obtain ⟨i, found⟩ := List.getElem?_of_mem done
    obtain ⟨j, otherFound⟩ := List.getElem?_of_mem otherDone
    obtain rfl := accounted.chronicle.once found otherFound completed completed
    have same := Option.some.inj (found.symm.trans otherFound)
    exact different (Option.some.inj (congrArg Event.client same)).symm
  case settled =>
    intro who ids id returned listed
    obtain ⟨-, attested⟩ := accounted.returned returned
    obtain ⟨time, claimed, done⟩ := attested id listed
    refine ⟨⟨time, claimed⟩, ?_⟩
    exact (accounted.run more).chronicle.settled (history_subset_run now more done) completed

end System
end BuildQueue
