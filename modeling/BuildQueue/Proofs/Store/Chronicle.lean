import BuildQueue.Proofs.Store.Exchange
import BuildQueue.Proofs.Store.History

/-!
# Chronicles of claims

What the exchanges with a store have in common whoever makes them: between two claims of a request
there is a release of it, and a request is completed at most once and stays as its completion left
it. Claims carry no owner, so this is a matter of the store alone.
-/

namespace BuildQueue

namespace Store

variable {before after : Store} {exchange : Exchange} {id : RequestId} {request : Request}

/-- An addition leaves the requests as they are that are there. -/
theorem Wellformed.kept
    (wellformed : Wellformed before)
    {addition : Addition}
    {made : List Addition}
    (updates : before.Updates (.operation (.add addition)) made after)
    (found : before.requests.get? id = some request) :
    after.requests.get? id = some request := by
  cases updates with
  | builder builder => exact found
  | change change known => exact found
  | refused => exact found
  | buildset now submits => exact submits.kept wellformed.toKeyed found

theorem Wellformed.get?_add
    (wellformed : Wellformed before)
    (addition : Addition)
    (found : before.requests.get? id = some request) :
    (before.add addition).requests.get? id = some request :=
  wellformed.kept (before.updates (.operation (.add addition))) found

/-- A claim stays until it is released. -/
theorem Writes.claimed
    (writes : before.Writes exchange after)
    (found : before.requests.get? id = some request)
    (claimed : request.claimed = true)
    (kept : exchange.releases id = false) :
    ∃ later, after.requests.get? id = some later ∧ later.claimed = true := by
  cases writes with
  | nothing => exact ⟨request, found, claimed⟩
  | claim ids time now pending =>
      refine ⟨_, get?_updateRequests_eq_some found, ?_⟩
      split
      · rfl
      · exact claimed
  | complete ids outcome time now held =>
      refine ⟨_, get?_updateRequests_eq_some found, ?_⟩
      split
      · exact claimed
      · exact claimed
  | release ids =>
      have other : id ∉ ids := by
        intro listed
        rw [Exchange.releases, List.contains_iff_mem.2 listed] at kept
        cases kept
      refine ⟨_, get?_updateRequests_eq_some found, ?_⟩
      rw [if_neg other]
      exact claimed

/-- How a request stays that was completed with an outcome. -/
def Settled (store : Store) (id : RequestId) (outcome : Outcome) : Prop :=
  ∃ request, store.requests.get? id = some request ∧ request.claimed = true ∧
    request.complete = true ∧ request.outcome = some outcome

/-- A completed request stays as it is. -/
theorem Writes.settled
    (writes : before.Writes exchange after)
    {outcome : Outcome}
    (settled : before.Settled id outcome) :
    after.Settled id outcome := by
  obtain ⟨request, found, claimed, complete, ended⟩ := settled
  cases writes with
  | nothing => exact ⟨request, found, claimed, complete, ended⟩
  | claim ids time now pending =>
      have other : id ∉ ids := by
        intro listed
        obtain ⟨twin, twinFound, twinPending⟩ := claimable_iff.1 (pending id listed)
        obtain rfl : request = twin := Option.some.inj (found.symm.trans twinFound)
        simp [Request.isPending, claimed] at twinPending
      refine ⟨request, ?_, claimed, complete, ended⟩
      rw [get?_updateRequests_eq_some found, if_neg other]
  | complete ids other time now held =>
      have other : id ∉ ids := by
        intro listed
        obtain ⟨twin, twinFound, -, incomplete⟩ := held id listed
        obtain rfl : request = twin := Option.some.inj (found.symm.trans twinFound)
        rw [complete] at incomplete
        cases incomplete
      refine ⟨request, ?_, claimed, complete, ended⟩
      rw [get?_updateRequests_eq_some found, if_neg other]
  | release ids =>
      have same : request.release = request := by
        simp [Request.release, complete]
      refine ⟨request, ?_, claimed, complete, ended⟩
      rw [get?_updateRequests_eq_some found, same, ite_self]

/-- Only a pending request can be claimed. -/
theorem Writes.claims
    (writes : before.Writes exchange after)
    (claims : exchange.claims id = true) :
    before.claimable id = true ∧
      ∃ request, after.requests.get? id = some request ∧ request.claimed = true := by
  cases writes with
  | nothing none => exact absurd ((none id).symm.trans claims) Bool.false_ne_true
  | claim ids time now pending =>
      have listed : id ∈ ids := List.contains_iff_mem.1 claims
      obtain ⟨request, found, -⟩ := claimable_iff.1 (pending id listed)
      refine ⟨pending id listed, _, get?_updateRequests_eq_some found, ?_⟩
      rw [if_pos listed]
      rfl
  | complete ids outcome time now held => cases claims
  | release ids => cases claims

/-- Only a request that is not complete can be completed, and then it is settled. -/
theorem Writes.completes
    (writes : before.Writes exchange after)
    {outcome : Outcome}
    (completes : exchange.completes? id = some outcome) :
    (∃ request, before.requests.get? id = some request ∧ request.complete = false) ∧
      after.Settled id outcome := by
  cases writes with
  | nothing _ none => exact absurd ((none id).symm.trans completes) (by simp)
  | claim ids time now pending => cases completes
  | complete ids other time now held =>
      rw [Exchange.completes?] at completes
      split at completes
      · next listed =>
        cases completes
        rw [List.contains_iff_mem] at listed
        obtain ⟨request, found, claimed, incomplete⟩ := held id listed
        refine ⟨⟨request, found, incomplete⟩, _, get?_updateRequests_eq_some found, ?_⟩
        rw [if_pos listed]
        exact ⟨claimed, rfl, rfl⟩
      · cases completes
  | release ids => cases completes

end Store

/-- The claims and completions of a history, and the store that it has led to. -/
structure Chronicle {ι : Type} (history : List (Event ι)) (store : Store) : Prop where
  wellformed : store.Wellformed
  /-- Between two claims of a request there is a release of it. -/
  alternates : ∀ {id} {i j : Nat} {first second}, i < j → history[i]? = some first →
    history[j]? = some second → first.claims id = true → second.claims id = true →
    ∃ k release, i < k ∧ k < j ∧ history[k]? = some release ∧ release.releases id = true
  /-- A claim that was not released holds. -/
  held : ∀ {id} {i : Nat} {event}, history[i]? = some event → event.claims id = true →
    (∃ k release, i < k ∧ history[k]? = some release ∧ release.releases id = true) ∨
      ∃ request, store.requests.get? id = some request ∧ request.claimed = true
  /-- A request is completed at most once. -/
  once : ∀ {id} {i j : Nat} {first second outcome other}, history[i]? = some first →
    history[j]? = some second → first.completes? id = some outcome →
    second.completes? id = some other → i = j
  /-- What was completed is settled. -/
  settled : ∀ {id event outcome}, event ∈ history → event.completes? id = some outcome →
    store.Settled id outcome

namespace Chronicle

variable {ι : Type} {history : List (Event ι)} {before after : Store}

theorem nil (wellformed : before.Wellformed) : Chronicle ([] : List (Event ι)) before where
  wellformed := wellformed
  alternates _ found := absurd found (by simp)
  held found := absurd found (by simp)
  once found := absurd found (by simp)
  settled listed := absurd listed List.not_mem_nil

theorem add
    (chronicle : Chronicle history before)
    (addition : Addition) :
    Chronicle history (before.add addition) where
  wellformed := chronicle.wellformed.add addition
  alternates := chronicle.alternates
  held found claims := (chronicle.held found claims).imp_right fun ⟨request, there, claimed⟩ =>
    ⟨request, chronicle.wellformed.get?_add addition there, claimed⟩
  once := chronicle.once
  settled listed completes := by
    obtain ⟨request, found, rest⟩ := chronicle.settled listed completes
    exact ⟨request, chronicle.wellformed.get?_add addition found, rest⟩

theorem getElem?_concat_cases
    {event other : Event ι}
    {i : Nat}
    (found : (history ++ [event])[i]? = some other) :
    history[i]? = some other ∧ i < history.length ∨ i = history.length ∧ other = event := by
  rcases Nat.lt_or_ge i history.length with before | beyond
  · rw [List.getElem?_append_left before] at found
    exact .inl ⟨found, before⟩
  · rw [List.getElem?_append_right beyond, List.getElem?_singleton] at found
    split at found
    · exact .inr ⟨by omega, (Option.some.inj found).symm⟩
    · cases found

theorem getElem?_concat
    {event other : Event ι}
    {i : Nat}
    (found : history[i]? = some other) :
    (history ++ [event])[i]? = some other := by
  rw [List.getElem?_append_left (List.getElem?_eq_some_iff.1 found).1]
  exact found

/-- An exchange goes on with a chronicle. -/
theorem concat
    (chronicle : Chronicle history before)
    {event : Event ι}
    (writes : before.Writes event.toExchange after)
    (wellformed : after.Wellformed) :
    Chronicle (history ++ [event]) after := by
  constructor
  case wellformed => exact wellformed
  case alternates =>
    intro id i j first second inOrder firstFound secondFound firstClaims secondClaims
    rcases getElem?_concat_cases secondFound with ⟨secondBefore, bound⟩ | ⟨rfl, rfl⟩
    · rw [List.getElem?_append_left (by omega)] at firstFound
      obtain ⟨k, release, low, high, found, releases⟩ :=
        chronicle.alternates inOrder firstFound secondBefore firstClaims secondClaims
      exact ⟨k, release, low, high, getElem?_concat found, releases⟩
    · rw [List.getElem?_append_left inOrder] at firstFound
      rcases chronicle.held firstFound firstClaims with
        ⟨k, release, low, found, releases⟩ | ⟨request, found, claimed⟩
      · exact ⟨k, release, low, (List.getElem?_eq_some_iff.1 found).1, getElem?_concat found,
          releases⟩
      · obtain ⟨twin, twinFound, pending⟩ := Store.claimable_iff.1 (writes.claims secondClaims).1
        obtain rfl : request = twin := Option.some.inj (found.symm.trans twinFound)
        simp [Request.isPending, claimed] at pending
  case held =>
    intro id i other otherFound claims
    rcases getElem?_concat_cases otherFound with ⟨found, bound⟩ | ⟨rfl, rfl⟩
    · rcases chronicle.held found claims with
        ⟨k, release, low, releaseFound, releases⟩ | ⟨request, there, claimed⟩
      · exact .inl ⟨k, release, low, getElem?_concat releaseFound, releases⟩
      · cases releases : event.releases id with
        | true => exact .inl ⟨history.length, event, bound, List.getElem?_concat_length, releases⟩
        | false => exact .inr (writes.claimed there claimed releases)
    · exact .inr (writes.claims claims).2
  case once =>
    intro id i j first second outcome other firstFound secondFound firstCompletes secondCompletes
    -- What was completed before is complete, so the new exchange does not complete it again.
    have fresh : ∀ {earlier result}, earlier ∈ history → earlier.completes? id = some result →
        ∀ {last}, event.completes? id = some last → False := by
      intro earlier result listed completes last again
      obtain ⟨request, found, -, complete, -⟩ := chronicle.settled listed completes
      obtain ⟨⟨twin, twinFound, incomplete⟩, -⟩ := writes.completes again
      obtain rfl : request = twin := Option.some.inj (found.symm.trans twinFound)
      rw [complete] at incomplete
      cases incomplete
    rcases getElem?_concat_cases firstFound with ⟨firstBefore, -⟩ | ⟨rfl, rfl⟩
    · rcases getElem?_concat_cases secondFound with ⟨secondBefore, -⟩ | ⟨rfl, rfl⟩
      · exact chronicle.once firstBefore secondBefore firstCompletes secondCompletes
      · exact (fresh (List.mem_of_getElem? firstBefore) firstCompletes secondCompletes).elim
    · rcases getElem?_concat_cases secondFound with ⟨secondBefore, -⟩ | ⟨rfl, -⟩
      · exact (fresh (List.mem_of_getElem? secondBefore) secondCompletes firstCompletes).elim
      · rfl
  case settled =>
    intro id other outcome listed completes
    rcases List.mem_append.1 listed with earlier | last
    · exact writes.settled (chronicle.settled earlier completes)
    · obtain rfl := List.mem_singleton.1 last
      exact (writes.completes completes).2

end Chronicle
end BuildQueue
