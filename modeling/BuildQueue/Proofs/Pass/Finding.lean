import BuildQueue.Proofs.Pass.Rules
import BuildQueue.Proofs.Store.Queue
import BuildQueue.Proofs.System.Moves
import BuildQueue.Proofs.View.Covering

/-!
# Finding redundant requests

The first part of a pass reads only. While other clients claim and complete requests between its
calls, it finds exactly those requests that the new one makes redundant and that are pending when it
lists them; `Store.Retires` says which requests these are, from what was submitted alone.
-/

namespace BuildQueue

/-- Whether no builder has a registered strategy: each follows the standard rules or none. -/
def Policy.IsStandard {σ : Type} (policy : Policy σ) : Prop :=
  ∀ name strategy, policy.forBuilder name ≠ some (.registered strategy)

/-- A policy that registers no strategies is standard. -/
theorem Policy.isStandard_of_registered
    {σ : Type}
    {policy : Policy σ}
    (none : policy.registered = ∅) :
    policy.IsStandard := by
  intro name strategy chosen
  unfold Policy.forBuilder at chosen
  rw [none] at chosen
  split at chosen <;> cases chosen

namespace Store

variable {store : Store}

/-- By the standard rules, the request `old` is redundant with `new`. -/
def Redundant (store : Store) (new old : Request) : Prop :=
  new.buildsetId = old.buildsetId ∨ old.id < new.id ∧ store.Covers new.id old.id

/-- By a policy whose strategies are the standard one, the request `new` retires another one of its
builder. -/
def Retires (store : Store) (policy : Policy Strategy) (new old : RequestId) : Prop :=
  new ≠ old ∧ ∃ newRequest oldRequest builder,
    store.requests.get? new = some newRequest ∧ store.requests.get? old = some oldRequest ∧
    store.builders.get? newRequest.builderId = some builder ∧
    policy.forBuilder builder.name ≠ none ∧
    newRequest.builderId = oldRequest.builderId ∧ store.Redundant newRequest oldRequest

/-- By a policy whose strategies are the standard one, the views of the request `new` and of an
older one of its builder decide whether it retires that. -/
def Compares (store : Store) (policy : Policy Strategy) (new old : RequestId) : Prop :=
  old < new ∧ ∃ newRequest oldRequest builder,
    store.requests.get? new = some newRequest ∧ store.requests.get? old = some oldRequest ∧
    store.builders.get? newRequest.builderId = some builder ∧
    policy.forBuilder builder.name ≠ none ∧
    newRequest.builderId = oldRequest.builderId ∧
    newRequest.buildsetId ≠ oldRequest.buildsetId

end Store

/-- How an effect may be answered, and the store after it. -/
def Effect.Answers
    (base : Store)
    (faulty : Prop)
    (before : Store) : (effect : Effect) → effect.Reply → Store → Prop
  | .act action, reply, after => action.Answers faulty before reply after
  | .view id, reply, after => Honest base faulty id reply ∧ after = before

/-- What other clients may do to a store while nothing is submitted. -/
structure Rely (base : Store) (rely : Store → Store → Prop) : Prop where
  refl : ∀ store, rely store store
  trans : ∀ {first second third}, rely first second → rely second third → rely first third
  alike : ∀ {before after}, rely before after → before.asSubmitted = base.asSubmitted →
    after.asSubmitted = base.asSubmitted

/-- How a client that only reads is served, others acting before each of its calls. It asks only for
views of requests that are there. -/
def reading (base : Store) (faulty : Prop) (rely : Store → Store → Prop) :
    Contract Effect.Reply Store where
  asks
    | .act (.call _ call), _ => call.method.isWrite = false
    | .act (.direct _), _ => False
    | .act _, _ => True
    | .view id, _ => ∃ request, base.requests.get? id = some request
  gives effect before reply after :=
    ∃ during, rely before during ∧ effect.Answers base faulty during reply after

/-- Why two requests may not be compared: a call met a fault, or the view of one of them cannot be
assembled. -/
def Incomparable (base : Store) (faulty : Prop) (new old : RequestId) : Prop :=
  faulty ∨ ∃ failure, base.view new = .error failure ∨ base.view old = .error failure

/-- Why finding may fail: a call met a fault, the new request is not there, or it cannot be compared
with one that is pending. -/
def Hindered
    (base : Store)
    (faulty : Prop)
    (policy : Policy Strategy)
    (pending : RequestId → Prop)
    (newId : RequestId) : Prop :=
  faulty ∨ base.requests.get? newId = none ∨
    ∃ old, pending old ∧ base.Compares policy newId old ∧ Incomparable base faulty newId old

/-- Why finding may fail, whatever is pending: a call met a fault, the new request is not there, or
a view cannot be assembled. -/
def Excused (base : Store) (faulty : Prop) (newId : RequestId) : Prop :=
  faulty ∨ base.requests.get? newId = none ∨
    ∃ id request failure, base.requests.get? id = some request ∧ base.view id = .error failure

variable {base store : Store} {faulty : Prop} {rely : Store → Store → Prop}

/-- A view that was given is the one in the store. -/
theorem Honest.view_eq
    {id : RequestId}
    {view : View}
    (honest : Honest base faulty id (.ok view)) :
    base.view id = .ok view := by
  rcases honest with same | ⟨-, failure, impossible⟩
  · exact same.symm
  · cases impossible

/-- A view is not given only if it cannot be assembled or a call met a fault. -/
theorem Honest.view_eq_error
    {id : RequestId}
    {failure : Failure}
    (honest : Honest base faulty id (.error failure)) :
    faulty ∨ base.view id = .error failure := by
  rcases honest with same | ⟨fault, -⟩
  · exact .inr same.symm
  · exact .inl fault

theorem Hindered.mono
    {policy : Policy Strategy}
    {pending more : RequestId → Prop}
    {newId : RequestId}
    (hindered : Hindered base faulty policy pending newId)
    (weaken : ∀ old, pending old → more old) :
    Hindered base faulty policy more newId :=
  hindered.imp_right fun reason => reason.imp_right fun ⟨old, waits, rest⟩ =>
    ⟨old, weaken old waits, rest⟩

/-- What hinders is an excuse. -/
theorem Hindered.excused
    {policy : Policy Strategy}
    {pending : RequestId → Prop}
    {newId : RequestId}
    (hindered : Hindered base faulty policy pending newId) :
    Excused base faulty newId := by
  rcases hindered with fault | missing | ⟨old, -, compares, fault | ⟨failure, failed⟩⟩
  · exact .inl fault
  · exact .inr (.inl missing)
  · exact .inl fault
  · obtain ⟨-, newRequest, oldRequest, -, newFound, oldFound, -⟩ := compares
    rcases failed with newFailed | oldFailed
    · exact .inr (.inr ⟨newId, newRequest, failure, newFound, newFailed⟩)
    · exact .inr (.inr ⟨old, oldRequest, failure, oldFound, oldFailed⟩)

/-- If the new request is there and all views can be assembled then there is no excuse. -/
theorem not_excused
    (assembles : base.Assembles)
    {new : RequestId}
    (known : base.requests.contains new = true) :
    ¬ Excused base False new := by
  rintro (impossible | missing | ⟨id, request, failure, found, failed⟩)
  · exact impossible
  · rw [SortedMap.contains, missing] at known
    cases known
  · obtain ⟨view, assembled⟩ := assembles.exists_view found
    rw [failed] at assembled
    cases assembled

/-- If the new request is there, and all views that are compared with it can be assembled, then
nothing hinders. -/
theorem not_hindered
    {policy : Policy Strategy}
    {pending : RequestId → Prop}
    {new : RequestId}
    (known : base.requests.contains new = true)
    (assembles : ∀ old, pending old → base.Compares policy new old →
      (∃ view, base.view new = .ok view) ∧ ∃ view, base.view old = .ok view) :
    ¬ Hindered base False policy pending new := by
  rintro (impossible | missing | ⟨old, waits, compares, impossible | ⟨failure, failed⟩⟩)
  · exact impossible
  · rw [SortedMap.contains, missing] at known
    cases known
  · exact impossible
  · obtain ⟨⟨view, assembled⟩, twin, twinAssembled⟩ := assembles old waits compares
    rcases failed with newFailed | oldFailed
    · rw [newFailed] at assembled
      cases assembled
    · rw [oldFailed] at twinAssembled
      cases twinAssembled

/-- Requests of different buildsets are compared by their views. -/
theorem Store.canCollapse_iff_redundant
    (wellformed : store.Wellformed)
    {new old newTwin oldTwin : Request}
    (newFound : store.requests.get? new.id = some newTwin)
    (oldFound : store.requests.get? old.id = some oldTwin)
    (newAlike : newTwin.asSubmitted = new.asSubmitted)
    (oldAlike : oldTwin.asSubmitted = old.asSubmitted)
    (sameBuilder : new.builderId = old.builderId)
    (otherBuildset : new.buildsetId ≠ old.buildsetId)
    (newer : old.id < new.id)
    {newView oldView : View}
    (newAssembled : store.view new.id = .ok newView)
    (oldAssembled : store.view old.id = .ok oldView) :
    newView.canCollapse oldView = true ↔ store.Redundant new old := by
  obtain ⟨newRequest, newFoundAgain, -, -, newBuilder⟩ :=
    request_of_view wellformed newAssembled
  obtain ⟨oldRequest, oldFoundAgain, -, -, oldBuilder⟩ :=
    request_of_view wellformed oldAssembled
  obtain rfl : newRequest = newTwin := Option.some.inj (newFoundAgain.symm.trans newFound)
  obtain rfl : oldRequest = oldTwin := Option.some.inj (oldFoundAgain.symm.trans oldFound)
  have builders : newView.builderId = oldView.builderId := by
    rw [newBuilder, oldBuilder, Request.builderId_of_asSubmitted newAlike,
      Request.builderId_of_asSubmitted oldAlike, sameBuilder]
  constructor
  · intro collapsible
    exact .inr ⟨newer, newView, oldView, newAssembled, oldAssembled, builders, collapsible⟩
  · intro redundant
    rcases redundant with sameBuildset | ⟨-, view, twin, assembled, twinAssembled, -, collapsible⟩
    · exact absurd sameBuildset otherBuildset
    · obtain rfl : view = newView := Except.ok.inj (assembled.symm.trans newAssembled)
      obtain rfl : twin = oldView := Except.ok.inj (twinAssembled.symm.trans oldAssembled)
      exact collapsible

namespace Pass

open Script (Ensures)

/-- A read is answered by the store as others have left it, or by a fault. -/
theorem ensures_read
    {asked : Call}
    (reads : asked.method.isWrite = false)
    {post : Except Failure asked.Value → Store → Prop}
    (answered : ∀ during now, rely store during → post (during.reply now asked) during)
    (fails : faulty → ∀ failure after, post (.error failure) after) :
    Ensures (reading base faulty rely) post (call asked).run store := by
  refine ensures_call reads fun reply after given => ?_
  obtain ⟨during, interference, ⟨now, rfl, rfl⟩ | ⟨fault, ⟨failure, rfl⟩, -⟩⟩ := given
  · rw [Store.perform_of_read during now reads]
    exact answered during now interference
  · exact fails fault failure after

/-- Logging is answered by nothing, while others act. -/
theorem ensures_log
    {level : Level}
    {message : String}
    {post : Except Failure Unit → Store → Prop}
    (logged : ∀ during, rely store during → post (.ok ()) during) :
    Ensures (reading base faulty rely) post (log level message).run store := by
  refine ensures_act trivial fun reply after given => ?_
  obtain ⟨during, interference, same⟩ := given
  obtain rfl : after = during := same
  exact logged after interference

/-- The standard strategy decides whether one of two requests of a builder is redundant with the
other. -/
theorem standard_ensures
    (wellformed : base.Wellformed)
    (steady : Rely base rely)
    {builder : Builder}
    {new old newTwin oldTwin : Request}
    (newFound : base.requests.get? new.id = some newTwin)
    (oldFound : base.requests.get? old.id = some oldTwin)
    (newAlike : newTwin.asSubmitted = new.asSubmitted)
    (oldAlike : oldTwin.asSubmitted = old.asSubmitted)
    (different : new.id ≠ old.id)
    (sameBuilder : new.builderId = old.builderId) :
    Ensures (reading base faulty rely)
      (OnResult (fun verdict after => rely store after ∧ (verdict = true ↔ base.Redundant new old))
        fun _ _ => new.buildsetId ≠ old.buildsetId ∧ old.id < new.id ∧
          Incomparable base faulty new.id old.id)
      (Strategy.standard builder new old).run store := by
  unfold Strategy.standard
  split
  · next sameBuildset =>
    exact ⟨steady.refl store, fun _ => .inl sameBuildset, fun _ => rfl⟩
  · next otherBuildset =>
    split
    · next older =>
      refine ⟨steady.refl store, fun impossible => (by cases impossible), fun redundant => ?_⟩
      rcases redundant with sameBuildset | ⟨newer, -⟩
      · exact absurd sameBuildset otherBuildset
      · exact absurd older (lt_asymm newer)
    · next notOlder =>
      have newer : old.id < new.id := lt_of_le_of_ne (le_of_not_gt notOlder) different.symm
      refine Ensures.run_bind (ensures_view ⟨_, newFound⟩ fun newResult after given => ?_)
      obtain ⟨during, interference, newHonest, rfl⟩ := given
      cases newResult with
      | error failure =>
          refine ⟨otherBuildset, newer, newHonest.view_eq_error.imp_right fun failed => ?_⟩
          exact ⟨failure, .inl failed⟩
      | ok newView =>
      refine Ensures.run_bind (ensures_view ⟨_, oldFound⟩ fun oldResult after given => ?_)
      obtain ⟨later, laterInterference, oldHonest, rfl⟩ := given
      cases oldResult with
      | error failure =>
          refine ⟨otherBuildset, newer, oldHonest.view_eq_error.imp_right fun failed => ?_⟩
          exact ⟨failure, .inr failed⟩
      | ok oldView =>
      refine Ensures.run_bind (ensures_log fun last lastInterference => ?_)
      exact ⟨steady.trans interference (steady.trans laterInterference lastInterference),
        Store.canCollapse_iff_redundant wellformed newFound oldFound newAlike oldAlike sameBuilder
          otherBuildset newer newHonest.view_eq oldHonest.view_eq⟩

/-- Among some requests of a builder, the standard strategy selects those that are redundant with
the new one. -/
theorem select_standard_ensures
    (wellformed : base.Wellformed)
    (steady : Rely base rely)
    {builder : Builder}
    {new newTwin : Request}
    (newFound : base.requests.get? new.id = some newTwin)
    (newAlike : newTwin.asSubmitted = new.asSubmitted)
    {others : List Request}
    (known : ∀ old ∈ others, new.id ≠ old.id ∧ new.builderId = old.builderId ∧
      ∃ oldTwin, base.requests.get? old.id = some oldTwin ∧
        oldTwin.asSubmitted = old.asSubmitted) :
    Ensures (reading base faulty rely)
      (OnResult (fun chosen after => rely store after ∧
          ∀ old, old ∈ chosen ↔ old ∈ others ∧ base.Redundant new old)
        fun _ _ => ∃ old ∈ others, new.buildsetId ≠ old.buildsetId ∧ old.id < new.id ∧
          Incomparable base faulty new.id old.id)
      (select (Strategy.standard builder new) others).run store := by
  -- What was chosen so far are the redundant ones of those that were handled.
  refine (ensures_select
    (fun chosen rest state => rely store state ∧
      ∃ handled, others = handled ++ rest ∧
        ∀ old, old ∈ chosen ↔ old ∈ handled ∧ base.Redundant new old)
    (fun _ _ => ∃ old ∈ others, new.buildsetId ≠ old.buildsetId ∧ old.id < new.id ∧
      Incomparable base faulty new.id old.id) ?_
    ⟨steady.refl store, [], rfl, by simp⟩).mono fun result after ensured => ?_
  · rintro chosen item rest state ⟨before, handled, split, selected⟩
    have listed : item ∈ others := by
      rw [split]
      simp
    obtain ⟨different, sameBuilder, twin, found, alike⟩ := known item listed
    refine (standard_ensures wellformed steady newFound found newAlike alike different
      sameBuilder).mono fun result after ensured => ?_
    cases result with
    | error failure => exact ⟨item, listed, ensured⟩
    | ok verdict =>
        refine ⟨steady.trans before ensured.1, handled ++ [item], by rw [split]; simp,
          fun old => ?_⟩
        cases verdict with
        | true =>
            have redundant := ensured.2.1 rfl
            simp only [if_true, List.mem_append, List.mem_singleton, selected]
            constructor
            · rintro (⟨earlier, redundantOld⟩ | rfl)
              · exact ⟨.inl earlier, redundantOld⟩
              · exact ⟨.inr rfl, redundant⟩
            · rintro ⟨earlier | rfl, redundantOld⟩
              · exact .inl ⟨earlier, redundantOld⟩
              · exact .inr rfl
        | false =>
            have distinct : ¬ base.Redundant new item := fun redundant => by
              cases ensured.2.2 redundant
            simp only [Bool.false_eq_true, if_false, List.mem_append, List.mem_singleton, selected]
            constructor
            · rintro ⟨earlier, redundantOld⟩
              exact ⟨.inl earlier, redundantOld⟩
            · rintro ⟨earlier | rfl, redundantOld⟩
              · exact ⟨earlier, redundantOld⟩
              · exact absurd redundantOld distinct
  · cases result with
    | error failure => exact ensured
    | ok chosen =>
        obtain ⟨interference, handled, split, selected⟩ := ensured
        rw [List.append_nil] at split
        subst split
        exact ⟨interference, selected⟩

/-- The pending requests of a builder that are selected are those that the new request retires. -/
theorem mem_selected_iff
    (wellformed : base.Wellformed)
    (alike : store.asSubmitted = base.asSubmitted)
    {policy : Policy Strategy}
    {new newTwin : Request}
    (newFound : base.requests.get? new.id = some newTwin)
    (newAlike : newTwin.asSubmitted = new.asSubmitted)
    {builder : Builder}
    (builderFound : base.builders.get? new.builderId = some builder)
    (enabled : policy.forBuilder builder.name ≠ none)
    {chosen : List Request}
    (selected : ∀ old, old ∈ chosen ↔
      old ∈ (store.pendingOf new.builderId).filter (fun old => old.id != new.id) ∧
        base.Redundant new old)
    (old : RequestId) :
    old ∈ chosen.map (·.id) ↔ base.Retires policy new.id old ∧ store.claimable old = true := by
  have storeWellformed := wellformed.of_asSubmitted alike
  have newBuilder := Request.builderId_of_asSubmitted newAlike
  have newBuildset := Request.buildsetId_of_asSubmitted newAlike
  have newTwinId := Request.id_of_asSubmitted newAlike
  simp only [List.mem_map, selected, List.mem_filter, storeWellformed.toKeyed.mem_pendingOf,
    bne_iff_ne, ne_eq, Store.claimable_iff]
  constructor
  · rintro ⟨request, ⟨⟨⟨found, sameBuilder, pending⟩, different⟩, redundant⟩, rfl⟩
    obtain ⟨twin, twinFound, twinAlike⟩ := Store.get?_of_asSubmitted alike found
    refine ⟨⟨Ne.symm different, newTwin, twin, builder, newFound, twinFound, ?_, enabled, ?_, ?_⟩,
      request, found, pending⟩
    · rw [newBuilder]
      exact builderFound
    · rw [newBuilder, Request.builderId_of_asSubmitted twinAlike, sameBuilder]
    · rw [Store.Redundant, newBuildset, Request.buildsetId_of_asSubmitted twinAlike, newTwinId,
        Request.id_of_asSubmitted twinAlike]
      exact redundant
  · rintro ⟨⟨different, newRequest, twin, _, newFoundAgain, twinFound, -, -, sameBuilder,
      redundant⟩, request, found, pending⟩
    obtain rfl : newRequest = newTwin := Option.some.inj (newFoundAgain.symm.trans newFound)
    obtain ⟨twinAgain, twinFoundAgain, twinAlike⟩ := Store.get?_of_asSubmitted alike found
    obtain rfl : twinAgain = twin := Option.some.inj (twinFoundAgain.symm.trans twinFound)
    have requestId : request.id = old := storeWellformed.keyed found
    refine ⟨request, ⟨⟨⟨?_, ?_, pending⟩, ?_⟩, ?_⟩, requestId⟩
    · rw [requestId]
      exact found
    · rw [← Request.builderId_of_asSubmitted twinAlike, ← sameBuilder, newBuilder]
    · rw [requestId]
      exact Ne.symm different
    · rw [Store.Redundant, newBuildset, Request.buildsetId_of_asSubmitted twinAlike, newTwinId,
        Request.id_of_asSubmitted twinAlike] at redundant
      exact redundant

/-- What finding comes to when other clients act meanwhile: the requests that the new one retires
and that were pending at some moment. -/
theorem findRedundant_ensures
    (wellformed : base.Wellformed)
    (steady : Rely base rely)
    (alike : store.asSubmitted = base.asSubmitted)
    {policy : Policy Strategy}
    (standard : policy.IsStandard)
    (newId : RequestId) :
    Ensures (reading base faulty rely)
      (OnResult (fun found after => ∃ during, rely store during ∧ rely during after ∧
          ∀ old, old ∈ found ↔ base.Retires policy newId old ∧ during.claimable old = true)
        fun _ _ => Hindered base faulty policy
          (fun old => ∃ during, rely store during ∧ during.claimable old = true) newId)
      (findRedundant policy newId).run store := by
  unfold findRedundant
  refine Ensures.run_bind (ensures_read rfl (fun seen now first => ?_) fun fault _ _ => .inl fault)
  change OnResult _ _ (Except.ok (seen.requests.get? newId)) seen
  have seenAlike := steady.alike first alike
  cases newFound : seen.requests.get? newId with
  | none => exact .inr (.inl (Store.get?_eq_none_of_asSubmitted seenAlike newFound))
  | some new =>
  obtain ⟨newTwin, twinFound, newAlike⟩ := Store.get?_of_asSubmitted seenAlike newFound
  obtain rfl : new.id = newId := by
    rw [← Request.id_of_asSubmitted newAlike]
    exact wellformed.keyed twinFound
  refine Ensures.run_bind
    (ensures_read rfl (fun known now second => ?_) fun fault _ _ => .inl fault)
  change OnResult _ _ (Except.ok (known.builders.get? new.builderId)) known
  have knownAlike := steady.alike second seenAlike
  have builders : known.builders = base.builders := by
    simpa only [Store.builders_asSubmitted] using congrArg Store.builders knownAlike
  rw [builders]
  cases builderFound : base.builders.get? new.builderId with
  | none =>
      refine Ensures.run_bind (ensures_log fun during interference => ?_)
      refine ⟨during, steady.trans first (steady.trans second interference), steady.refl during,
        fun old => ⟨fun listed => absurd listed List.not_mem_nil, fun retired => ?_⟩⟩
      obtain ⟨⟨-, newRequest, -, builder, found, -, foundBuilder, -⟩, -⟩ := retired
      obtain rfl : newRequest = newTwin := Option.some.inj (found.symm.trans twinFound)
      rw [Request.builderId_of_asSubmitted newAlike, builderFound] at foundBuilder
      cases foundBuilder
  | some builder =>
  rw [onResult_ok]
  dsimp only
  cases chosen : policy.forBuilder builder.name with
  | none =>
      refine ⟨known, steady.trans first second, steady.refl known,
        fun old => ⟨fun listed => absurd listed List.not_mem_nil, fun retired => ?_⟩⟩
      obtain ⟨⟨-, newRequest, -, enabledBuilder, found, -, foundBuilder, enabled, -⟩, -⟩ := retired
      obtain rfl : newRequest = newTwin := Option.some.inj (found.symm.trans twinFound)
      rw [Request.builderId_of_asSubmitted newAlike, builderFound] at foundBuilder
      cases foundBuilder
      exact absurd chosen enabled
  | some choice =>
  cases choice with
  | registered strategy => exact absurd chosen (standard builder.name strategy)
  | standard =>
  have builderId : builder.id = new.builderId := wellformed.builderKeyed builderFound
  refine Ensures.run_bind
    (ensures_read rfl (fun during now third => ?_) fun fault _ _ => .inl fault)
  change OnResult _ _ (Except.ok (during.pendingOf builder.id)) during
  have duringAlike := steady.alike third knownAlike
  have duringWellformed := wellformed.of_asSubmitted duringAlike
  rw [builderId, onResult_ok]
  have candidates : ∀ old ∈ (during.pendingOf new.builderId).filter fun old => old.id != new.id,
      new.id ≠ old.id ∧ new.builderId = old.builderId ∧
        ∃ oldTwin, base.requests.get? old.id = some oldTwin ∧
          oldTwin.asSubmitted = old.asSubmitted := by
    intro old listed
    obtain ⟨pending, different⟩ := List.mem_filter.1 listed
    obtain ⟨found, sameBuilder, -⟩ := duringWellformed.toKeyed.mem_pendingOf.1 pending
    exact ⟨Ne.symm (bne_iff_ne.1 different), sameBuilder.symm,
      Store.get?_of_asSubmitted duringAlike found⟩
  refine Ensures.run_bind ((select_standard_ensures wellformed steady twinFound newAlike
    candidates).mono fun result after ensured => ?_)
  have enabled : policy.forBuilder builder.name ≠ none := by
    rw [chosen]
    exact Option.some_ne_none _
  cases result with
  | error failure =>
      obtain ⟨old, listed, otherBuildset, newer, incomparable⟩ := ensured
      obtain ⟨-, sameBuilder, oldTwin, oldFound, oldAlike⟩ := candidates old listed
      obtain ⟨found, -, pending⟩ :=
        duringWellformed.toKeyed.mem_pendingOf.1 (List.mem_filter.1 listed).1
      refine .inr (.inr ⟨old.id, ⟨during, steady.trans first (steady.trans second third),
        Store.claimable_iff.2 ⟨old, found, pending⟩⟩, ⟨newer, newTwin, oldTwin, builder, twinFound,
        oldFound, ?_, enabled, ?_, ?_⟩, incomparable⟩)
      · rw [Request.builderId_of_asSubmitted newAlike]
        exact builderFound
      · rw [Request.builderId_of_asSubmitted newAlike, Request.builderId_of_asSubmitted oldAlike]
        exact sameBuilder
      · rw [Request.buildsetId_of_asSubmitted newAlike, Request.buildsetId_of_asSubmitted oldAlike]
        exact otherBuildset
  | ok selected =>
      exact ⟨during, steady.trans first (steady.trans second third), ensured.1,
        mem_selected_iff wellformed duringAlike twinFound newAlike builderFound enabled ensured.2⟩

end Pass
end BuildQueue
