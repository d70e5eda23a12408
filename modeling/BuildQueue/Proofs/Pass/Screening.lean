import BuildQueue.Proofs.Pass.Finding

/-!
# What passes claim

A pass by the standard rules claims only requests that a request of its builder retires, whatever
other clients do between its calls and whichever of its calls fail.
-/

namespace BuildQueue

/-- How a pass is served while nothing is submitted and anybody may claim and complete anything. It
may claim only what some request retires. -/
def screening (base : Store) (faulty : Prop) (policy : Policy Strategy) :
    Contract Effect.Reply Unit where
  asks
    | .act (.call _ (.claim ids _)), _ | .act (.direct (.claim ids _)), _ =>
        ∀ id ∈ ids, ∃ new, base.Retires policy new id
    | _, _ => True
  gives effect _ reply _ :=
    ∃ before after, before.asSubmitted = base.asSubmitted ∧
      effect.Answers base faulty before reply after

theorem Action.Answers.alike
    {faulty : Prop}
    {before after : Store}
    {action : Action}
    {reply : action.Reply}
    (answered : action.Answers faulty before reply after) :
    after.asSubmitted = before.asSubmitted := by
  cases action with
  | call account call => exact Store.Answers.alike answered
  | direct call => exact Store.Answers.alike answered
  | time => exact congrArg Store.asSubmitted answered
  | count counter => exact congrArg Store.asSubmitted answered
  | log level message => exact congrArg Store.asSubmitted answered

theorem Effect.Answers.alike
    {base : Store}
    {faulty : Prop}
    {before after : Store}
    {effect : Effect}
    {reply : effect.Reply}
    (answered : effect.Answers base faulty before reply after) :
    after.asSubmitted = before.asSubmitted := by
  cases effect with
  | act action => exact Action.Answers.alike answered
  | view id => exact congrArg Store.asSubmitted answered.2

/-- Others may do anything to a store but submit. -/
def Store.Alike (before after : Store) : Prop := after.asSubmitted = before.asSubmitted

theorem Store.rely_alike (base : Store) : Rely base Alike where
  refl _ := rfl
  trans first second := second.trans first
  alike step before := step.trans before

namespace Pass

open Script (Ensures)

variable {base : Store} {faulty : Prop} {policy : Policy Strategy}

/-- What a pass reads while others act it reads in particular under the screening contract. -/
theorem ensures_screening_of_reading
    {α : Type}
    {post : Except Failure α → Store → Prop}
    {pass : Pass α}
    (ensured : Ensures (reading base faulty Store.Alike) post pass.run base) :
    Ensures (screening base faulty policy) (fun result _ => ∃ after, post result after)
      pass.run () := by
  have related : base.asSubmitted = base.asSubmitted := rfl
  have lifted : Ensures (screening base faulty policy)
      (fun result _ => ∃ after : Store, after.asSubmitted = base.asSubmitted ∧ post result after)
      pass.run () := by
    refine Ensures.refine (fun _ store => store.asSubmitted = base.asSubmitted) ?_ ?_ ensured
      related
    · intro effect _ store _ reads
      cases effect with
      | view id => trivial
      | act action =>
          cases action with
          | call account call => cases call <;> trivial
          | direct call => cases reads
          | _ => trivial
    · rintro effect _ store reply _ alike - ⟨before, after, beforeAlike, answered⟩
      exact ⟨after, ⟨before, beforeAlike.trans alike.symm, answered⟩,
        answered.alike.trans beforeAlike⟩
  exact lifted.mono fun result _ ⟨after, _, holds⟩ => ⟨after, holds⟩

/-- Every condition is kept, since only claims are restricted. -/
theorem quiet_screening : Quiet (screening base faulty policy) fun _ => True := by
  intro action quiet _ _
  cases action with
  | call account call => cases quiet
  | direct call => cases quiet
  | _ => exact ⟨trivial, fun _ _ _ => trivial⟩

/-- Skipping a request claims no other. -/
theorem claimAndSkip_ensures_screening
    {id new : RequestId}
    (retired : base.Retires policy new id) :
    Ensures (screening base faulty policy) (fun _ _ => True) (claimAndSkip id).run () := by
  have only : ∀ other ∈ [id], ∃ new, base.Retires policy new other := by
    intro other listed
    obtain rfl := List.mem_singleton.1 listed
    exact ⟨new, retired⟩
  refine (ensures_claimAndSkip (fun _ _ => True) (fun _ _ => True) quiet_screening
    quiet_screening quiet_screening (fun _ => quiet_screening) ?claims ?completes ?releases
    (fun _ _ _ => trivial) trivial).mono fun _ _ _ => trivial
  case claims =>
    refine fun now _ _ => ⟨only, fun reply _ _ => ?_⟩
    cases reply with
    | error failure => trivial
    | ok verdict => cases verdict <;> trivial
  case completes =>
    refine fun now _ _ => ⟨trivial, fun reply _ _ => ?_⟩
    cases reply <;> trivial
  case releases => exact fun _ _ _ => ⟨trivial, fun _ _ _ => trivial⟩

/-- The identifiers in ascending order are the given ones. -/
theorem mem_ascending_iff
    {ids : List RequestId}
    {id : RequestId} :
    id ∈ ascending ids ↔ id ∈ ids := by
  constructor
  · intro listed
    obtain ⟨⟨_, _⟩, entry, rfl⟩ := List.mem_map.1 listed
    have found := SortedMap.get?_eq_some_iff.2 entry
    rcases SortedMap.get?_insertAll_cases found with inserted | impossible
    · obtain ⟨other, otherListed, same⟩ := List.mem_map.1 inserted
      cases same
      exact otherListed
    · cases impossible
  · intro listed
    have inserted : id ∈ (ids.map fun id => (id, ())).map Prod.fst := by
      simpa using listed
    have there : ((SortedMap.ofList (ids.map fun id => (id, ()))).get? id).isSome :=
      SortedMap.isSome_get?_insertAll.2 (.inl inserted)
    obtain ⟨value, found⟩ := Option.isSome_iff_exists.1 there
    exact SortedMap.mem_keys_of_get?_eq_some found

/-- The identifiers in ascending order are in ascending order. -/
theorem pairwise_ascending (ids : List RequestId) : (ascending ids).Pairwise (· < ·) :=
  List.pairwise_map.2 ((SortedMap.ofList (ids.map fun id => (id, ()))).ascending.imp
    Ident.compare_eq_lt_iff.1)

/-- A pass claims only requests that some request retires. -/
theorem collapse_ensures_screening
    (wellformed : base.Wellformed)
    (standard : policy.IsStandard)
    (newIds : List RequestId) :
    Ensures (screening base faulty policy) (fun _ _ => True) (collapse policy newIds).run () := by
  have finds : Ensures (screening base faulty policy)
      (OnResult (fun found _ => ∀ ids ∈ found, ∀ id ∈ ids, ∃ new, base.Retires policy new id)
        fun _ _ => True) (newIds.mapM (findRedundant policy)).run () := by
    refine Ensures.run_mapM
      (fun found _ _ => ∀ ids ∈ found, ∀ id ∈ ids, ∃ new, base.Retires policy new id)
      (fun _ _ => True) ?_ fun _ listed => absurd listed List.not_mem_nil
    intro found newId rest _ retired
    refine (ensures_screening_of_reading (findRedundant_ensures wellformed
      (Store.rely_alike base) rfl standard newId)).mono fun result _ ensured => ?_
    cases result with
    | error failure => trivial
    | ok ids =>
        obtain ⟨_, during, -, -, exactly⟩ := ensured
        intro more listed id member
        rcases List.mem_append.1 listed with before | last
        · exact retired more before id member
        · obtain rfl := List.mem_singleton.1 last
          exact ⟨newId, ((exactly id).1 member).1⟩
  unfold collapse
  refine Ensures.run_bind (finds.mono fun result _ retired => ?_)
  cases result with
  | error failure => trivial
  | ok found =>
      refine (ensures_select
        (fun _ rest _ => ∀ id ∈ rest, ∃ new, base.Retires policy new id)
        (fun _ _ => True) ?_ ?_).mono fun _ _ _ => trivial
      · intro chosen id rest _ candidates
        obtain ⟨new, retiredId⟩ := candidates id List.mem_cons_self
        refine (claimAndSkip_ensures_screening retiredId).mono fun result _ _ => ?_
        cases result with
        | error failure => trivial
        | ok verdict => exact fun other listed => candidates other (List.mem_cons_of_mem _ listed)
      · intro id listed
        obtain ⟨ids, member, idMember⟩ := List.mem_flatten.1 (mem_ascending_iff.1 listed)
        exact retired ids member id idMember

end Pass
end BuildQueue
