import BuildQueue.Proofs.Store.Submission

/-!
# Updates of a store

What is done to a store: something is added to it, a client makes a call, or a row is put in as it
is. `Updates` says what each update does, so that what an invariant has to be checked for is one
case each.
-/

namespace BuildQueue

/-- What is added to a store. -/
inductive Addition where
  | builder (builder : Builder)
  /-- A buildset, submitted at a time. -/
  | buildset (submission : Submission) (now : Timestamp)
  | change (stampId : SourceStampId) (change : Change)

/-- Whether an addition lists no builder twice. -/
def Addition.ListsOnce : Addition → Prop
  | .buildset submission _ => submission.builderIds.Nodup
  | _ => True

instance : DecidablePred Addition.ListsOnce
  | .builder _ | .change _ _ => inferInstanceAs (Decidable True)
  | .buildset submission _ => inferInstanceAs (Decidable submission.builderIds.Nodup)

/-- What happens to a store: something is added, or a client makes a call at a time. -/
inductive Operation where
  | add (addition : Addition)
  | call (now : Timestamp) (call : Call)

/-- What is done to a store: an operation, or a row is put in as it is. -/
inductive Update where
  | operation (operation : Operation)
  | insert (request : Request)

namespace Store

/-- The store after an addition; one that is refused leaves it as it is. -/
def add (store : Store) : Addition → Store
  | .builder builder => store.addBuilder builder
  | .buildset submission now =>
      match store.addBuildset submission now with
      | .ok (_, store) => store
      | .error _ => store
  | .change stampId change =>
      match store.addChange stampId change with
      | .ok store => store
      | .error _ => store

/-- The store after an operation. -/
def apply (store : Store) : Operation → Store
  | .add addition => store.add addition
  | .call now call => (store.perform now call).2

/-- The store after an update. -/
def updated (store : Store) : Update → Store
  | .operation operation => store.apply operation
  | .insert request => store.insertRequest request

/-- Whether an addition is accepted. -/
def accepts (store : Store) : Addition → Bool
  | .builder _ => true
  | .buildset submission now => (store.addBuildset submission now).isOk
  | .change stampId change => (store.addChange stampId change).isOk

/-- The addition that an update makes, if it is accepted. -/
def taken (store : Store) : Update → List Addition
  | .operation (.add addition) => if store.accepts addition then [addition] else []
  | _ => []

/-- What an update does to a store, and the addition that it makes. -/
inductive Updates (before : Store) : Update → List Addition → Store → Prop where
  | builder (builder : Builder) :
      Updates before (.operation (.add (.builder builder))) [.builder builder]
        (before.addBuilder builder)
  | buildset {submission submitted after} (now : Timestamp)
      (submits : before.Submits submission submitted after) :
      Updates before (.operation (.add (.buildset submission now))) [.buildset submission now] after
  | change {stampId} (change : Change)
      (known : before.sourceStamps.contains stampId = true) :
      Updates before (.operation (.add (.change stampId change))) [.change stampId change]
        { before with
          changes := before.changes.insert stampId (before.changesOf stampId ++ [change]) }
  | refused {update} : Updates before update [] before
  | call (now : Timestamp) (call : Call) :
      Updates before (.operation (.call now call)) [] (before.perform now call).2
  | insert (request : Request) :
      Updates before (.insert request) [] (before.insertRequest request)

/-- Each update does one of these things. -/
theorem updates (store : Store) (update : Update) :
    store.Updates update (store.taken update) (store.updated update) := by
  cases update with
  | insert request => exact .insert request
  | operation operation =>
      cases operation with
      | call now call => exact .call now call
      | add addition =>
          cases addition with
          | builder builder => exact .builder builder
          | buildset submission now =>
              cases outcome : store.addBuildset submission now with
              | error error =>
                  simp only [taken, accepts, updated, apply, add, outcome]
                  exact .refused
              | ok result =>
                  simp only [taken, accepts, updated, apply, add, outcome]
                  exact .buildset now (submits outcome)
          | change stampId change =>
              by_cases known : store.sourceStamps.contains stampId = true
              · simp only [taken, accepts, updated, apply, add, addChange, if_pos known]
                exact .change change known
              · simp only [taken, accepts, updated, apply, add, addChange, if_neg known]
                exact .refused

/-- A request of a store after a row was put in is this row, or was there before. -/
theorem insertRequest_cases
    {store : Store}
    {row request : Request}
    {id : RequestId}
    (found : (store.insertRequest row).requests.get? id = some request) :
    (request = row ∧ id = row.id) ∨ store.requests.get? id = some request := by
  rw [insertRequest, SortedMap.get?_insert] at found
  split at found
  · next same =>
    cases found
    exact .inl ⟨rfl, Std.LawfulEqCmp.eq_of_compare same⟩
  · exact .inr found

end Store
end BuildQueue
