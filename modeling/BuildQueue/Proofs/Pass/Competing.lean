import BuildQueue.Proofs.Pass.Screening
import BuildQueue.Proofs.Store.Ledger

/-!
# Passes in competition

Several passes that act at the same time see different requests pending, since each hides from the
others what it has claimed. If claiming and skipping is all that anybody does, a pass still skips
what it finds, no failure of its own apart, and whatever it does not find was taken by another one:
when it returns, nothing that its new requests retire is pending.
-/

namespace BuildQueue

/-- The calls that an effect makes itself. The calls by which a view is loaded are those of the
cache. -/
def Effect.exchanges : (effect : Effect) → effect.Reply → List Exchange
  | .act action, reply => action.exchanges reply
  | .view _, _ => []

/-- A store as a pass has left it with its last call, and the marks of the pass. -/
structure Stand where
  store : Store
  marks : Marks

/-- How a pass is served among others that claim and skip. It has to claim and skip as well, one
request at a time. -/
def competing (base : Store) : Contract Effect.Reply Stand where
  asks
    | .act (.call _ call), stand => stand.marks.Permits call
    | .act (.direct _), _ => False
    | .act _, _ => True
    | .view id, _ => ∃ request, base.requests.get? id = some request
  gives effect before reply after :=
    ∃ during, before.marks.Rely before.store during ∧
      effect.Answers base False during reply after.store ∧
      after.marks = (effect.exchanges reply).foldl Marks.after before.marks

/-- What holds when a pass has returned some requests: these are the ones that it has skipped, and
nothing is pending that its new requests retire. -/
structure Collapsed
    (base : Store)
    (policy : Policy Strategy)
    (newIds ids : List RequestId)
    (stand : Stand) : Prop where
  marks : stand.marks = ⟨none, ids⟩
  ascending : ids.Pairwise (· < ·)
  retired : ∀ {old}, old ∈ ids → ∃ new ∈ newIds, base.Retires policy new old
  exhausted : ∀ {new old}, new ∈ newIds → base.Retires policy new old →
    stand.store.claimable old = false

namespace Marks

variable {marks : Marks} {before after : Store}

/-- A pass that holds nothing relies on less. -/
theorem Rely.weaken (rely : marks.Rely before after) : clean.Rely before after :=
  ⟨rely.alike, rely.taken, fun impossible => by cases impossible⟩

/-- Whoever holds nothing may rely on what others do. -/
theorem rely_clean (base : Store) : BuildQueue.Rely base clean.Rely where
  refl store := .refl clean store
  trans earlier later := earlier.trans later
  alike rely alike := rely.alike.trans alike

theorem permits_of_read
    {call : Call}
    (reads : call.method.isWrite = false) :
    marks.Permits call := by
  cases call <;> trivial

theorem after_of_read
    {call : Call}
    (reads : call.method.isWrite = false)
    (reply : call.Reply) :
    marks.after ⟨call, reply⟩ = marks := by
  cases call <;> first | rfl | cases reads

end Marks

namespace Store

variable {before after : Store} {id : RequestId} {time : Timestamp}

/-- A change of some rows after which they cannot be claimed. -/
theorem rely_updateRequests
    (before : Store)
    (ids : List RequestId)
    (change : Request → Request)
    (kept : ∀ request, (change request).asSubmitted = request.asSubmitted)
    (closes : ∀ request, (change request).isPending = false) :
    Marks.clean.Rely before (before.updateRequests ids change) ∧
      ∀ id ∈ ids, (before.updateRequests ids change).claimable id = false := by
  have closed : ∀ {id}, before.claimable id = false ∨ id ∈ ids →
      (before.updateRequests ids change).claimable id = false := by
    intro id taken
    unfold claimable at taken ⊢
    rw [get?_updateRequests]
    cases found : before.requests.get? id with
    | none => rfl
    | some request =>
        rw [found] at taken
        by_cases listed : id ∈ ids
        · simp [listed, closes]
        · simpa [listed] using taken
  exact ⟨⟨asSubmitted_updateRequests before ids change kept, fun taken => closed (.inl taken),
    fun impossible => by cases impossible⟩, fun id listed => closed (.inr listed)⟩

/-- A claim of one request is won if the request is pending. -/
theorem Answers.claim_cases
    {reply : Except Failure Bool}
    (answered : before.Answers False (.claim [id] (some time)) reply after) :
    (reply = .ok true ∧ before.claimable id = true ∧
      after = before.updateRequests [id] (·.claim time)) ∨
    (reply = .ok false ∧ before.claimable id = false ∧ after = before) := by
  obtain ⟨now, rfl, rfl⟩ | ⟨impossible, -⟩ := answered
  · rw [Store.reply, perform_claim]
    cases pending : before.claimable id with
    | true =>
        rw [if_pos (by simp [pending])]
        exact .inl ⟨rfl, rfl, rfl⟩
    | false =>
        rw [if_neg (by simp [pending])]
        exact .inr ⟨rfl, rfl, rfl⟩
  · exact impossible.elim

/-- The completion of a request that is claimed and not complete is accepted. -/
theorem Answers.complete_of_held
    {outcome : Outcome}
    {reply : Except Failure Unit}
    (answered : before.Answers False (.complete [id] outcome (some time)) reply after)
    (held : ∃ request, before.requests.get? id = some request ∧ request.claimed = true ∧
      request.complete = false) :
    reply = .ok () ∧ after = before.updateRequests [id] (·.finish outcome time) := by
  have completable : [id].forM before.checkCompletable = .ok () :=
    forM_checkCompletable_eq_ok_iff.2 fun other listed => List.mem_singleton.1 listed ▸ held
  obtain ⟨now, rfl, rfl⟩ | ⟨impossible, -⟩ := answered
  · rw [Store.reply, perform_complete_of_ok now outcome (some time) completable]
    exact ⟨rfl, rfl⟩
  · exact impossible.elim

end Store

/-- What a pass is allowed to do changes the ledger by at most a mark of its own, and the other
passes may rely on what they are promised. -/
theorem Ledger.act
    {ι : Type}
    {ledger : Ledger ι}
    {base seen after : Store}
    {who : ι}
    {marks : Marks}
    {action : Action}
    {reply : action.Reply}
    (valid : ledger.Valid base)
    (agrees : ledger.Agrees who marks)
    (asked : (competing base).asks (.act action) ⟨seen, marks⟩)
    (answered : action.Answers False (base.marked ledger) reply after) :
    ∃ next : Ledger ι, after = base.marked next ∧ next.Valid base ∧
      next.Agrees who ((action.exchanges reply).foldl Marks.after marks) ∧
      ∀ other otherMarks, other ≠ who → ledger.Agrees other otherMarks →
        next.Agrees other otherMarks ∧ otherMarks.Rely (base.marked ledger) after := by
  have still : after = base.marked ledger →
      ∃ next : Ledger ι, after = base.marked next ∧ next.Valid base ∧ next.Agrees who marks ∧
        ∀ other otherMarks, other ≠ who → ledger.Agrees other otherMarks →
          next.Agrees other otherMarks ∧ otherMarks.Rely (base.marked ledger) after := by
    rintro rfl
    exact ⟨ledger, rfl, valid, agrees, fun other otherMarks _ otherAgrees =>
      ⟨otherAgrees, .refl otherMarks _⟩⟩
  cases action with
  | call account call => exact answer valid agrees asked answered
  | direct call => cases asked
  | time => exact still answered
  | count counter => exact still answered
  | log level message => exact still answered

section Family

variable {ι : Type} {ledger : Ledger ι} {base store : Store} {policy : Policy Strategy}
  {marks : ι → Marks} {newIds ids : ι → List RequestId}

/-- What others do does not undo what a pass has done. -/
theorem Collapsed.of_rely
    {newIds ids : List RequestId}
    {stand : Stand}
    (collapsed : Collapsed base policy newIds ids stand)
    (rely : stand.marks.Rely stand.store store) :
    Collapsed base policy newIds ids ⟨store, stand.marks⟩ where
  marks := collapsed.marks
  ascending := collapsed.ascending
  retired := collapsed.retired
  exhausted listed retires := rely.taken (collapsed.exhausted listed retires)

/-- A pass that has returned holds nothing. -/
theorem Collapsed.not_held
    (agrees : ∀ who, ledger.Agrees who (marks who))
    (collapsed : ∀ who, Collapsed base policy (newIds who) (ids who) ⟨store, marks who⟩)
    (id : RequestId)
    (who : ι)
    (time : Timestamp) :
    ledger id ≠ some (who, .held time) := by
  intro marked
  have held : (marks who).held = none := congrArg Marks.held (collapsed who).marks
  have impossible := (agrees who).held.1 marked
  rw [held] at impossible
  cases impossible

/-- If all passes have returned, each marked request was returned by the pass that has marked it. -/
theorem Collapsed.ledger_eq_some_iff
    (agrees : ∀ who, ledger.Agrees who (marks who))
    (collapsed : ∀ who, Collapsed base policy (newIds who) (ids who) ⟨store, marks who⟩)
    {who : ι}
    {id : RequestId} :
    (∃ mark, ledger id = some (who, mark)) ↔ id ∈ ids who := by
  have skipped : (marks who).skipped = ids who := congrArg Marks.skipped (collapsed who).marks
  rw [← skipped, ← (agrees who).skipped]
  constructor
  · rintro ⟨mark, marked⟩
    cases mark with
    | held time => exact absurd marked (not_held agrees collapsed id who time)
    | skipped time => exact ⟨time, marked⟩
  · rintro ⟨time, marked⟩
    exact ⟨_, marked⟩

/-- If all passes have returned, what is not marked is what none of them has returned. -/
theorem Collapsed.ledger_eq_none_iff
    (agrees : ∀ who, ledger.Agrees who (marks who))
    (collapsed : ∀ who, Collapsed base policy (newIds who) (ids who) ⟨store, marks who⟩)
    {id : RequestId} :
    ledger id = none ↔ ¬ ∃ who, id ∈ ids who := by
  constructor
  · rintro unmarked ⟨who, listed⟩
    obtain ⟨mark, marked⟩ := (ledger_eq_some_iff agrees collapsed).2 listed
    rw [unmarked] at marked
    cases marked
  · intro unlisted
    cases marked : ledger id with
    | none => rfl
    | some entry =>
        exact absurd ⟨entry.1, (ledger_eq_some_iff agrees collapsed).1 ⟨entry.2, marked⟩⟩ unlisted

/-- If all passes have returned, they have returned together what was pending and is retired by one
of their new requests. -/
theorem Collapsed.mem_iff
    (valid : ledger.Valid base)
    (agrees : ∀ who, ledger.Agrees who (marks who))
    (collapsed : ∀ who,
      Collapsed base policy (newIds who) (ids who) ⟨base.marked ledger, marks who⟩)
    {id : RequestId} :
    (∃ who, id ∈ ids who) ↔
      base.claimable id = true ∧ ∃ who, ∃ new ∈ newIds who, base.Retires policy new id := by
  constructor
  · rintro ⟨who, listed⟩
    obtain ⟨mark, marked⟩ := (ledger_eq_some_iff agrees collapsed).2 listed
    exact ⟨valid id (marked ▸ Option.some_ne_none _), who, (collapsed who).retired listed⟩
  · rintro ⟨pending, who, new, listed, retires⟩
    have taken : (base.marked ledger).claimable id = false :=
      (collapsed who).exhausted listed retires
    by_contra unlisted
    have unmarked := (ledger_eq_none_iff agrees collapsed).2 unlisted
    rw [Store.claimable_marked_iff.2 ⟨pending, unmarked⟩] at taken
    cases taken

end Family

namespace Pass

open Script (Ensures)

variable {base store : Store} {policy : Policy Strategy}

/-- What a pass reads among others that only claim and skip. -/
theorem ensures_competing_of_reading
    {α : Type}
    {post : Except Failure α → Store → Prop}
    {pass : Pass α}
    (ensured : Ensures (reading base False Marks.clean.Rely) post pass.run store) :
    Ensures (competing base)
      (fun result after => after.marks = .clean ∧ post result after.store)
      pass.run ⟨store, .clean⟩ := by
  refine (Ensures.refine (fun stand store => stand.store = store ∧ stand.marks = .clean)
    ?asks ?gives ensured ⟨rfl, rfl⟩).mono fun result after ⟨_, ⟨same, clean⟩, holds⟩ =>
      ⟨clean, same ▸ holds⟩
  case asks =>
    rintro effect stand store ⟨rfl, clean⟩ reads
    cases effect with
    | view id => exact reads
    | act action =>
        cases action with
        | call account call => exact Marks.permits_of_read reads
        | direct call => cases reads
        | _ => trivial
  case gives =>
    rintro effect stand store reply after ⟨rfl, clean⟩ reads ⟨during, interference, answered, marks⟩
    rw [clean] at interference
    refine ⟨after.store, ⟨during, interference, answered⟩, rfl, ?_⟩
    rw [marks, clean]
    cases effect with
    | view id => rfl
    | act action =>
        cases action with
        | call account call => exact Marks.after_of_read reads reply
        | direct call => cases reads
        | _ => rfl

/-- What the others cannot falsify is kept by quiet actions. -/
theorem quiet_competing
    {condition : Stand → Prop}
    (stable : ∀ {stand during}, condition stand → stand.marks.Rely stand.store during →
      condition ⟨during, stand.marks⟩) :
    Quiet (competing base) condition := by
  intro action quiet stand holds
  -- A quiet action leaves the store and the marks as they are.
  have still : ∀ {during : Store} {after : Stand}, stand.marks.Rely stand.store during →
      after.store = during → after.marks = stand.marks → condition after := by
    rintro during ⟨store, marks⟩ interference rfl rfl
    exact stable holds interference
  cases action with
  | call account call => cases quiet
  | direct call => cases quiet
  | time => exact ⟨trivial, fun _ _ ⟨_, interference, same, marks⟩ => still interference same marks⟩
  | count counter =>
      exact ⟨trivial, fun _ _ ⟨_, interference, same, marks⟩ => still interference same marks⟩
  | log level message =>
      exact ⟨trivial, fun _ _ ⟨_, interference, same, marks⟩ => still interference same marks⟩

/-- Skipping does not fail. Afterwards the request is not pending, whoever has claimed it. -/
theorem claimAndSkip_ensures_competing
    (id : RequestId)
    (skipped : List RequestId) :
    Ensures (competing base)
      (OnResult
        (fun verdict after => Marks.clean.Rely store after.store ∧
          after.store.claimable id = false ∧
          after.marks = ⟨none, if verdict then skipped ++ [id] else skipped⟩)
        fun _ _ => False)
      (claimAndSkip id).run ⟨store, ⟨none, skipped⟩⟩ := by
  have ready : Quiet (competing base) fun stand =>
      Marks.clean.Rely store stand.store ∧ stand.marks = ⟨none, skipped⟩ :=
    quiet_competing fun holds interference => ⟨holds.1.trans interference.weaken, holds.2⟩
  have taken : ∀ marks, Quiet (competing base) fun stand =>
      Marks.clean.Rely store stand.store ∧ stand.store.claimable id = false ∧
        stand.marks = marks := fun marks =>
    quiet_competing fun holds interference =>
      ⟨holds.1.trans interference.weaken, interference.taken holds.2.1, holds.2.2⟩
  have never : Quiet (competing base) fun _ => False := quiet_competing fun holds _ => holds
  refine (ensures_claimAndSkip
    (fun now stand => Marks.clean.Rely store stand.store ∧
      stand.marks = ⟨some (id, now), skipped⟩ ∧
      ∃ request, stand.store.requests.get? id = some request ∧ request.claimed = true ∧
        request.complete = false)
    (fun _ _ => False) ready (taken ⟨none, skipped⟩) (taken ⟨none, skipped ++ [id]⟩)
    (fun _ => never) ?claims ?completes (fun _ _ broken => broken.elim)
    (fun _ _ released => released) ⟨.refl _ _, rfl⟩).mono fun result after ensured => ?_
  case claims =>
    rintro now stand ⟨progress, marks⟩
    refine ⟨⟨by rw [marks], id, now, rfl, rfl⟩, ?_⟩
    rintro reply after ⟨during, interference, answered, marksAfter⟩
    have before := progress.trans interference.weaken
    rcases Store.Answers.claim_cases answered with ⟨rfl, pending, claimed⟩ | ⟨rfl, lost, same⟩
    · obtain ⟨request, found, waiting⟩ := Store.claimable_iff.1 pending
      have incomplete : request.complete = false := by
        rw [Request.isPending, Bool.and_eq_true, Bool.not_eq_true'] at waiting
        simpa using waiting.2
      refine ⟨?_, ?_, request.claim now, ?_, rfl, incomplete⟩
      · rw [claimed]
        exact before.trans
          (Store.rely_updateRequests during [id] (·.claim now) (fun _ => rfl) fun _ => rfl).1
      · rw [marksAfter, marks]
        rfl
      · rw [claimed, Store.get?_updateRequests_eq_some found, if_pos List.mem_cons_self]
    · rw [onResult_ok, if_neg Bool.false_ne_true, same, marksAfter, marks]
      exact ⟨before, lost, rfl⟩
  case completes =>
    rintro now stand ⟨progress, marks, request, found, claimed, incomplete⟩
    refine ⟨⟨rfl, id, now, by rw [marks], rfl, rfl⟩, ?_⟩
    rintro reply after ⟨during, interference, answered, marksAfter⟩
    rw [← interference.held (by rw [marks])] at found
    obtain ⟨rfl, completed⟩ :=
      Store.Answers.complete_of_held answered ⟨request, found, claimed, incomplete⟩
    obtain ⟨closes, closed⟩ := Store.rely_updateRequests during [id] (·.finish .skipped now)
      (fun _ => rfl) fun request => by simp [Request.isPending, Request.finish]
    rw [onResult_ok, completed, marksAfter, marks]
    exact ⟨(progress.trans interference.weaken).trans closes, closed id List.mem_cons_self, rfl⟩
  cases result with
  | error failure => exact ensured
  | ok verdict => cases verdict <;> exact ensured

/-- Finding among others that only claim and skip: what the new requests retire is found, or it is
not pending any more. -/
theorem find_ensures_competing
    (wellformed : base.Wellformed)
    (alike : store.asSubmitted = base.asSubmitted)
    (standard : policy.IsStandard)
    (newIds : List RequestId) :
    Ensures (competing base)
      (OnResult
        (fun found after => after.marks = .clean ∧
          (∀ old ∈ found.flatten, ∃ new ∈ newIds, base.Retires policy new old) ∧
          ∀ new ∈ newIds, ∀ old, base.Retires policy new old →
            old ∈ found.flatten ∨ after.store.claimable old = false)
        fun _ _ => ∃ new ∈ newIds, Excused base False new)
      (newIds.mapM (findRedundant policy)).run ⟨store, .clean⟩ := by
  -- What the handled new requests retire was found, or it is not pending any more.
  refine (Ensures.run_mapM
    (fun found rest stand => stand.marks = .clean ∧
      stand.store.asSubmitted = base.asSubmitted ∧
      (∀ old ∈ found.flatten, ∃ new ∈ newIds, base.Retires policy new old) ∧
      ∃ handled, newIds = handled ++ rest ∧
        ∀ new ∈ handled, ∀ old, base.Retires policy new old →
          old ∈ found.flatten ∨ stand.store.claimable old = false)
    (fun _ _ => ∃ new ∈ newIds, Excused base False new) ?_
    ⟨rfl, alike, fun _ listed => absurd listed List.not_mem_nil, [], rfl,
      fun _ listed => absurd listed List.not_mem_nil⟩).mono fun result after ensured => ?_
  · rintro found new rest ⟨seen, _⟩ ⟨rfl, seenAlike, retired, handled, split, covered⟩
    have listed : new ∈ newIds := by
      rw [split]
      exact List.mem_append_right handled List.mem_cons_self
    refine (ensures_competing_of_reading (findRedundant_ensures wellformed
      (Marks.rely_clean base) seenAlike standard new)).mono fun result after ensured => ?_
    obtain ⟨clean, ensured⟩ := ensured
    cases result with
    | error failure => exact ⟨new, listed, ensured.excused⟩
    | ok more =>
        obtain ⟨during, before, later, exactly⟩ := ensured
        have flat : ∀ old, old ∈ (found ++ [more]).flatten ↔ old ∈ found.flatten ∨ old ∈ more := by
          simp
        refine ⟨clean, (before.trans later).alike.trans seenAlike, fun old member => ?_,
          handled ++ [new], by rw [split, List.append_cons], fun other member old retires => ?_⟩
        · rcases (flat old).1 member with earlier | last
          · exact retired old earlier
          · exact ⟨new, listed, ((exactly old).1 last).1⟩
        · rw [flat]
          rcases List.mem_append.1 member with earlier | last
          · rcases covered other earlier old retires with there | taken
            · exact .inl (.inl there)
            · exact .inr ((before.trans later).taken taken)
          · obtain rfl := List.mem_singleton.1 last
            cases pending : during.claimable old with
            | true => exact .inl (.inr ((exactly old).2 ⟨retires, pending⟩))
            | false => exact .inr (later.taken pending)
  · cases result with
    | error failure => exact ensured
    | ok found =>
        obtain ⟨clean, -, retired, handled, split, covered⟩ := ensured
        rw [List.append_nil] at split
        subst split
        exact ⟨clean, retired, covered⟩

/-- A pass among others that only claim and skip returns what it has skipped, and then nothing is
pending that its new requests retire. -/
theorem collapse_ensures_competing
    (wellformed : base.Wellformed)
    (alike : store.asSubmitted = base.asSubmitted)
    (standard : policy.IsStandard)
    (newIds : List RequestId) :
    Ensures (competing base)
      (OnResult (Collapsed base policy newIds) fun _ _ => ∃ new ∈ newIds, Excused base False new)
      (collapse policy newIds).run ⟨store, .clean⟩ := by
  unfold collapse
  refine Ensures.run_bind ((find_ensures_competing wellformed alike standard newIds).mono
    fun result after ensured => ?_)
  cases result with
  | error failure => exact ensured
  | ok found =>
  obtain ⟨seen, marks⟩ := after
  obtain ⟨clean, retired, covered⟩ := ensured
  have listed : ∀ {old}, old ∈ ascending found.flatten ↔ old ∈ found.flatten := mem_ascending_iff
  -- What the new requests retire is left to be skipped, or it is not pending any more.
  refine (ensures_select
    (fun chosen rest stand => stand.marks = ⟨none, chosen⟩ ∧
      (chosen ++ rest).Pairwise (· < ·) ∧
      (∀ old ∈ chosen ++ rest, ∃ new ∈ newIds, base.Retires policy new old) ∧
      ∀ new ∈ newIds, ∀ old, base.Retires policy new old →
        old ∈ rest ∨ stand.store.claimable old = false)
    (fun _ _ => ∃ new ∈ newIds, Excused base False new) ?_
    ⟨clean, pairwise_ascending _, fun old member => retired old (listed.1 member),
      fun new newListed old retires =>
        (covered new newListed old retires).imp_left listed.2⟩).mono fun result after ensured => ?_
  · rintro chosen id rest ⟨before, _⟩ ⟨rfl, ascending, known, left⟩
    refine (claimAndSkip_ensures_competing id chosen).mono fun result after ensured => ?_
    cases result with
    | error failure => exact ensured.elim
    | ok verdict =>
        obtain ⟨progress, taken, marks⟩ := ensured
        have kept : ((if verdict then chosen ++ [id] else chosen) ++ rest).Sublist
            (chosen ++ id :: rest) := by
          cases verdict <;> simp
        refine ⟨marks, ascending.sublist kept, fun old member => known old (kept.subset member),
          fun new newListed old retires => ?_⟩
        rcases left new newListed old retires with there | gone
        · rcases List.mem_cons.1 there with rfl | later
          · exact .inr taken
          · exact .inl later
        · exact .inr (progress.taken gone)
  · cases result with
    | error failure => exact ensured
    | ok ids =>
        obtain ⟨marks, ascending, known, left⟩ := ensured
        rw [List.append_nil] at ascending known
        refine ⟨marks, ascending, fun {old} member => known old member,
          fun {new old} newListed retires => ?_⟩
        exact (left new newListed old retires).resolve_left List.not_mem_nil

end Pass
end BuildQueue
