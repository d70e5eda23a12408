import BuildQueue.Proofs.Pass.Alone
import BuildQueue.Proofs.Sample
import BuildQueue.Proofs.System.Progress

/-!
# Passes among themselves

Passes that are the only clients of a store come to one result, however they are interleaved: they
all return, no request is returned twice, and what they have returned together is what one pass
would have returned for all of their new requests. A request that one of them does not find pending
is marked by the pass that hides it, so the ledger of all passes accounts for every candidate.
-/

namespace BuildQueue

/-- Whether the turn is one of the passes among themselves: nobody else calls the store or adds to
it, and no call meets a fault. -/
def Turn.IsOwn {ι κ : Type} (turn : Turn ι κ) : Prop :=
  ¬ turn.IsFaulty ∧ ¬ turn.IsSubmission ∧ ¬ turn.IsForeign

namespace System

open Script (Ensures)

variable {ι κ : Type} {base : Store} {policy : Policy Strategy} {newIds : ι → List RequestId}

/-- The store is as the ledger of the passes says, and each pass is going to return what it will
have skipped. -/
structure Competes
    (base : Store)
    (policy : Policy Strategy)
    (newIds : ι → List RequestId)
    (ledger : Ledger ι)
    (system : System ι κ) : Prop where
  store : system.site.store = base.marked ledger
  valid : ledger.Valid base
  views : ViewsSound base False system
  passes : ∀ who, ∃ seen marks, ledger.Agrees who marks ∧ marks.Rely seen system.site.store ∧
    Ensures (competing base)
      (OnResult (Collapsed base policy (newIds who))
        fun _ _ => ∃ new ∈ newIds who, Excused base False new)
      (system.passes who).rest ⟨seen, marks⟩

theorem competes_start
    {site : Site}
    (wellformed : site.store.Wellformed)
    {caches : κ → ViewCache}
    (sound : ∀ cache, (caches cache).Sound site.store False)
    (cacheOf : ι → κ)
    (standard : policy.IsStandard) :
    Competes site.store policy newIds .blank
      (start site caches fun who => ⟨cacheOf who, policy, newIds who⟩) where
  store := (Store.marked_blank _).symm
  valid := Ledger.valid_blank
  views := viewsSound_start site sound _
  passes who := ⟨site.store, .clean, Ledger.agrees_blank who, .refl _ _,
    Pass.collapse_ensures_competing wellformed rfl standard (newIds who)⟩

variable [DecidableEq ι] [DecidableEq κ] {ledger : Ledger ι} {system : System ι κ}

/-- A turn of the passes among themselves changes the ledger by at most a mark of a pass that
acts. -/
theorem Competes.step
    (competes : Competes base policy newIds ledger system)
    {turn : Turn ι κ}
    (own : turn.IsOwn) :
    ∃ next, Competes base policy newIds next (system.step turn) := by
  obtain ⟨faultless, quiet, domestic⟩ := own
  have alike : system.site.store.asSubmitted = base.asSubmitted := by
    rw [competes.store, Store.asSubmitted_marked]
  have views : ViewsSound base False (system.step turn) := competes.views.step alike faultless
  have moves := moves_step system turn
  generalize system.step turn = after at views moves
  -- A pass that has not gone on relies on what the others have done.
  have still : ∀ who, (after.passes who).rest = (system.passes who).rest →
      after.site.store = system.site.store →
      ∃ seen marks, ledger.Agrees who marks ∧ marks.Rely seen after.site.store ∧
        Ensures (competing base)
          (OnResult (Collapsed base policy (newIds who))
            fun _ _ => ∃ new ∈ newIds who, Excused base False new)
          (after.passes who).rest ⟨seen, marks⟩ := by
    intro who rest store
    rw [rest, store]
    exact competes.passes who
  cases moves with
  | quiet store history rest =>
      exact ⟨ledger, store.trans competes.store, competes.valid, views,
        fun who => still who (rest who) store⟩
  | acted who fault action next reply asked answered history rest others =>
      obtain ⟨seen, marks, agrees, rely, ensured⟩ := competes.passes who
      rw [asked] at ensured
      have answered := answered.mono faultless
      have kept := answered
      rw [competes.store] at kept
      obtain ⟨ledgerAfter, store, valid, agreesAfter, elsewhere⟩ :=
        Ledger.act competes.valid agrees ensured.1 kept
      refine ⟨ledgerAfter, store, valid, views, fun other => ?_⟩
      by_cases same : other = who
      · subst same
        rw [rest]
        exact ⟨after.site.store, _, agreesAfter, .refl _ _,
          ensured.2 reply ⟨after.site.store, _⟩ ⟨system.site.store, rely, answered, rfl⟩⟩
      · obtain ⟨otherSeen, otherMarks, otherAgrees, otherRely, otherEnsured⟩ :=
          competes.passes other
        obtain ⟨kept, later⟩ := elsewhere other otherMarks same otherAgrees
        rw [← competes.store] at later
        rw [others other same]
        exact ⟨otherSeen, otherMarks, kept, otherRely.trans later, otherEnsured⟩
  | viewed who fault id next result asked polled store history rest others =>
      refine ⟨ledger, store.trans competes.store, competes.valid, views, fun other => ?_⟩
      by_cases same : other = who
      · subst same
        obtain ⟨seen, marks, agrees, rely, ensured⟩ := competes.passes other
        rw [asked] at ensured
        have honest := competes.views.honest asked polled
        rw [rest, store]
        exact ⟨system.site.store, marks, agrees, .refl _ _,
          ensured.2 result ⟨system.site.store, marks⟩
            ⟨system.site.store, rely, ⟨honest, rfl⟩, rfl⟩⟩
      · exact still other (others other same) store
  | loaded client cache generation call next reply asked answered history rest =>
      have reads := (competes.views.caches cache).asks asked
      have store : after.site.store = system.site.store := by
        obtain ⟨now, -, same⟩ | ⟨impossible, -⟩ := answered
        · rw [same]
          exact Store.perform_of_read system.site.store now reads
        · exact absurd impossible faultless
      exact ⟨ledger, store.trans competes.store, competes.valid, views,
        fun who => still who (rest who) store⟩
  | called call reply answered history rest => exact absurd trivial domestic
  | submitted addition => exact absurd trivial quiet

/-- The ledger accounts for what the passes do all along a schedule. -/
theorem Competes.follow
    (competes : Competes base policy newIds ledger system)
    {turns : Nat → Turn ι κ}
    (own : ∀ n, (turns n).IsOwn)
    (n : Nat) :
    ∃ later, Competes base policy newIds later (system.follow turns n) :=
  follow_induction (fun system => ∃ later, Competes base policy newIds later system)
    ⟨ledger, competes⟩ (fun _ n ⟨_, before⟩ => before.step (own n)) n

omit [DecidableEq ι] [DecidableEq κ] in
/-- A pass asks only for views of requests that are there. -/
theorem Competes.asks_view
    (competes : Competes base policy newIds ledger system)
    {who : ι}
    {id : RequestId}
    {next : Except Failure View → Script Effect.Reply (Except Failure (List RequestId))}
    (asked : (system.passes who).rest = .ask (.view id) next) :
    ∃ request, base.requests.get? id = some request := by
  obtain ⟨seen, marks, -, -, ensured⟩ := competes.passes who
  rw [asked] at ensured
  exact ensured.1

omit [DecidableEq ι] [DecidableEq κ] in
/-- What a pass has returned. -/
theorem Competes.returned
    (competes : Competes base policy newIds ledger system)
    {who : ι}
    {result : Except Failure (List RequestId)}
    (returned : (system.passes who).result? = some result) :
    ∃ marks, ledger.Agrees who marks ∧
      OnResult (Collapsed base policy (newIds who))
        (fun _ _ => ∃ new ∈ newIds who, Excused base False new) result
        ⟨system.site.store, marks⟩ := by
  obtain ⟨seen, marks, agrees, rely, ensured⟩ := competes.passes who
  rw [Running.result?_eq_some_iff.1 returned] at ensured
  refine ⟨marks, agrees, ?_⟩
  cases result with
  | error failure => exact ensured
  | ok ids => exact Collapsed.of_rely ensured rely

omit [DecidableEq ι] [DecidableEq κ] in
/-- When all passes have returned, each of them has skipped what it was to skip. -/
theorem Competes.collapsed
    (competes : Competes base policy newIds ledger system)
    {ids : ι → List RequestId}
    (returned : ∀ who, (system.passes who).result? = some (.ok (ids who))) :
    ∃ marks : ι → Marks, (∀ who, ledger.Agrees who (marks who)) ∧
      ∀ who, Collapsed base policy (newIds who) (ids who) ⟨base.marked ledger, marks who⟩ := by
  choose marks agrees collapsed using fun who => competes.returned (returned who)
  simp only [onResult_ok, competes.store] at collapsed
  exact ⟨marks, agrees, collapsed⟩

omit [DecidableEq ι] [DecidableEq κ] in
/-- No request is returned twice. -/
theorem Competes.disjoint
    (competes : Competes base policy newIds ledger system)
    {ids : ι → List RequestId}
    (returned : ∀ who, (system.passes who).result? = some (.ok (ids who)))
    {who other : ι}
    (different : who ≠ other) :
    (ids who).Disjoint (ids other) := by
  obtain ⟨marks, agrees, collapsed⟩ := competes.collapsed returned
  intro id listed otherListed
  obtain ⟨mark, marked⟩ := (Collapsed.ledger_eq_some_iff agrees collapsed).2 listed
  obtain ⟨otherMark, otherMarked⟩ :=
    (Collapsed.ledger_eq_some_iff agrees collapsed).2 otherListed
  rw [marked] at otherMarked
  exact different (congrArg Prod.fst (Option.some.inj otherMarked))

omit [DecidableEq ι] [DecidableEq κ] in
/-- The passes return together what a pass alone returns for the new requests of all, and leave the
same store but for the times. -/
theorem Competes.agree
    (competes : Competes base policy newIds ledger system)
    {ids : ι → List RequestId}
    (returned : ∀ who, (system.passes who).result? = some (.ok (ids who)))
    {allIds together : List RequestId}
    (everyone : ∀ {new}, new ∈ allIds ↔ ∃ who, new ∈ newIds who)
    {after : Store}
    (skipped : Skipped base policy allIds together after) :
    (∀ id, (∃ who, id ∈ ids who) ↔ id ∈ together) ∧
      system.site.store.untimed = after.untimed := by
  obtain ⟨marks, agrees, collapsed⟩ := competes.collapsed returned
  have agreeIds : ∀ id, (∃ who, id ∈ ids who) ↔ id ∈ together := by
    intro id
    rw [Collapsed.mem_iff competes.valid agrees collapsed, skipped.mem_iff]
    refine and_congr_right fun _ => ?_
    constructor
    · rintro ⟨who, new, listed, retires⟩
      exact ⟨new, everyone.2 ⟨who, listed⟩, retires⟩
    · rintro ⟨new, listed, retires⟩
      obtain ⟨who, listed⟩ := everyone.1 listed
      exact ⟨who, new, listed, retires⟩
  refine ⟨agreeIds, ?_⟩
  obtain ⟨times, aloneStore⟩ := skipped.store
  rw [competes.store, aloneStore, ← Store.marked_skipping]
  refine Store.untimed_marked_eq (Collapsed.not_held agrees collapsed)
    (Ledger.skipping_ne_held together times) fun id => ?_
  rw [Collapsed.ledger_eq_none_iff agrees collapsed, Ledger.skipping_eq_none_iff, agreeIds]

/-- Passes of one policy that are the only clients of a store and whose views can all be assembled
are confluent. Whatever the schedule, none of them fails; if each of them takes steps again and
again, all of them return; and when all have returned, no request was returned twice, and the
requests that were returned and the store are those that one pass alone gives for the new requests
of all, up to the times in the store. -/
theorem passes_confluent
    {count : Nat}
    {firstRequest : RequestId}
    {operations : List Operation}
    {site : Site}
    (reached : site.store = .reached firstRequest operations)
    (assembles : site.store.Assembles)
    (limits : κ → CacheLimits)
    (cacheOf : Fin count → κ)
    {policy : Policy Strategy}
    (standard : policy.IsStandard)
    {newIds : Fin count → List RequestId}
    (known : ∀ who, ∀ new ∈ newIds who, site.store.requests.contains new = true)
    {turns : Nat → Turn (Fin count) κ}
    (own : ∀ n, (turns n).IsOwn)
    {world : World}
    (same : world.store = site.store)
    (clear : world.IsClear)
    (empty : world.views.entries = []) :
    let before := start site (fun cache => .empty (limits cache)) fun who =>
      ⟨cacheOf who, policy, newIds who⟩
    let alone := world.run (Pass.collapse policy (List.ofFn newIds).flatten)
    (∀ n who result, ((before.follow turns n).passes who).result? = some result →
      ∃ ids, result = .ok ids) ∧
    ((∀ who, Recurs turns who) →
      ∃ n, ∀ who, ((before.follow turns n).passes who).result? ≠ none) ∧
    ∃ together, alone.1 = .ok together ∧
      ∀ n (ids : Fin count → List RequestId),
        (∀ who, ((before.follow turns n).passes who).result? = some (.ok (ids who))) →
        (∀ who other, who ≠ other → (ids who).Disjoint (ids other)) ∧
        (∀ id, (∃ who, id ∈ ids who) ↔ id ∈ together) ∧
        (before.follow turns n).site.store.untimed = alone.2.store.untimed := by
  intro before alone
  have wellformed : site.store.Wellformed := reached ▸ .reached firstRequest operations
  have competes : ∀ n, ∃ ledger,
      Competes site.store policy newIds ledger (before.follow turns n) :=
    Competes.follow (competes_start wellformed
      (fun cache => ViewCache.sound_empty (limits cache)) cacheOf standard) own
  have unexcused : ∀ {new who}, new ∈ newIds who → ¬ Excused site.store False new :=
    fun listed => not_excused assembles (known _ _ listed)
  have everyone : ∀ {new}, new ∈ (List.ofFn newIds).flatten ↔ ∃ who, new ∈ newIds who := by
    simp [List.mem_flatten, List.mem_ofFn]
  refine ⟨?succeed, ?terminate, ?agree⟩
  case succeed =>
    intro n who result returned
    obtain ⟨ledger, later⟩ := competes n
    obtain ⟨marks, -, ensured⟩ := later.returned returned
    cases result with
    | ok ids => exact ⟨ids, rfl⟩
    | error failure =>
        obtain ⟨new, listed, excused⟩ := ensured
        exact absurd excused (unexcused listed)
  case terminate =>
    intro recurs
    refine all_return recurs (fun n => (competes n).choose_spec.views) fun n who id next asked => ?_
    obtain ⟨request, found⟩ := (competes n).choose_spec.asks_view asked
    exact assembles.exists_view found
  case agree =>
    have allKnown : ∀ new ∈ (List.ofFn newIds).flatten,
        world.store.requests.contains new = true := by
      intro new listed
      obtain ⟨who, listed⟩ := everyone.1 listed
      rw [same]
      exact known who new listed
    obtain ⟨together, result, skipped⟩ := World.exists_skipped (same ▸ wellformed) clear empty
      (same ▸ assembles) standard allKnown
    rw [same] at skipped
    refine ⟨together, result, fun n ids returned => ?_⟩
    obtain ⟨ledger, later⟩ := competes n
    exact ⟨fun who other => later.disjoint returned, later.agree returned everyone skipped⟩

/-- Two passes with the same new request take turns. They return, and together they return what one
of them would. -/
theorem passes_confluent_resubmitted :
    let before := start (Sample.site Sample.resubmitted) (fun _ : Unit => .empty .default)
      fun _ : Fin 2 => ⟨(), .standard, [⟨2⟩]⟩
    let turns (n : Nat) : Turn (Fin 2) Unit := .pass (Fin.ofNat 2 n) none
    ∃ (n : Nat) (ids : Fin 2 → List RequestId),
      (∀ who, ((before.follow turns n).passes who).result? = some (.ok (ids who))) ∧
      (ids 0).Disjoint (ids 1) ∧
      ∃ together, (Sample.collapse Sample.resubmitted [⟨2⟩, ⟨2⟩]).1 = .ok together ∧
        ∀ id, (∃ who, id ∈ ids who) ↔ id ∈ together := by
  intro before turns
  have reached : (Sample.site Sample.resubmitted).store =
      .reached ⟨1⟩ (Sample.resubmission.map .add) := rfl
  have assembles : Sample.resubmitted.Assembles := by decide +kernel
  have known : ∀ who : Fin 2, ∀ new ∈ (fun _ => [⟨2⟩] : Fin 2 → List RequestId) who,
      Sample.resubmitted.requests.contains new = true := by
    decide +kernel
  have own : ∀ n, (turns n).IsOwn := fun n => ⟨fun faulty => faulty rfl, id, id⟩
  have recurs : ∀ who, Recurs turns who := by
    intro who n
    refine ⟨2 * n + who, by omega, none, congrArg (Turn.pass · none) (Fin.ext ?_)⟩
    change (2 * n + who.val) % 2 = who.val
    omega
  have standard : (Policy.standard : Policy Strategy).IsStandard :=
    Policy.isStandard_of_registered rfl
  have same : (Sample.world Sample.resubmitted).store = Sample.resubmitted := rfl
  obtain ⟨succeed, terminate, together, alone, agree⟩ :=
    passes_confluent reached assembles (fun _ : Unit => .default) (fun _ => ())
      standard known own same rfl rfl
  obtain ⟨n, ended⟩ := terminate recurs
  have returned : ∀ who, ∃ ids,
      ((before.follow turns n).passes who).result? = some (.ok ids) := by
    intro who
    obtain ⟨result, returned⟩ := Option.ne_none_iff_exists'.1 (ended who)
    obtain ⟨ids, rfl⟩ := succeed n who result returned
    exact ⟨ids, returned⟩
  choose ids returned using returned
  obtain ⟨disjoint, members, -⟩ := agree n ids returned
  exact ⟨n, ids, returned, disjoint 0 1 (by decide), together, alone, members⟩

end System
end BuildQueue
