import BuildQueue.Proofs.System

/-!
# What a turn changes

A turn of a system is one of a few moves, each of which changes the store by at most one call and
takes at most one pass further. `System.moves_step` says so once; what holds under every schedule
is then shown move by move.
-/

namespace BuildQueue

/-- How an action may be answered, and the store after it. -/
def Action.Answers
    (faulty : Prop)
    (before : Store) : (action : Action) → action.Reply → Store → Prop
  | .call _ asked, reply, after | .direct asked, reply, after =>
      before.Answers faulty asked reply after
  | .time, _, after | .count _, _, after | .log _ _, _, after => after = before

theorem Action.Answers.mono
    {faulty more : Prop}
    {before after : Store}
    {action : Action}
    {reply : action.Reply}
    (answered : action.Answers faulty before reply after)
    (weaken : faulty → more) :
    action.Answers more before reply after := by
  cases action with
  | call account call => exact Store.Answers.mono answered weaken
  | direct call => exact Store.Answers.mono answered weaken
  | _ => exact answered

namespace Site

variable {site : Site}

@[simp] theorem store_countFor (account : Account) (counter : Counter) :
    (site.countFor account counter).store = site.store := by
  cases account <;> rfl

theorem answers_callStore
    (site : Site)
    (faulty : Prop)
    (account : Account)
    (call : Call) :
    site.store.Answers faulty call (site.callStore account call).1
      (site.callStore account call).2.store :=
  .inl ⟨site.now, rfl, rfl⟩

theorem answers_callWith
    (site : Site)
    (fault : Option String)
    (account : Account)
    (call : Call) :
    site.store.Answers (fault ≠ none) call (site.callWith fault account call).1
      (site.callWith fault account call).2.store := by
  cases fault with
  | none => exact answers_callStore site _ account call
  | some message => exact .inr ⟨Option.some_ne_none message, ⟨_, rfl⟩, rfl⟩

/-- An action is answered by the store of its site. -/
theorem answers_act
    (site : Site)
    (fault : Option String)
    (action : Action) :
    action.Answers (fault ≠ none) site.store (site.act fault action).1
      (site.act fault action).2.store := by
  cases action with
  | call account call => exact answers_callWith site fault account call
  | direct call => exact answers_callStore site _ .caller call
  | time => rfl
  | count counter => exact store_countFor ..
  | log level message => rfl

end Site

namespace System

variable {ι κ : Type}

/-- The ways in which a turn takes a system to the next one. -/
inductive Moves : Turn ι κ → System ι κ → System ι κ → Prop where
  /-- Neither the store nor what is left of a pass changes. -/
  | quiet {turn before after}
      (store : after.site.store = before.site.store)
      (history : after.history = before.history)
      (rest : ∀ who, (after.passes who).rest = (before.passes who).rest) :
      Moves turn before after
  /-- A pass acts. -/
  | acted {before after} (who : ι) (fault : Option String) (action : Action)
      (next : action.Reply → Script Effect.Reply (Except Failure (List RequestId)))
      (reply : action.Reply)
      (asked : (before.passes who).rest = .ask (.act action) next)
      (answered : action.Answers (fault ≠ none) before.site.store reply after.site.store)
      (history : after.history = before.history ++
        (action.exchanges reply).map fun exchange => ⟨exchange, some who⟩)
      (rest : (after.passes who).rest = next reply)
      (others : ∀ other, other ≠ who → (after.passes other).rest = (before.passes other).rest) :
      Moves (.pass who fault) before after
  /-- A pass gets the view that it waits for. -/
  | viewed {before after} (who : ι) (fault : Option String) (id : RequestId)
      (next : Except Failure View → Script Effect.Reply (Except Failure (List RequestId)))
      (result : Except Failure View)
      (asked : (before.passes who).rest = .ask (.view id) next)
      (polled : ((before.caches (before.passes who).cache).poll
        ((before.passes who).get.getD (.ofKey id))).1 = .returned result)
      (store : after.site.store = before.site.store)
      (history : after.history = before.history)
      (rest : (after.passes who).rest = next result)
      (others : ∀ other, other ≠ who → (after.passes other).rest = (before.passes other).rest) :
      Moves (.pass who fault) before after
  /-- A load makes a call. -/
  | loaded {turn before after} (client : Option ι) (cache : κ) (generation : Nat) (call : Call)
      (next : call.Reply → Script Call.Reply (Except Failure View)) (reply : call.Reply)
      (asked : (before.caches cache).loads[generation]? = some (.ask call next))
      (answered : before.site.store.Answers turn.IsFaulty call reply after.site.store)
      (history : after.history = before.history ++ [⟨⟨call, reply⟩, client⟩])
      (rest : ∀ who, (after.passes who).rest = (before.passes who).rest) :
      Moves turn before after
  /-- Somebody else calls the store. -/
  | called {before after} (call : Call) (reply : call.Reply)
      (answered : before.site.store.Answers False call reply after.site.store)
      (history : after.history = before.history ++ [⟨⟨call, reply⟩, none⟩])
      (rest : ∀ who, (after.passes who).rest = (before.passes who).rest) :
      Moves (.call call) before after
  /-- Somebody adds to the store. -/
  | submitted {before after} (addition : Addition)
      (store : after.site.store = before.site.store.add addition)
      (history : after.history = before.history)
      (rest : ∀ who, (after.passes who).rest = (before.passes who).rest) :
      Moves (.submit addition) before after

section Reply

variable [DecidableEq ι]

@[simp] theorem rest_reply_self
    (system : System ι κ)
    (who : ι)
    (rest : Script Effect.Reply (Except Failure (List RequestId))) :
    ((system.reply who rest).passes who).rest = rest := by
  simp [reply]

theorem passes_reply_of_ne
    (system : System ι κ)
    {who other : ι}
    (different : other ≠ who)
    (rest : Script Effect.Reply (Except Failure (List RequestId))) :
    (system.reply who rest).passes other = system.passes other := by
  simp [reply, different]

end Reply

section Drive

variable [DecidableEq κ]

/-- What the next call of a load changes. -/
theorem drive_eq_some
    {system after : System ι κ}
    {client : Option ι}
    {cache : κ}
    {generation : Nat}
    {fault : Option String}
    (driven : system.drive client cache generation fault = some after) :
    ∃ call next,
      (system.caches cache).loads[generation]? = some (.ask call next) ∧
      after =
        { system with
          site := (system.site.callWith fault .cache call).2
          caches := Function.update system.caches cache ((system.caches cache).resume generation
            (next (system.site.callWith fault .cache call).1))
          history := system.history ++
            [⟨⟨call, (system.site.callWith fault .cache call).1⟩, client⟩] } := by
  unfold drive ViewCache.drive at driven
  split at driven
  · next call next loading =>
    cases driven
    exact ⟨call, next, loading, rfl⟩
  · cases driven

theorem moves_drive
    {system after : System ι κ}
    {client : Option ι}
    {cache : κ}
    {generation : Nat}
    {fault : Option String}
    (driven : system.drive client cache generation fault = some after)
    {turn : Turn ι κ}
    (faulty : turn.IsFaulty ↔ fault ≠ none) :
    Moves turn system after := by
  obtain ⟨call, next, loading, rfl⟩ := drive_eq_some driven
  refine .loaded client cache generation call next _ loading ?_ rfl fun _ => rfl
  rw [faulty]
  exact Site.answers_callWith system.site fault .cache call

end Drive

variable [DecidableEq ι] [DecidableEq κ]

theorem moves_poll
    {system : System ι κ}
    {who : ι}
    {fault : Option String}
    {id : RequestId}
    {next : Except Failure View → Script Effect.Reply (Except Failure (List RequestId))}
    (asked : (system.passes who).rest = .ask (.view id) next) :
    Moves (.pass who fault) system
      (system.poll who ((system.passes who).get.getD (.ofKey id)) next) := by
  unfold poll
  dsimp only
  cases progress : ((system.caches (system.passes who).cache).poll
      ((system.passes who).get.getD (.ofKey id))).1 with
  | returned result =>
      refine .viewed who fault id next result asked progress rfl rfl (rest_reply_self ..) ?_
      intro other different
      rw [passes_reply_of_ne _ different]
  | pending get =>
      refine .quiet rfl rfl fun other => ?_
      by_cases same : other = who
      · subst same
        simp
      · simp [same]

/-- What a step of a pass may make of a system. -/
inductive Advances (system : System ι κ) (who : ι) (fault : Option String) :
    System ι κ → Prop where
  /-- The pass has returned before. -/
  | ended : Advances system who fault system
  /-- The pass acts. -/
  | acts (action : Action)
      (next : action.Reply → Script Effect.Reply (Except Failure (List RequestId)))
      (asked : (system.passes who).rest = .ask (.act action) next) :
      Advances system who fault
        { system.reply who (next (system.site.act fault action).1) with
          site := (system.site.act fault action).2
          history := system.history ++ (action.exchanges (system.site.act fault action).1).map
            fun exchange => ⟨exchange, some who⟩ }
  /-- The pass makes the next call of the fill that it waits for. -/
  | drives {after : System ι κ} (id : RequestId)
      (next : Except Failure View → Script Effect.Reply (Except Failure (List RequestId)))
      (generation : Nat)
      (asked : (system.passes who).rest = .ask (.view id) next)
      (driven : system.drive (some who) (system.passes who).cache generation fault = some after) :
      Advances system who fault after
  /-- The pass polls its get. -/
  | polls (id : RequestId)
      (next : Except Failure View → Script Effect.Reply (Except Failure (List RequestId)))
      (asked : (system.passes who).rest = .ask (.view id) next) :
      Advances system who fault
        (system.poll who ((system.passes who).get.getD (.ofKey id)) next)

theorem advances
    (system : System ι κ)
    (who : ι)
    (fault : Option String) :
    Advances system who fault (system.advance who fault) := by
  unfold advance
  dsimp only
  cases asked : (system.passes who).rest with
  | done result => exact .ended
  | ask effect next =>
      cases effect with
      | act action => exact .acts action next asked
      | view id =>
          dsimp only
          cases driven : ((system.passes who).get.getD (.ofKey id)).awaits.bind fun generation =>
              system.drive (some who) (system.passes who).cache generation fault with
          | none => exact .polls id next asked
          | some after =>
              obtain ⟨generation, -, driven⟩ := Option.bind_eq_some_iff.1 driven
              exact .drives id next generation asked driven

/-- Every turn is a move. -/
theorem moves_step
    (system : System ι κ)
    (turn : Turn ι κ) :
    Moves turn system (system.step turn) := by
  cases turn with
  | pass who fault =>
      have advanced := advances system who fault
      change Moves _ system (system.advance who fault)
      generalize system.advance who fault = after at advanced ⊢
      cases advanced with
      | ended => exact .quiet rfl rfl fun _ => rfl
      | acts action next asked =>
          refine .acted who fault action next _ asked (Site.answers_act system.site fault action)
            rfl (rest_reply_self ..) fun other different => ?_
          exact congrArg Running.rest (passes_reply_of_ne system different _)
      | drives id next generation asked driven => exact moves_drive driven Iff.rfl
      | polls id next asked => exact moves_poll asked
  | call call => exact .called call _ (.inl ⟨system.site.now, rfl, rfl⟩) rfl fun _ => rfl
  | submit addition => exact .submitted addition rfl rfl fun _ => rfl
  | look cache id => exact .quiet rfl rfl fun _ => rfl
  | drive cache generation fault =>
      unfold step
      dsimp only
      cases driven : system.drive none cache generation fault with
      | none => exact .quiet rfl rfl fun _ => rfl
      | some after => exact moves_drive driven Iff.rfl
  | tick cache instant => exact .quiet rfl rfl fun _ => rfl
  | clock now => exact .quiet rfl rfl fun _ => rfl

/-- What every turn preserves holds after every schedule. -/
theorem run_induction
    (invariant : System ι κ → Prop)
    {system : System ι κ}
    {turns : List (Turn ι κ)}
    (initial : invariant system)
    (preserved : ∀ before turn, turn ∈ turns → invariant before →
      invariant (before.step turn)) :
    invariant (system.run turns) :=
  List.foldlRecOn turns step initial fun before holds turn listed =>
    preserved before turn listed holds

end System
end BuildQueue
