import BuildQueue.Proofs.Script
import BuildQueue.Proofs.Store.Submitted

/-!
# Loading views while others act

Assembling a view takes several calls, and other clients act between them. Since nothing that a
view shows is changed by a claim, the view comes out as if all calls were answered by one store:
`Store.view` is that view, and `Honest` says that a result is it, or a fault that a call met.
-/

namespace BuildQueue

namespace Script

variable {Op : Type} {Reply : Op → Type} {α β ε : Type}

/-- What a script comes to if every operation is answered at once. -/
def consult (answer : (op : Op) → Reply op) : Script Reply α → α
  | done value => value
  | ask op next => consult answer (next (answer op))

variable (answer : (op : Op) → Reply op)

@[simp] theorem consult_done (value : α) :
    consult answer (done value : Script Reply α) = value := rfl

@[simp] theorem consult_ask (op : Op) (next : Reply op → Script Reply α) :
    consult answer (ask op next) = consult answer (next (answer op)) := rfl

theorem consult_bind
    (script : Script Reply α)
    (next : α → Script Reply β) :
    consult answer (script >>= next) = consult answer (next (consult answer script)) := by
  induction script with
  | done value => rfl
  | ask op rest inductionHypothesis => exact inductionHypothesis _

/-- Consulting a computation that may fail is a computation that may fail. -/
@[simp] theorem consult_run_bind
    (first : ExceptT ε (Script Reply) α)
    (next : α → ExceptT ε (Script Reply) β) :
    consult answer (first >>= next).run =
      (consult answer first.run).bind fun value => consult answer (next value).run := by
  change consult answer (first.run >>= ExceptT.bindCont next) = _
  rw [consult_bind]
  cases consult answer first.run <;> rfl

@[simp] theorem consult_run_pure (value : α) :
    consult answer (pure value : ExceptT ε (Script Reply) α).run = .ok value := rfl

@[simp] theorem consult_run_throw (error : ε) :
    consult answer (throw error : ExceptT ε (Script Reply) α).run = .error error := rfl

/-- Where its first part succeeds, a computation comes to what its second part comes to. -/
theorem consult_run_bind_of_ok
    {answer : (op : Op) → Reply op}
    {first : ExceptT ε (Script Reply) α}
    {next : α → ExceptT ε (Script Reply) β}
    {value : α}
    (succeeded : consult answer first.run = .ok value) :
    consult answer (first >>= next).run = consult answer (next value).run := by
  rw [consult_run_bind, succeeded]
  rfl

/-- A computation succeeds only if its first part does, and then its second. -/
theorem consult_run_bind_ok
    {answer : (op : Op) → Reply op}
    {first : ExceptT ε (Script Reply) α}
    {next : α → ExceptT ε (Script Reply) β}
    {result : β}
    (succeeded : consult answer (first >>= next).run = .ok result) :
    ∃ value, consult answer first.run = .ok value ∧
      consult answer (next value).run = .ok result := by
  rw [consult_run_bind] at succeeded
  cases outcome : consult answer first.run with
  | error error =>
      rw [outcome] at succeeded
      cases succeeded
  | ok value =>
      rw [outcome] at succeeded
      exact ⟨value, rfl, succeeded⟩

/-- Whether a computation succeeds depends on its second part only as far as this succeeds. -/
theorem isOk_consult_bind_congr
    {answer : (op : Op) → Reply op}
    {first : ExceptT ε (Script Reply) α}
    {next other : α → ExceptT ε (Script Reply) β}
    (same : ∀ value,
      (consult answer (next value).run).isOk = (consult answer (other value).run).isOk) :
    (consult answer (first >>= next).run).isOk = (consult answer (first >>= other).run).isOk := by
  rw [consult_run_bind, consult_run_bind]
  cases consult answer first.run with
  | error error => rfl
  | ok value => exact same value

/-- What a script asks for if every operation is answered at once. -/
def asked (answer : (op : Op) → Reply op) : Script Reply α → List Op
  | done _ => []
  | ask op next => op :: asked answer (next (answer op))

/-- What a script comes to depends only on the answers to what it asks for. -/
theorem consult_congr
    {answer other : (op : Op) → Reply op}
    {script : Script Reply α}
    (same : ∀ op ∈ asked answer script, other op = answer op) :
    consult other script = consult answer script := by
  induction script with
  | done value => rfl
  | ask op next inductionHypothesis =>
      rw [consult_ask, consult_ask, same op List.mem_cons_self]
      exact inductionHypothesis _ fun later listed => same later (List.mem_cons_of_mem op listed)

/-- What a script ensures under a contract it comes to if the contract permits all answers. -/
theorem Ensures.consult
    {σ : Type}
    {contract : Contract Reply σ}
    {post : α → σ → Prop}
    {script : Script Reply α}
    {state : σ}
    {answer : (op : Op) → Reply op}
    (permitted : ∀ op, contract.gives op state (answer op) state)
    (ensured : Ensures contract post script state) :
    post (Script.consult answer script) state := by
  induction script with
  | done value => exact ensured
  | ask op next inductionHypothesis =>
      exact inductionHypothesis _ (ensured.2 _ state (permitted op))

/-- A script of calls that asks only for what no claim changes, and that ends with the first error
it is given. -/
def IsStatic : Script Call.Reply (Except Failure α) → Prop
  | done _ => True
  | ask call next =>
      call.isStatic = true ∧ (∀ error, next (.error error) = done (.error error)) ∧
        ∀ value, IsStatic (next (.ok value))

namespace IsStatic

@[simp] theorem pure (value : α) : IsStatic (Pure.pure value : Calling α).run := trivial

@[simp] theorem throw (error : Failure) : IsStatic (throw error : Calling α).run := trivial

theorem make
    {call : Call}
    (static : call.isStatic = true) :
    IsStatic call.make.run :=
  ⟨static, fun _ => rfl, fun _ => trivial⟩

theorem bind
    {first : Calling α}
    {next : α → Calling β}
    (firstStatic : IsStatic first.run)
    (nextStatic : ∀ value, IsStatic (next value).run) :
    IsStatic (first >>= next).run := by
  change IsStatic (first.run >>= ExceptT.bindCont next)
  generalize first.run = script at firstStatic
  induction script with
  | done result =>
      cases result with
      | ok value => exact nextStatic value
      | error error => trivial
  | ask call rest inductionHypothesis =>
      refine ⟨firstStatic.1, fun error => ?_, fun value =>
        inductionHypothesis _ (firstStatic.2.2 value)⟩
      change (rest (.error error)).bind (ExceptT.bindCont next) = _
      rw [firstStatic.2.1 error]
      rfl

theorem mapM
    {step : α → Calling β}
    (static : ∀ item, IsStatic (step item).run)
    (items : List α) :
    IsStatic (items.mapM step).run := by
  induction items with
  | nil => exact pure []
  | cons item rest inductionHypothesis =>
      rw [List.mapM_cons]
      exact bind (static item) fun _ => bind inductionHypothesis fun _ => pure _

end IsStatic
end Script

namespace View

/-- The view of a request does not show claims and outcomes. -/
theorem ofRequest_asSubmitted (request : Request) :
    ofRequest request.asSubmitted = ofRequest request := by
  refine congrArg ((Call.getBuildset request.buildsetId).make >>= ·) (funext fun found => ?_)
  cases found <;> rfl

/-- Once the request is at hand, the rest of its view is static. -/
theorem isStatic_ofRequest (request : Request) :
    Script.IsStatic (ofRequest request).run := by
  unfold ofRequest
  refine .bind (.make rfl) fun found => ?_
  cases found with
  | none => exact .throw _
  | some buildset =>
      refine .bind (.make rfl) fun properties => .bind (.make rfl) fun stamps => ?_
      dsimp only
      split
      · exact trivial
      · refine .bind (.mapM (fun stamp => .bind (.make rfl) fun changes => .pure _) stamps) ?_
        intro fetched
        split
        · exact .throw _
        · exact .pure _

/-- What an assembled view consists of. -/
theorem consult_ofRequest_ok
    {answer : (call : Call) → call.Reply}
    {request : Request}
    {view : View}
    (assembled : Script.consult answer (ofRequest request).run = .ok view) :
    ∃ buildset properties stamps fetched sources,
      answer (.getBuildset request.buildsetId) = .ok (some buildset) ∧
      answer (.getProperties request.buildsetId) = .ok properties ∧
      answer (.getSourceStamps request.buildsetId) = .ok stamps ∧
      Script.consult answer (stamps.mapM fetchSource).run = .ok fetched ∧
      sourcesByCodebase request.buildsetId fetched = .ok sources ∧
      view =
        { id := request.id
          buildsetId := request.buildsetId
          builderId := request.builderId
          builderName := request.builderName
          priority := request.priority
          submittedAt := request.submittedAt
          reason := buildset.reason
          properties
          sources
          waitedFor := request.waitedFor } := by
  obtain ⟨found, foundEq, assembled⟩ := Script.consult_run_bind_ok assembled
  cases found with
  | none => cases assembled
  | some buildset =>
      obtain ⟨properties, propertiesEq, assembled⟩ := Script.consult_run_bind_ok assembled
      obtain ⟨stamps, stampsEq, assembled⟩ := Script.consult_run_bind_ok assembled
      dsimp only at assembled
      split at assembled
      · cases assembled
      · obtain ⟨fetched, fetchedEq, assembled⟩ := Script.consult_run_bind_ok assembled
        split at assembled
        · cases assembled
        · next sources sourcesEq =>
          cases assembled
          exact ⟨buildset, properties, stamps, fetched, sources, foundEq, propertiesEq, stampsEq,
            fetchedEq, sourcesEq, rfl⟩

/-- Of two requests of one buildset, the view of one can be assembled if that of the other can. -/
theorem isOk_consult_ofRequest
    {answer : (call : Call) → call.Reply}
    {request other : Request}
    (same : request.buildsetId = other.buildsetId) :
    (Script.consult answer (ofRequest request).run).isOk =
      (Script.consult answer (ofRequest other).run).isOk := by
  unfold ofRequest
  rw [same]
  refine Script.isOk_consult_bind_congr fun found => ?_
  cases found with
  | none => rfl
  | some buildset =>
      refine Script.isOk_consult_bind_congr fun properties =>
        Script.isOk_consult_bind_congr fun stamps => ?_
      dsimp only
      split
      · rfl
      · refine Script.isOk_consult_bind_congr fun fetched => ?_
        split <;> rfl

end View

namespace Store

/-- The view of a request in a store. -/
def view (store : Store) (id : RequestId) : Except Failure View :=
  Script.consult (store.reply ⟨0⟩) (View.load id).run

variable {store : Store}

theorem view_eq_match (id : RequestId) :
    store.view id =
      match store.requests.get? id with
      | some request => Script.consult (store.reply ⟨0⟩) (View.ofRequest request).run
      | none => .error (.assembly (.missingRequest id)) := by
  rw [view, View.load, Script.consult_run_bind]
  change (Except.ok (store.requests.get? id)).bind _ = _
  cases store.requests.get? id <;> rfl

theorem view_of_get?_eq_none
    {id : RequestId}
    (missing : store.requests.get? id = none) :
    store.view id = .error (.assembly (.missingRequest id)) := by
  rw [view_eq_match, missing]

theorem view_of_get?_eq_some
    {id : RequestId}
    {request : Request}
    (found : store.requests.get? id = some request) :
    store.view id = Script.consult (store.reply ⟨0⟩) (View.ofRequest request).run := by
  rw [view_eq_match, found]

/-- A request whose view is assembled is there. -/
theorem get?_of_view_eq_ok
    {id : RequestId}
    {view : View}
    (assembled : store.view id = .ok view) :
    ∃ request, store.requests.get? id = some request := by
  cases found : store.requests.get? id with
  | none => simp [view_of_get?_eq_none found] at assembled
  | some request => exact ⟨request, rfl⟩

/-- The views of all requests can be assembled. -/
def Assembles (store : Store) : Prop := ∀ id ∈ store.requests.keys, (store.view id).isOk = true

instance : DecidablePred Assembles := fun store =>
  inferInstanceAs (Decidable (∀ id ∈ store.requests.keys, (store.view id).isOk = true))

theorem Assembles.exists_view
    (assembles : store.Assembles)
    {id : RequestId}
    {request : Request}
    (found : store.requests.get? id = some request) :
    ∃ view, store.view id = .ok view := by
  have succeeds := assembles id (SortedMap.mem_keys_of_get?_eq_some found)
  cases outcome : store.view id with
  | ok view => exact ⟨view, rfl⟩
  | error failure =>
      rw [outcome] at succeeds
      cases succeeds

end Store

/-- A result that is the view of a request in a store, unless a fault was met. -/
def Honest
    (base : Store)
    (faulty : Prop)
    (id : RequestId)
    (result : Except Failure View) : Prop :=
  result = base.view id ∨ faulty ∧ ∃ failure, result = .error failure

/-- How calls are answered while nothing is submitted to a store: each by the store as some claims
have left it, or else by a fault. -/
def loading (base : Store) (faulty : Prop) : Contract Call.Reply Unit where
  asks call _ := call.method.isWrite = false
  gives call _ reply _ :=
    (∃ (store : Store) (now : Timestamp),
      store.asSubmitted = base.asSubmitted ∧ reply = store.reply now call) ∨
    faulty ∧ ∃ failure, reply = .error failure

theorem Call.isWrite_method_of_isStatic
    {call : Call}
    (static : call.isStatic = true) :
    call.method.isWrite = false := by
  cases call <;> first | rfl | cases static

/-- A static script comes to what the base says, or to a fault. -/
theorem Script.IsStatic.ensures
    {α : Type}
    {base : Store}
    {faulty : Prop}
    {script : Script Call.Reply (Except Failure α)}
    (static : IsStatic script) :
    Script.Ensures (loading base faulty)
      (fun result _ => result = consult (base.reply ⟨0⟩) script ∨
        faulty ∧ ∃ failure, result = .error failure) script () := by
  induction script with
  | done result => exact .inl rfl
  | ask call next inductionHypothesis =>
      refine ⟨Call.isWrite_method_of_isStatic static.1, fun reply _ given => ?_⟩
      obtain ⟨store, now, alike, rfl⟩ | ⟨fault, failure, rfl⟩ := given
      · rw [Store.reply_of_isStatic static.1 alike now ⟨0⟩, consult_ask]
        cases base.reply ⟨0⟩ call with
        | ok value => exact inductionHypothesis _ (static.2.2 value)
        | error failure =>
            rw [static.2.1 failure]
            exact .inl rfl
      · rw [static.2.1 failure]
        exact .inr ⟨fault, failure, rfl⟩

/-- A view that is loaded while others act is honest. -/
theorem View.load_ensures
    (base : Store)
    (faulty : Prop)
    (id : RequestId) :
    Script.Ensures (loading base faulty)
      (fun result _ => Honest base faulty id result) (View.load id).run () := by
  refine ⟨rfl, fun reply _ given => ?_⟩
  obtain ⟨store, now, alike, rfl⟩ | ⟨fault, failure, rfl⟩ := given
  · cases found : store.requests.get? id with
    | none =>
        have missing := Store.get?_eq_none_of_asSubmitted alike found
        have reply : store.reply now (.getRequest id) = .ok none := congrArg Except.ok found
        rw [reply]
        exact .inl (Store.view_of_get?_eq_none missing).symm
    | some request =>
        obtain ⟨twin, twinFound, twinAlike⟩ := Store.get?_of_asSubmitted alike found
        have reply : store.reply now (.getRequest id) = .ok (some request) :=
          congrArg Except.ok found
        have sameView : ofRequest request = ofRequest twin := by
          rw [← ofRequest_asSubmitted request, ← twinAlike, ofRequest_asSubmitted]
        have same : base.view id =
            Script.consult (base.reply ⟨0⟩) (ofRequest request).run := by
          rw [Store.view_of_get?_eq_some twinFound, sameView]
        rw [reply]
        refine (isStatic_ofRequest request).ensures.mono fun result _ honest => ?_
        rw [← same] at honest
        exact honest
  · exact .inr ⟨fault, failure, rfl⟩

namespace Store

variable {store other : Store}

/-- Stores that were submitted alike have the same views. -/
theorem view_of_asSubmitted
    (alike : store.asSubmitted = other.asSubmitted)
    (id : RequestId) :
    store.view id = other.view id := by
  have honest : Honest other False id (store.view id) :=
    (View.load_ensures other False id).consult fun call =>
      Or.inl ⟨store, ⟨0⟩, alike, rfl⟩
  exact honest.resolve_right fun fault => fault.1

/-- The calls by which a view is loaded from a store. -/
def loadCalls (store : Store) (id : RequestId) : List Call :=
  Script.asked (store.reply ⟨0⟩) (View.load id).run

/-- A view does not change as long as the calls that load it are answered the same, but for claims
and outcomes. -/
theorem view_of_loadCalls
    {id : RequestId}
    (same : ∀ call ∈ store.asSubmitted.loadCalls id,
      other.asSubmitted.reply ⟨0⟩ call = store.asSubmitted.reply ⟨0⟩ call) :
    other.view id = store.view id := by
  rw [← view_of_asSubmitted (asSubmitted_asSubmitted store),
    ← view_of_asSubmitted (asSubmitted_asSubmitted other)]
  exact Script.consult_congr same

end Store

end BuildQueue
