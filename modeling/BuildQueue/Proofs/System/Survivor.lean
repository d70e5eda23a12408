import BuildQueue.Proofs.Pass.Screening
import BuildQueue.Proofs.Sample
import BuildQueue.Proofs.System.Views
import Mathlib.Data.Set.Finite.Lemmas
import Mathlib.Order.Bounds.Basic

/-!
# What survives

No work is lost by collapsing. Whatever a pass claims is covered by the newest request that covers
it, and no pass ever claims this one: by transitivity, a request that retired it would cover the
claimed one as well and be newer still. Since all that counts was submitted before, it does not
matter how the passes are interleaved with each other and with workers.
-/

namespace BuildQueue

namespace Store

variable {store : Store} {policy : Policy Strategy}

/-- If no buildset has two requests of one builder, a request is retired by newer ones only. -/
theorem Retires.covers
    (single : Single store)
    (wellformed : Wellformed store)
    {new old : RequestId}
    (retires : store.Retires policy new old) :
    old < new ∧ store.Covers new old := by
  obtain ⟨different, newRequest, oldRequest, -, newFound, oldFound, -, -, sameBuilder,
    sameBuildset | redundant⟩ := retires
  · exact absurd (single.unique newFound oldFound sameBuildset sameBuilder) different
  · rw [wellformed.keyed newFound, wellformed.keyed oldFound] at redundant
    exact redundant

/-- The requests that cover another one are finitely many, so one of them is the newest. -/
theorem exists_newest
    {old new : RequestId}
    (covers : store.Covers new old) :
    ∃ newest, IsGreatest {id | store.Covers id old} newest := by
  have listed : {id | store.Covers id old} ⊆ {id | id ∈ store.requests.keys} := by
    rintro id ⟨view, -, assembled, -⟩
    obtain ⟨request, found⟩ := get?_of_view_eq_ok assembled
    exact SortedMap.mem_keys_of_get?_eq_some found
  have finite := (List.finite_toSet store.requests.keys).subset listed
  obtain ⟨newest, covering, above⟩ := Set.exists_max_image _ (fun id => id) finite ⟨new, covers⟩
  exact ⟨newest, covering, above⟩

end Store

namespace System

open Script (Ensures)

variable {ι κ : Type} {base : Store} {policies : ι → Policy Strategy} {system : System ι κ}

/-- Whatever passes have claimed, and whatever they are going to claim, is retired by some
request. -/
structure Screened
    (base : Store)
    (policies : ι → Policy Strategy)
    (system : System ι κ) : Prop where
  alike : system.site.store.asSubmitted = base.asSubmitted
  views : ViewsSound base True system
  passes : ∀ who, Ensures (screening base True (policies who)) (fun _ _ => True)
    (system.passes who).rest ()
  history : ∀ event ∈ system.history, ∀ who, event.client = some who →
    ∀ id, event.triesClaim id = true → ∃ new, base.Retires (policies who) new id

theorem screened_start
    {site : Site}
    (wellformed : site.store.Wellformed)
    {caches : κ → ViewCache}
    (sound : ∀ cache, (caches cache).Sound site.store True)
    {jobs : ι → Job κ}
    (standard : ∀ who, (jobs who).policy.IsStandard) :
    Screened site.store (fun who => (jobs who).policy) (start site caches jobs) where
  alike := rfl
  views := viewsSound_start site sound jobs
  passes who := Pass.collapse_ensures_screening wellformed (standard who) _
  history _ listed := absurd listed List.not_mem_nil

/-- What a pass asks for when it acts is no claim of anything else. -/
theorem retires_of_triesClaim
    {policy : Policy Strategy}
    {action : Action}
    (asked : (screening base True policy).asks (.act action) ())
    {reply : action.Reply}
    {exchange : Exchange}
    (made : exchange ∈ action.exchanges reply)
    {id : RequestId}
    (tries : exchange.triesClaim id = true) :
    ∃ new, base.Retires policy new id := by
  cases action with
  | call account call =>
      obtain rfl := List.mem_singleton.1 made
      cases call with
      | claim ids time => exact asked id (List.contains_iff_mem.1 tries)
      | _ => cases tries
  | direct call =>
      obtain rfl := List.mem_singleton.1 made
      cases call with
      | claim ids time => exact asked id (List.contains_iff_mem.1 tries)
      | _ => cases tries
  | _ => exact absurd made List.not_mem_nil

variable [DecidableEq ι] [DecidableEq κ]

theorem Screened.step
    (screened : Screened base policies system)
    {turn : Turn ι κ}
    (quiet : ¬ turn.IsSubmission) :
    Screened base policies (system.step turn) := by
  have views : ViewsSound base True (system.step turn) :=
    screened.views.step screened.alike fun _ => trivial
  have moves := moves_step system turn
  generalize system.step turn = after at views moves
  cases moves with
  | quiet store history rest =>
      refine ⟨?_, views, ?_, ?_⟩
      · rw [store]
        exact screened.alike
      · intro who
        rw [rest]
        exact screened.passes who
      · rw [history]
        exact screened.history
  | acted who fault action next reply asked answered history rest others =>
      have ensured := screened.passes who
      rw [asked] at ensured
      refine ⟨answered.alike.trans screened.alike, views, ?_, ?_⟩
      · intro other
        by_cases same : other = who
        · subst same
          rw [rest]
          exact ensured.2 reply () ⟨system.site.store, after.site.store, screened.alike,
            answered.mono fun _ => trivial⟩
        · rw [others other same]
          exact screened.passes other
      · rw [history]
        intro event listed other client id claims
        rcases List.mem_append.1 listed with before | new
        · exact screened.history event before other client id claims
        · obtain ⟨exchange, made, rfl⟩ := List.mem_map.1 new
          obtain rfl : who = other := Option.some.inj client
          exact retires_of_triesClaim ensured.1 made claims
  | viewed who fault id next result asked polled store history rest others =>
      have ensured := screened.passes who
      rw [asked] at ensured
      refine ⟨?_, views, ?_, ?_⟩
      · rw [store]
        exact screened.alike
      · intro other
        by_cases same : other = who
        · subst same
          rw [rest]
          exact ensured.2 result () ⟨system.site.store, system.site.store, screened.alike,
            screened.views.honest asked polled, rfl⟩
        · rw [others other same]
          exact screened.passes other
      · rw [history]
        exact screened.history
  | loaded client cache generation call next reply asked answered history rest =>
      have reads := (screened.views.caches cache).asks asked
      refine ⟨answered.alike.trans screened.alike, views, ?_, ?_⟩
      · intro who
        rw [rest]
        exact screened.passes who
      · rw [history]
        intro event listed who client id claims
        rcases List.mem_append.1 listed with before | new
        · exact screened.history event before who client id claims
        · obtain rfl := List.mem_singleton.1 new
          cases call with
          | claim ids time => cases reads
          | _ => cases claims
  | called call reply answered history rest =>
      refine ⟨answered.alike.trans screened.alike, views, ?_, ?_⟩
      · intro who
        rw [rest]
        exact screened.passes who
      · rw [history]
        intro event listed who client id claims
        rcases List.mem_append.1 listed with before | new
        · exact screened.history event before who client id claims
        · obtain rfl := List.mem_singleton.1 new
          cases client
  | submitted addition => exact absurd trivial quiet

/-- No work is lost by collapsing: what a pass claims is covered by a newer request, and the newest
such request is never claimed by any pass. -/
theorem exists_survivor
    {firstRequest : RequestId}
    {additions : List Addition}
    (once : ∀ addition ∈ additions, addition.ListsOnce)
    {site : Site}
    (populated : site.store = Store.populated firstRequest additions)
    (limits : κ → CacheLimits)
    {jobs : ι → Job κ}
    (standard : ∀ who, (jobs who).policy.IsStandard)
    {turns : List (Turn ι κ)}
    (quiet : ∀ turn ∈ turns, ¬ turn.IsSubmission)
    {event : Event ι}
    (listed : event ∈
      ((start site (fun cache => .empty (limits cache)) jobs).run turns).history)
    {who : ι}
    (client : event.client = some who)
    {old : RequestId}
    (claims : event.triesClaim old = true) :
    ∃ survivor, IsGreatest {new | site.store.Covers new old} survivor ∧ old < survivor ∧
      ∀ other ∈ ((start site (fun cache => .empty (limits cache)) jobs).run turns).history,
        other.client ≠ none → other.triesClaim survivor = false := by
  have wellformed : site.store.Wellformed := populated ▸ .populated firstRequest additions
  have single : site.store.Single := populated ▸ .populated firstRequest additions once
  have screened := run_induction (Screened site.store fun who => (jobs who).policy)
    (screened_start wellformed (fun cache => ViewCache.sound_empty (limits cache)) standard)
    fun before turn turnListed invariant => invariant.step (quiet turn turnListed)
  obtain ⟨new, retires⟩ := screened.history event listed who client old claims
  obtain ⟨newer, covers⟩ := retires.covers single wellformed
  obtain ⟨survivor, greatest⟩ := Store.exists_newest covers
  refine ⟨survivor, greatest, lt_of_lt_of_le newer (greatest.2 covers), ?_⟩
  intro other otherListed passes
  by_contra tries
  rw [Bool.not_eq_false] at tries
  obtain ⟨otherWho, otherClient⟩ := Option.ne_none_iff_exists'.1 passes
  obtain ⟨newest, otherRetires⟩ :=
    screened.history other otherListed otherWho otherClient survivor tries
  obtain ⟨above, coversSurvivor⟩ := otherRetires.covers single wellformed
  have coversOld := coversSurvivor.trans wellformed greatest.1
  exact absurd (greatest.2 coversOld) (not_le_of_gt above)

/-- A pass claims the first of two requests for the same, although a worker has claimed the second
one meanwhile; the second one survives. -/
theorem exists_survivor_resubmission :
    let site := Sample.site (.populated ⟨1⟩ Sample.resubmission)
    let history :=
      ((start site (fun _ => .empty .default) fun _ => ⟨(), .standard, [⟨2⟩]⟩).run
        (Turn.call (.claim [⟨2⟩] none) :: List.replicate 26 (.pass () none))).history
    ∃ event ∈ history, event.client = some () ∧ event.triesClaim ⟨1⟩ = true ∧
      ∃ survivor, IsGreatest {new | site.store.Covers new ⟨1⟩} survivor ∧ ⟨1⟩ < survivor ∧
        ∀ other ∈ history, other.client ≠ none → other.triesClaim survivor = false := by
  intro site history
  have claimed : history.any (fun event =>
      decide (event.client = some ()) && event.triesClaim ⟨1⟩) = true := by
    decide +kernel
  obtain ⟨event, listed, claims⟩ := List.any_eq_true.1 claimed
  rw [Bool.and_eq_true, decide_eq_true_eq] at claims
  obtain ⟨client, claims⟩ := claims
  refine ⟨event, listed, client, claims, ?_⟩
  have populated : site.store = .populated ⟨1⟩ Sample.resubmission := rfl
  refine exists_survivor (by decide) populated (fun _ => .default)
    (fun _ => Policy.isStandard_of_registered rfl) ?quiet listed client claims
  case quiet =>
    intro turn turnListed
    rcases List.mem_cons.1 turnListed with rfl | repeated
    · exact id
    · rw [List.eq_of_mem_replicate repeated]
      exact id

end System
end BuildQueue
