import BuildQueue.Proofs.Context.Origins
import Mathlib.Algebra.BigOperators.Group.List.Basic
import Mathlib.Algebra.Ring.Int.Defs
import Mathlib.Data.List.Induction

/-!
# What contexts share

Contexts are made from each other, counted with, and logged through, in any order. After all of it
the counters that a context sees tell what was added through the contexts that are connected to it
by cloning, and nothing else. The invariant that carries this is `Contexts.Accounted`.
-/

namespace BuildQueue
namespace Contexts

/-- What may be done with contexts, which are named by their numbers. -/
inductive Step where
  | fresh (recorded : Bool)
  | clone (parent : Nat)
  | derive (parent : Nat) (added : List (String × String))
  | add (through : Nat) (counter : Counter) (amount : Int)
  | log (through : Nat) (level : Level) (message : String)

namespace Step

/-- The origin of the context that a step makes. -/
def origin? : Step → Option Origin
  | fresh _ => some .root
  | clone parent => some (.clone parent)
  | derive parent added => some (.derived parent added)
  | add _ _ _ | log _ _ _ => none

open Classical in
/-- What a step adds to a counter through a context of some set. -/
noncomputable def adds (counter : Counter) (within : Nat → Prop) : Step → Int
  | add through other amount => if within through ∧ counter = other then amount else 0
  | _ => 0

end Step

/-- The contexts after a step, which can use only those that were made. -/
def step? (contexts : Contexts) : Step → Option Contexts
  | .fresh recorded => some (contexts.fresh recorded)
  | .clone parent => contexts.made[parent]?.map contexts.clone
  | .derive parent added => contexts.made[parent]?.map (contexts.deriveAll · added)
  | .add through counter amount =>
    contexts.made[through]?.map (contexts.updateCounters · (·.add counter amount))
  | .log through level message => contexts.made[through]?.map (contexts.log · level message)

/-- The contexts after some steps from the beginning. -/
def after? (steps : List Step) : Option Contexts := steps.foldlM step? empty

/-- The origins of the contexts that steps make. -/
def origins (steps : List Step) : List Origin := steps.filterMap Step.origin?

/-- What steps add to a counter through the contexts of some set. -/
noncomputable def added (steps : List Step) (counter : Counter) (within : Nat → Prop) : Int :=
  (steps.map (Step.adds counter within)).sum

open Origin (Collects HasRoot SameFamily)

variable {steps : List Step} {step : Step} {contexts after : Contexts} {context : Context}
  {counter : Counter} {within other : Nat → Prop}

theorem after?_concat : after? (steps ++ [step]) = (after? steps).bind (·.step? step) := by
  simp [after?, List.foldlM_append]

theorem origins_concat_of_makes
    {origin : Origin}
    (makes : step.origin? = some origin) :
    origins (steps ++ [step]) = origins steps ++ [origin] := by
  simp [origins, makes]

theorem origins_concat_of_quiet
    (quiet : step.origin? = none) :
    origins (steps ++ [step]) = origins steps := by
  simp [origins, quiet]

theorem added_concat :
    added (steps ++ [step]) counter within =
      added steps counter within + step.adds counter within := by
  simp [added]

/-- Only the contexts matter through which something is added. -/
theorem added_congr
    (agree : ∀ through counter amount, .add through counter amount ∈ steps →
      (within through ↔ other through)) :
    added steps counter within = added steps counter other := by
  refine congrArg List.sum (List.map_congr_left fun step member => ?_)
  cases step with
  | add through other amount =>
      have agrees := agree through other amount member
      simp only [Step.adds]
      congr 2
      exact propext agrees
  | fresh recorded => rfl
  | clone parent => rfl
  | derive parent added => rfl
  | log through level message => rfl

/-- A context is of a family. -/
def InFamily (contexts : Contexts) (family through : Nat) : Prop :=
  ∃ context, contexts.made[through]? = some context ∧ context.family = family

/-- The counters of a family. -/
def tallies (contexts : Contexts) (family : Nat) : Counters := (contexts.families[family]?).getD ∅

/-- What was made and what was counted is accounted for by the steps that were taken. -/
structure Accounted (steps : List Step) (contexts : Contexts) : Prop where
  traced : Traced (origins steps) contexts.made
  sessions : ∀ context ∈ contexts.made, context.session < contexts.sessions
  families : ∀ context ∈ contexts.made, context.family < contexts.families.length
  throughs : ∀ through counter amount, .add through counter amount ∈ steps →
    through < contexts.made.length
  counts : ∀ family counter,
    (contexts.tallies family).value counter = added steps counter (contexts.InFamily family)

namespace Accounted

theorem empty : Accounted [] empty where
  traced := .nil
  sessions := nofun
  families := nofun
  throughs := nofun
  counts := fun _ _ => rfl

/-- A step makes a context, and perhaps a family that has counted nothing yet. -/
theorem makes
    {origin : Origin}
    {unused : List Counters}
    (accounted : Accounted steps contexts)
    (makes : step.origin? = some origin)
    (made : after.made = contexts.made ++ [context])
    (explained : origin.Explains contexts.made context)
    (families : after.families = contexts.families ++ unused)
    (zero : ∀ counters ∈ unused, counters = ∅)
    (sessions : contexts.sessions ≤ after.sessions)
    (session : context.session < after.sessions)
    (family : context.family < after.families.length) :
    Accounted (steps ++ [step]) after where
  traced := by
    rw [origins_concat_of_makes makes, made]
    exact accounted.traced.concat explained
  sessions := by
    rw [made]
    intro other member
    rcases List.mem_append.1 member with earlier | last
    · exact Nat.lt_of_lt_of_le (accounted.sessions other earlier) sessions
    · rwa [List.mem_singleton.1 last]
  families := by
    rw [made]
    intro other member
    rcases List.mem_append.1 member with earlier | last
    · have bound := accounted.families other earlier
      rw [families, List.length_append]
      omega
    · rwa [List.mem_singleton.1 last]
  throughs := by
    intro through counter amount member
    rcases List.mem_append.1 member with earlier | last
    · have bound := accounted.throughs through counter amount earlier
      rw [made, List.length_append]
      omega
    · cases List.mem_singleton.1 last
      cases makes
  counts := by
    intro family counter
    have tallies : after.tallies family = contexts.tallies family := by
      rw [tallies, tallies, families]
      rcases Nat.lt_or_ge family contexts.families.length with known | beyond
      · rw [List.getElem?_append_left known]
      · rw [List.getElem?_append_right beyond, List.getElem?_eq_none beyond]
        cases found : unused[family - contexts.families.length]? with
        | none => rfl
        | some counters => exact zero counters (List.mem_of_getElem? found)
    have none : step.adds counter (after.InFamily family) = 0 := by
      cases step with
      | add through other amount => cases makes
      | _ => rfl
    rw [tallies, accounted.counts, added_concat, none, Int.add_zero]
    refine added_congr fun through other amount member => ?_
    rw [InFamily, InFamily, made,
      List.getElem?_append_left (accounted.throughs through other amount member)]

/-- Something is added to a counter through a context. -/
theorem adds
    {through : Nat}
    {amount : Int}
    (accounted : Accounted steps contexts)
    (there : contexts.made[through]? = some context) :
    Accounted (steps ++ [.add through counter amount])
      (contexts.updateCounters context (·.add counter amount)) where
  traced := by
    rw [origins_concat_of_quiet (by rfl)]
    exact accounted.traced
  sessions := accounted.sessions
  families := by simpa [updateCounters] using accounted.families
  throughs := by
    intro other counter amount member
    rcases List.mem_append.1 member with earlier | last
    · exact accounted.throughs other counter amount earlier
    · cases List.mem_singleton.1 last
      exact (List.getElem?_eq_some_iff.1 there).1
  counts := by
    intro family seen
    have known := accounted.families context (List.mem_of_getElem? there)
    have tallies :
        (updateCounters contexts context (·.add counter amount)).tallies family =
          if context.family = family then (contexts.tallies family).add counter amount
          else contexts.tallies family := by
      simp only [Contexts.tallies, updateCounters, List.getElem?_modify]
      split
      · next same => simp [List.getElem?_eq_getElem (same ▸ known)]
      · simp
    have through : contexts.InFamily family through ↔ context.family = family := by
      simp [InFamily, there]
    have rest : added steps seen (contexts.InFamily family) =
        (contexts.tallies family).value seen := (accounted.counts family seen).symm
    rw [added_concat, tallies]
    change _ = added steps seen (contexts.InFamily family) +
      Step.adds seen (contexts.InFamily family) _
    rw [rest, Step.adds, through]
    by_cases same : context.family = family
    · simp only [same, if_true, true_and, Counters.value_add]
    · simp only [same, if_false, false_and, Int.add_zero]

/-- A line is logged. -/
theorem logs
    {through : Nat}
    {level : Level}
    {message : String}
    (accounted : Accounted steps contexts) :
    Accounted (steps ++ [.log through level message]) (contexts.log context level message) := by
  have same : (contexts.log context level message).made = contexts.made ∧
      (contexts.log context level message).families = contexts.families ∧
        (contexts.log context level message).sessions = contexts.sessions := by
    unfold log
    split <;> exact ⟨rfl, rfl, rfl⟩
  obtain ⟨made, families, sessions⟩ := same
  constructor
  · rw [origins_concat_of_quiet (by rfl), made]
    exact accounted.traced
  · rw [made, sessions]
    exact accounted.sessions
  · rw [made, families]
    exact accounted.families
  · intro other counter amount member
    rw [made]
    rcases List.mem_append.1 member with earlier | last
    · exact accounted.throughs other counter amount earlier
    · cases List.mem_singleton.1 last
  · intro family counter
    have within : (contexts.log context level message).InFamily family =
        contexts.InFamily family := by
      funext other
      rw [InFamily, InFamily, made]
    rw [added_concat, within, tallies, families]
    exact (accounted.counts family counter).trans (Int.add_zero _).symm

/-- Everything stays accounted for by one more step. -/
theorem concat
    (accounted : Accounted steps contexts)
    (next : contexts.step? step = some after) :
    Accounted (steps ++ [step]) after := by
  have longer : ∀ {α : Type} (items : List α) (item : α), items.length < (items ++ [item]).length :=
    by simp
  cases step with
  | fresh recorded =>
      cases next
      refine accounted.makes rfl rfl ⟨rfl, fun other member => ⟨?_, ?_⟩⟩ rfl
        (by simp) (Nat.le_succ _) (Nat.lt_succ_self _) (longer _ _)
      · exact Nat.ne_of_lt (accounted.sessions other member)
      · exact Nat.ne_of_lt (accounted.families other member)
  | clone parent =>
      obtain ⟨source, there, rfl⟩ := Option.map_eq_some_iff.1 next
      have member := List.mem_of_getElem? there
      exact accounted.makes rfl rfl there (List.append_nil _).symm nofun (Nat.le_refl _)
        (accounted.sessions source member) (accounted.families source member)
  | derive parent added =>
      obtain ⟨source, there, rfl⟩ := Option.map_eq_some_iff.1 next
      have member := List.mem_of_getElem? there
      refine accounted.makes rfl rfl ⟨⟨source, there, rfl, rfl⟩, fun other member => ?_⟩ rfl
        (by simp) (Nat.le_refl _) (accounted.sessions source member) (longer _ _)
      exact Nat.ne_of_lt (accounted.families other member)
  | add through counter amount =>
      obtain ⟨source, there, rfl⟩ := Option.map_eq_some_iff.1 next
      exact accounted.adds there
  | log through level message =>
      obtain ⟨source, -, rfl⟩ := Option.map_eq_some_iff.1 next
      exact accounted.logs

end Accounted

theorem accounted (reached : after? steps = some contexts) : Accounted steps contexts := by
  induction steps using List.reverseRecOn generalizing contexts with
  | nil =>
      cases reached
      exact .empty
  | append_singleton steps step inductionHypothesis =>
      rw [after?_concat] at reached
      obtain ⟨before, reached, next⟩ := Option.bind_eq_some_iff.1 reached
      exact (inductionHypothesis reached).concat next

/-- What contexts share after some steps, the origins of the contexts being given by these steps. -/
structure Shared (steps : List Step) (contexts : Contexts) : Prop where
  made : contexts.made.length = (origins steps).length
  /-- A counter has the sum of what was added through contexts that are connected by cloning. -/
  counts : ∀ (index : Nat) (context : Context), contexts.made[index]? = some context →
    ∀ counter, (contexts.countersOf context).value counter =
      added steps counter (SameFamily (origins steps) index)
  /-- Contexts have one session just if they descend from one root. -/
  sessions : ∀ (index second : Nat) (context other : Context),
    contexts.made[index]? = some context → contexts.made[second]? = some other →
      (context.session = other.session ↔
        ∃ root, HasRoot (origins steps) index root ∧ HasRoot (origins steps) second root)
  /-- A line carries what was added on the way from the root. -/
  lines : ∀ (index : Nat) (context : Context), contexts.made[index]? = some context →
    ∃ keyValues, Collects (origins steps) index keyValues ∧
      (∀ others, Collects (origins steps) index others → others = keyValues) ∧
        ∀ level message, (contexts.log context level message).lines =
          contexts.lines ++ if context.recorded then [⟨level, message, keyValues⟩] else []

end Contexts
end BuildQueue
