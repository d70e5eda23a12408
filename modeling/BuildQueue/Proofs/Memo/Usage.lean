import BuildQueue.Proofs.Memo.Fills
import BuildQueue.Proofs.Memo.Natural

/-!
# Uses of a memo service

A memo service is used by gets that are begun, polled and dropped in any order, by settling its
fills, by invalidations and by questions what is present, while time goes on. A run is a list of
such uses from the state before them. Its visits are the rounds of its gets, each with what it
finds; a get that is visited without a fill to wait for looks its key up.
-/

namespace BuildQueue

/-- One use of a memo service. Gets are numbered in the order in which they are begun. -/
inductive Use (κ ν ε : Type) where
  | begin (key : κ)
  | poll (number : Nat)
  | drop (number : Nat)
  | settle (generation : Nat) (result : Except ε ν)
  | invalidate (key : κ)
  | clear
  | present (key : κ)
  | tick (instant : Nat)

/-- A memo service and the gets of it that were begun. -/
structure Usage (κ ν ε : Type) where
  service : MemoService κ ν ε
  /-- The gets in the order in which they were begun, none for one that has returned or was
  dropped. -/
  gets : List (Option (Get κ))

/-- One round of a get: its number, and the get and the service as the round finds them. -/
structure Visit (κ ν ε : Type) where
  number : Nat
  get : Get κ
  service : MemoService κ ν ε

section Map

variable {κ ν ν' ε ε' : Type} (f : ν → ν') (g : ε → ε')

/-- The use with another value or error in a result that it settles. -/
def Use.map : Use κ ν ε → Use κ ν' ε'
  | begin key => .begin key
  | poll number => .poll number
  | drop number => .drop number
  | settle generation result => .settle generation (mapResult f g result)
  | invalidate key => .invalidate key
  | clear => .clear
  | present key => .present key
  | tick instant => .tick instant

/-- The usage with other values and errors in its service. -/
def Usage.map (usage : Usage κ ν ε) : Usage κ ν' ε' := ⟨usage.service.map f g, usage.gets⟩

/-- The visit with other values and errors in the service that it finds. -/
def Visit.map (visit : Visit κ ν ε) : Visit κ ν' ε' :=
  ⟨visit.number, visit.get, visit.service.map f g⟩

end Map

variable {κ ν ε : Type}

/-- Whether the round looks the key of its get up. -/
def Visit.LooksUp (visit : Visit κ ν ε) : Prop := visit.get.awaits = none

namespace Usage

/-- The use of a service that was never used. -/
def ofMemo (memo : Memo κ ν) (filler : Filler κ ν ε) : Usage κ ν ε := ⟨.ofMemo memo filler, []⟩

/-- The get of a number, if it was begun and has neither returned nor been dropped. -/
def live? (usage : Usage κ ν ε) (number : Nat) : Option (Get κ) := usage.gets[number]?.join

/-- The fill of a number has started, and it is one of this key. -/
def Filled (usage : Usage κ ν ε) (key : κ) (generation : Nat) : Prop :=
  usage.service.fillKeys[generation]? = some key

theorem live?_begin
    {usage : Usage κ ν ε}
    {owner : κ}
    {number : Nat}
    {get : Get κ}
    (live : live? { usage with gets := usage.gets ++ [some (.ofKey owner)] } number = some get) :
    usage.live? number = some get ∨ get.awaits = none := by
  unfold live? at live ⊢
  rw [List.getElem?_append] at live
  split at live
  · exact .inl live
  · have new := List.mem_of_getElem? (Option.join_eq_some_iff.1 live)
    obtain rfl := Option.some.inj (List.mem_singleton.1 new)
    exact .inr rfl

theorem live?_set
    {usage : Usage κ ν ε}
    {service : MemoService κ ν ε}
    {polled number : Nat}
    {left : Option (Get κ)}
    {get : Get κ}
    (live : live? ⟨service, usage.gets.set polled left⟩ number = some get) :
    number = polled ∧ left = some get ∨ number ≠ polled ∧ usage.live? number = some get := by
  unfold live? at live ⊢
  rw [List.getElem?_set] at live
  split at live
  · next same =>
    split at live
    · exact .inl ⟨same.symm, live⟩
    · cases live
  · next different => exact .inr ⟨Ne.symm different, live⟩

variable [DecidableEq κ]

/-- The usage after a live get was polled. -/
def poll (usage : Usage κ ν ε) (number : Nat) (get : Get κ) : Usage κ ν ε :=
  match usage.service.poll get with
  | (.returned _, service) => ⟨service, usage.gets.set number none⟩
  | (.pending get, service) => ⟨service, usage.gets.set number (some get)⟩

/-- The usage after one use. A get that is not live can neither be polled nor dropped. -/
def step (usage : Usage κ ν ε) : Use κ ν ε → Usage κ ν ε
  | .begin key => { usage with gets := usage.gets ++ [some (.ofKey key)] }
  | .poll number =>
    match usage.live? number with
    | none => usage
    | some get => usage.poll number get
  | .drop number => { usage with gets := usage.gets.set number none }
  | .settle generation result =>
    { usage with service := usage.service.settle generation result }
  | .invalidate key =>
    { usage with
      service := { usage.service with memo := usage.service.memo.invalidate key } }
  | .clear => { usage with service := { usage.service with memo := usage.service.memo.clear } }
  | .present key =>
    { usage with
      service :=
        { usage.service with memo := (usage.service.memo.isPresent usage.service.now key).2 } }
  | .tick instant => { usage with service := { usage.service with now := instant } }

/-- The usage after all uses of a list. -/
def run (usage : Usage κ ν ε) (uses : List (Use κ ν ε)) : Usage κ ν ε := uses.foldl step usage

end Usage

namespace MemoService

variable [DecidableEq κ]

/-- The gets and services that at most so many rounds of a get find. -/
def found (service : MemoService κ ν ε) (get : Get κ) : Nat → List (Get κ × MemoService κ ν ε)
  | 0 => []
  | count + 1 =>
    (get, service) ::
      match service.round get with
      | (.again, service) => service.found ⟨get.key, none⟩ count
      | _ => []

section Natural

variable {ν' ε' : Type} (f : ν → ν') (g : ε → ε') (service : MemoService κ ν ε)

omit [DecidableEq κ] in
@[simp] theorem fillKeys_map : (service.map f g).fillKeys = service.fillKeys := by
  change (service.fills.map (Fill.map f g)).map Fill.key = service.fills.map Fill.key
  rw [List.map_map]
  rfl

/-- The rounds of a service with other values find the same gets. -/
theorem found_map (get : Get κ) (count : Nat) :
    (service.map f g).found get count =
      (service.found get count).map (Prod.map id (map f g)) := by
  induction count generalizing service get with
  | zero => rfl
  | succ count inductionHypothesis =>
      unfold found
      rw [round_map]
      generalize service.round get = outcome
      obtain ⟨round, after⟩ := outcome
      cases round with
      | returned result => rfl
      | waits generation => rfl
      | again => exact congrArg (List.cons _) (inductionHypothesis after ⟨get.key, none⟩)

end Natural

end MemoService

namespace Usage

variable [DecidableEq κ]

/-- The rounds of a use: those of a get that it polls. -/
def visits (usage : Usage κ ν ε) : Use κ ν ε → List (Visit κ ν ε)
  | .poll number =>
    match usage.live? number with
    | none => []
    | some get =>
      (usage.service.found get MemoService.maxRounds).map fun (get, service) =>
        ⟨number, get, service⟩
  | _ => []

/-- The rounds of all uses of a list. -/
def trail (usage : Usage κ ν ε) : List (Use κ ν ε) → List (Visit κ ν ε)
  | [] => []
  | use :: rest => usage.visits use ++ (usage.step use).trail rest

@[simp] theorem run_cons (usage : Usage κ ν ε) (use : Use κ ν ε) (rest : List (Use κ ν ε)) :
    usage.run (use :: rest) = (usage.step use).run rest := rfl

theorem run_append (usage : Usage κ ν ε) (first rest : List (Use κ ν ε)) :
    usage.run (first ++ rest) = (usage.run first).run rest :=
  List.foldl_append

theorem trail_append (usage : Usage κ ν ε) (first rest : List (Use κ ν ε)) :
    usage.trail (first ++ rest) = usage.trail first ++ (usage.run first).trail rest := by
  induction first generalizing usage with
  | nil => rfl
  | cons use first inductionHypothesis =>
      rw [List.cons_append, trail, inductionHypothesis, trail, List.append_assoc, run_cons]

theorem service_poll (usage : Usage κ ν ε) (number : Nat) (get : Get κ) :
    (usage.poll number get).service = (usage.service.poll get).2 := by
  unfold poll
  generalize usage.service.poll get = outcome
  obtain ⟨progress, service⟩ := outcome
  cases progress <;> rfl

theorem extends_step (usage : Usage κ ν ε) (use : Use κ ν ε) :
    (usage.step use).service.Extends usage.service := by
  cases use with
  | poll number =>
      cases live : usage.live? number with
      | none =>
          simp only [step, live]
          exact .refl _
      | some get =>
          simp only [step, live, service_poll]
          exact MemoService.extends_poll usage.service get
  | settle generation result => exact .of_fillKeys_eq (MemoService.fillKeys_settle ..)
  | _ => exact .refl _

/-- A run may start fills, after all that have started before. -/
theorem extends_run (usage : Usage κ ν ε) (uses : List (Use κ ν ε)) :
    (usage.run uses).service.Extends usage.service := by
  induction uses generalizing usage with
  | nil => exact .refl _
  | cons use rest inductionHypothesis =>
      exact (inductionHypothesis (usage.step use)).trans (extends_step usage use)

section Natural

variable {ν' ε' : Type} (f : ν → ν') (g : ε → ε') (usage : Usage κ ν ε)

omit [DecidableEq κ] in
theorem live?_map (number : Nat) : (usage.map f g).live? number = usage.live? number := rfl

theorem poll_map (number : Nat) (get : Get κ) :
    (usage.map f g).poll number get = (usage.poll number get).map f g := by
  unfold poll
  have polled := MemoService.poll_map f g usage.service get
  rw [show (usage.map f g).service.poll get = _ from polled]
  generalize usage.service.poll get = outcome
  obtain ⟨progress, service⟩ := outcome
  cases progress <;> rfl

/-- A use does to a usage with other values what it does to the usage. -/
theorem step_map (use : Use κ ν ε) :
    (usage.map f g).step (use.map f g) = (usage.step use).map f g := by
  cases use with
  | begin key => rfl
  | poll number =>
      simp only [Use.map, step, live?_map]
      cases usage.live? number with
      | none => rfl
      | some get => exact poll_map f g usage number get
  | drop number => rfl
  | settle generation result =>
      exact congrArg (Usage.mk · usage.gets)
        (MemoService.settle_map f g usage.service generation result)
  | invalidate key =>
      simp only [Use.map, step, map, MemoService.map, Memo.invalidate_map]
  | clear => rfl
  | present key =>
      simp only [Use.map, step, map, MemoService.map, Memo.isPresent_map, Prod.map_snd]
  | tick instant => rfl

/-- A run with other values in the place of all values goes the same way. -/
theorem run_map (uses : List (Use κ ν ε)) :
    (usage.map f g).run (uses.map (Use.map f g)) = (usage.run uses).map f g := by
  induction uses generalizing usage with
  | nil => rfl
  | cons use rest inductionHypothesis =>
      rw [List.map_cons, run_cons, step_map, inductionHypothesis, run_cons]

theorem visits_map (use : Use κ ν ε) :
    (usage.map f g).visits (use.map f g) = (usage.visits use).map (Visit.map f g) := by
  cases use with
  | poll number =>
      simp only [Use.map, visits, live?_map]
      cases usage.live? number with
      | none => rfl
      | some get =>
          dsimp only
          rw [show (usage.map f g).service = usage.service.map f g from rfl,
            MemoService.found_map, List.map_map, List.map_map]
          rfl
  | _ => rfl

/-- A run with other values in the place of all values visits the same gets. -/
theorem trail_map (uses : List (Use κ ν ε)) :
    (usage.map f g).trail (uses.map (Use.map f g)) = (usage.trail uses).map (Visit.map f g) := by
  induction uses generalizing usage with
  | nil => rfl
  | cons use rest inductionHypothesis =>
      rw [List.map_cons, trail, step_map, inductionHypothesis, visits_map, trail, List.map_append]

end Natural

end Usage
end BuildQueue
