import BuildQueue.Context
import Mathlib.Logic.Relation

/-!
# Where contexts come from

Contexts form a forest: each is a root, a clone of another, or derived from another. How a context
was made decides what it has in common with others. Those of one family are connected by cloning
alone, those of one session descend from one root, and the key-values of a context are those that
were added on the way from its root.
-/

namespace BuildQueue

/-- How a context was made. Contexts are numbered in the order in which they are made. -/
inductive Origin where
  | root
  | clone (parent : Nat)
  /-- Some key-values are added to those of the parent. -/
  | derived (parent : Nat) (added : List (String × String))

namespace Origin

variable {origins : List Origin}

/-- A context is a clone of another. -/
def IsClone (origins : List Origin) (child parent : Nat) : Prop :=
  origins[child]? = some (.clone parent)

/-- A context is a clone of another or derived from it. -/
def IsChild (origins : List Origin) (child parent : Nat) : Prop :=
  IsClone origins child parent ∨ ∃ added, origins[child]? = some (.derived parent added)

/-- Two contexts are connected by cloning alone. -/
def SameFamily (origins : List Origin) : Nat → Nat → Prop := Relation.EqvGen (IsClone origins)

/-- A context descends from a root by cloning and deriving. -/
def HasRoot (origins : List Origin) (index root : Nat) : Prop :=
  Relation.ReflTransGen (IsChild origins) index root ∧ origins[root]? = some .root

/-- These are the key-values that were added on the way from the root to a context, the newest
first. -/
inductive Collects (origins : List Origin) : Nat → List (String × String) → Prop where
  | root {index} (made : origins[index]? = some .root) : Collects origins index []
  | clone {index parent keyValues} (made : origins[index]? = some (.clone parent))
      (collects : Collects origins parent keyValues) : Collects origins index keyValues
  | derived {index parent added keyValues} (made : origins[index]? = some (.derived parent added))
      (collects : Collects origins parent keyValues) :
      Collects origins index (added ++ keyValues)

/-- There is one way from the root to a context. -/
theorem Collects.unique
    {index : Nat}
    {keyValues other : List (String × String)}
    (collects : Collects origins index keyValues)
    (again : Collects origins index other) :
    other = keyValues := by
  induction collects generalizing other with
  | root made =>
      cases again with
      | root _ => rfl
      | clone twice _ => cases made.symm.trans twice
      | derived twice _ => cases made.symm.trans twice
  | clone made _ inductionHypothesis =>
      cases again with
      | root twice => cases made.symm.trans twice
      | clone twice collects =>
          cases made.symm.trans twice
          exact inductionHypothesis collects
      | derived twice _ => cases made.symm.trans twice
  | derived made _ inductionHypothesis =>
      cases again with
      | root twice => cases made.symm.trans twice
      | clone twice _ => cases made.symm.trans twice
      | derived twice collects =>
          cases made.symm.trans twice
          rw [inductionHypothesis collects]

/-- An origin accounts for what a context shares with those that were made earlier. -/
def Explains (origin : Origin) (earlier : List Context) (context : Context) : Prop :=
  match origin with
  | .root =>
      context.keyValues = [] ∧
        ∀ other ∈ earlier, other.session ≠ context.session ∧ other.family ≠ context.family
  | .clone parent => earlier[parent]? = some context
  | .derived parent added =>
      (∃ source, earlier[parent]? = some source ∧ context.session = source.session ∧
        context.keyValues = added ++ source.keyValues) ∧
      ∀ other ∈ earlier, other.family ≠ context.family

end Origin

/-- Contexts were made as their origins say. -/
structure Traced (origins : List Origin) (made : List Context) : Prop where
  length : origins.length = made.length
  explains : ∀ {index : Nat} {origin : Origin} {context : Context},
    origins[index]? = some origin → made[index]? = some context →
      origin.Explains (made.take index) context

namespace Traced

open Origin (Collects Explains HasRoot IsChild IsClone SameFamily)

variable {origins : List Origin} {made : List Context} {origin : Origin} {context other : Context}
  {index second parent : Nat}

theorem nil : Traced [] [] := ⟨rfl, fun found => by simp at found⟩

private theorem getElem?_concat_cases
    {α : Type}
    {items : List α}
    {last item : α}
    (found : (items ++ [last])[index]? = some item) :
    items[index]? = some item ∧ index < items.length ∨ index = items.length ∧ last = item := by
  rcases Nat.lt_trichotomy index items.length with before | rfl | beyond
  · rw [List.getElem?_append_left before] at found
    exact .inl ⟨found, before⟩
  · rw [List.getElem?_concat_length] at found
    exact .inr ⟨rfl, Option.some.inj found⟩
  · rw [List.getElem?_eq_none (by rw [List.length_append, List.length_singleton]; omega)] at found
    cases found

/-- One more context is made. -/
theorem concat
    (traced : Traced origins made)
    (explained : origin.Explains made context) :
    Traced (origins ++ [origin]) (made ++ [context]) where
  length := by simp [traced.length]
  explains := by
    intro index other one found there
    rcases getElem?_concat_cases there with ⟨there, before⟩ | ⟨rfl, rfl⟩
    · rw [List.getElem?_append_left (traced.length ▸ before)] at found
      rw [List.take_append_of_le_length (Nat.le_of_lt before)]
      exact traced.explains found there
    · rw [← traced.length, List.getElem?_concat_length] at found
      cases found
      simpa using explained

theorem exists_origin
    (traced : Traced origins made)
    (there : made[index]? = some context) :
    ∃ origin, origins[index]? = some origin := by
  obtain ⟨bound, -⟩ := List.getElem?_eq_some_iff.1 there
  exact ⟨_, List.getElem?_eq_getElem (traced.length ▸ bound)⟩

theorem exists_context
    (traced : Traced origins made)
    (found : origins[index]? = some origin) :
    ∃ context, made[index]? = some context := by
  obtain ⟨bound, -⟩ := List.getElem?_eq_some_iff.1 found
  exact ⟨_, List.getElem?_eq_getElem (traced.length ▸ bound)⟩

private theorem getElem?_of_take
    (found : (made.take index)[parent]? = some context) :
    made[parent]? = some context ∧ parent < index := by
  rw [List.getElem?_take] at found
  split at found
  · next before => exact ⟨found, before⟩
  · cases found

private theorem mem_take
    (there : made[parent]? = some context)
    (before : parent < index) :
    context ∈ made.take index :=
  List.mem_of_getElem? ((List.getElem?_take_of_lt before).trans there)

/-! ## Families -/

/-- A clone is what it was made from, which is older. -/
theorem clone
    (traced : Traced origins made)
    (cloned : IsClone origins index parent)
    (there : made[index]? = some context) :
    made[parent]? = some context ∧ parent < index :=
  getElem?_of_take (traced.explains cloned there)

/-- Contexts that are connected by cloning are the same. -/
theorem getElem?_eq
    (traced : Traced origins made)
    (same : SameFamily origins index second) :
    made[index]? = made[second]? := by
  induction same with
  | rel child parent cloned =>
      obtain ⟨context, there⟩ := traced.exists_context cloned
      rw [there, (traced.clone cloned there).1]
  | refl index => rfl
  | symm first second _ inductionHypothesis => exact inductionHypothesis.symm
  | trans first second third _ _ earlier later => exact earlier.trans later

/-- Every context is connected by cloning with one that is no clone. -/
theorem exists_head
    (traced : Traced origins made)
    (there : made[index]? = some context) :
    ∃ head origin, SameFamily origins index head ∧ made[head]? = some context ∧
      origins[head]? = some origin ∧ ∀ parent, origin ≠ .clone parent := by
  induction index using Nat.strongRecOn with
  | ind index inductionHypothesis =>
      obtain ⟨origin, found⟩ := traced.exists_origin there
      cases origin with
      | root => exact ⟨index, _, .refl index, there, found, by rintro _ ⟨⟩⟩
      | derived parent added => exact ⟨index, _, .refl index, there, found, by rintro _ ⟨⟩⟩
      | clone parent =>
          obtain ⟨same, before⟩ := traced.clone found there
          obtain ⟨head, origin, family, rest⟩ := inductionHypothesis parent before same
          exact ⟨head, origin, .trans _ _ _ (.rel _ _ found) family, rest⟩

/-- A context that is no clone has a family that no earlier one has. -/
theorem family_ne_of_lt
    (traced : Traced origins made)
    (found : origins[second]? = some origin)
    (head : ∀ parent, origin ≠ .clone parent)
    (there : made[index]? = some context)
    (otherThere : made[second]? = some other)
    (before : index < second) :
    context.family ≠ other.family := by
  have explained := traced.explains found otherThere
  have earlier := mem_take there before
  cases origin with
  | root => exact (explained.2 context earlier).2
  | derived parent added => exact explained.2 context earlier
  | clone parent => exact absurd rfl (head parent)

/-- Contexts have one family just if they are connected by cloning. -/
theorem family_eq_iff
    (traced : Traced origins made)
    (there : made[index]? = some context)
    (otherThere : made[second]? = some other) :
    context.family = other.family ↔ SameFamily origins index second := by
  constructor
  · intro same
    obtain ⟨head, origin, family, headThere, found, first⟩ := traced.exists_head there
    obtain ⟨otherHead, otherOrigin, otherFamily, otherHeadThere, otherFound, otherFirst⟩ :=
      traced.exists_head otherThere
    have one : head = otherHead := by
      rcases Nat.lt_trichotomy head otherHead with before | one | after
      · exact absurd same
          (traced.family_ne_of_lt otherFound otherFirst headThere otherHeadThere before)
      · exact one
      · exact absurd same.symm (traced.family_ne_of_lt found first otherHeadThere headThere after)
    subst one
    exact .trans _ _ _ family (.symm _ _ otherFamily)
  · intro family
    have same := traced.getElem?_eq family
    rw [there, otherThere] at same
    rw [Option.some.inj same]

/-! ## Sessions -/

/-- A child has the session of its parent, which is older. -/
theorem child
    (traced : Traced origins made)
    (child : IsChild origins index parent)
    (there : made[index]? = some context) :
    ∃ source, made[parent]? = some source ∧ context.session = source.session ∧ parent < index := by
  rcases child with cloned | ⟨added, derived⟩
  · obtain ⟨same, before⟩ := traced.clone cloned there
    exact ⟨context, same, rfl, before⟩
  · obtain ⟨⟨source, found, session, -⟩, -⟩ := traced.explains derived there
    obtain ⟨found, before⟩ := getElem?_of_take found
    exact ⟨source, found, session, before⟩

theorem session_eq_of_descends
    (traced : Traced origins made)
    (descends : Relation.ReflTransGen (IsChild origins) index parent)
    (there : made[index]? = some context) :
    ∃ source, made[parent]? = some source ∧ context.session = source.session := by
  induction descends with
  | refl => exact ⟨context, there, rfl⟩
  | tail _ child inductionHypothesis =>
      obtain ⟨middle, found, session⟩ := inductionHypothesis
      obtain ⟨source, sourceFound, same, -⟩ := traced.child child found
      exact ⟨source, sourceFound, session.trans same⟩

/-- Every context descends from a root. -/
theorem exists_root
    (traced : Traced origins made)
    (there : made[index]? = some context) :
    ∃ root, HasRoot origins index root := by
  induction index using Nat.strongRecOn generalizing context with
  | ind index inductionHypothesis =>
      have descend : ∀ {parent}, IsChild origins index parent →
          ∃ root, HasRoot origins index root := by
        intro parent child
        obtain ⟨source, found, -, before⟩ := traced.child child there
        obtain ⟨root, descends, isRoot⟩ := inductionHypothesis parent before found
        exact ⟨root, .head child descends, isRoot⟩
      obtain ⟨origin, found⟩ := traced.exists_origin there
      cases origin with
      | root => exact ⟨index, .refl, found⟩
      | clone parent => exact descend (.inl found)
      | derived parent added => exact descend (.inr ⟨added, found⟩)

/-- Contexts have one session just if they descend from one root. -/
theorem session_eq_iff
    (traced : Traced origins made)
    (there : made[index]? = some context)
    (otherThere : made[second]? = some other) :
    context.session = other.session ↔
      ∃ root, HasRoot origins index root ∧ HasRoot origins second root := by
  constructor
  · intro same
    obtain ⟨root, descends, isRoot⟩ := traced.exists_root there
    obtain ⟨otherRoot, otherDescends, otherIsRoot⟩ := traced.exists_root otherThere
    obtain ⟨source, found, session⟩ := traced.session_eq_of_descends descends there
    obtain ⟨otherSource, otherFound, otherSession⟩ :=
      traced.session_eq_of_descends otherDescends otherThere
    have sessions : source.session = otherSource.session := by
      rw [← session, ← otherSession, same]
    have one : root = otherRoot := by
      rcases Nat.lt_trichotomy root otherRoot with before | one | after
      · exact absurd sessions
          ((traced.explains otherIsRoot otherFound).2 source (mem_take found before)).1
      · exact one
      · exact absurd sessions.symm
          ((traced.explains isRoot found).2 otherSource (mem_take otherFound after)).1
    subst one
    exact ⟨root, ⟨descends, isRoot⟩, otherDescends, otherIsRoot⟩
  · rintro ⟨root, ⟨descends, -⟩, otherDescends, -⟩
    obtain ⟨source, found, session⟩ := traced.session_eq_of_descends descends there
    obtain ⟨again, foundAgain, otherSession⟩ :=
      traced.session_eq_of_descends otherDescends otherThere
    cases found.symm.trans foundAgain
    rw [session, otherSession]

/-! ## Key-values -/

/-- A context has the key-values that were added on the way from its root. -/
theorem collects
    (traced : Traced origins made)
    (there : made[index]? = some context) :
    Collects origins index context.keyValues := by
  induction index using Nat.strongRecOn generalizing context with
  | ind index inductionHypothesis =>
      obtain ⟨origin, found⟩ := traced.exists_origin there
      have explained := traced.explains found there
      cases origin with
      | root =>
          rw [explained.1]
          exact .root found
      | clone parent =>
          obtain ⟨same, before⟩ := getElem?_of_take explained
          exact .clone found (inductionHypothesis parent before same)
      | derived parent added =>
          obtain ⟨⟨source, sourceFound, -, keyValues⟩, -⟩ := explained
          obtain ⟨sourceFound, before⟩ := getElem?_of_take sourceFound
          rw [keyValues]
          exact .derived found (inductionHypothesis parent before sourceFound)

end Traced
end BuildQueue
