import BuildQueue.Json.Form
import Mathlib.Data.List.Forall2

/-!
# Other ways to write a record

A record that is written as an object can also be written with some of its null fields left out and
with fields of other names added, or as the array of its fields. Reading finds the same under each
field: the value that stands there, or nothing in place of null.
-/

namespace BuildQueue
namespace Json

variable {α : Type}

/-! ## Restatements -/

/-- What stands under each name in an object. -/
def Written (written : Json) (name : String) (value : Json) : Prop :=
  written.member? name = some value

/-- Members hold a value that is shown under a name, or nothing in place of null. -/
def Holds (members : List (String × Json)) (name : String) (shown : Json → Prop) : Prop :=
  (∃ value, members.lookup name = some value ∧ shown value) ∨
    members.lookup name = none ∧ shown .null

/-- Ways to write a record with the given fields, if `shown` says what may stand under each of
them: as an object, in which there may be others and some are missing that may be null, or as the
array of the fields. -/
inductive Restates (names : List String) (shown : String → Json → Prop) : Json → Prop
  | object {members : List (String × Json)}
      (kept : ∀ name ∈ names, Holds members name (shown name)) :
      Restates names shown (.object members)
  | array {items : List Json}
      (kept : List.Forall₂ shown names items) :
      Restates names shown (.array items)

theorem Holds.mono
    {members : List (String × Json)}
    {name : String}
    {shown other : Json → Prop}
    (shows : ∀ json, shown json → other json)
    (holds : Holds members name shown) :
    Holds members name other := by
  obtain ⟨json, found, shown⟩ | ⟨missing, shown⟩ := holds
  · exact .inl ⟨json, found, shows json shown⟩
  · exact .inr ⟨missing, shows .null shown⟩

theorem Restates.mono
    {names : List String}
    {shown other : String → Json → Prop}
    {json : Json}
    (shows : ∀ name value, shown name value → other name value)
    (restates : Restates names shown json) :
    Restates names other json := by
  cases restates with
  | object kept => exact .object fun name listed => (kept name listed).mono (shows name)
  | array kept => exact .array (kept.imp shows)

theorem Restates.ne_null
    {names : List String}
    {shown : String → Json → Prop}
    {json : Json}
    (restates : Restates names shown json) :
    json ≠ .null := by
  cases restates <;> exact nofun

/-- What was written restates itself if all fields are there. -/
theorem Restates.written
    {names : List String}
    {members : List (String × Json)}
    (complete : (names.all fun name => (members.lookup name).isSome) = true) :
    Restates names (Written (.object members)) (.object members) := by
  refine .object fun name listed => .inl ?_
  obtain ⟨value, found⟩ := Option.isSome_iff_exists.1 (List.all_eq_true.1 complete name listed)
  exact ⟨value, found, found⟩

/-- The items of an array stand under the names of the fields. -/
theorem holds_zip
    {names : List String}
    {shown : String → Json → Prop}
    {items : List Json}
    (kept : List.Forall₂ shown names items)
    {name : String}
    (listed : name ∈ names) :
    Holds (names.zip items) name (shown name) := by
  refine .inl ?_
  induction kept with
  | nil => cases listed
  | @cons first item _ _ head _ inductionHypothesis =>
      by_cases same : name = first
      · subst same
        exact ⟨item, by simp, head⟩
      · obtain ⟨value, found, shows⟩ :=
          inductionHypothesis ((List.mem_cons.1 listed).resolve_left same)
        refine ⟨value, ?_, shows⟩
        rwa [List.zip_cons_cons, List.lookup_cons, beq_false_of_ne same]

theorem record_of_value
    {names : List String}
    {fields : Members → Reading α}
    {json : Json}
    {met : List (String × Json)}
    {row : α}
    (found : Members.of? names json = .ok ⟨met, true⟩)
    (read : fields ⟨met, true⟩ = .value row) :
    record names fields json = .ok row := by
  rw [record, found]
  simp only [bind, Except.bind, read]
  rfl

/-- A record is read from a restatement if it is read from all members that hold what is shown. -/
theorem record_of_restates
    {names : List String}
    {shown : String → Json → Prop}
    {fields : Members → Reading α}
    {json : Json}
    {row : α}
    (restates : Restates names shown json)
    (reads : ∀ members : Members, (∀ name ∈ names, Holds members.met name (shown name)) →
      fields members = .value row) :
    record names fields json = .ok row := by
  cases restates with
  | object kept => exact record_of_value rfl (reads ⟨_, true⟩ kept)
  | @array items kept =>
      have found : Members.of? names (.array items) = .ok ⟨names.zip items, true⟩ := by
        simp [Members.of?, kept.length_eq]
      exact record_of_value found
        (reads ⟨_, true⟩ fun _ listed => holds_zip kept listed)

/-! ## Fields -/

/-- A value is read from a form of it, which is not null. -/
structure Decoder.Recovers (decoder : Decoder α) (value : α) (json : Json) : Prop where
  read : decoder json = .ok value
  present : json ≠ .null

theorem Decoder.nullable_of_recovers
    {decoder : Decoder α}
    {value : α}
    {json : Json}
    (recovers : decoder.Recovers value json) :
    decoder.nullable json = .ok (some value) := by
  obtain ⟨read, present⟩ := recovers
  cases json with
  | null => exact absurd rfl present
  | _ => simp [nullable, read]

/-- An optional value is read from its form. -/
theorem Decoder.nullable_ofOption
    {decoder : Decoder α}
    {form : α → Json}
    {value : Option α}
    (recovers : ∀ content, value = some content → decoder.Recovers content (form content)) :
    decoder.nullable (ofOption form value) = .ok value := by
  cases value with
  | none => rfl
  | some content => exact nullable_of_recovers (recovers content rfl)

namespace Members

variable {members : Members} {name : String} {decoder : Decoder α}

theorem locate_map_snd (name : String) (place : Nat) (met : List (String × Json)) :
    (locate name place met).map (·.2) = met.lookup name := by
  induction met generalizing place with
  | nil => rfl
  | cons member rest inductionHypothesis =>
      obtain ⟨first, json⟩ := member
      by_cases same : first = name
      · subst same
        simp [locate]
      · rw [List.lookup_cons, beq_false_of_ne (Ne.symm same), ← inductionHypothesis (place + 1)]
        simp [locate, same]

theorem field_of_lookup
    {json : Json}
    {value : α}
    (found : members.met.lookup name = some json)
    (read : decoder json = .ok value) :
    members.field name decoder = .value value := by
  rw [← locate_map_snd name 0] at found
  obtain ⟨⟨place, _⟩, located, rfl⟩ := Option.map_eq_some_iff.1 found
  simp [field, located, readAt, read]

theorem optional_of_lookup
    {json : Json}
    {value : Option α}
    (found : members.met.lookup name = some json)
    (read : decoder.nullable json = .ok value) :
    members.optional name decoder = .value value := by
  rw [← locate_map_snd name 0] at found
  obtain ⟨⟨place, _⟩, located, rfl⟩ := Option.map_eq_some_iff.1 found
  simp [optional, located, readAt, read]

theorem optional_of_missing (missing : members.met.lookup name = none) :
    members.optional name decoder = .value none := by
  rw [← locate_map_snd name 0, Option.map_eq_none_iff] at missing
  simp [optional, missing]

end Members

namespace Holds

variable {members : Members} {name : String} {shown : Json → Prop} {decoder : Decoder α}

/-- A field that is not null is read from members that hold it. -/
theorem field
    {value : α}
    (holds : Holds members.met name shown)
    (recovers : ∀ json, shown json → decoder.Recovers value json) :
    members.field name decoder = .value value := by
  obtain ⟨json, found, shows⟩ | ⟨-, shows⟩ := holds
  · exact Members.field_of_lookup found (recovers json shows).read
  · exact absurd rfl (recovers _ shows).present

/-- A field that may be null is read from members that hold it. -/
theorem optional
    {value : Option α}
    (holds : Holds members.met name shown)
    (reads : ∀ json, shown json → decoder.nullable json = .ok value) :
    members.optional name decoder = .value value := by
  obtain ⟨json, found, shows⟩ | ⟨missing, shows⟩ := holds
  · exact Members.optional_of_lookup found (reads json shows)
  · rw [Members.optional_of_missing missing]
    cases reads .null shows
    rfl

/-- A field that was written is read from members that hold it. -/
theorem field_of_written
    {written json : Json}
    {value : α}
    (holds : Holds members.met name (Written written name))
    (known : written.member? name = some json)
    (recovers : decoder.Recovers value json) :
    members.field name decoder = .value value :=
  holds.field fun _ shows => Option.some.inj (known.symm.trans shows) ▸ recovers

/-- A field that was written, if only as null, is read from members that hold it. -/
theorem optional_of_written
    {written : Json}
    {form : α → Json}
    {value : Option α}
    (holds : Holds members.met name (Written written name))
    (known : written.member? name = some (ofOption form value))
    (recovers : ∀ content, value = some content → decoder.Recovers content (form content)) :
    members.optional name decoder = .value value :=
  holds.optional fun _ shows =>
    Option.some.inj (known.symm.trans shows) ▸ Decoder.nullable_ofOption recovers

end Holds
end Json
end BuildQueue
