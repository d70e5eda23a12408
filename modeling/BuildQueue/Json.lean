import BuildQueue.Binary64

/-!
# JSON values

Property values are JSON. A number is an integer or a binary64 number, and the two never
compare as equal. The members of an object are kept in ascending order of their names, each name
once, so that the order in which they were written does not matter.

`Json.same` is equality of values; it differs from identity only in that the two floating-point
zeros count as equal. It is an equivalence: `same_refl`, `same_symm`, `same_trans`.
-/

namespace BuildQueue

/-- A JSON value. -/
inductive Json where
  | null
  | bool (value : Bool)
  | integer (value : Int)
  | float (value : Binary64)
  | string (value : String)
  | array (items : List Json)
  | object (members : List (String × Json))
deriving Inhabited

namespace Json

mutual

/-- Whether two values are equal as JSON values. -/
def same : Json → Json → Bool
  | .null, .null => true
  | .bool a, .bool b => a == b
  | .integer a, .integer b => a == b
  | .float a, .float b => a.same b
  | .string a, .string b => a == b
  | .array as, .array bs => sameItems as bs
  | .object as, .object bs => sameMembers as bs
  | _, _ => false

/-- Whether two lists hold equal values at each place. -/
def sameItems : List Json → List Json → Bool
  | [], [] => true
  | a :: as, b :: bs => same a b && sameItems as bs
  | _, _ => false

/-- Whether two member lists have the same names and equal values. -/
def sameMembers : List (String × Json) → List (String × Json) → Bool
  | [], [] => true
  | (m, a) :: as, (n, b) :: bs => m == n && same a b && sameMembers as bs
  | _, _ => false

end

instance : BEq Json := ⟨same⟩

/-- The member list with one member put in its place, instead of the old one of that name. -/
def putMember (name : String) (value : Json) : List (String × Json) → List (String × Json)
  | [] => [(name, value)]
  | (n, v) :: rest =>
    match compare name n with
    | .lt => (name, value) :: (n, v) :: rest
    | .eq => (name, value) :: rest
    | .gt => (n, v) :: putMember name value rest

/-- The object with the given members, of which the last of a name stays. -/
def ofMembers (members : List (String × Json)) : Json :=
  .object (members.foldl (fun sorted member => putMember member.1 member.2 sorted) [])

/-- The member of an object under a name. -/
def member? (name : String) : Json → Option Json
  | .object members => members.lookup name
  | _ => none

/-- The value of a string. -/
def string? : Json → Option String
  | .string value => some value
  | _ => none

/-- The value of a boolean. -/
def bool? : Json → Option Bool
  | .bool value => some value
  | _ => none

/-- The items of an array. -/
def array? : Json → Option (List Json)
  | .array items => some items
  | _ => none

/-- The value of an integer. -/
def integer? : Json → Option Int
  | .integer value => some value
  | _ => none

mutual

theorem same_refl : ∀ a : Json, same a a = true
  | .null => rfl
  | .bool a => by simp [same]
  | .integer a => by simp [same]
  | .float a => by simp [same, Binary64.same_refl]
  | .string a => by simp [same]
  | .array as => by simp [same, sameItems_refl as]
  | .object as => by simp [same, sameMembers_refl as]

theorem sameItems_refl : ∀ as : List Json, sameItems as as = true
  | [] => rfl
  | a :: as => by simp [sameItems, same_refl a, sameItems_refl as]

theorem sameMembers_refl : ∀ as : List (String × Json), sameMembers as as = true
  | [] => rfl
  | (_, a) :: as => by simp [sameMembers, same_refl a, sameMembers_refl as]

end

mutual

theorem same_symm : ∀ {a b : Json}, same a b = true → same b a = true
  | .null, .null, _ => rfl
  | .bool _, .bool _, h => by
    simp only [same, beq_iff_eq] at h ⊢
    exact h.symm
  | .integer _, .integer _, h => by
    simp only [same, beq_iff_eq] at h ⊢
    exact h.symm
  | .float _, .float _, h => by
    simp only [same] at h ⊢
    exact Binary64.same_symm h
  | .string _, .string _, h => by
    simp only [same, beq_iff_eq] at h ⊢
    exact h.symm
  | .array _, .array _, h => by
    simp only [same] at h ⊢
    exact sameItems_symm h
  | .object _, .object _, h => by
    simp only [same] at h ⊢
    exact sameMembers_symm h

theorem sameItems_symm : ∀ {as bs : List Json}, sameItems as bs = true → sameItems bs as = true
  | [], [], _ => rfl
  | a :: as, b :: bs, h => by
    simp only [sameItems, Bool.and_eq_true] at h ⊢
    exact ⟨same_symm h.1, sameItems_symm h.2⟩

theorem sameMembers_symm :
    ∀ {as bs : List (String × Json)}, sameMembers as bs = true → sameMembers bs as = true
  | [], [], _ => rfl
  | (m, a) :: as, (n, b) :: bs, h => by
    simp only [sameMembers, Bool.and_eq_true, beq_iff_eq] at h ⊢
    exact ⟨⟨h.1.1.symm, same_symm h.1.2⟩, sameMembers_symm h.2⟩

end

mutual

theorem same_trans :
    ∀ {a b c : Json}, same a b = true → same b c = true → same a c = true
  | .null, .null, .null, _, _ => rfl
  | .bool _, .bool _, .bool _, h, h' => by
    simp only [same, beq_iff_eq] at h h' ⊢
    exact h.trans h'
  | .integer _, .integer _, .integer _, h, h' => by
    simp only [same, beq_iff_eq] at h h' ⊢
    exact h.trans h'
  | .float _, .float _, .float _, h, h' => by
    simp only [same] at h h' ⊢
    exact Binary64.same_trans h h'
  | .string _, .string _, .string _, h, h' => by
    simp only [same, beq_iff_eq] at h h' ⊢
    exact h.trans h'
  | .array _, .array _, .array _, h, h' => by
    simp only [same] at h h' ⊢
    exact sameItems_trans h h'
  | .object _, .object _, .object _, h, h' => by
    simp only [same] at h h' ⊢
    exact sameMembers_trans h h'

theorem sameItems_trans :
    ∀ {as bs cs : List Json}, sameItems as bs = true → sameItems bs cs = true →
      sameItems as cs = true
  | [], [], [], _, _ => rfl
  | _ :: _, _ :: _, _ :: _, h, h' => by
    simp only [sameItems, Bool.and_eq_true] at h h' ⊢
    exact ⟨same_trans h.1 h'.1, sameItems_trans h.2 h'.2⟩

theorem sameMembers_trans :
    ∀ {as bs cs : List (String × Json)}, sameMembers as bs = true → sameMembers bs cs = true →
      sameMembers as cs = true
  | [], [], [], _, _ => rfl
  | (_, _) :: _, (_, _) :: _, (_, _) :: _, h, h' => by
    simp only [sameMembers, Bool.and_eq_true, beq_iff_eq] at h h' ⊢
    exact ⟨⟨h.1.1.trans h'.1.1, same_trans h.1.2 h'.1.2⟩, sameMembers_trans h.2 h'.2⟩

end

end Json
end BuildQueue
