/-!
# Sorted maps

A finite map is the list of its entries in strictly ascending key order. The order is part of
the type, so two maps with the same look-ups are the same map, and listing a map needs no sort.

The equations `get?_insert`, `get?_mapValues` and `get?_empty` say what each operation does to
look-ups, `ext_get?` that look-ups decide equality.
-/

namespace BuildQueue

open Std

/-- A finite map from `κ` to `ν`, kept in ascending key order. -/
structure SortedMap (κ ν : Type) [Ord κ] where
  /-- The entries of the map. -/
  entries : List (κ × ν)
  /-- Each key is smaller than every later one. -/
  ascending : entries.Pairwise fun a b => compare a.1 b.1 = .lt

namespace SortedMap

variable {κ ν μ : Type} [Ord κ]

/-- The value that an entry list holds under a key. -/
def lookup (key : κ) : List (κ × ν) → Option ν
  | [] => none
  | (k, v) :: rest => if compare key k = .eq then some v else lookup key rest

/-- The entry list with a value put under a key, in place of the old one if there is one. -/
def place (key : κ) (value : ν) : List (κ × ν) → List (κ × ν)
  | [] => [(key, value)]
  | (k, v) :: rest =>
    match compare key k with
    | .lt => (key, value) :: (k, v) :: rest
    | .eq => (key, value) :: rest
    | .gt => (k, v) :: place key value rest

theorem mem_place {key : κ} {value : ν} {entries : List (κ × ν)} {entry : κ × ν}
    (h : entry ∈ place key value entries) : entry = (key, value) ∨ entry ∈ entries := by
  induction entries with
  | nil => simpa [place] using h
  | cons head rest ih =>
    obtain ⟨k, v⟩ := head
    unfold place at h
    split at h
    · simpa using h
    · simp only [List.mem_cons] at h ⊢
      rcases h with h | h
      · exact .inl h
      · exact .inr (.inr h)
    · simp only [List.mem_cons] at h ⊢
      rcases h with h | h
      · exact .inr (.inl h)
      · rcases ih h with h | h
        · exact .inl h
        · exact .inr (.inr h)

theorem ascending_place [TransOrd κ] [LawfulEqOrd κ] (key : κ) (value : ν)
    {entries : List (κ × ν)} (h : entries.Pairwise fun a b => compare a.1 b.1 = .lt) :
    (place key value entries).Pairwise fun a b => compare a.1 b.1 = .lt := by
  induction entries with
  | nil => simp [place]
  | cons head rest ih =>
    obtain ⟨k, v⟩ := head
    rw [List.pairwise_cons] at h
    unfold place
    split
    · next hlt =>
      refine List.pairwise_cons.2 ⟨?_, List.pairwise_cons.2 h⟩
      intro entry hentry
      rcases List.mem_cons.1 hentry with rfl | hentry
      · exact hlt
      · exact TransCmp.lt_trans hlt (h.1 entry hentry)
    · next heq =>
      obtain rfl := LawfulEqCmp.eq_of_compare heq
      exact List.pairwise_cons.2 h
    · next hgt =>
      refine List.pairwise_cons.2 ⟨?_, ih h.2⟩
      intro entry hentry
      rcases mem_place hentry with rfl | hentry
      · exact OrientedCmp.lt_of_gt hgt
      · exact h.1 entry hentry

/-- The map without entries. -/
def empty : SortedMap κ ν := ⟨[], .nil⟩

instance : EmptyCollection (SortedMap κ ν) := ⟨empty⟩
instance : Inhabited (SortedMap κ ν) := ⟨empty⟩

/-- Two maps are equal when they list the same entries. -/
theorem ext_entries {m n : SortedMap κ ν} (h : m.entries = n.entries) : m = n := by
  cases m; cases n; cases h; rfl

instance [DecidableEq κ] [DecidableEq ν] : DecidableEq (SortedMap κ ν) := fun m n =>
  decidable_of_iff (m.entries = n.entries) ⟨ext_entries, fun h => h ▸ rfl⟩

instance [BEq κ] [BEq ν] : BEq (SortedMap κ ν) := ⟨fun m n => m.entries == n.entries⟩

/-- The value under a key. -/
def get? (m : SortedMap κ ν) (key : κ) : Option ν := lookup key m.entries

/-- Whether there is a value under a key. -/
def contains (m : SortedMap κ ν) (key : κ) : Bool := (m.get? key).isSome

/-- The keys in ascending order. -/
def keys (m : SortedMap κ ν) : List κ := m.entries.map (·.1)

/-- The values in the order of their keys. -/
def values (m : SortedMap κ ν) : List ν := m.entries.map (·.2)

/-- The number of entries. -/
def size (m : SortedMap κ ν) : Nat := m.entries.length

/-- Whether there are no entries. -/
def isEmpty (m : SortedMap κ ν) : Bool := m.entries.isEmpty

/-- The map with a value put under a key, in place of the old one if there is one. -/
def insert [TransOrd κ] [LawfulEqOrd κ] (m : SortedMap κ ν) (key : κ) (value : ν) :
    SortedMap κ ν :=
  ⟨place key value m.entries, ascending_place key value m.ascending⟩

/-- The map that results from inserting entries one after the other, so that the last value
under a key stays. -/
def insertAll [TransOrd κ] [LawfulEqOrd κ] (m : SortedMap κ ν) (entries : List (κ × ν)) :
    SortedMap κ ν :=
  entries.foldl (fun m entry => m.insert entry.1 entry.2) m

/-- The map of a list of entries, of which the last under a key stays. -/
def ofList [TransOrd κ] [LawfulEqOrd κ] (entries : List (κ × ν)) : SortedMap κ ν :=
  (empty : SortedMap κ ν).insertAll entries

/-- The map with each value replaced by a function of its key and itself. -/
def mapValues (f : κ → ν → μ) (m : SortedMap κ ν) : SortedMap κ μ :=
  ⟨m.entries.map fun entry => (entry.1, f entry.1 entry.2),
    List.pairwise_map.2 m.ascending⟩

/-- The entries that satisfy a condition. -/
def filter (p : κ → ν → Bool) (m : SortedMap κ ν) : SortedMap κ ν :=
  ⟨m.entries.filter fun entry => p entry.1 entry.2, m.ascending.filter _⟩

@[simp] theorem get?_empty (key : κ) : (∅ : SortedMap κ ν).get? key = none := rfl

@[simp] theorem entries_empty : (∅ : SortedMap κ ν).entries = [] := rfl

theorem lookup_eq_some_of_mem [TransOrd κ] [LawfulEqOrd κ] {entries : List (κ × ν)}
    (h : entries.Pairwise fun a b => compare a.1 b.1 = .lt) {key : κ} {value : ν}
    (hmem : (key, value) ∈ entries) : lookup key entries = some value := by
  induction entries with
  | nil => cases hmem
  | cons head rest ih =>
    obtain ⟨k, v⟩ := head
    rw [List.pairwise_cons] at h
    rcases List.mem_cons.1 hmem with heq | hmem
    · cases heq
      simp [lookup]
    · have hlt : compare k key = .lt := h.1 _ hmem
      have hne : compare key k ≠ .eq := by
        rw [OrientedCmp.gt_of_lt hlt]
        decide
      rw [lookup, if_neg hne]
      exact ih h.2 hmem

theorem mem_of_lookup_eq_some [LawfulEqOrd κ] {entries : List (κ × ν)} {key : κ} {value : ν}
    (h : lookup key entries = some value) : (key, value) ∈ entries := by
  induction entries with
  | nil => cases h
  | cons head rest ih =>
    obtain ⟨k, v⟩ := head
    unfold lookup at h
    split at h
    · next heq =>
      obtain rfl := LawfulEqCmp.eq_of_compare heq
      cases h
      exact List.mem_cons_self
    · exact List.mem_cons_of_mem _ (ih h)

/-- A map holds a value under a key exactly if it lists that entry. -/
theorem get?_eq_some_iff [TransOrd κ] [LawfulEqOrd κ] {m : SortedMap κ ν} {key : κ} {value : ν} :
    m.get? key = some value ↔ (key, value) ∈ m.entries :=
  ⟨mem_of_lookup_eq_some, lookup_eq_some_of_mem m.ascending⟩

theorem mem_keys_of_get?_eq_some [TransOrd κ] [LawfulEqOrd κ] {m : SortedMap κ ν} {key : κ}
    {value : ν} (found : m.get? key = some value) : key ∈ m.keys :=
  List.mem_map.2 ⟨(key, value), get?_eq_some_iff.1 found, rfl⟩

theorem mem_values_iff [TransOrd κ] [LawfulEqOrd κ] {m : SortedMap κ ν} {value : ν} :
    value ∈ m.values ↔ ∃ key, m.get? key = some value := by
  simp only [values, List.mem_map, Prod.exists, exists_eq_right, get?_eq_some_iff]

theorem lookup_place [TransOrd κ] [LawfulEqOrd κ] (key other : κ) (value : ν)
    (entries : List (κ × ν)) :
    lookup other (place key value entries) =
      if compare other key = .eq then some value else lookup other entries := by
  induction entries with
  | nil => rfl
  | cons head rest ih =>
    obtain ⟨k, v⟩ := head
    unfold place
    split
    · rfl
    · next heq =>
      obtain rfl := LawfulEqCmp.eq_of_compare heq
      by_cases h : compare other key = .eq <;> simp [lookup, h]
    · next hgt =>
      by_cases h : compare other k = .eq
      · obtain rfl := LawfulEqCmp.eq_of_compare h
        have hne : compare other key ≠ .eq := by
          rw [OrientedCmp.lt_of_gt hgt]
          decide
        simp [lookup, hne]
      · simp [lookup, h, ih]

/-- After an insertion the inserted key gives the inserted value and every other key what it
gave before. -/
theorem get?_insert [TransOrd κ] [LawfulEqOrd κ] (m : SortedMap κ ν) (key other : κ)
    (value : ν) :
    (m.insert key value).get? other =
      if compare other key = .eq then some value else m.get? other :=
  lookup_place key other value m.entries

theorem lookup_map (f : κ → ν → μ) [LawfulEqOrd κ] (key : κ) (entries : List (κ × ν)) :
    lookup key (entries.map fun entry => (entry.1, f entry.1 entry.2)) =
      (lookup key entries).map (f key) := by
  induction entries with
  | nil => rfl
  | cons head rest ih =>
    obtain ⟨k, v⟩ := head
    by_cases h : compare key k = .eq
    · obtain rfl := LawfulEqCmp.eq_of_compare h
      simp [lookup]
    · simp [lookup, h, ih]

/-- Replacing the values replaces what each key gives. -/
@[simp] theorem get?_mapValues [LawfulEqOrd κ] (f : κ → ν → μ) (m : SortedMap κ ν) (key : κ) :
    (m.mapValues f).get? key = (m.get? key).map (f key) :=
  lookup_map f key m.entries

/-- A condition on entries leaves a key without its value if it does not hold of the two. -/
@[simp] theorem get?_filter [TransOrd κ] [LawfulEqOrd κ] (p : κ → ν → Bool) (m : SortedMap κ ν)
    (key : κ) : (m.filter p).get? key = (m.get? key).filter (p key) := by
  refine Option.ext fun value => ?_
  rw [get?_eq_some_iff, Option.filter_eq_some_iff, get?_eq_some_iff]
  exact List.mem_filter

@[simp] theorem keys_mapValues (f : κ → ν → μ) (m : SortedMap κ ν) :
    (m.mapValues f).keys = m.keys := by
  simp [keys, mapValues]

theorem entries_eq_of_mem_iff [TransOrd κ] [LawfulEqOrd κ] {l r : List (κ × ν)}
    (hl : l.Pairwise fun a b => compare a.1 b.1 = .lt)
    (hr : r.Pairwise fun a b => compare a.1 b.1 = .lt)
    (h : ∀ entry, entry ∈ l ↔ entry ∈ r) : l = r := by
  induction l generalizing r with
  | nil =>
    cases r with
    | nil => rfl
    | cons head rest => exact absurd ((h head).2 List.mem_cons_self) (by simp)
  | cons a l ih =>
    cases r with
    | nil => exact absurd ((h a).1 List.mem_cons_self) (by simp)
    | cons b r =>
      rw [List.pairwise_cons] at hl hr
      have irrefl : ∀ e : κ × ν, compare e.1 e.1 ≠ .lt := fun e => by simp
      have hab : a = b := by
        rcases List.mem_cons.1 ((h a).1 List.mem_cons_self) with hab | har
        · exact hab
        · rcases List.mem_cons.1 ((h b).2 List.mem_cons_self) with hba | hbl
          · exact hba.symm
          · exact absurd (TransCmp.lt_trans (hl.1 b hbl) (hr.1 a har)) (irrefl a)
      subst hab
      congr 1
      refine ih hl.2 hr.2 fun entry => ?_
      constructor
      · intro hmem
        rcases List.mem_cons.1 ((h entry).1 (List.mem_cons_of_mem _ hmem)) with rfl | hmem'
        · exact absurd (hl.1 _ hmem) (irrefl _)
        · exact hmem'
      · intro hmem
        rcases List.mem_cons.1 ((h entry).2 (List.mem_cons_of_mem _ hmem)) with rfl | hmem'
        · exact absurd (hr.1 _ hmem) (irrefl _)
        · exact hmem'

/-- Maps that agree on every key are equal. -/
theorem ext_get? [TransOrd κ] [LawfulEqOrd κ] {m n : SortedMap κ ν}
    (h : ∀ key, m.get? key = n.get? key) : m = n := by
  refine ext_entries (entries_eq_of_mem_iff m.ascending n.ascending fun entry => ?_)
  obtain ⟨key, value⟩ := entry
  rw [← get?_eq_some_iff, ← get?_eq_some_iff, h]

end SortedMap
end BuildQueue
