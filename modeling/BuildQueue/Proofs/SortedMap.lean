import BuildQueue.SortedMap
import Mathlib.Data.List.Forall2
import Mathlib.Data.List.Nodup

/-!
# Many insertions into a sorted map

After some entries were inserted, a key gives the last value that was inserted under it, or else
what it gave before. Entries without a key twice all stay, so that the map made of them lists just
these entries. Two maps list related entries just if what they hold under each key is related.
-/

namespace BuildQueue
namespace SortedMap

variable {κ ν : Type} [Ord κ]

/-! ## Look-ups in entry lists -/

theorem lookup_append
    (key : κ)
    (first rest : List (κ × ν)) :
    lookup key (first ++ rest) = (lookup key first).or (lookup key rest) := by
  induction first with
  | nil => rfl
  | cons entry first inductionHypothesis =>
      by_cases same : compare key entry.1 = .eq
      · simp [lookup, same]
      · simp [lookup, same, inductionHypothesis]

theorem isSome_lookup_iff [Std.LawfulEqOrd κ]
    {key : κ}
    {entries : List (κ × ν)} :
    (lookup key entries).isSome ↔ key ∈ entries.map Prod.fst := by
  induction entries with
  | nil => simp [lookup]
  | cons entry rest inductionHypothesis =>
      by_cases same : compare key entry.1 = .eq
      · simp [lookup, Std.LawfulEqCmp.eq_of_compare same]
      · have different : key ≠ entry.1 := by
          rintro rfl
          exact same Std.ReflCmp.compare_self
        simp [lookup, same, different, inductionHypothesis]

/-- Related entries hold related values under each key. -/
theorem rel_lookup_of_forall₂
    {μ : Type}
    {relation : ν → μ → Prop}
    {entries : List (κ × ν)}
    {others : List (κ × μ)}
    (related : List.Forall₂ (fun first second => first.1 = second.1 ∧ relation first.2 second.2)
      entries others)
    (key : κ) :
    Option.Rel relation (lookup key entries) (lookup key others) := by
  induction related with
  | nil => exact .none
  | @cons first second _ _ head tail inductionHypothesis =>
      obtain ⟨sameKey, values⟩ := head
      unfold lookup
      rw [← sameKey]
      split
      · exact .some values
      · exact inductionHypothesis

/-- Maps that list the same keys hold something under the same keys. -/
theorem isSome_get?_of_keys_eq [Std.LawfulEqOrd κ]
    {map other : SortedMap κ ν}
    (same : map.keys = other.keys)
    (key : κ) :
    (map.get? key).isSome = (other.get? key).isSome := by
  rw [Bool.eq_iff_iff, get?, get?, isSome_lookup_iff, isSome_lookup_iff]
  change key ∈ map.keys ↔ key ∈ other.keys
  rw [same]

/-- A map lists no key twice. -/
theorem nodup_keys [Std.LawfulEqOrd κ] (map : SortedMap κ ν) : map.keys.Nodup := by
  rw [keys, List.Nodup, List.pairwise_map]
  exact map.ascending.imp fun below same => by simp [same] at below

theorem nodup_entries [Std.LawfulEqOrd κ] (map : SortedMap κ ν) : map.entries.Nodup :=
  List.Nodup.of_map Prod.fst (nodup_keys map)

/-! ## What insertions make of a map -/

variable [Std.TransOrd κ] [Std.LawfulEqOrd κ] {map : SortedMap κ ν} {entries : List (κ × ν)}
  {key : κ} {value : ν}

@[simp] theorem insertAll_nil (map : SortedMap κ ν) : map.insertAll [] = map := rfl

theorem insertAll_append
    (map : SortedMap κ ν)
    (first rest : List (κ × ν)) :
    map.insertAll (first ++ rest) = (map.insertAll first).insertAll rest :=
  List.foldl_append

/-- After some insertions a key gives the last value inserted under it, or what it gave before. -/
theorem get?_insertAll
    (map : SortedMap κ ν)
    (entries : List (κ × ν))
    (key : κ) :
    (map.insertAll entries).get? key = (lookup key entries.reverse).or (map.get? key) := by
  induction entries generalizing map with
  | nil => rfl
  | cons entry rest inductionHypothesis =>
      change ((map.insert entry.1 entry.2).insertAll rest).get? key = _
      rw [inductionHypothesis, get?_insert, List.reverse_cons, lookup_append, Option.or_assoc]
      by_cases same : compare key entry.1 = .eq <;> simp [lookup, same]

/-- A value in a map after some insertions was inserted or there before. -/
theorem get?_insertAll_cases
    (found : (map.insertAll entries).get? key = some value) :
    (key, value) ∈ entries ∨ map.get? key = some value := by
  rw [get?_insertAll, Option.or_eq_some_iff] at found
  refine found.imp (fun inserted => ?_) And.right
  simpa using mem_of_lookup_eq_some inserted

/-- A value in a map after some items were inserted under keys of their own is one of the items, or
was there before. -/
theorem get?_insertAll_map_cases
    {keyOf : ν → κ}
    {items : List ν}
    (found : (map.insertAll (items.map fun item => (keyOf item, item))).get? key = some value) :
    (value ∈ items ∧ keyOf value = key) ∨ map.get? key = some value := by
  refine (get?_insertAll_cases found).imp_left fun inserted => ?_
  obtain ⟨item, listed, same⟩ := List.mem_map.1 inserted
  cases same
  exact ⟨listed, rfl⟩

/-- A map after some insertions has the keys that were inserted and those that it had before. -/
theorem isSome_get?_insertAll :
    ((map.insertAll entries).get? key).isSome ↔
      key ∈ entries.map Prod.fst ∨ (map.get? key).isSome := by
  rw [get?_insertAll, Option.isSome_or, Bool.or_eq_true, isSome_lookup_iff]
  simp

/-- Insertions under other keys leave a value as it is. -/
theorem get?_insertAll_of_notMem
    (other : key ∉ entries.map Prod.fst) :
    (map.insertAll entries).get? key = map.get? key := by
  have missing : lookup key entries.reverse = none := by
    rw [← Option.not_isSome_iff_eq_none, isSome_lookup_iff]
    simpa using other
  rw [get?_insertAll, missing, Option.none_or]

/-- Of entries without a key twice each one stays. -/
theorem get?_insertAll_of_mem
    (distinct : (entries.map Prod.fst).Nodup)
    (listed : (key, value) ∈ entries) :
    (map.insertAll entries).get? key = some value := by
  induction entries generalizing map with
  | nil => cases listed
  | cons entry rest inductionHypothesis =>
      rw [List.map_cons, List.nodup_cons] at distinct
      change ((map.insert entry.1 entry.2).insertAll rest).get? key = _
      rcases List.mem_cons.1 listed with rfl | later
      · rw [get?_insertAll_of_notMem distinct.1, get?_insert, if_pos Std.ReflCmp.compare_self]
      · exact inductionHypothesis distinct.2 later

/-! ## Maps of entry lists -/

theorem get?_ofList_eq_some_iff
    (distinct : (entries.map Prod.fst).Nodup) :
    (ofList entries).get? key = some value ↔ (key, value) ∈ entries :=
  ⟨fun found => (get?_insertAll_cases found).resolve_right (by rintro ⟨⟩),
    get?_insertAll_of_mem distinct⟩

theorem contains_ofList : (ofList entries).contains key = true ↔ key ∈ entries.map Prod.fst := by
  rw [contains, ofList, isSome_get?_insertAll]
  exact or_iff_left (by rintro ⟨⟩)

/-- A map of entries without a key twice lists just these entries. -/
theorem perm_entries_ofList
    (distinct : (entries.map Prod.fst).Nodup) :
    (ofList entries).entries.Perm entries := by
  rw [List.perm_ext_iff_of_nodup (nodup_entries _) (List.Nodup.of_map Prod.fst distinct)]
  rintro ⟨key, value⟩
  rw [← get?_eq_some_iff, get?_ofList_eq_some_iff distinct]

/-- A key that holds nothing gets one more entry. -/
theorem perm_entries_insert
    (missing : map.get? key = none) :
    (map.insert key value).entries.Perm (map.entries ++ [(key, value)]) := by
  have new : (key, value) ∉ map.entries := fun listed => by
    rw [get?_eq_some_iff.2 listed] at missing
    cases missing
  have distinct : (map.entries ++ [(key, value)]).Nodup :=
    List.nodup_append.2 ⟨nodup_entries map, List.nodup_singleton _, fun entry listed last isLast =>
      fun same => new (List.mem_singleton.1 isLast ▸ same ▸ listed)⟩
  rw [List.perm_ext_iff_of_nodup (nodup_entries _) distinct]
  rintro ⟨other, held⟩
  rw [← get?_eq_some_iff, get?_insert, List.mem_append, ← get?_eq_some_iff, List.mem_singleton]
  by_cases same : compare other key = .eq
  · obtain rfl := Std.LawfulEqCmp.eq_of_compare same
    rw [if_pos same, missing]
    simp [eq_comm]
  · have different : other ≠ key := by
      rintro rfl
      exact same Std.ReflCmp.compare_self
    simp [different]

/-- A map is determined by its entries, whatever their order. -/
theorem eq_of_perm
    {other : SortedMap κ ν}
    (same : map.entries.Perm other.entries) :
    map = other :=
  ext_entries (entries_eq_of_mem_iff map.ascending other.ascending fun _ => same.mem_iff)

/-- The entries of another map are put in place of those under its keys. -/
theorem get?_insertAll_entries
    (map other : SortedMap κ ν)
    (key : κ) :
    (map.insertAll other.entries).get? key = (other.get? key).or (map.get? key) := by
  cases found : other.get? key with
  | some value =>
      rw [get?_insertAll_of_mem (nodup_keys other) (get?_eq_some_iff.1 found), Option.some_or]
  | none =>
      refine get?_insertAll_of_notMem fun listed => ?_
      rw [← isSome_lookup_iff] at listed
      change (other.get? key).isSome = true at listed
      simp [found] at listed

/-- A map is what its entries make. -/
@[simp] theorem ofList_entries (map : SortedMap κ ν) : ofList map.entries = map :=
  ext_get? fun key => by
    rw [ofList, get?_insertAll_entries]
    exact Option.or_none

/-! ## Values with keys of their own -/

/-- Each value stands under the key that is its own. -/
def FiledBy (keyOf : ν → κ) (map : SortedMap κ ν) : Prop :=
  ∀ key value, map.get? key = some value → keyOf value = key

namespace FiledBy

variable {keyOf : ν → κ} {other : SortedMap κ ν}

theorem entries_eq (filed : map.FiledBy keyOf) :
    map.entries = map.values.map fun value => (keyOf value, value) := by
  rw [values, List.map_map]
  refine (List.map_id' map.entries).symm.trans (List.map_congr_left fun entry listed => ?_)
  rw [Function.comp_apply, filed entry.1 entry.2 (get?_eq_some_iff.2 listed)]

theorem get?_eq_some_iff (filed : map.FiledBy keyOf) :
    map.get? key = some value ↔ value ∈ map.values ∧ keyOf value = key := by
  constructor
  · intro found
    exact ⟨mem_values_iff.2 ⟨key, found⟩, filed key value found⟩
  · rintro ⟨listed, rfl⟩
    obtain ⟨key, found⟩ := mem_values_iff.1 listed
    rwa [filed key value found]

/-- The values are listed in the order of their keys. -/
theorem pairwise_values (filed : map.FiledBy keyOf) :
    map.values.Pairwise fun first second => compare (keyOf first) (keyOf second) = .lt := by
  have ascending := map.ascending
  rw [filed.entries_eq] at ascending
  exact List.pairwise_map.1 ascending

/-- Such a map is determined by the list of its values. -/
theorem eq_of_values
    (filed : map.FiledBy keyOf)
    (filedToo : other.FiledBy keyOf)
    (same : map.values = other.values) :
    map = other :=
  ext_entries (by rw [filed.entries_eq, filedToo.entries_eq, same])

end FiledBy

/-! ## Maps that hold related values -/

section

variable {μ ρ : Type} {relation : ν → μ → Prop} {first : Option ν} {second : Option μ}

theorem isSome_eq_of_rel (related : Option.Rel relation first second) :
    first.isSome = second.isSome := by
  cases related <;> rfl

theorem map_eq_of_rel
    {f : ν → ρ}
    {g : μ → ρ}
    (related : Option.Rel relation first second)
    (same : ∀ value other, relation value other → f value = g other) :
    first.map f = second.map g := by
  cases related with
  | none => rfl
  | some values => exact congrArg some (same _ _ values)

theorem forall_eq_some_iff_of_rel
    {p : ν → Prop}
    {q : μ → Prop}
    (related : Option.Rel relation first second)
    (same : ∀ value other, relation value other → (p value ↔ q other)) :
    (∀ value, first = some value → p value) ↔ ∀ other, second = some other → q other := by
  cases related with
  | none => simp
  | some values => simpa using same _ _ values

end

section

variable {μ : Type} {other : SortedMap κ μ}

/-- Maps that hold something under the same keys list the same keys. -/
theorem keys_eq_of_isSome
    (same : ∀ key, (map.get? key).isSome = (other.get? key).isSome) :
    map.keys = other.keys := by
  have blank : map.mapValues (fun _ _ => ()) = other.mapValues fun _ _ => () := by
    refine ext_get? fun key => ?_
    have sameKey := same key
    cases found : map.get? key <;> cases foundToo : other.get? key <;>
      simp [found, foundToo] at sameKey ⊢
  simpa using congrArg keys blank

theorem keys_eq_of_rel
    {relation : ν → μ → Prop}
    (related : ∀ key, Option.Rel relation (map.get? key) (other.get? key)) :
    map.keys = other.keys :=
  keys_eq_of_isSome fun key => isSome_eq_of_rel (related key)

/-- The entries of two maps are related one by one just if what they hold under each key is. -/
theorem forall₂_entries_iff (relation : ν → μ → Prop) :
    List.Forall₂ (fun first second => first.1 = second.1 ∧ relation first.2 second.2)
        map.entries other.entries ↔
      ∀ key, Option.Rel relation (map.get? key) (other.get? key) := by
  refine ⟨rel_lookup_of_forall₂, fun related => ?_⟩
  have keys : map.keys = other.keys := keys_eq_of_rel related
  have aligned : List.Forall₂ (fun first second => first.1 = second.1)
      map.entries other.entries := by
    have equal : List.Forall₂ Eq map.keys other.keys := by
      rw [keys, List.forall₂_eq_eq_eq]
    rwa [SortedMap.keys, SortedMap.keys, List.forall₂_map_left_iff, List.forall₂_map_right_iff]
      at equal
  rw [List.forall₂_iff_zip] at aligned ⊢
  refine ⟨aligned.1, fun {first second} paired => ?_⟩
  have sameKey : first.1 = second.1 := aligned.2 paired
  have found := get?_eq_some_iff.2 (List.of_mem_zip paired).1
  have foundToo := get?_eq_some_iff.2 (List.of_mem_zip paired).2
  have values := related first.1
  rw [found, sameKey, foundToo] at values
  cases values with
  | some values => exact ⟨sameKey, values⟩

end

end SortedMap
end BuildQueue
