import BuildQueue.Proofs.Text.Splitting
import BuildQueue.Proofs.View.Merging
import Mathlib.Data.List.Induction
import Mathlib.Data.List.Sort

/-!
# Merged reasons

Views that are merged give each of their reasons once, in the order in which they occur first. So a
view behind others adds nothing if its reason is among theirs, and as long as no reason contains
what separates them, the reasons can be read off the merged text.
-/

namespace BuildQueue
namespace View

variable {view : View} {texts front back listed other : List String} {text : String}

/-- A list has the texts of another that are not empty, each of them once, in the order in which
they occur there first. -/
structure ListsOnce (texts listed : List String) : Prop where
  mem_iff : ∀ {text}, text ∈ listed ↔ text ∈ texts ∧ text ≠ ""
  ordered : listed.Pairwise fun earlier later => texts.idxOf earlier < texts.idxOf later

namespace ListsOnce

theorem nil : ListsOnce [] [] := ⟨by simp, .nil⟩

/-- What is empty or has occurred before does not count. -/
theorem concat_idle
    (lists : ListsOnce texts listed)
    (idle : text = "" ∨ text ∈ texts) :
    ListsOnce (texts ++ [text]) listed where
  mem_iff := by
    intro one
    rw [lists.mem_iff, List.mem_append, List.mem_singleton]
    constructor
    · exact fun ⟨member, filled⟩ => ⟨.inl member, filled⟩
    · rintro ⟨member | rfl, filled⟩
      · exact ⟨member, filled⟩
      · exact ⟨idle.resolve_left filled, filled⟩
  ordered := by
    refine lists.ordered.imp_of_mem fun earlier later below => ?_
    rwa [List.idxOf_append_of_mem (lists.mem_iff.1 earlier).1,
      List.idxOf_append_of_mem (lists.mem_iff.1 later).1]

/-- What occurs for the first time comes last. -/
theorem concat_new
    (lists : ListsOnce texts listed)
    (filled : text ≠ "")
    (new : text ∉ texts) :
    ListsOnce (texts ++ [text]) (listed ++ [text]) where
  mem_iff := by
    intro one
    simp only [List.mem_append, List.mem_singleton, lists.mem_iff]
    constructor
    · rintro (⟨member, there⟩ | rfl)
      · exact ⟨.inl member, there⟩
      · exact ⟨.inr rfl, filled⟩
    · rintro ⟨member | rfl, there⟩
      · exact .inl ⟨member, there⟩
      · exact .inr rfl
  ordered := by
    refine List.pairwise_append.2
      ⟨?_, List.pairwise_singleton .., fun earlier before last end' => ?_⟩
    · refine lists.ordered.imp_of_mem fun earlier later below => ?_
      rwa [List.idxOf_append_of_mem (lists.mem_iff.1 earlier).1,
        List.idxOf_append_of_mem (lists.mem_iff.1 later).1]
    · obtain rfl := List.mem_singleton.1 end'
      have member := (lists.mem_iff.1 before).1
      rw [List.idxOf_append_of_mem member, List.idxOf_append_of_notMem new]
      exact Nat.lt_of_lt_of_le (List.idxOf_lt_length_iff.2 member) (Nat.le_add_right _ _)

/-- There is only one such list. -/
theorem unique
    (lists : ListsOnce texts listed)
    (again : ListsOnce texts other) :
    other = listed := by
  have antisymm : Std.Antisymm fun earlier later => texts.idxOf earlier < texts.idxOf later :=
    ⟨fun _ _ below above => absurd below (Nat.lt_asymm above)⟩
  have irrefl : Std.Irrefl fun earlier later => texts.idxOf earlier < texts.idxOf later :=
    ⟨fun _ => Nat.lt_irrefl _⟩
  exact again.ordered.eq_of_mem_iff lists.ordered fun _ => again.mem_iff.trans lists.mem_iff.symm

end ListsOnce

/-! ## Texts one after the other -/

theorem distinctTexts_concat (texts : List String) (text : String) :
    distinctTexts (texts ++ [text]) =
      if text = "" ∨ text ∈ distinctTexts texts then distinctTexts texts
      else distinctTexts texts ++ [text] := by
  simp [distinctTexts]

theorem listsOnce_distinctTexts (texts : List String) :
    ListsOnce texts (distinctTexts texts) := by
  induction texts using List.reverseRecOn with
  | nil => exact .nil
  | append_singleton texts text lists =>
      rw [distinctTexts_concat]
      split
      · next idle => exact lists.concat_idle (idle.imp_right fun known => (lists.mem_iff.1 known).1)
      · next new =>
        rw [not_or] at new
        exact lists.concat_new new.1 fun known => new.2 (lists.mem_iff.2 ⟨known, new.1⟩)

/-- A text behind others that is empty or among them changes nothing. -/
theorem distinctTexts_idle
    (idle : text = "" ∨ text ∈ front) :
    distinctTexts (front ++ text :: back) = distinctTexts (front ++ back) := by
  have same : distinctTexts (front ++ [text]) = distinctTexts front :=
    (listsOnce_distinctTexts front).concat_idle idle |>.unique (listsOnce_distinctTexts _)
  simp only [distinctTexts, List.foldl_append, List.foldl_cons, List.foldl_nil] at same ⊢
  rw [same]

/-- Merging reasons gives the distinct ones that are not empty, in the order in which they occur
first, joined by commas and blanks. A further view whose reason is empty or among those in front of
it changes nothing, wherever it stands. If no reason contains what joins them then the merged text
can be taken apart again. -/
theorem reasons_listed (view : View) (others : List View) :
    let reasons := (view :: others).map (·.reason)
    ∃ listed, (ListsOnce reasons listed ∧ ∀ other, ListsOnce reasons other → other = listed) ∧
      view.mergeReasons others = String.intercalate ", " listed ∧
        (∀ before added after, others = before ++ after →
          (added.reason = "" ∨ ∃ earlier ∈ view :: before, earlier.reason = added.reason) →
            view.mergeReasons (before ++ added :: after) = view.mergeReasons others) ∧
          ((∀ reason ∈ reasons, ¬", ".toList <:+: reason.toList) →
            Text.pieces ", " (view.mergeReasons others) = listed) := by
  intro reasons
  have lists := listsOnce_distinctTexts reasons
  refine ⟨distinctTexts reasons, ⟨lists, fun _ => lists.unique⟩, rfl, ?_, fun free => ?_⟩
  · rintro before added after rfl idle
    have known : added.reason = "" ∨ added.reason ∈ (view :: before).map (·.reason) :=
      idle.imp_right fun ⟨earlier, member, same⟩ => same ▸ List.mem_map_of_mem member
    have same := @distinctTexts_idle _ (after.map (·.reason)) _ known
    simp only [mergeReasons, List.map_cons, List.map_append, ← List.cons_append] at same ⊢
    rw [same]
  · refine Text.pieces_intercalate (by decide) (fun reason member => ?_) fun empty => ?_
    · exact Text.delimits_commaBlank (free reason (lists.mem_iff.1 member).1)
    · exact (lists.mem_iff.1 empty).2 rfl

/-- Reasons that begin or end with a comma or a blank, one of them given twice. -/
theorem reasons_listed_touching :
    let because (reason : String) : View := { Sample.building [] with reason }
    let first := because "commit,"
    let others := [because " nightly", because "", because "commit,", because ","]
    (∀ reason ∈ (first :: others).map (·.reason), ¬", ".toList <:+: reason.toList) ∧
      first.mergeReasons others = "commit,,  nightly, ," ∧
        first.mergeReasons (others ++ [because " nightly"]) = first.mergeReasons others ∧
          Text.pieces ", " (first.mergeReasons others) = ["commit,", " nightly", ","] := by
  intro because first others
  have free : ∀ reason ∈ (first :: others).map (·.reason), ¬", ".toList <:+: reason.toList := by
    decide +kernel
  have distinct :
      distinctTexts ((first :: others).map (·.reason)) = ["commit,", " nightly", ","] := by
    decide +kernel
  obtain ⟨listed, ⟨-, only⟩, joined, idle, taken⟩ := reasons_listed first others
  obtain rfl := only _ (distinct ▸ listsOnce_distinctTexts _)
  refine ⟨free, joined.trans (by decide +kernel), ?_, taken free⟩
  exact idle others (because " nightly") [] (List.append_nil others).symm
    (.inr ⟨because " nightly", by simp [others], rfl⟩)

end View
end BuildQueue
