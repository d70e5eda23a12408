import BuildQueue.Text.Character
import Mathlib.Data.List.TakeWhile

/-!
# Trimmed texts

A text is what trimming leaves of it with blanks on both sides. What is left neither begins nor ends
with a blank, and there is only one such part of a text.
-/

namespace BuildQueue
namespace Text

variable {text core : String}

/-- A text without a blank at either end. -/
structure Tight (text : String) : Prop where
  front : ∀ c, text.toList.head? = some c → isBlank c = false
  back : ∀ c, text.toList.getLast? = some c → isBlank c = false

/-- A part of a text that has only blanks before and after it, and none at its ends. -/
structure Trims (text core : String) : Prop extends Tight core where
  around : ∃ before after : List Char, text.toList = before ++ core.toList ++ after ∧
    (∀ c ∈ before, isBlank c = true) ∧ ∀ c ∈ after, isBlank c = true

theorem dropWhile_of_front
    {characters : List Char}
    (front : ∀ c, characters.head? = some c → isBlank c = false) :
    characters.dropWhile isBlank = characters := by
  cases characters with
  | nil => rfl
  | cons first rest => rw [List.dropWhile_cons_of_neg (by simp [front first rfl])]

theorem front_dropWhile (characters : List Char) :
    ∀ c, (characters.dropWhile isBlank).head? = some c → isBlank c = false := by
  intro c first
  have checked := List.head?_dropWhile_not isBlank characters
  rw [first] at checked
  simpa using checked

/-- A text is the blanks that it begins with and the rest. -/
theorem exists_blanks (characters : List Char) :
    ∃ blanks, characters = blanks ++ characters.dropWhile isBlank ∧
      ∀ c ∈ blanks, isBlank c = true :=
  ⟨characters.takeWhile isBlank, List.takeWhile_append_dropWhile.symm, fun c listed =>
    List.all_eq_true.1 List.all_takeWhile c listed⟩

/-- What trimming leaves of a text. -/
theorem trims_trim (text : String) : Trims text (trim text) := by
  obtain ⟨before, split, beforeBlank⟩ := exists_blanks text.toList
  obtain ⟨after, splitToo, afterBlank⟩ :=
    exists_blanks (text.toList.dropWhile isBlank).reverse
  have left : (trim text).toList = trimmed text.toList := String.toList_ofList
  have rest : text.toList.dropWhile isBlank = trimmed text.toList ++ after.reverse := by
    rw [← List.reverse_reverse (text.toList.dropWhile isBlank), splitToo, List.reverse_append]
    rfl
  refine ⟨⟨fun c first => ?_, fun c last => ?_⟩, before, after.reverse, ?_, beforeBlank, ?_⟩
  · rw [left] at first
    apply front_dropWhile text.toList c
    rw [rest, List.head?_append, first]
    rfl
  · rw [left, trimmed, List.getLast?_reverse] at last
    exact front_dropWhile _ c last
  · rw [left, List.append_assoc, ← rest]
    exact split
  · exact fun c listed => afterBlank c (List.mem_reverse.1 listed)

/-- Trimming leaves the only part of a text that has blanks just around it. -/
theorem Trims.trim_eq (trims : Trims text core) : trim text = core := by
  obtain ⟨before, after, split, beforeBlank, afterBlank⟩ := trims.around
  have rest : text.toList.dropWhile isBlank = (core.toList ++ after).dropWhile isBlank := by
    rw [split, List.append_assoc, List.dropWhile_append_of_pos beforeBlank]
  suffices left : trimmed text.toList = core.toList by
    rw [trim, left, String.ofList_toList]
  -- If nothing is left then all blanks are at the front, and none are left for the back.
  by_cases empty : core.toList = []
  · rw [trimmed, rest, empty, List.nil_append, List.dropWhile_eq_nil_iff.2 afterBlank]
    rfl
  · have front : ∀ c, (core.toList ++ after).head? = some c → isBlank c = false := by
      intro c first
      rw [List.head?_append, Option.or_of_isSome (by simpa using empty)] at first
      exact trims.front c first
    have back : ∀ c, core.toList.reverse.head? = some c → isBlank c = false := by
      intro c last
      rw [List.head?_reverse] at last
      exact trims.back c last
    have afterBlankToo : ∀ c ∈ after.reverse, isBlank c = true := fun c listed =>
      afterBlank c (List.mem_reverse.1 listed)
    rw [trimmed, rest, dropWhile_of_front front, List.reverse_append,
      List.dropWhile_append_of_pos afterBlankToo, dropWhile_of_front back, List.reverse_reverse]

/-- Trimming leaves nothing of a text just if it consists of blanks. -/
theorem trim_eq_empty_iff : trim text = "" ↔ ∀ c ∈ text.toList, isBlank c = true := by
  constructor
  · intro nothing
    obtain ⟨before, after, split, beforeBlank, afterBlank⟩ := (trims_trim text).around
    rw [nothing] at split
    intro c listed
    rw [split] at listed
    simp only [String.toList_empty, List.append_nil, List.mem_append] at listed
    exact listed.elim (beforeBlank c) (afterBlank c)
  · intro blank
    exact Trims.trim_eq
      ⟨⟨by simp, by simp⟩, text.toList, [], by simp, blank, by simp⟩

end Text
end BuildQueue
