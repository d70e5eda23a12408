import Mathlib.Data.List.Basic

/-!
# Splitting joined texts

Texts that are joined by a separator come back when the join is split at it, as long as the
separator can be found in front of no place where it was put. It is not enough that no text contains
the separator, since an occurrence might begin in a text and end in the separator behind it.
-/

namespace BuildQueue
namespace Text

open String.Slice (Pos)
open String.Slice.Pattern.Model (IsLongestMatchAt MatchesAt)
open String.Slice.Pattern.Model.ForwardStringSearcher (isLongestMatchAt_iff_splits
  lawfulToForwardSearcherModel matchesAt_iff_splits strictPatternModel)

/-- What stands between the occurrences of a separator in a text, from left to right. There is
nothing in the empty text. -/
def pieces (separator text : String) : List String :=
  if text = "" then [] else (text.split separator).toList.map (·.copy)

/-- A separator behind a piece is its first occurrence from the beginning of the piece on. -/
def Delimits (separator piece : String) : Prop :=
  ∀ before after, piece ++ separator = before ++ separator ++ after → after = ""

variable {separator piece rest : String} {listed : List String}

/-- A delimited piece does not contain the separator. -/
theorem Delimits.ne_append
    (delimits : Delimits separator piece)
    (nonempty : separator ≠ "")
    (before after : String) :
    piece ≠ before ++ (separator ++ after) := by
  rintro rfl
  have ends : after ++ separator = "" := delimits before _ (by simp only [String.append_assoc])
  exact nonempty (String.append_eq_empty_iff.1 ends).2

/-- No occurrence of the separator begins in a delimited piece that is followed by the separator. -/
theorem Delimits.ne_append_separator
    {before inside after : String}
    (delimits : Delimits separator (before ++ inside))
    (within : inside ≠ "") :
    inside ++ (separator ++ rest) ≠ separator ++ after := by
  intro same
  have starts : separator.toList <+: (separator ++ after).toList := by simp
  have reaches : (inside ++ separator).toList <+: (separator ++ after).toList := by
    rw [← same]
    simp
  obtain ⟨more, split⟩ : separator.toList <+: (inside ++ separator).toList :=
    List.prefix_of_prefix_length_le starts reaches (by simp)
  have behind : inside ++ separator = separator ++ String.ofList more := by
    rw [← String.toList_inj]
    simpa using split.symm
  have ends : String.ofList more = "" :=
    delimits before _ (by rw [String.append_assoc, behind, String.append_assoc])
  rw [ends, String.append_empty] at behind
  have lengths := congrArg String.length behind
  rw [String.length_append] at lengths
  exact within (String.length_eq_zero_iff.1 (by omega))

section Positions

variable [String.Slice.Pattern.Model.StrictPatternModel separator] {text : String.Slice}
  {start : text.Pos} {front : String}

/-- A piece that stands last is found whole. -/
theorem split_last
    (delimits : Delimits separator piece)
    (nonempty : separator ≠ "")
    (splits : start.Splits front piece) :
    (String.Slice.Pattern.Model.split separator start start (Std.le_refl start)).map
      (fun found => found.toSlice.copy) = [piece] := by
  have bound : start ≤ text.endPos := Pos.le_endPos start
  rw [String.Slice.Pattern.Model.split_eq_of_not_matchesAt text.endPos bound ?free,
    String.Slice.Pattern.Model.split_endPos, String.Slice.subslice_endPos]
  case free =>
    intro place low high matching
    obtain ⟨before, after, here⟩ := matchesAt_iff_splits.1 matching
    obtain ⟨inside, -, whole⟩ := (splits.le_iff_exists_eq_append here).1 low
    exact delimits.ne_append nonempty inside after whole
  rw [List.map_singleton, String.Slice.toSlice_subsliceFrom, splits.copy_sliceFrom_eq]

/-- A piece that is followed by the separator is found, and what is behind them is split on. -/
theorem split_cons
    (delimits : Delimits separator piece)
    (splits : start.Splits front (piece ++ (separator ++ rest))) :
    ∃ next : text.Pos, next.Splits (front ++ piece ++ separator) rest ∧
      (String.Slice.Pattern.Model.split separator start start (Std.le_refl start)).map
          (fun found => found.toSlice.copy) =
        piece :: (String.Slice.Pattern.Model.split separator next next (Std.le_refl next)).map
          fun found => found.toSlice.copy := by
  have atEnd := splits.splits_rotateRight
  generalize splits.rotateRight = stop at atEnd
  have behind := atEnd.splits_rotateRight
  generalize atEnd.rotateRight = next at behind
  have bound : start ≤ stop := (splits.le_iff_exists_eq_append atEnd).2 ⟨piece, rfl, rfl⟩
  obtain ⟨ordered, copied⟩ :=
    String.Slice.copy_slice_eq_iff_splits.2 ⟨front, separator ++ rest, splits, atEnd⟩
  have found : IsLongestMatchAt separator stop next :=
    isLongestMatchAt_iff_splits.2 ⟨front ++ piece, rest, atEnd, behind⟩
  refine ⟨next, behind, ?_⟩
  rw [String.Slice.Pattern.Model.split_eq_of_not_matchesAt stop bound ?free,
    String.Slice.Pattern.Model.split_eq_of_isLongestMatchAt found, List.map_cons,
    String.Slice.toSlice_subslice, copied]
  case free =>
    intro place low high matching
    obtain ⟨before, after, here⟩ := matchesAt_iff_splits.1 matching
    obtain ⟨first, same, -⟩ := (splits.le_iff_exists_eq_append here).1 low
    obtain ⟨inside, within, whole, remaining⟩ := (here.lt_iff_exists_eq_append atEnd).1 high
    rw [same, String.append_assoc, String.append_right_inj] at whole
    exact (whole ▸ delimits).ne_append_separator within remaining.symm

/-- Splitting from where a join begins gives back what was joined. -/
theorem split_join
    (nonempty : separator ≠ "")
    (some : listed ≠ [])
    (delimits : ∀ piece ∈ listed, Delimits separator piece)
    (splits : start.Splits front (separator.intercalate listed)) :
    (String.Slice.Pattern.Model.split separator start start (Std.le_refl start)).map
      (fun found => found.toSlice.copy) = listed := by
  induction listed generalizing start front with
  | nil => exact absurd rfl some
  | cons piece rest inductionHypothesis =>
      rw [List.forall_mem_cons] at delimits
      cases rest with
      | nil =>
          rw [String.intercalate_singleton] at splits
          exact split_last delimits.1 nonempty splits
      | cons second rest =>
          rw [String.intercalate_cons_cons, String.append_assoc] at splits
          obtain ⟨next, behind, found⟩ := split_cons delimits.1 splits
          rw [found, inductionHypothesis (List.cons_ne_nil second rest) delimits.2 behind]

end Positions

/-- A join of delimited pieces that are not empty has these pieces. -/
theorem pieces_intercalate
    (nonempty : separator ≠ "")
    (delimits : ∀ piece ∈ listed, Delimits separator piece)
    (filled : "" ∉ listed) :
    pieces separator (separator.intercalate listed) = listed := by
  cases listed with
  | nil => rfl
  | cons first rest =>
      have written : separator.intercalate (first :: rest) ≠ "" := by
        intro empty
        refine filled (List.mem_cons.2 (.inl ?_))
        cases rest with
        | nil => rw [← empty, String.intercalate_singleton]
        | cons second rest =>
            rw [String.intercalate_cons_cons, String.append_assoc] at empty
            exact (String.append_eq_empty_iff.1 empty).1.symm
      have strict := strictPatternModel nonempty
      have lawful := lawfulToForwardSearcherModel nonempty
      have whole : (separator.intercalate (first :: rest)).toSlice.startPos.Splits ""
          (separator.intercalate (first :: rest)) :=
        String.Slice.Pos.splits_empty_left_iff.2 ⟨rfl, by simp⟩
      rw [pieces, if_neg written, String.split_eq_split_toSlice,
        String.Slice.toList_split_eq_splitToSubslice,
        String.Slice.Pattern.toList_splitToSubslice_eq_modelSplit, List.map_map]
      exact split_join nonempty (List.cons_ne_nil first rest) delimits whole

/-- A comma and a blank delimit whatever does not contain them, also what ends in a comma. -/
theorem delimits_commaBlank
    (free : ¬", ".toList <:+: piece.toList) :
    Delimits ", " piece := by
  intro before after same
  have letters : piece.toList ++ [',', ' '] = before.toList ++ [',', ' '] ++ after.toList := by
    simpa using congrArg String.toList same
  by_contra more
  have some : after.toList ≠ [] := fun none => more (String.toList_eq_nil_iff.1 none)
  obtain ⟨inside, last, split⟩ := (List.eq_nil_or_concat' after.toList).resolve_left some
  -- The last blank of both sides is the same, and so is the comma before it.
  have whole :
      piece.toList ++ [','] ++ [' '] = before.toList ++ [',', ' '] ++ inside ++ [last] := by
    simpa [split] using letters
  have shorter := (List.append_inj' whole rfl).1
  rcases List.eq_nil_or_concat' inside with rfl | ⟨within, comma, rfl⟩
  · have bare : piece.toList ++ [','] = before.toList ++ [','] ++ [' '] := by simpa using shorter
    simpa using (List.append_inj' bare rfl).2
  · rw [← List.append_assoc] at shorter
    exact free ⟨before.toList, within, (List.append_inj' shorter rfl).1.symm⟩

end Text
end BuildQueue
