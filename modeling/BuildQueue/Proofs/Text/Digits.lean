import BuildQueue.Timestamp
import Mathlib.Algebra.Ring.Nat

/-!
# Numbers in texts

Texts sort by their bytes. A number written with zeros in front up to a width can be read back, and
numbers that fit the width sort like their texts: the last digit comes off the end, and the digits
before it are those of a tenth of the number. A number behind a sign can be read back with the sign.
-/

namespace BuildQueue
namespace Timestamp

/-! ## Bytes -/

/-- The bytes of a text, by which texts sort. -/
def bytes (text : String) : List UInt8 := text.toUTF8.data.toList

@[simp] theorem bytes_append (text rest : String) :
    bytes (text ++ rest) = bytes text ++ bytes rest := by
  simp [bytes]

theorem bytes_injective {text other : String} (equal : bytes text = bytes other) :
    text = other := by
  apply String.toByteArray_inj.mp
  apply ByteArray.ext
  exact Array.toList_inj.mp equal

theorem append_lt_append {front front' rest rest' : List UInt8}
    (same_length : front.length = front'.length) (lt : front < front') :
    front ++ rest < front' ++ rest' := by
  induction lt with
  | nil => simp at same_length
  | rel lt => exact List.Lex.rel lt
  | cons _ ih => exact List.Lex.cons (ih (Nat.succ.inj same_length))

/-- A smaller part in front makes a text smaller, if the parts in front have the same length. -/
theorem bytes_append_lt {front front' rest rest' : String}
    (same_length : (bytes front).length = (bytes front').length)
    (lt : bytes front < bytes front' ∨ front = front' ∧ bytes rest < bytes rest') :
    bytes (front ++ rest) < bytes (front' ++ rest') := by
  rw [bytes_append, bytes_append]
  rcases lt with lt | ⟨rfl, lt⟩
  · exact append_lt_append same_length lt
  · exact List.append_left_lt lt

/-! ## Digits -/

theorem toList_padded (width value : Nat) : (padded width value).toList =
    List.replicate (width - (Nat.toDigits 10 value).length) '0' ++ Nat.toDigits 10 value := by
  simp [padded, String.toList_append, Nat.toString_eq_repr, ← String.length_toList]

theorem isDigit_of_mem_padded {width value : Nat} {char : Char}
    (mem : char ∈ (padded width value).toList) : char.isDigit := by
  rw [toList_padded, List.mem_append] at mem
  rcases mem with mem | mem
  · rw [List.eq_of_mem_replicate mem]
    rfl
  · exact Nat.isDigit_of_mem_toDigits (by decide) (by decide) mem

theorem ofDigitChars_padded (width value : Nat) :
    Nat.ofDigitChars 10 (padded width value).toList 0 = value := by
  rw [toList_padded, Nat.ofDigitChars_append, Nat.ofDigitChars_replicate_zero, Nat.mul_zero,
    Nat.ofDigitChars_ten_toDigits]

theorem padded_injective {width width' value value' : Nat}
    (equal : padded width value = padded width' value') : value = value' := by
  rw [← ofDigitChars_padded width value, equal, ofDigitChars_padded]

theorem toString_nat (value : Nat) : toString value = padded 0 value := by
  apply String.toList_injective
  rw [toList_padded, Nat.zero_sub, List.replicate_zero, List.nil_append, Nat.toString_eq_repr,
    Nat.toList_repr]

theorem padded_succ {width : Nat} (width_pos : 0 < width) (value : Nat) :
    padded (width + 1) value =
      padded width (value / 10) ++ String.singleton (value % 10).digitChar := by
  apply String.toList_injective
  rw [String.toList_append, toList_padded, toList_padded, String.toList_singleton]
  by_cases small : value < 10
  · obtain ⟨zeros, rfl⟩ : ∃ zeros, width = zeros + 1 := ⟨width - 1, by omega⟩
    rw [Nat.div_eq_of_lt small, Nat.mod_eq_of_lt small, Nat.toDigits_of_lt_base small,
      Nat.toDigits_zero]
    simp [List.replicate_succ']
  · rw [Nat.toDigits_of_base_le (by decide) (by omega)]
    simp

theorem bytes_digitChar {digit : Nat} (digit_lt : digit < 10) :
    bytes (String.singleton digit.digitChar) = [UInt8.ofNat (48 + digit)] := by
  have code := Nat.toNat_digitChar_of_lt_ten digit_lt
  have one_byte : digit.digitChar.utf8Size = 1 := by
    rw [Char.utf8Size_eq_one_iff, UInt32.le_iff_toNat_le]
    change digit.digitChar.toNat ≤ 127
    omega
  have encoded := String.utf8EncodeChar_eq_singleton one_byte
  simp only [bytes, String.toUTF8_eq_toByteArray, String.toByteArray_singleton,
    List.utf8Encode_singleton, encoded]
  change [UInt8.ofNat digit.digitChar.toNat] = _
  rw [code]

theorem bytes_padded_one {value : Nat} (value_lt : value < 10) :
    bytes (padded 1 value) = [UInt8.ofNat (48 + value)] := by
  have single : padded 1 value = String.singleton value.digitChar := by
    apply String.toList_injective
    rw [toList_padded, Nat.toDigits_of_lt_base value_lt, String.toList_singleton]
    rfl
  rw [single, bytes_digitChar value_lt]

theorem bytes_padded_succ {width : Nat} (width_pos : 0 < width) (value : Nat) :
    bytes (padded (width + 1) value) =
      bytes (padded width (value / 10)) ++ [UInt8.ofNat (48 + value % 10)] := by
  rw [padded_succ width_pos, bytes_append, bytes_digitChar (Nat.mod_lt value (by decide))]

theorem digitByte_lt {digit other : Nat} (lt : digit < other) (other_lt : other < 10) :
    UInt8.ofNat (48 + digit) < UInt8.ofNat (48 + other) := by
  rw [UInt8.lt_iff_toNat_lt, UInt8.toNat_ofNat', UInt8.toNat_ofNat']
  omega

theorem length_bytes_padded {width value : Nat} (width_pos : 0 < width)
    (fits : value < 10 ^ width) : (bytes (padded width value)).length = width := by
  induction width, width_pos using Nat.le_induction generalizing value with
  | base =>
    rw [bytes_padded_one fits]
    rfl
  | succ width width_pos ih =>
    rw [bytes_padded_succ width_pos, List.length_append, ih (by rw [Nat.pow_succ] at fits; omega)]
    rfl

theorem bytes_padded_lt {width value other : Nat} (width_pos : 0 < width)
    (fits : other < 10 ^ width) (lt : value < other) :
    bytes (padded width value) < bytes (padded width other) := by
  induction width, width_pos using Nat.le_induction generalizing value other with
  | base =>
    rw [bytes_padded_one fits, bytes_padded_one (Nat.lt_trans lt fits)]
    exact List.Lex.rel (digitByte_lt lt fits)
  | succ width width_pos ih =>
    rw [bytes_padded_succ width_pos, bytes_padded_succ width_pos]
    rw [Nat.pow_succ] at fits
    have order : value / 10 < other / 10 ∨
        value / 10 = other / 10 ∧ value % 10 < other % 10 := by omega
    rcases order with tens | ⟨tens, ones⟩
    · refine append_lt_append ?_ (ih (by omega) tens)
      rw [length_bytes_padded width_pos (by omega), length_bytes_padded width_pos (by omega)]
    · rw [tens]
      exact List.append_left_lt (List.Lex.rel (digitByte_lt ones (by omega)))

/-! ## Signs -/

/-- Whether a text tells the sign of a number and has no digits itself. -/
structure IsSign (sign : String) (value : Int) : Prop where
  minus_iff : sign = "-" ↔ value < 0
  no_digit : ∀ char ∈ sign.toList, char.isDigit = false

theorem filter_isDigit_padded (width value : Nat) :
    (padded width value).toList.filter Char.isDigit = (padded width value).toList :=
  List.filter_eq_self.mpr fun _ => isDigit_of_mem_padded

theorem filter_not_isDigit_padded (width value : Nat) :
    (padded width value).toList.filter (!Char.isDigit ·) = [] :=
  List.filter_eq_nil_iff.mpr fun char mem => by simp [isDigit_of_mem_padded mem]

namespace IsSign

variable {sign sign' : String} {value value' : Int}

theorem digits_eq (isSign : IsSign sign value) (width digits : Nat) :
    (sign ++ padded width digits).toList.filter Char.isDigit = (padded width digits).toList := by
  rw [String.toList_append, List.filter_append, filter_isDigit_padded,
    List.filter_eq_nil_iff.mpr fun char mem => by simp [isSign.no_digit char mem],
    List.nil_append]

theorem others_eq (isSign : IsSign sign value) (width digits : Nat) :
    (sign ++ padded width digits).toList.filter (!Char.isDigit ·) = sign.toList := by
  rw [String.toList_append, List.filter_append, filter_not_isDigit_padded,
    List.filter_eq_self.mpr fun char mem => by simp [isSign.no_digit char mem],
    List.append_nil]

/-- The digits of a signed number give its distance from zero, what is no digit gives its sign. -/
theorem value_injective (isSign : IsSign sign value) (isSign' : IsSign sign' value')
    {width width' : Nat}
    (equal : sign ++ padded width value.natAbs = sign' ++ padded width' value'.natAbs) :
    value = value' := by
  have same_sign : sign = sign' := by
    apply String.toList_injective
    rw [← isSign.others_eq width value.natAbs, equal, isSign'.others_eq]
  have same_digits : value.natAbs = value'.natAbs := by
    have same_text : padded width value.natAbs = padded width' value'.natAbs := by
      apply String.toList_injective
      rw [← isSign.digits_eq, equal, isSign'.digits_eq]
    exact padded_injective same_text
  have minus_iff := isSign.minus_iff
  rw [same_sign, isSign'.minus_iff] at minus_iff
  omega

end IsSign

end Timestamp
end BuildQueue
