import Mathlib
import Reactive.Pointer

/-!
# Positions in arrays

An array knows its items by numerals. A number has one numeral, the decimal one without leading
zeros, and a token that is no numeral of a number below `2 ^ 64` names nothing in an array. So two
different tokens never name the same item, in an array as little as in an object; that is what lets
a change at one pointer leave all others alone.

## Main results

* `Pointer.toDigits_ofDigitChars` — digits are those of the number they are read as
* `Pointer.arrayIndex?_eq_some_iff` — the tokens of positions are numerals
* `Pointer.arrayIndex?_injective` — a position has one token
-/

namespace Reactive

namespace Pointer

/-! ### Digits -/

theorem digitChar_sub_zero {c : Char} (h : c.isDigit = true) :
    Nat.digitChar (c.toNat - '0'.toNat) = c ∧ c.toNat - '0'.toNat < 10 := by
  have hrange : 48 ≤ c.toNat ∧ c.toNat ≤ 57 := by
    simpa [Char.isDigit, UInt32.le_iff_toNat_le] using h
  have hzero : '0'.toNat = 48 := rfl
  refine ⟨Char.toNat_inj.mp ?_, by omega⟩
  rw [Nat.toNat_digitChar_of_lt_ten (by omega)]
  omega

/-- Digits that are read on from a number make the numeral that they continue. -/
theorem toDigits_ofDigitChars {digits : List Char} (h : digits.all Char.isDigit = true) {n : Nat}
    (hn : 0 < n) :
    Nat.toDigits 10 (Nat.ofDigitChars 10 digits n) = Nat.toDigits 10 n ++ digits := by
  induction digits generalizing n with
  | nil => rw [Nat.ofDigitChars_nil, List.append_nil]
  | cons c rest ih =>
    rw [List.all_cons, Bool.and_eq_true] at h
    obtain ⟨hchar, hlt⟩ := digitChar_sub_zero h.1
    have hlast : Nat.toDigits 10 (10 * n + (c.toNat - '0'.toNat)) = Nat.toDigits 10 n ++ [c] := by
      rw [← Nat.toDigits_append_toDigits (by decide) hn hlt, Nat.toDigits_of_lt_base hlt, hchar]
    rw [Nat.ofDigitChars_cons, ih h.2 (by omega), hlast, List.append_assoc, List.singleton_append]

/-- Digits without a leading zero are the numeral of the number they are read as. -/
theorem toDigits_ofDigitChars_zero {digits : List Char} (hne : digits ≠ [])
    (hdigits : digits.all Char.isDigit = true)
    (hlead : digits = ['0'] ∨ digits.head? ≠ some '0') :
    Nat.toDigits 10 (Nat.ofDigitChars 10 digits 0) = digits := by
  rcases hlead with rfl | hlead
  · rfl
  · cases digits with
    | nil => exact absurd rfl hne
    | cons c rest =>
      rw [List.all_cons, Bool.and_eq_true] at hdigits
      obtain ⟨hchar, hlt⟩ := digitChar_sub_zero hdigits.1
      have hpos : 0 < c.toNat - '0'.toNat := by
        refine Nat.pos_of_ne_zero fun hzero => hlead ?_
        rw [hzero] at hchar
        exact congrArg some hchar.symm
      rw [Nat.ofDigitChars_cons, Nat.mul_zero, Nat.zero_add,
        toDigits_ofDigitChars hdigits.2 hpos, Nat.toDigits_of_lt_base hlt, hchar,
        List.singleton_append]

theorem all_isDigit_toDigits (n : Nat) : (Nat.toDigits 10 n).all Char.isDigit = true := by
  rw [List.all_eq_true]
  intro c hc
  exact Nat.isDigit_of_mem_toDigits (by decide) (by decide) hc

/-- The numeral of a positive number starts with another digit than zero. -/
theorem head?_toDigits_ne_zero {n : Nat} (h : 0 < n) : (Nat.toDigits 10 n).head? ≠ some '0' := by
  induction n using Nat.strongRecOn with
  | ind n ih =>
    rcases Nat.lt_or_ge n 10 with hlt | hge
    · rw [Nat.toDigits_of_lt_base hlt, List.head?_cons]
      intro hhead
      exact absurd (Nat.digitChar_eq_zero.mp (Option.some.inj hhead)) (by omega)
    · rw [Nat.toDigits_of_base_le (by decide) hge,
        List.head?_append_of_ne_nil _ Nat.toDigits_ne_nil]
      exact ih (n / 10) (by omega) (by omega)

/-! ### Tokens -/

/-- **The tokens of positions are the numerals of the numbers below `2 ^ 64`.** -/
theorem arrayIndex?_eq_some_iff {token : String} {n : Nat} :
    arrayIndex? token = some n ↔ n < UInt64.size ∧ token = n.repr := by
  constructor
  · intro h
    simp only [arrayIndex?] at h
    split at h
    · next hform =>
      obtain ⟨hne, hdigits, hlead⟩ := hform
      split at h
      · next hlt =>
        obtain rfl : Nat.ofDigitChars 10 token.toList 0 = n := Option.some.inj h
        refine ⟨hlt, String.toList_injective ?_⟩
        rw [Nat.toList_repr, toDigits_ofDigitChars_zero hne hdigits hlead]
      · cases h
    · cases h
  · rintro ⟨hlt, rfl⟩
    have hlead : Nat.toDigits 10 n = ['0'] ∨ (Nat.toDigits 10 n).head? ≠ some '0' := by
      rcases Nat.eq_zero_or_pos n with rfl | hpos
      · exact .inl (Nat.toDigits_zero 10)
      · exact .inr (head?_toDigits_ne_zero hpos)
    simp only [arrayIndex?, Nat.toList_repr, Nat.ofDigitChars_ten_toDigits]
    rw [if_pos ⟨Nat.toDigits_ne_nil, all_isDigit_toDigits n, hlead⟩, if_pos hlt]

theorem arrayIndex?_hyphen : arrayIndex? "-" = none := by decide

theorem arrayIndex?_repr {n : Nat} (h : n < UInt64.size) : arrayIndex? n.repr = some n :=
  arrayIndex?_eq_some_iff.mpr ⟨h, rfl⟩

/-- A position has one token. -/
theorem arrayIndex?_injective {a b : String} {n : Nat} (ha : arrayIndex? a = some n)
    (hb : arrayIndex? b = some n) : a = b :=
  (arrayIndex?_eq_some_iff.mp ha).2.trans (arrayIndex?_eq_some_iff.mp hb).2.symm

end Pointer

end Reactive
