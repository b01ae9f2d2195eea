import SubsetC.Text.Decimal

/-!
# Numerals and their values

Digits that are written for a number have it as their value, and a 64-bit integer that is not
negative is read back from its digits.
-/

namespace SubsetC.Decimal

@[simp]
theorem value_digits (n : Nat) : value (digits n) = n :=
  Nat.ofDigitChars_ten_toDigits

theorem digits_injective {m n : Nat} (same : digits m = digits n) : m = n := by
  rw [← value_digits m, same, value_digits]

theorem digits_ne_nil (n : Nat) : digits n ≠ [] :=
  Nat.toDigits_ne_nil

theorem isDigit_of_mem_digits {n : Nat} {c : Char} (mem : c ∈ digits n) : c.isDigit = true :=
  Nat.isDigit_of_mem_toDigits (by decide) (by decide) mem

/-- No zero stands before another digit. -/
theorem eq_nil_of_digits_zero {n : Nat} {rest : List Char} (zero : digits n = '0' :: rest) :
    rest = [] := by
  induction n using Nat.strongRecOn generalizing rest with
  | ind n ih =>
      by_cases small : n < 10
      · rw [digits, Nat.toDigits_of_lt_base small] at zero
        exact (List.cons.inj zero).2.symm
      · have more : digits n = digits (n / 10) ++ [Nat.digitChar (n % 10)] :=
          Nat.toDigits_of_base_le (by decide) (Nat.le_of_not_lt small)
        -- The digits before the last one would be those of zero.
        rcases exists_cons : digits (n / 10) with _ | ⟨first, others⟩
        · exact absurd exists_cons (digits_ne_nil _)
        · rw [more, exists_cons, List.cons_append, List.cons.injEq] at zero
          rw [zero.1] at exists_cons
          rw [ih (n / 10) (by omega) exists_cons] at exists_cons
          have value := value_digits (n / 10)
          rw [exists_cons] at value
          change 0 = n / 10 at value
          omega

/-- Digits have no sign. -/
theorem integer?_of_isDigit {numeral : List Char} (ne_nil : numeral ≠ [])
    (isDigit : ∀ c ∈ numeral, c.isDigit = true) :
    integer? numeral = some (value numeral : Int) := by
  unfold integer?
  split
  · exact absurd (isDigit '-' (.head _)) (by decide)
  · exact absurd (isDigit '+' (.head _)) (by decide)
  · rw [natural?, if_pos ⟨ne_nil, List.all_eq_true.mpr isDigit⟩]
    rfl

theorem int64?_of_isDigit {numeral : List Char} (ne_nil : numeral ≠ [])
    (isDigit : ∀ c ∈ numeral, c.isDigit = true) :
    int64? numeral = int64OfInt? (value numeral : Int) := by
  rw [int64?, integer?_of_isDigit ne_nil isDigit, Option.bind_some]

theorem toInt_of_int64OfInt? {n : Int} {value : Int64} (found : int64OfInt? n = some value) :
    value.toInt = n := by
  unfold int64OfInt? at found
  split at found
  · rename_i fits
    cases found
    exact Int64.toInt_ofInt_of_le fits.1 (Int.lt_add_one_of_le fits.2)
  · cases found

theorem int64OfInt?_toInt (value : Int64) : int64OfInt? value.toInt = some value := by
  have small : value.toInt ≤ Int64.maxValue.toInt := Int.le_of_lt_add_one value.toInt_lt
  rw [int64OfInt?, if_pos ⟨value.le_toInt, small⟩, Int64.ofInt_toInt]

theorem int64?_digits {n : Nat} {value : Int64} (same : value.toInt = n) :
    int64? (digits n) = some value := by
  rw [int64?_of_isDigit (digits_ne_nil n) fun _ mem => isDigit_of_mem_digits mem, value_digits,
    ← same, int64OfInt?_toInt]

end SubsetC.Decimal
