import Mathlib.Algebra.Ring.Int.Defs
import SubsetC.Proofs.Text.Decimal
import SubsetC.Text.Blank

/-!
# Numerals between white space

`Decimal.IsNumeral` says which texts are numerals, and of which integer, without a reader. A 64-bit
integer is read from exactly its numerals, whatever their length and sign, and what is written for
it is one of them. White space around a numeral is no part of it, so that a trimmed text is read if
and only if the text is a numeral between white space.
-/

namespace SubsetC

namespace Blank

theorem dropWhile_append {front text : List Char} (blank : ∀ c ∈ front, isBlank c = true)
    (clear : ∀ c ∈ text, isBlank c = false) (back : List Char) (nonempty : text ≠ []) :
    (front ++ (text ++ back)).dropWhile isBlank = text ++ back := by
  rw [List.dropWhile_append_of_pos blank]
  cases text with
  | nil => exact absurd rfl nonempty
  | cons first rest => simp [clear first List.mem_cons_self]

/-- White space on both sides is cut off, and nothing else. -/
theorem trim_append {front text back : List Char} (blank : ∀ c ∈ front, isBlank c = true)
    (clear : ∀ c ∈ text, isBlank c = false) (blank' : ∀ c ∈ back, isBlank c = true)
    (nonempty : text ≠ []) : trim (front ++ (text ++ back)) = text := by
  have behind : (back.reverse ++ (text.reverse ++ [])).dropWhile isBlank = text.reverse ++ [] :=
    dropWhile_append (by simpa using blank') (by simpa using clear) [] (by simpa using nonempty)
  rw [trim, dropWhile_append blank clear back nonempty, List.reverse_append]
  simpa using congrArg List.reverse behind

/-- What is cut off is white space. -/
theorem exists_trim (text : List Char) :
    ∃ front back, text = front ++ (trim text ++ back) ∧ (∀ c ∈ front, isBlank c = true) ∧
      ∀ c ∈ back, isBlank c = true := by
  have start := List.takeWhile_append_dropWhile (p := isBlank) (l := text)
  have ending := List.takeWhile_append_dropWhile (p := isBlank)
    (l := (text.dropWhile isBlank).reverse)
  refine ⟨text.takeWhile isBlank, ((text.dropWhile isBlank).reverse.takeWhile isBlank).reverse,
    ?_, List.all_eq_true.mp List.all_takeWhile, ?_⟩
  · rw [trim, ← List.reverse_append, ending, List.reverse_reverse, start]
  · intro c mem
    exact List.all_eq_true.mp List.all_takeWhile c (List.mem_reverse.mp mem)

theorem isBlank_of_isDigit {c : Char} (isDigit : c.isDigit = true) : isBlank c = false := by
  simp only [Char.isDigit, Bool.and_eq_true, decide_eq_true_eq, ge_iff_le,
    UInt32.le_iff_toNat_le] at isDigit
  change 48 ≤ c.toNat ∧ c.toNat ≤ 57 at isDigit
  simp only [isBlank, ranges, List.any_cons, List.any_nil, Bool.or_eq_false_iff,
    Bool.and_eq_false_iff, decide_eq_false_iff_not, and_true]
  omega

end Blank

namespace Decimal

/-- The text is a numeral of the integer: decimal digits, behind one sign or none. -/
inductive IsNumeral : List Char → Int → Prop
  | unsigned {digits : List Char} (nonempty : digits ≠ [])
      (isDigit : ∀ c ∈ digits, c.isDigit = true) : IsNumeral digits (value digits)
  | plus {digits : List Char} (nonempty : digits ≠ [])
      (isDigit : ∀ c ∈ digits, c.isDigit = true) : IsNumeral ('+' :: digits) (value digits)
  | minus {digits : List Char} (nonempty : digits ≠ [])
      (isDigit : ∀ c ∈ digits, c.isDigit = true) : IsNumeral ('-' :: digits) (-(value digits : Int))

/-- The text is a numeral of the integer with nothing but white space around it. -/
def IsPadded (text : List Char) (n : Int) : Prop :=
  ∃ front numeral back, text = front ++ (numeral ++ back) ∧
    (∀ c ∈ front, Blank.isBlank c = true) ∧ (∀ c ∈ back, Blank.isBlank c = true) ∧
    IsNumeral numeral n

theorem natural?_eq_some_iff {text : List Char} {n : Nat} :
    natural? text = some n ↔ text ≠ [] ∧ (∀ c ∈ text, c.isDigit = true) ∧ value text = n := by
  rw [natural?, Option.ite_none_right_eq_some, List.all_eq_true, Option.some.injEq, and_assoc]

/-- Digits behind a sign, where `sign` is what the sign does. -/
theorem exists_natural? {text : List Char} {sign : Int → Int} {n : Int}
    (read : (do return ((← natural? text) : Int)).map sign = some n) :
    text ≠ [] ∧ (∀ c ∈ text, c.isDigit = true) ∧ sign (value text) = n := by
  cases found : natural? text with
  | none => simp [found] at read
  | some m =>
      rcases natural?_eq_some_iff.mp found with ⟨nonempty, isDigit, rfl⟩
      exact ⟨nonempty, isDigit, by simpa [found] using read⟩

theorem integer?_eq_some_iff {text : List Char} {n : Int} :
    integer? text = some n ↔ IsNumeral text n := by
  constructor
  · intro read
    unfold integer? at read
    split at read
    · rcases exists_natural? read with ⟨nonempty, isDigit, rfl⟩
      exact .minus nonempty isDigit
    · rcases exists_natural? read with ⟨nonempty, isDigit, rfl⟩
      exact .plus nonempty isDigit
    · rcases exists_natural? read with ⟨nonempty, isDigit, rfl⟩
      exact .unsigned nonempty isDigit
  · intro numeral
    cases numeral with
    | unsigned nonempty isDigit => exact integer?_of_isDigit nonempty isDigit
    | plus nonempty isDigit =>
        rw [integer?, natural?_eq_some_iff.mpr ⟨nonempty, isDigit, rfl⟩]
        rfl
    | minus nonempty isDigit =>
        rw [integer?, natural?_eq_some_iff.mpr ⟨nonempty, isDigit, rfl⟩]
        rfl

/-- A 64-bit integer is read from all of its numerals and from nothing else. -/
theorem int64?_eq_some_iff {text : List Char} {n : Int64} :
    int64? text = some n ↔ IsNumeral text n.toInt := by
  rw [int64?, Option.bind_eq_some_iff]
  constructor
  · rintro ⟨m, read, fits⟩
    rw [toInt_of_int64OfInt? fits]
    exact integer?_eq_some_iff.mp read
  · intro numeral
    exact ⟨n.toInt, integer?_eq_some_iff.mpr numeral, int64OfInt?_toInt n⟩

theorem isNumeral_ofInt (n : Int) : IsNumeral (ofInt n) n := by
  cases n with
  | ofNat n =>
      have numeral : IsNumeral (digits n) (value (digits n)) :=
        .unsigned (digits_ne_nil n) fun _ => isDigit_of_mem_digits
      rwa [value_digits] at numeral
  | negSucc n =>
      have numeral : IsNumeral ('-' :: digits (n + 1)) (-(value (digits (n + 1)) : Int)) :=
        .minus (digits_ne_nil _) fun _ => isDigit_of_mem_digits
      rwa [value_digits] at numeral

namespace IsNumeral

variable {text : List Char} {n : Int}

theorem ne_nil (numeral : IsNumeral text n) : text ≠ [] := by
  cases numeral with
  | unsigned nonempty isDigit => exact nonempty
  | plus nonempty isDigit => exact List.cons_ne_nil _ _
  | minus nonempty isDigit => exact List.cons_ne_nil _ _

theorem isBlank_eq_false (numeral : IsNumeral text n) : ∀ c ∈ text, Blank.isBlank c = false := by
  have clear {digits : List Char} (isDigit : ∀ c ∈ digits, c.isDigit = true) :
      ∀ c ∈ digits, Blank.isBlank c = false := fun c mem => Blank.isBlank_of_isDigit (isDigit c mem)
  cases numeral with
  | unsigned nonempty isDigit => exact clear isDigit
  | plus nonempty isDigit => exact List.forall_mem_cons.mpr ⟨by decide, clear isDigit⟩
  | minus nonempty isDigit => exact List.forall_mem_cons.mpr ⟨by decide, clear isDigit⟩

end IsNumeral

/-- Trimming leaves just the numeral. -/
theorem isNumeral_trim_iff {text : List Char} {n : Int} :
    IsNumeral (Blank.trim text) n ↔ IsPadded text n := by
  constructor
  · intro numeral
    rcases Blank.exists_trim text with ⟨front, back, whole, blank, blank'⟩
    exact ⟨front, _, back, whole, blank, blank', numeral⟩
  · rintro ⟨front, numeral, back, rfl, blank, blank', isNumeral⟩
    rwa [Blank.trim_append blank isNumeral.isBlank_eq_false blank' isNumeral.ne_nil]

/-- A numeral of an integer of up to 64 bits is read, with any white space around it. -/
theorem exists_int64? {text : List Char} {n : Int} (padded : IsPadded text n)
    (low : -2 ^ 63 ≤ n) (high : n < 2 ^ 63) :
    ∃ m, int64? (Blank.trim text) = some m ∧ m.toInt = n := by
  have same : (Int64.ofInt n).toInt = n := Int64.toInt_ofInt_of_le low high
  refine ⟨Int64.ofInt n, int64?_eq_some_iff.mpr ?_, same⟩
  rw [same]
  exact isNumeral_trim_iff.mpr padded

end Decimal

end SubsetC
