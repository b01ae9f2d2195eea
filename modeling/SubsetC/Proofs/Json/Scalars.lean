import SubsetC.Json.Reader
import SubsetC.Proofs.Reader
import SubsetC.Proofs.Text.Decimal

/-!
# Scalars of JSON

The readers of texts and of numbers, run on what is written for a text and for an integer.
`run_stringLiteral` holds of every text; `run_number` of the integers of up to 64 bits, as long as
nothing stands behind them that a number could go on with.
-/

namespace SubsetC.Json

theorem run_char (c : Char) (rest : List Char) : (char c).run (c :: rest) = (.ok (), rest) := by
  simp [char, take, takeOr]

theorem run_word (text rest : List Char) : (word text).run (text ++ rest) = (.ok (), rest) := by
  induction text with
  | nil => rfl
  | cons c text ih =>
      rw [word, List.cons_append, Reader.run_bind_of_ok (run_char c _), ih]

/-- Characters are taken as long as they are accepted. -/
theorem run_takeWhile {condition : Char → Bool} {taken rest : List Char}
    (all : ∀ c ∈ taken, condition c = true) (stops : ∀ c ∈ rest.head?, condition c = false) :
    (takeWhile condition).run (taken ++ rest) = (.ok taken, rest) := by
  have none : rest.takeWhile condition = [] ∧ rest.dropWhile condition = rest := by
    cases rest with
    | nil => exact ⟨rfl, rfl⟩
    | cons c rest => simp [stops c rfl]
  simp only [takeWhile, List.takeWhile_append_of_pos all, List.dropWhile_append_of_pos all, none,
    List.append_nil]

theorem run_peekBehindGap (text : List Char) :
    peekBehindGap.run text = (.ok (text.dropWhile isGap).head?, text.dropWhile isGap) := rfl

/-- A character that belongs to no gap is what comes next. -/
theorem run_peekBehindGap_cons {c : Char} (visible : isGap c = false) (rest : List Char) :
    peekBehindGap.run (c :: rest) = (.ok (some c), c :: rest) := by
  rw [run_peekBehindGap, List.dropWhile_cons_of_neg (by simp [visible])]
  rfl

/-- A reader that first passes over a gap passes over a space. -/
theorem run_peekBehindGap_space {α : Type} (reader : Option Char → TextReader α)
    (rest : List Char) :
    (peekBehindGap >>= reader).run (' ' :: rest) = (peekBehindGap >>= reader).run rest := by
  rw [Reader.run_bind_of_ok (run_peekBehindGap _), Reader.run_bind_of_ok (run_peekBehindGap _)]
  rfl

/-! ## Strings -/

section Strings

variable {rest : List Char}

/-- A character that is written as itself. -/
theorem run_stringChar_plain {c : Char} (visible : ¬c.toNat < 0x20) (other : c ≠ '\\') :
    (stringChar escaped).run (c :: rest) = (.ok c, rest) := by
  have taken : (take fun c => if c.toNat < 0x20 then none else some c).run (c :: rest) =
      (.ok c, rest) := by
    simp [take, takeOr, visible]
  rw [stringChar, Step.run_andThen_of_ok taken, if_neg other]
  rfl

/-- Behind a backslash stands what the escape is for. -/
theorem run_stringChar_escaped {text last : List Char} {c : Char}
    (ran : escaped.run text = (.ok c, last)) :
    (stringChar escaped).run ('\\' :: text) = (.ok c, last) := by
  have taken : (take fun c => if c.toNat < 0x20 then none else some c).run ('\\' :: text) =
      (.ok '\\', text) := rfl
  rw [stringChar, Step.run_andThen_of_ok taken, if_pos rfl, ran]

/-- An escape of two characters. -/
theorem run_escaped {letter c : Char} (means : escaped? letter = some c) :
    escaped.run (letter :: rest) = (.ok c, rest) := by
  have other : letter ≠ 'u' := by
    rintro rfl
    cases means
  have taken : (take some : TextStep Char).run (letter :: rest) = (.ok letter, rest) := rfl
  rw [escaped, Reader.run_bind_of_ok taken, if_neg other, means]
  rfl

/-- The digits that are written for a control character. -/
theorem hexQuad?_control : ∀ n < 0x20,
    hexQuad? ['0', '0', Nat.digitChar (n / 16), Nat.digitChar (n % 16)] = some n := by
  decide

/-- An escape by number. -/
theorem run_escaped_control {n : Nat} (control : n < 0x20) (rest : List Char) :
    escaped.run ('u' :: '0' :: '0' :: Nat.digitChar (n / 16) :: Nat.digitChar (n % 16) :: rest) =
      (.ok (Char.ofNat n), rest) := by
  have taken (text : List Char) : (take some : TextStep Char).run ('u' :: text) =
      (.ok 'u', text) := rfl
  have digits : hexQuad.run ('0' :: '0' :: Nat.digitChar (n / 16) :: Nat.digitChar (n % 16) ::
      rest) = (.ok n, rest) := by
    simp [hexQuad, hexQuad?_control n control]
  have notTrailing : isTrailing n = false := by
    simp [isTrailing]
    omega
  have notLeading : isLeading n = false := by
    simp [isLeading]
    omega
  rw [escaped, Reader.run_bind_of_ok (taken _), if_pos rfl, numbered,
    Reader.run_bind_of_ok digits, notTrailing, notLeading]
  rfl

/-- Every character is read from what is written for it. -/
theorem run_stringChar (c : Char) :
    (stringChar escaped).run (escape c ++ rest) = (.ok c, rest) := by
  unfold escape
  split
  · rename_i delimiter
    apply run_stringChar_escaped
    apply run_escaped
    rcases delimiter with rfl | rfl <;> rfl
  split
  · rename_i same
    rw [same]
    exact run_stringChar_escaped (run_escaped rfl)
  split
  · rename_i same
    rw [same]
    exact run_stringChar_escaped (run_escaped rfl)
  split
  · rename_i same
    rw [same]
    exact run_stringChar_escaped (run_escaped rfl)
  split
  · rename_i same
    rw [same]
    exact run_stringChar_escaped (run_escaped rfl)
  split
  · rename_i same
    rw [same]
    exact run_stringChar_escaped (run_escaped rfl)
  split
  · rename_i control
    have ran := run_stringChar_escaped (run_escaped_control control rest)
    rwa [Char.ofNat_toNat] at ran
  · rename_i delimiter _ _ _ _ _ visible
    exact run_stringChar_plain visible (not_or.mp delimiter).2

/-- What is written for a character does not start like the end of the literal. -/
theorem head?_escape (c : Char) : (escape c ++ rest).head? ≠ some '"' := by
  unfold escape
  split
  · simp
  split
  · simp
  split
  · simp
  split
  · simp
  split
  · simp
  split
  · simp
  split
  · simp
  · rename_i delimiter _ _ _ _ _ _
    simpa using (not_or.mp delimiter).1

theorem repeats_stringChar (text rest : List Char) :
    Reader.Repeats (fun text => text.head? != some '"') (stringChar escaped)
      (text.flatMap escape ++ '"' :: rest) text ('"' :: rest) := by
  induction text with
  | nil => exact .stop rfl
  | cons c text ih =>
      rw [List.flatMap_cons, List.append_assoc]
      exact .again (bne_iff_ne.mpr (head?_escape c)) (run_stringChar c) ih

theorem toList_quote (text : String) :
    (quote text).toList = '"' :: (text.toList.flatMap escape ++ ['"']) := by
  simp [quote]

/-- Every text is read from what is written for it. -/
theorem run_stringLiteral (text : String) (rest : List Char) :
    stringLiteral.run ((quote text).toList ++ rest) = (.ok text, rest) := by
  have inside := Reader.run_many_eq_ok.mpr (repeats_stringChar text.toList rest)
  rw [toList_quote, List.cons_append, List.append_assoc, List.singleton_append, stringLiteral,
    stringWith, Step.run_andThen_of_ok (run_char '"' _), Reader.run_bind_of_ok inside,
    Reader.run_bind_of_ok (run_char '"' _), Reader.run_pure, String.ofList_toList]

end Strings

/-! ## Numbers -/

section Numbers

/-- A number does not go on here. -/
def EndsNumber (rest : List Char) : Prop :=
  ∀ c ∈ rest.head?, c.isDigit = false ∧ c ≠ '.' ∧ c ≠ 'e' ∧ c ≠ 'E'

variable {rest : List Char}

/-- Digits are read up to their end. -/
theorem run_digits {atEnd : ReadError} {first : Char} {others : List Char}
    (isDigit : ∀ c ∈ first :: others, c.isDigit = true) (ends : EndsNumber rest) :
    (digits atEnd).run (first :: others ++ rest) = (.ok (first :: others), rest) := by
  rw [List.forall_mem_cons] at isDigit
  have taken : (takeOr atEnd fun c => if c.isDigit then some c else none).run
      (first :: others ++ rest) = (.ok first, others ++ rest) := by
    simp [takeOr, isDigit.1]
  rw [digits, Step.run_andThen_of_ok taken,
    Reader.run_bind_of_ok (run_takeWhile isDigit.2 fun c here => (ends c here).1)]
  rfl

theorem run_wholeDigits (atEnd : ReadError) (n : Nat) (ends : EndsNumber rest) :
    (wholeDigits atEnd).run (Decimal.digits n ++ rest) = (.ok (Decimal.digits n), rest) := by
  rcases spelled : Decimal.digits n with _ | ⟨first, others⟩
  · exact absurd spelled (Decimal.digits_ne_nil n)
  · have isDigit : ∀ c ∈ first :: others, c.isDigit = true := by
      rw [← spelled]
      exact fun c mem => Decimal.isDigit_of_mem_digits mem
    rw [wholeDigits, Step.run_andThen_of_ok (run_digits isDigit ends)]
    split
    · rename_i second more same
      rw [same] at spelled
      cases Decimal.eq_nil_of_digits_zero spelled
    · rfl

/-- A whole number has no fraction. -/
theorem run_fraction (atEnd : ReadError) (ends : EndsNumber rest) :
    (fraction atEnd).run rest = (.ok none, rest) := by
  have peeked : peek.run rest = (.ok rest.head?, rest) := rfl
  rw [fraction, Reader.run_bind_of_ok peeked]
  split
  · rename_i point
    exact absurd rfl (ends '.' point).2.1
  · rfl

theorem run_exponent (atEnd : ReadError) (ends : EndsNumber rest) :
    (exponent atEnd).run rest = (.ok none, rest) := by
  have peeked : peek.run rest = (.ok rest.head?, rest) := rfl
  rw [exponent, Reader.run_bind_of_ok peeked]
  split
  · rename_i letter
    exact absurd rfl (ends 'e' letter).2.2.1
  · rename_i letter
    exact absurd rfl (ends 'E' letter).2.2.2
  · rfl

theorem run_unsignedNumeral (atEnd : ReadError) (negative : Bool) (n : Nat)
    (ends : EndsNumber rest) :
    (unsignedNumeral atEnd negative).run (Decimal.digits n ++ rest) =
      (.ok ⟨negative, Decimal.digits n, none, none⟩, rest) := by
  rw [unsignedNumeral, Step.run_andThen_of_ok (run_wholeDigits atEnd n ends),
    Reader.run_bind_of_ok (run_fraction atEnd ends),
    Reader.run_bind_of_ok (run_exponent atEnd ends)]
  rfl

/-- A loop over digits that takes up each digit while the number stays below a bound. -/
theorem foldl_significand (bound : Nat) {step : Nat × Bool × Int → Char → Nat × Bool × Int}
    (takes : ∀ n (c : Char), 10 * n + (c.toNat - '0'.toNat) < bound →
      step (n, false, 0) c = (10 * n + (c.toNat - '0'.toNat), false, 0))
    {digits : List Char} {n : Nat} (small : Nat.ofDigitChars 10 digits n < bound) :
    digits.foldl step (n, false, 0) = (Nat.ofDigitChars 10 digits n, false, 0) := by
  induction digits generalizing n with
  | nil => rfl
  | cons c digits ih =>
      rw [Nat.ofDigitChars_cons] at small ⊢
      have grows : 10 * n + (c.toNat - '0'.toNat) ≤
          Nat.ofDigitChars 10 digits (10 * n + (c.toNat - '0'.toNat)) := by
        rw [Nat.ofDigitChars_eq_ofDigitChars_zero]
        exact Nat.le_trans (Nat.le_mul_of_pos_left _ (Nat.pow_pos (by decide)))
          (Nat.le_add_right _ _)
      rw [List.foldl_cons, takes n c (Nat.lt_of_le_of_lt grows small), ih small]

/-- Of a number of at most 64 bits all digits count. -/
theorem significand_digits (negative : Bool) {n : Nat} (small : n < UInt64.size) :
    Numeral.significand ⟨negative, Decimal.digits n, none, none⟩ = (n, 0) := by
  have value : Nat.ofDigitChars 10 (Decimal.digits n) 0 = n := Nat.ofDigitChars_ten_toDigits
  simp only [Numeral.significand]
  rw [foldl_significand UInt64.size, value]
  · rfl
  · intro n c fits
    simp only [Bool.not_false, Bool.true_and, decide_eq_true fits, if_true]
  · rwa [value]

/-- Rounding makes a number about twice as large at most. -/
theorem roundToDouble_le (n : Nat) : Numeral.roundToDouble n ≤ 2 * n + 1 := by
  unfold Numeral.roundToDouble
  extract_lets excess unit rest floor up
  have unit_le : unit ≤ n + 1 := by
    by_cases zero : n = 0
    · subst zero
      decide
    · have power : unit ≤ 2 ^ n.log2 := by
        simp only [unit, Nat.shiftLeft_eq, Nat.one_mul]
        exact Nat.pow_le_pow_right (by decide) (by omega)
      have below := Nat.log2_self_le zero
      omega
  have floor_le : floor * unit ≤ n := Nat.div_mul_le_self n unit
  split
  · rw [Nat.add_mul]
    omega
  · omega

/-- No number of 64 bits is too large. -/
theorem isTooLarge_digits (negative : Bool) {n : Nat} (small : n < UInt64.size) :
    Numeral.isTooLarge ⟨negative, Decimal.digits n, none, none⟩ = false := by
  rw [Numeral.isTooLarge, significand_digits negative small]
  cases n with
  | zero => rfl
  | succ n =>
      have rounded := roundToDouble_le (n + 1)
      have one : Numeral.roundToDouble (Nat.pow 10 0) = 1 := by decide
      have limit : 2 * UInt64.size + 1 < (1 <<< 1024) - (1 <<< 970) := by decide
      change (decide (0 > 308) || decide ((1 <<< 1024) - (1 <<< 970) ≤
        Numeral.roundToDouble (n + 1) * Numeral.roundToDouble (Nat.pow 10 0))) = false
      rw [one, Nat.mul_one, Bool.or_eq_false_iff]
      exact ⟨rfl, decide_eq_false (by omega)⟩

/-- A character that a number may start with. -/
def StartsNumber (c : Char) : Prop := c = '-' ∨ c.isDigit = true

theorem StartsNumber.ne {c other : Char} (starts : StartsNumber c)
    (neither : ¬(other = '-' ∨ other.isDigit = true)) : c ≠ other := by
  rintro rfl
  exact neither starts

theorem StartsNumber.isGap_eq_false {c : Char} (starts : StartsNumber c) : isGap c = false := by
  simp only [isGap, Bool.or_eq_false_iff, beq_eq_false_iff_ne]
  exact ⟨⟨⟨starts.ne (by decide), starts.ne (by decide)⟩, starts.ne (by decide)⟩,
    starts.ne (by decide)⟩

/-- The first character of a number tells that it is one. -/
theorem run_scalar_number {c : Char} (starts : StartsNumber c) (text : List Char) :
    scalar.run (c :: text) = number.run (c :: text) := by
  simp only [scalar, scalarWith, Step.run_choose, List.head?_cons]
  split
  · rename_i none
    cases none
  · rename_i letter
    exact absurd (Option.some.inj letter) (starts.ne (by decide))
  · rename_i letter
    exact absurd (Option.some.inj letter) (starts.ne (by decide))
  · rename_i letter
    exact absurd (Option.some.inj letter) (starts.ne (by decide))
  · rename_i quotation
    exact absurd (Option.some.inj quotation) (starts.ne (by decide))
  · rename_i first _ _ _ _ here
    cases here
    rw [if_pos (show c = '-' ∨ c.isDigit = true from starts)]

theorem exists_cons_ofInt (value : Int) :
    ∃ c text, Decimal.ofInt value = c :: text ∧ StartsNumber c := by
  cases value with
  | ofNat n =>
      rcases spelled : Decimal.digits n with _ | ⟨first, others⟩
      · exact absurd spelled (Decimal.digits_ne_nil n)
      · have isDigit := Decimal.isDigit_of_mem_digits (spelled ▸ List.mem_cons_self)
        exact ⟨first, others, spelled, .inr isDigit⟩
  | negSucc n => exact ⟨'-', Decimal.digits (n + 1), rfl, .inl rfl⟩

/-- An integer of at most 64 bits is read from what is written for it. -/
theorem run_number {value : Int} (small : value.natAbs < UInt64.size) (ends : EndsNumber rest) :
    number.run (Decimal.ofInt value ++ rest) = (.ok (.integer value), rest) := by
  cases value with
  | ofNat n =>
      replace small : n < UInt64.size := small
      have digit : (Decimal.digits n ++ rest).head? ≠ some '-' := by
        rcases spelled : Decimal.digits n with _ | ⟨first, others⟩
        · exact absurd spelled (Decimal.digits_ne_nil n)
        · have isDigit := Decimal.isDigit_of_mem_digits (spelled ▸ List.mem_cons_self)
          rintro same
          cases same
          exact absurd isDigit (by decide)
      have read : (numeral .cut).run (Decimal.digits n ++ rest) =
          (.ok ⟨false, Decimal.digits n, none, none⟩, rest) := by
        rw [numeral, Step.run_choose, if_neg digit, run_unsignedNumeral .cut false n ends]
      rw [Decimal.ofInt, number, Step.run_andThen_of_ok read, isTooLarge_digits false small]
      simp [Numeral.toJson]
  | negSucc n =>
      replace small : n + 1 < UInt64.size := small
      have read : (numeral .cut).run ('-' :: Decimal.digits (n + 1) ++ rest) =
          (.ok ⟨true, Decimal.digits (n + 1), none, none⟩, rest) := by
        rw [numeral, Step.run_choose, List.cons_append, if_pos List.head?_cons,
          Step.run_andThen_of_ok (run_char '-' _), run_unsignedNumeral .cut true (n + 1) ends]
      rw [Decimal.ofInt, number, Step.run_andThen_of_ok read, isTooLarge_digits true small]
      simp [Numeral.toJson, Int.negSucc_eq]

end Numbers

end SubsetC.Json
