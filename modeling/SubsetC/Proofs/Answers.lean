import SubsetC.Machine
import SubsetC.Proofs.Text.Numerals

/-!
# Answers that are numbers

`Machine.Takes` says what an instruction that asks for a value makes of an answer. `scan_decimal`
says it of instructions that ask for a number: they are the inverse of printing one, they take the
numerals of 64-bit integers and make do with zero and a warning otherwise, and arithmetic makes the
same number of an answer that has been taken as a text.
-/

namespace SubsetC

/-- Asked with `conversion` for the value of `target` and given this answer, every machine stores
the value, reports these problems, and does nothing else. -/
def Machine.Takes (conversion : Conversion) (target answer : String) (value : Value)
    (problems : List Diagnostic) : Prop :=
  ∀ (machine : Machine) (console : Console) (answers : List String),
    console.answers = answer :: answers →
      machine.execute console (.scan conversion target) =
        (.ok (machine.assign target value),
          { console with
            answers
            prompts := console.prompts.push (conversion.prompt target)
            diagnostics := console.diagnostics ++ problems.toArray })

theorem Machine.takes_of_read {conversion : Conversion} {target answer : String} {value : Value}
    {problem : Option Diagnostic}
    (read : conversion.read target (some answer) = (value, problem)) :
    Takes conversion target answer value problem.toList := by
  rintro machine ⟨given, prompts, output, diagnostics⟩ answers rfl
  simp only [execute, Console.request, read]
  cases problem <;> simp [Console.report]

section Decimal

open Machine

variable {target answer : String}

/-- An answer that is a numeral is taken as its number. -/
theorem takes_of_isPadded {n : Int64} (padded : Decimal.IsPadded answer.toList n.toInt) :
    Takes .decimal target answer (.int n) [] := by
  have read : Conversion.decimal.read target (some answer) = (.int n, none) := by
    rw [Conversion.read, Decimal.int64?_eq_some_iff.mpr (Decimal.isNumeral_trim_iff.mpr padded)]
  exact takes_of_read read

/-- An answer that is none is taken as zero. -/
theorem takes_zero (other : Decimal.int64? (Blank.trim answer.toList) = none) :
    Takes .decimal target answer (.int 0)
      [.runtime s!"'{answer}' is not an integer for '{target}', using 0"] := by
  have read : Conversion.decimal.read target (some answer) =
      (.int 0, some (.runtime s!"'{answer}' is not an integer for '{target}', using 0")) := by
    rw [Conversion.read, other]
  exact takes_of_read read

/-- Arithmetic goes by numbers. -/
theorem BinaryOp.apply_congr {op : BinaryOp} (arithmetic : op ∈ [add, sub, mul, div])
    {value value' : Value} (same : value.toInt64 = value'.toInt64) (other : Value) :
    op.apply value other = op.apply value' other ∧
      op.apply other value = op.apply other value' := by
  simp only [List.mem_cons, List.not_mem_nil, or_false] at arithmetic
  rcases arithmetic with rfl | rfl | rfl | rfl <;> simp [apply, same]

end Decimal

/-- What is printed for a number is taken as this number, with any white space around it. Every
answer is taken; there is no problem just if it is a numeral of an integer of 64 bits, whose value
it then has, and one warning if it is none. An answer that is taken as a text counts as the same
number. -/
theorem scan_decimal (target : String) :
    (∀ (n : Int64) (front back : List Char), (∀ c ∈ front, Blank.isBlank c = true) →
      (∀ c ∈ back, Blank.isBlank c = true) →
        Machine.Takes .decimal target
          (String.ofList (front ++ ((Conversion.decimal.write (.int n)).toList ++ back)))
          (.int n) []) ∧
    ∀ answer : String, ∃ (stored : Int64) (problems : List Diagnostic),
      Machine.Takes .decimal target answer (.int stored) problems ∧
      (problems = [] ↔
        ∃ n : Int, Decimal.IsPadded answer.toList n ∧ -2 ^ 63 ≤ n ∧ n < 2 ^ 63) ∧
      (∀ n : Int, Decimal.IsPadded answer.toList n → -2 ^ 63 ≤ n → n < 2 ^ 63 →
        stored.toInt = n) ∧
      (problems ≠ [] →
        stored = 0 ∧ ∃ warning, problems = [warning] ∧ warning.severity = .warning) ∧
      Machine.Takes .string target answer (.str answer) [] ∧
      (Value.str answer).toInt64 = stored ∧
      ∀ op ∈ [BinaryOp.add, .sub, .mul, .div], ∀ other,
        op.apply (.str answer) other = op.apply (.int stored) other ∧
          op.apply other (.str answer) = op.apply other (.int stored) := by
  constructor
  · intro n front back blank blank'
    apply takes_of_isPadded
    rw [String.toList_ofList, Conversion.write, Decimal.ofInt64, String.toList_ofList]
    exact ⟨front, _, back, rfl, blank, blank', Decimal.isNumeral_ofInt n.toInt⟩
  · intro answer
    have asText : Conversion.string.read target (some answer) = (.str answer, none) := rfl
    replace asText := Machine.takes_of_read asText
    cases read : Decimal.int64? (Blank.trim answer.toList) with
    | some stored =>
        have padded := Decimal.isNumeral_trim_iff.mp (Decimal.int64?_eq_some_iff.mp read)
        have same : (Value.str answer).toInt64 = stored := by rw [Value.toInt64, read]; rfl
        refine ⟨stored, [], takes_of_isPadded padded, ?_, ?_, by simp, asText, same,
          fun op arithmetic => BinaryOp.apply_congr arithmetic same⟩
        · exact iff_of_true rfl ⟨_, padded, stored.le_toInt, stored.toInt_lt⟩
        · intro n padded' low high
          rcases Decimal.exists_int64? padded' low high with ⟨m, read', value⟩
          cases read.symm.trans read'
          exact value
    | none =>
        have same : (Value.str answer).toInt64 = 0 := by rw [Value.toInt64, read]; rfl
        have unfit (n : Int) (padded : Decimal.IsPadded answer.toList n) (low : -2 ^ 63 ≤ n)
            (high : n < 2 ^ 63) : False := by
          rcases Decimal.exists_int64? padded low high with ⟨m, read', -⟩
          cases read.symm.trans read'
        refine ⟨0, _, takes_zero read, ?_, ?_, fun _ => ⟨rfl, _, rfl, rfl⟩, asText, same,
          fun op arithmetic => BinaryOp.apply_congr arithmetic same⟩
        · refine iff_of_false (List.cons_ne_nil _ _) ?_
          rintro ⟨n, padded, low, high⟩
          exact unfit n padded low high
        · intro n padded low high
          exact (unfit n padded low high).elim

/-- The least integer is read back, and the one after the greatest is not. -/
theorem scan_decimal_ends :
    Machine.Takes .decimal "n" " \u2003-9223372036854775808\n" (.int Int64.minValue) [] ∧
    ∃ warning : Diagnostic, warning.severity = .warning ∧
      Machine.Takes .decimal "n" "+9223372036854775808" (.int 0) [warning] := by
  constructor
  · have spelled : " \u2003-9223372036854775808\n" = String.ofList ([' ', '\u2003'] ++
        ((Conversion.decimal.write (.int Int64.minValue)).toList ++ ['\n'])) := by decide +kernel
    rw [spelled]
    have front : [' ', '\u2003'].all Blank.isBlank = true := by decide
    have back : ['\n'].all Blank.isBlank = true := by decide
    exact (scan_decimal "n").1 _ _ _ (List.all_eq_true.mp front) (List.all_eq_true.mp back)
  · rcases (scan_decimal "n").2 "+9223372036854775808" with
      ⟨stored, problems, takes, clean, -, unread, -⟩
    have reported : problems ≠ [] := by
      intro silent
      rcases clean.mp silent with ⟨n, padded, low, high⟩
      rcases Decimal.exists_int64? padded low high with ⟨m, read, -⟩
      have tooLarge : Decimal.int64? (Blank.trim "+9223372036854775808".toList) = none := by
        decide +kernel
      cases tooLarge.symm.trans read
    rcases unread reported with ⟨rfl, warning, rfl, severity⟩
    exact ⟨warning, severity, takes⟩

end SubsetC
