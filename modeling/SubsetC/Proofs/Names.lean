import Mathlib.Algebra.Ring.Nat
import SubsetC.Proofs.Text.Decimal
import SubsetC.Session

/-!
# Generated names

Two temporaries with different numbers have different names, and so have two labels. `namesAfter`
lists the names that are generated one after the other; they are distinct as long as the counter
does not start over. Whether a name is that of a temporary can be read off its spelling.
-/

namespace SubsetC

namespace Session

theorem temporaryName_injective {m n : UInt32} (same : temporaryName m = temporaryName n) :
    m = n := by
  have spelled := String.ofList_injective same
  simp only [List.cons.injEq, true_and] at spelled
  exact UInt32.toNat_inj.mp (Decimal.digits_injective spelled)

theorem labelName_injective {m n : UInt32} (same : labelName m = labelName n) : m = n := by
  have spelled := String.ofList_injective same
  simp only [List.cons.injEq, true_and] at spelled
  exact UInt32.toNat_inj.mp (Decimal.digits_injective spelled)

/-- The name is that of a temporary. -/
def IsTemporary (name : String) : Prop :=
  ∃ number, name = temporaryName number

theorem isTemporary_iff {name : String} :
    IsTemporary name ↔
      name = temporaryName (UInt32.ofNat (Nat.ofDigitChars 10 name.toList.tail 0)) := by
  constructor
  · rintro ⟨number, rfl⟩
    simp [temporaryName, Decimal.digits]
  · intro spelled
    exact ⟨_, spelled⟩

instance (name : String) : Decidable (IsTemporary name) :=
  decidable_of_iff _ isTemporary_iff.symm

/-- The names with the numbers behind `last`, as many as given. -/
def namesAfter (name : UInt32 → String) (last : UInt32) : Nat → List String
  | 0 => []
  | count + 1 => name (last + 1) :: namesAfter name (last + 1) count

section NamesAfter

variable {name : UInt32 → String} {last : UInt32}

@[simp]
theorem namesAfter_zero : namesAfter name last 0 = [] := rfl

theorem namesAfter_succ (count : Nat) :
    namesAfter name last (count + 1) = name (last + 1) :: namesAfter name (last + 1) count := rfl

/-- The counter does not start over if there is room. -/
theorem toNat_add_ofNat {count : Nat} (room : last.toNat + count < 2 ^ 32) :
    (last + UInt32.ofNat count).toNat = last.toNat + count := by
  rw [UInt32.toNat_add, UInt32.toNat_ofNat']
  omega

theorem namesAfter_add (first second : Nat) :
    namesAfter name last (first + second) =
      namesAfter name last first ++ namesAfter name (last + UInt32.ofNat first) second := by
  induction first generalizing last with
  | zero => simp
  | succ first ih =>
      have next : last + 1 + UInt32.ofNat first = last + UInt32.ofNat (first + 1) := by
        rw [UInt32.ofNat_add]
        ac_rfl
      rw [Nat.succ_add, namesAfter_succ, namesAfter_succ, ih, next, List.cons_append]

theorem mem_namesAfter {count : Nat} {text : String} :
    text ∈ namesAfter name last count ↔
      ∃ index < count, text = name (last + 1 + UInt32.ofNat index) := by
  induction count generalizing last with
  | zero => simp
  | succ count ih =>
      rw [namesAfter_succ, List.mem_cons, ih]
      constructor
      · rintro (rfl | ⟨index, small, rfl⟩)
        · exact ⟨0, Nat.succ_pos _, by simp⟩
        · refine ⟨index + 1, Nat.succ_lt_succ small, ?_⟩
          rw [UInt32.ofNat_add]
          congr 1
          ac_rfl
      · rintro ⟨index, small, rfl⟩
        cases index with
        | zero => exact .inl (by simp)
        | succ index =>
            refine .inr ⟨index, Nat.lt_of_succ_lt_succ small, ?_⟩
            rw [UInt32.ofNat_add]
            congr 1
            ac_rfl

/-- Names that are generated one after the other are distinct, unless all numbers have been used. -/
theorem nodup_namesAfter (injective : ∀ {m n}, name m = name n → m = n) {count : Nat}
    (room : count ≤ 2 ^ 32) : (namesAfter name last count).Nodup := by
  induction count generalizing last with
  | zero => simp
  | succ count ih =>
      rw [namesAfter_succ, List.nodup_cons]
      refine ⟨?_, ih (by omega)⟩
      intro again
      rcases mem_namesAfter.mp again with ⟨index, small, same⟩
      have numbers := congrArg UInt32.toNat (injective same)
      simp only [UInt32.toNat_add, UInt32.toNat_one, UInt32.toNat_ofNat'] at numbers
      omega

theorem isTemporary_of_mem {count : Nat} {name : String}
    (taken : name ∈ namesAfter temporaryName last count) : IsTemporary name := by
  rcases mem_namesAfter.mp taken with ⟨index, -, rfl⟩
  exact ⟨_, rfl⟩

end NamesAfter

end Session

end SubsetC
