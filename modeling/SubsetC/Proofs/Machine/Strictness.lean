import SubsetC.Proofs.Machine.Configurations

/-!
# Strict and lenient runs

A lenient machine makes a division by zero good, a strict one faults there, and this is all that
sets them apart. `strict_faults_at_first` compares the two runs of a program round by round: without
a division by zero they are the same, and otherwise the strict run ends in the first one, of which
nothing is left but the fault.
-/

namespace SubsetC.Machine

variable {machine lenient : Machine} {console : Console} {program : Program}
  {limit : Option UInt64}

/-- Strictness makes no difference to the limit. -/
theorem reachedLimit?_strict (loaded : load program ⟨false, limit⟩ = .ok lenient) (rounds : Nat) :
    ((lenient.runFor rounds console).1.withConfig ⟨true, limit⟩).reachedLimit? =
      (lenient.runFor rounds console).1.reachedLimit? := by
  have config : (lenient.runFor rounds console).1.config = ⟨false, limit⟩ :=
    (config_runFor rounds lenient console).trans (config_load loaded)
  unfold reachedLimit?
  rw [config]
  rfl

/-- Where it does not divide by zero, a lenient machine agrees with a strict one. -/
theorem agrees_strict (loaded : load program ⟨false, limit⟩ = .ok lenient) {rounds : Nat}
    (spares : ∀ index, ¬(lenient.runFor rounds console).1.DividesByZero index) :
    (lenient.runFor rounds console).1.Agrees ⟨true, limit⟩ where
  limit _ _ := reachedLimit?_strict loaded rounds
  strict := .inr spares

/-- Where a lenient machine divides by zero, so does a strict one. -/
theorem dividesByZero_strict (loaded : load program ⟨false, limit⟩ = .ok lenient)
    {rounds index : Nat} (divides : (lenient.runFor rounds console).1.DividesByZero index) :
    ((lenient.runFor rounds console).1.withConfig ⟨true, limit⟩).DividesByZero index := by
  rcases divides with ⟨⟨running, small, unlimited⟩, place, division⟩
  exact ⟨⟨running, small, (reachedLimit?_strict loaded rounds).trans unlimited⟩, place, division⟩

/-- A strict machine faults in a division by zero, and counts it. -/
theorem step_of_divides {index : Nat} (strict : machine.config.strict = true)
    (divides : machine.DividesByZero index) (console : Console) :
    machine.step console =
      ({ machine with state := .faulted (.divisionByZero index), steps := machine.steps + 1 },
        console) := by
  rcases divides with ⟨executes, rfl, target, left, right, here, zero⟩
  have none : BinaryOp.div.apply (left.value machine.store) (right.value machine.store) = none :=
    (BinaryOp.apply_eq_none_iff _ _ _).mpr ⟨rfl, zero⟩
  apply step_of_error executes here
  simp only [execute, none, strict, if_true]

/-- If the lenient run never divides by zero, the strict run is the same in every round. Otherwise
it ends with the first division by zero. That instruction counts as executed, but what has been
stored and done is what it was before it. -/
theorem strict_faults_at_first (loaded : load program ⟨false, limit⟩ = .ok lenient)
    (console : Console) :
    ∃ strict, load program ⟨true, limit⟩ = .ok strict ∧
      ((∀ rounds index, ¬(lenient.runFor rounds console).1.DividesByZero index) →
        ∀ rounds, strict.runFor rounds console =
          ((lenient.runFor rounds console).1.withConfig ⟨true, limit⟩,
            (lenient.runFor rounds console).2)) ∧
      ∀ before index, (lenient.runFor before console).1.DividesByZero index →
        (∀ earlier < before, ∀ index',
          ¬(lenient.runFor earlier console).1.DividesByZero index') →
        lenient.executedIn before console = before ∧
          ∃ last, strict.EndsAfter console (before + 1) last (lenient.runFor before console).2 ∧
            last.state = .faulted (.divisionByZero index) ∧
            last.steps = UInt64.ofNat (before + 1) ∧
            last.store = (lenient.runFor before console).1.store := by
  have loads := load_withConfig loaded ⟨true, limit⟩
  refine ⟨_, loads, ?_, ?_⟩
  · intro spares rounds
    apply runFor_withConfig
    intro earlier _
    exact agrees_strict loaded (spares earlier)
  · intro before index divides first
    have agrees : ∀ earlier < before, (lenient.runFor earlier console).1.Agrees ⟨true, limit⟩ :=
      fun earlier small => agrees_strict loaded (first earlier small)
    have ran := runFor_withConfig agrees
    have divides' := dividesByZero_strict loaded divides
    have all : lenient.executedIn before console = before :=
      executedIn_of_running before divides.1.1
    have steps : (lenient.runFor before console).1.steps + 1 = UInt64.ofNat (before + 1) := by
      rw [steps_runFor, steps_load loaded, all, UInt64.zero_add, UInt64.ofNat_add]
      rfl
    refine ⟨all, { (lenient.runFor before console).1.withConfig ⟨true, limit⟩ with
      state := .faulted (.divisionByZero index)
      steps := (lenient.runFor before console).1.steps + 1 },
      ⟨before + 1, ?_, ?_, ?_⟩, rfl, steps, rfl⟩
    · rw [runFor_succ_last, ran]
      exact step_of_divides rfl divides' _
    · simp
    · rw [executedIn_succ_last, executedIn_withConfig agrees, all, ran, if_pos divides'.1]

/-- Prints a number that is read, and divides ten by it. -/
def division : Program where
  instructions :=
    #[.scan .decimal "n", .print .decimal "n",
      .binary "q" .div (.literal (.int 10)) (.name "n"), .print .decimal "q"]

/-- Of a division by zero in the third instruction, the strict machine leaves but the fault. -/
theorem strict_faults_at_first_division :
    ∃ strict last console', load division ⟨true, some 9⟩ = .ok strict ∧
      strict.EndsAfter (.ofAnswers ["0"]) 3 last console' ∧
      last.state = .faulted (.divisionByZero 2) ∧ last.steps = 3 ∧
      last.store.get? "q" = none ∧ console'.diagnostics = #[] := by
  have loaded : load division ⟨false, some 9⟩ = .ok _ := rfl
  rcases strict_faults_at_first loaded (.ofAnswers ["0"]) with ⟨strict, loads, -, faults⟩
  have divides := faults 2 2 ⟨by decide +kernel, rfl, "q", .literal (.int 10), .name "n", rfl,
    by decide +kernel⟩ <| by
      rintro earlier small index ⟨-, rfl, target, left, right, here, -⟩
      rcases earlier with _ | _ | earlier
      · cases here
      · cases here
      · omega
  rcases divides with ⟨-, last, ends, state, steps, store⟩
  refine ⟨strict, last, _, loads, ends, state, steps, ?_, ?_⟩
  · rw [store]
    decide +kernel
  · decide +kernel

end SubsetC.Machine
