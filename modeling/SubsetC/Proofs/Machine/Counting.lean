import Mathlib.Algebra.Ring.Nat
import SubsetC.Proofs.Machine.Steps

/-!
# Counting instructions

In a round, a machine executes an instruction, or it stops without executing one. `executedIn`
counts the rounds of the first kind, and a run `EndsAfter` as many instructions as have been
executed when the machine has stopped. The machine itself counts them with 64 bits: `steps_runFor`
relates the two counts, and `toNat_steps_runFor` says when they are the same.
-/

namespace SubsetC.Machine

variable {machine : Machine} {console : Console}

theorem step_of_stopped (stopped : machine.state ≠ .running) (console : Console) :
    machine.step console = (machine, console) := by
  unfold step
  split
  · rename_i running
    exact absurd running stopped
  · rfl

/-- The first round of a run. Where the machine has stopped, its rounds do nothing. -/
theorem runFor_succ (rounds : Nat) (machine : Machine) (console : Console) :
    machine.runFor (rounds + 1) console =
      (machine.step console).1.runFor rounds (machine.step console).2 := by
  by_cases running : machine.state = .running
  · simp only [runFor, if_pos running]
  · rw [step_of_stopped running, runFor_of_stopped running, runFor_of_stopped running]

/-- The last round of a run. -/
theorem runFor_succ_last (rounds : Nat) (machine : Machine) (console : Console) :
    machine.runFor (rounds + 1) console =
      (machine.runFor rounds console).1.step (machine.runFor rounds console).2 := by
  rw [runFor_add, runFor_succ]
  rfl

/-- The next round executes an instruction. -/
def Executes (machine : Machine) : Prop :=
  machine.state = .running ∧ machine.counter < machine.program.size ∧ machine.reachedLimit? = none

instance (machine : Machine) : Decidable machine.Executes :=
  inferInstanceAs (Decidable (_ ∧ _ ∧ _))

/-- The number of instructions that are executed in so many rounds. -/
def executedIn : (rounds : Nat) → Machine → Console → Nat
  | 0, _, _ => 0
  | rounds + 1, machine, console =>
      (if machine.Executes then 1 else 0) +
        executedIn rounds (machine.step console).1 (machine.step console).2

/-- The machine stops with this outcome, and executes so many instructions until then. -/
def EndsAfter (machine : Machine) (console : Console) (count : Nat) (last : Machine)
    (console' : Console) : Prop :=
  ∃ rounds, machine.runFor rounds console = (last, console') ∧ last.state ≠ .running ∧
    machine.executedIn rounds console = count

theorem steps_load {program : Program} {config : Config}
    (loaded : load program config = .ok machine) : machine.steps = 0 := by
  rcases load_eq_ok loaded with ⟨labels, -, rfl⟩
  rfl

section Round

theorem Executes.exists_instruction (executes : machine.Executes) :
    ∃ instruction, machine.program.instructions[machine.counter]? = some instruction :=
  ⟨_, Array.getElem?_eq_getElem executes.2.1⟩

theorem step_of_ok {instruction : Instruction} {next : Machine} {console' : Console}
    (executes : machine.Executes)
    (here : machine.program.instructions[machine.counter]? = some instruction)
    (executed : machine.execute console instruction = (.ok next, console')) :
    machine.step console = ({ next with steps := next.steps + 1 }, console') := by
  simp only [step, executes.1, here, executes.2.2, executed]

theorem step_of_error {instruction : Instruction} {fault : Fault} {console' : Console}
    (executes : machine.Executes)
    (here : machine.program.instructions[machine.counter]? = some instruction)
    (executed : machine.execute console instruction = (.error fault, console')) :
    machine.step console =
      ({ machine with state := .faulted fault, steps := machine.steps + 1 }, console') := by
  simp only [step, executes.1, here, executes.2.2, executed]

/-- A running machine that executes nothing stops as it is. -/
theorem step_of_not_executes (running : machine.state = .running) (idle : ¬machine.Executes) :
    ∃ state, state ≠ .running ∧
      ∀ console, machine.step console = ({ machine with state }, console) := by
  cases here : machine.program.instructions[machine.counter]? with
  | none =>
      refine ⟨.halted, by simp, ?_⟩
      intro console
      simp only [step, running, here]
  | some instruction =>
      rcases Array.getElem?_eq_some_iff.mp here with ⟨small, -⟩
      cases limited : machine.reachedLimit? with
      | none => exact absurd ⟨running, small, limited⟩ idle
      | some limit =>
          refine ⟨.faulted (.stepLimitExceeded limit), by simp, ?_⟩
          intro console
          simp only [step, running, here, limited]

/-- A machine that is still running behind a round has executed an instruction. -/
theorem executes_of_running (goesOn : (machine.step console).1.state = .running) :
    machine.Executes := by
  by_contra idle
  by_cases running : machine.state = .running
  · rcases step_of_not_executes running idle with ⟨state, stopped, stops⟩
    rw [stops] at goesOn
    exact stopped goesOn
  · rw [step_of_stopped running] at goesOn
    exact running goesOn

theorem steps_execute {instruction : Instruction} {next : Machine}
    (executed : (machine.execute console instruction).1 = .ok next) :
    next.steps = machine.steps := by
  have outcome := outcome_execute machine console instruction
  rw [executed] at outcome
  cases outcome <;> rfl

theorem steps_step (machine : Machine) (console : Console) :
    (machine.step console).1.steps =
      machine.steps + UInt64.ofNat (if machine.Executes then 1 else 0) := by
  by_cases executes : machine.Executes
  · rcases executes.exists_instruction with ⟨instruction, here⟩
    rcases executed : machine.execute console instruction with ⟨fault | next, console'⟩
    · simp [step_of_error executes here executed, executes]
    · have same : next.steps = machine.steps := steps_execute (by rw [executed])
      simp [step_of_ok executes here executed, executes, same]
  · by_cases running : machine.state = .running
    · rcases step_of_not_executes running executes with ⟨state, -, stops⟩
      simp [stops, executes]
    · simp [step_of_stopped running, executes]

end Round

section Run

theorem executedIn_of_stopped (stopped : machine.state ≠ .running) (rounds : Nat) :
    machine.executedIn rounds console = 0 := by
  induction rounds with
  | zero => rfl
  | succ rounds ih =>
      have idle : ¬machine.Executes := fun executes => stopped executes.1
      simp [executedIn, idle, step_of_stopped stopped, ih]

theorem executedIn_le (rounds : Nat) (machine : Machine) (console : Console) :
    machine.executedIn rounds console ≤ rounds := by
  induction rounds generalizing machine console with
  | zero => exact Nat.le_refl 0
  | succ rounds ih =>
      have rest := ih (machine.step console).1 (machine.step console).2
      rw [executedIn]
      split <;> omega

theorem executedIn_add (first second : Nat) (machine : Machine) (console : Console) :
    machine.executedIn (first + second) console =
      machine.executedIn first console +
        (machine.runFor first console).1.executedIn second (machine.runFor first console).2 := by
  induction first generalizing machine console with
  | zero => simp [executedIn, runFor]
  | succ first ih =>
      rw [Nat.add_right_comm, executedIn, executedIn, ih, runFor_succ, Nat.add_assoc]

theorem executedIn_le_of_le {rounds more : Nat} (fewer : rounds ≤ more) (machine : Machine)
    (console : Console) : machine.executedIn rounds console ≤ machine.executedIn more console := by
  rcases Nat.exists_eq_add_of_le fewer with ⟨rest, rfl⟩
  rw [executedIn_add]
  exact Nat.le_add_right _ _

/-- The last of so many rounds. -/
theorem executedIn_succ_last (rounds : Nat) (machine : Machine) (console : Console) :
    machine.executedIn (rounds + 1) console =
      machine.executedIn rounds console +
        if (machine.runFor rounds console).1.Executes then 1 else 0 := by
  rw [executedIn_add]
  rfl

/-- Every round of a machine that still runs has executed an instruction. -/
theorem executedIn_of_running (rounds : Nat)
    (running : (machine.runFor rounds console).1.state = .running) :
    machine.executedIn rounds console = rounds := by
  induction rounds generalizing machine console with
  | zero => rfl
  | succ rounds ih =>
      rw [runFor_succ] at running
      rw [executedIn, ih running]
      by_cases executes : machine.Executes
      · rw [if_pos executes, Nat.add_comm]
      · have stopped : (machine.step console).1.state ≠ .running :=
          fun goesOn => executes (executes_of_running goesOn)
        rw [runFor_of_stopped stopped] at running
        exact absurd running stopped

theorem steps_runFor (rounds : Nat) (machine : Machine) (console : Console) :
    (machine.runFor rounds console).1.steps =
      machine.steps + UInt64.ofNat (machine.executedIn rounds console) := by
  induction rounds generalizing machine console with
  | zero => simp [runFor, executedIn]
  | succ rounds ih =>
      rw [runFor_succ, ih, steps_step, executedIn, UInt64.ofNat_add, UInt64.add_assoc]

/-- No part of a run executes more than the whole run. -/
theorem executedIn_le_of_endsAfter {count : Nat} {last : Machine} {console' : Console}
    (ends : machine.EndsAfter console count last console') (rounds : Nat) :
    machine.executedIn rounds console ≤ count := by
  rcases ends with ⟨enough, ran, stopped, rfl⟩
  rcases Nat.le_total rounds enough with fewer | more
  · exact executedIn_le_of_le fewer machine console
  · rcases Nat.exists_eq_add_of_le more with ⟨rest, rfl⟩
    rw [executedIn_add, ran, executedIn_of_stopped stopped]
    omega

/-- Where the numbers fit into 64 bits, the machine has counted right. -/
theorem toNat_steps_runFor {rounds : Nat} (fresh : machine.steps = 0)
    (small : machine.executedIn rounds console < 2 ^ 64) :
    (machine.runFor rounds console).1.steps.toNat = machine.executedIn rounds console := by
  rw [steps_runFor, fresh, UInt64.zero_add, UInt64.toNat_ofNat', Nat.mod_eq_of_lt small]

end Run

end SubsetC.Machine
