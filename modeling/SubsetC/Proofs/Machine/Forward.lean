import SubsetC.Proofs.Machine.Counting
import SubsetC.Proofs.Machine.Safety

/-!
# Programs that only go forward

`Program.Jumps` says from where to where jumps lead. If all of them lead forward, then the counter
of a running machine has grown with every round, so that the machine stops, and it has not executed
more instructions than there are.
-/

namespace SubsetC

open Instruction

/-- From the instruction at `index` a jump leads to the label at `target`. -/
def Program.Jumps (program : Program) (index target : Nat) : Prop :=
  ∃ instruction label, program.instructions[index]? = some instruction ∧
    instruction.jumpTarget? = some label ∧ program.instructions[target]? = some (.label label)

/-- No jump leads back, or to itself. -/
def Program.Forward (program : Program) : Prop :=
  ∀ index target, program.Jumps index target → index < target

namespace Machine

variable {machine : Machine} {console : Console}

/-- In a program that only goes forward a round that goes on raises the counter. -/
theorem counter_lt_step (safe : machine.Safe) (forward : machine.program.Forward)
    (running : (machine.step console).1.state = .running) :
    machine.counter < (machine.step console).1.counter := by
  have round := round_step machine console
  generalize (machine.step console).1 = next at round running ⊢
  cases round with
  | stopped stopped => exact absurd running stopped
  | executed here outcome =>
      cases outcome with
      | behind store => exact Nat.lt_succ_self machine.counter
      | jumped jumps leads =>
          exact forward _ _ ⟨_, _, here, jumps, safe.describes.defined leads⟩
  | _ => cases running

section Forward

variable (safe : machine.Safe) (forward : machine.program.Forward)

include safe forward

/-- As long as the machine runs, its counter is ahead of the number of rounds. -/
theorem rounds_le_counter (rounds : Nat)
    (running : (machine.runFor rounds console).1.state = .running) :
    rounds ≤ (machine.runFor rounds console).1.counter := by
  induction rounds with
  | zero => exact Nat.zero_le _
  | succ rounds ih =>
      rw [runFor_succ_last] at running ⊢
      have earlier : (machine.runFor rounds console).1.state = .running := by
        by_contra stopped
        rw [step_of_stopped stopped] at running
        exact stopped running
      have safeNow := safe_runFor safe rounds console
      have forwardNow : (machine.runFor rounds console).1.program.Forward := by
        rwa [program_runFor]
      exact Nat.lt_of_le_of_lt (ih earlier) (counter_lt_step safeNow forwardNow running)

theorem executedIn_le_size (rounds : Nat) :
    machine.executedIn rounds console ≤ machine.program.size := by
  induction rounds with
  | zero => exact Nat.zero_le _
  | succ rounds ih =>
      rw [executedIn_succ_last]
      split
      · rename_i executes
        have before := rounds_le_counter safe forward rounds executes.1
        have inside := executes.2.1
        rw [program_runFor] at inside
        rw [executedIn_of_running rounds executes.1]
        omega
      · exact ih

/-- The machine stops, and executes no more instructions than the program has. -/
theorem exists_endsAfter :
    ∃ count last console', machine.EndsAfter console count last console' ∧
      count ≤ machine.program.size := by
  have stopped : (machine.runFor (machine.program.size + 1) console).1.state ≠ .running := by
    intro running
    have ahead := rounds_le_counter safe forward _ running
    have inside := (safe_runFor safe (machine.program.size + 1) console).counter_le
    rw [program_runFor] at inside
    omega
  exact ⟨_, _, _, ⟨_, rfl, stopped, rfl⟩, executedIn_le_size safe forward _⟩

end Forward

end Machine

end SubsetC
