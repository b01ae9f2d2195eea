import SubsetC.Proofs.Lowering.Uses
import SubsetC.Proofs.Machine.Counting
import SubsetC.Proofs.Machine.Safety

/-!
# Straight stretches

A machine that is behind an instruction without being at a label has just executed that instruction,
since jumps lead to labels only. So a run that has come to the end of a straight stretch has come to
its start and has gone through all of it. On its way, a name keeps its value unless an instruction
stores to it.
-/

namespace SubsetC.Machine

variable {machine : Machine} {console : Console} {name : String}

/-- What does not store to a name leaves its value as it is. -/
theorem get?_execute {instruction : Instruction} {next : Machine} {console' : Console}
    (other : instruction.target? ≠ some name)
    (executed : machine.execute console instruction = (.ok next, console')) :
    next.store.get? name = machine.store.get? name := by
  have stored (target : String) (value : Value) (other : some target ≠ some name) :
      (machine.assign target value).store.get? name = machine.store.get? name := by
    change (machine.store.set target value).get? name = _
    rw [Table.get?_set, if_neg fun same => other (congrArg some same)]
  have jumped (label : String) (jumps : machine.jump label = .ok next) :
      next.store.get? name = machine.store.get? name := by
    unfold jump at jumps
    split at jumps
    · cases jumps
      rfl
    · cases jumps
  cases instruction with
  | assign target source =>
      cases executed
      exact stored target _ other
  | binary target op left right =>
      simp only [execute] at executed
      split at executed
      · cases executed
        exact stored target _ other
      · split at executed
        · cases executed
        · cases executed
          exact stored target _ other
  | jumpUnless condition label =>
      simp only [execute] at executed
      split at executed
      · cases executed
        rfl
      · exact jumped label (congrArg Prod.fst executed)
  | jump label => exact jumped label (congrArg Prod.fst executed)
  | label label =>
      cases executed
      rfl
  | printText text =>
      cases executed
      rfl
  | print conversion source =>
      cases executed
      rfl
  | scan conversion target =>
      cases executed
      exact stored target _ other

/-- The result of an operator is stored, or zero if there is none. -/
theorem get?_execute_binary {op : BinaryOp} {left right : Operand} {next : Machine}
    {console' : Console}
    (executed : machine.execute console (.binary name op left right) = (.ok next, console')) :
    next.store.get? name =
      some ((op.apply (left.value machine.store) (right.value machine.store)).getD (.int 0)) := by
  have stored (value : Value) : (machine.assign name value).store.get? name = some value := by
    change (machine.store.set name value).get? name = _
    rw [Table.get?_set, if_pos rfl]
  simp only [execute] at executed
  cases applied : op.apply (left.value machine.store) (right.value machine.store) with
  | some value =>
      simp only [applied] at executed
      cases executed
      exact stored value
  | none =>
      simp only [applied] at executed
      split at executed
      · cases executed
      · cases executed
        exact stored (.int 0)

/-- A round changes no value but that of the name that its instruction stores to. -/
theorem get?_step_of_target
    (other : ∀ instruction, machine.program.instructions[machine.counter]? = some instruction →
      instruction.target? ≠ some name) :
    (machine.step console).1.store.get? name = machine.store.get? name := by
  by_cases executes : machine.Executes
  · rcases executes.exists_instruction with ⟨instruction, here⟩
    rcases executed : machine.execute console instruction with ⟨fault | next, console'⟩
    · rw [step_of_error executes here executed]
    · rw [step_of_ok executes here executed]
      change next.store.get? name = _
      exact get?_execute (other instruction here) executed
  · by_cases running : machine.state = .running
    · rcases step_of_not_executes running executes with ⟨state, -, stops⟩
      rw [stops]
    · rw [step_of_stopped running]

/-- An operator that does not stop the machine stores its result, or zero if there is none. -/
theorem get?_step_binary {op : BinaryOp} {left right : Operand}
    (here : machine.program.instructions[machine.counter]? = some (.binary name op left right))
    (goesOn : (machine.step console).1.state = .running) :
    (machine.step console).1.store.get? name =
      some ((op.apply (left.value machine.store) (right.value machine.store)).getD (.int 0)) := by
  have executes := executes_of_running goesOn
  rcases executed : machine.execute console (.binary name op left right) with
    ⟨fault | next, console'⟩
  · rw [step_of_error executes here executed] at goesOn
    cases goesOn
  · rw [step_of_ok executes here executed]
    change next.store.get? name = _
    exact get?_execute_binary executed

/-- What is behind an instruction and not at a label has executed that instruction. -/
theorem counter_of_round {next : Machine} {place : Nat} (safe : machine.Safe)
    (round : Round machine next) (running : next.state = .running)
    (behind : next.counter = place + 1)
    (unlabelled : ∀ label, machine.program.instructions[place + 1]? ≠ some (.label label)) :
    machine.state = .running ∧ machine.counter = place := by
  cases round with
  | stopped stopped => exact absurd running stopped
  | halted ended => cases running
  | limited limited reached => cases running
  | executed here outcome =>
      cases outcome with
      | behind store => exact ⟨running, Nat.succ.inj behind⟩
      | jumped jumps leads =>
          cases behind
          exact absurd (safe.describes.defined leads) (unlabelled _)
  | faulted here outcome => cases running

/-- A run that is at the end of a stretch without labels has gone through it from its start. -/
theorem exists_earlier {start : Machine} (safe : start.Safe) (first : start.counter = 0)
    {rounds place length : Nat} (running : (start.runFor rounds console).1.state = .running)
    (here : (start.runFor rounds console).1.counter = place + length)
    (unlabelled : ∀ between, place < between → between ≤ place + length → ∀ label,
      start.program.instructions[between]? ≠ some (.label label)) :
    ∃ earlier, rounds = earlier + length ∧ ∀ passed ≤ length,
      (start.runFor (earlier + passed) console).1.state = .running ∧
        (start.runFor (earlier + passed) console).1.counter = place + passed := by
  induction length generalizing rounds with
  | zero =>
      refine ⟨rounds, rfl, ?_⟩
      intro passed none
      rw [Nat.le_zero.mp none]
      exact ⟨running, here⟩
  | succ length ih =>
      cases rounds with
      | zero =>
          change start.counter = _ at here
          omega
      | succ rounds =>
          have last := runFor_succ_last rounds start console
          have before : (start.runFor rounds console).1.state = .running ∧
              (start.runFor rounds console).1.counter = place + length := by
            rw [last] at running here
            refine counter_of_round (safe_runFor safe rounds console) (round_step _ _) running
              here ?_
            rw [program_runFor]
            exact unlabelled (place + length + 1) (by omega) (Nat.le_refl _)
          rcases ih before.1 before.2 fun between behind within =>
            unlabelled between behind (Nat.le_succ_of_le within) with ⟨earlier, rfl, through⟩
          refine ⟨earlier, rfl, ?_⟩
          intro passed within
          rcases Nat.le_succ_iff.mp within with inside | rfl
          · exact through passed inside
          · exact ⟨running, here⟩

/-- A name keeps its value throughout rounds that store to other names. -/
theorem get?_runFor_of_target {start : Machine} {earlier more : Nat}
    (others : ∀ passed < more, ∀ instruction,
      start.program.instructions[(start.runFor (earlier + passed) console).1.counter]? =
          some instruction → instruction.target? ≠ some name) :
    (start.runFor (earlier + more) console).1.store.get? name =
      (start.runFor earlier console).1.store.get? name := by
  induction more with
  | zero => rfl
  | succ more ih =>
      rw [← ih fun passed small => others passed (Nat.lt_succ_of_lt small), ← Nat.add_assoc,
        runFor_succ_last]
      apply get?_step_of_target
      rw [program_runFor]
      exact others more (Nat.lt_succ_self more)

end SubsetC.Machine
