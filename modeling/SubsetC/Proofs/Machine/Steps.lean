import SubsetC.Proofs.Machine.Points

/-!
# What a step can do

`outcome_execute` lists what can come of an instruction, and `round_step` what can come of a round.
A machine keeps the program that it was loaded with. `step_operator` says what an operator does, and
`get?_runFor` that a stretch of operators changes no value but those of its targets, also where the
machine stops inside it.
-/

namespace SubsetC

namespace Machine

variable {machine : Machine} {console : Console}

theorem load_eq_ok {program : Program} {config : Config}
    (loaded : load program config = .ok machine) :
    ∃ labels, LabelTable.ofProgram program = .ok labels ∧
      machine = ⟨program, labels, config, .empty, 0, .running, 0⟩ := by
  unfold load at loaded
  split at loaded
  · cases loaded
  · rename_i labels built
    cases loaded
    exact ⟨labels, built, rfl⟩

theorem program_load {program : Program} {config : Config}
    (loaded : load program config = .ok machine) : machine.program = program := by
  rcases load_eq_ok loaded with ⟨labels, -, rfl⟩
  rfl

theorem config_load {program : Program} {config : Config}
    (loaded : load program config = .ok machine) : machine.config = config := by
  rcases load_eq_ok loaded with ⟨labels, -, rfl⟩
  rfl

theorem counter_load {program : Program} {config : Config}
    (loaded : load program config = .ok machine) : machine.counter = 0 := by
  rcases load_eq_ok loaded with ⟨labels, -, rfl⟩
  rfl

/-- What can come of executing an instruction: the machine goes on behind it or at its label, or it
finds a fault. -/
inductive Outcome (machine : Machine) (instruction : Instruction) : Except Fault Machine → Prop
  | behind (store : Table Value) :
      Outcome machine instruction (.ok { machine.proceed with store })
  | jumped {label : String} {counter : Nat} (jumps : instruction.jumpTarget? = some label)
      (leads : machine.labels.place? label = some counter) :
      Outcome machine instruction (.ok { machine with counter })
  | lost {label : String} (jumps : instruction.jumpTarget? = some label)
      (nowhere : machine.labels.place? label = none) :
      Outcome machine instruction (.error (.undefinedLabel label machine.counter))
  | divided {target : String} {left right : Operand}
      (divides : instruction = .binary target .div left right)
      (strict : machine.config.strict = true) (zero : (right.value machine.store).toInt64 = 0) :
      Outcome machine instruction (.error (.divisionByZero machine.counter))

theorem outcome_jump {instruction : Instruction} {label : String}
    (jumps : instruction.jumpTarget? = some label) :
    Outcome machine instruction (machine.jump label) := by
  unfold jump
  split
  · rename_i counter leads
    exact .jumped jumps leads
  · rename_i nowhere
    exact .lost jumps nowhere

theorem outcome_execute (machine : Machine) (console : Console) (instruction : Instruction) :
    Outcome machine instruction (machine.execute console instruction).1 := by
  cases instruction with
  | assign target source => exact .behind (machine.store.set target _)
  | binary target op left right =>
      simp only [execute]
      split
      · rename_i value applied
        exact .behind (machine.store.set target value)
      · rename_i failed
        rcases (op.apply_eq_none_iff _ _).mp failed with ⟨rfl, zero⟩
        split
        · rename_i strict
          exact .divided rfl strict zero
        · exact .behind (machine.store.set target (.int 0))
  | jumpUnless condition label =>
      simp only [execute]
      split
      · exact .behind machine.store
      · exact outcome_jump rfl
  | jump label => exact outcome_jump rfl
  | label name => exact .behind machine.store
  | printText text => exact .behind machine.store
  | print conversion source => exact .behind machine.store
  | scan conversion target => exact .behind (machine.store.set target _)

/-- What can come of a round. -/
inductive Round (machine : Machine) : Machine → Prop
  | stopped (stopped : machine.state ≠ .running) : Round machine machine
  | halted (ended : machine.program.instructions[machine.counter]? = none) :
      Round machine { machine with state := .halted }
  | limited {limit : UInt64} (limited : machine.config.stepLimit = some limit)
      (reached : limit ≤ machine.steps) :
      Round machine { machine with state := .faulted (.stepLimitExceeded limit) }
  | executed {instruction : Instruction} {next : Machine}
      (here : machine.program.instructions[machine.counter]? = some instruction)
      (outcome : Outcome machine instruction (.ok next)) :
      Round machine { next with steps := next.steps + 1 }
  | faulted {instruction : Instruction} {fault : Fault}
      (here : machine.program.instructions[machine.counter]? = some instruction)
      (outcome : Outcome machine instruction (.error fault)) :
      Round machine { machine with state := .faulted fault, steps := machine.steps + 1 }

theorem round_step (machine : Machine) (console : Console) :
    Round machine (machine.step console).1 := by
  unfold step
  split
  · split
    · rename_i ended
      exact .halted ended
    · rename_i limit here reached
      rcases Option.filter_eq_some_iff.mp reached with ⟨limited, reached⟩
      exact .limited limited (of_decide_eq_true reached)
    · rename_i instruction here unlimited
      have outcome := outcome_execute machine console instruction
      split
      · rename_i next console' executed
        rw [executed] at outcome
        exact .executed here outcome
      · rename_i fault console' executed
        rw [executed] at outcome
        exact .faulted here outcome
  · rename_i stopped
    exact .stopped stopped

theorem program_step (machine : Machine) (console : Console) :
    (machine.step console).1.program = machine.program := by
  have round := round_step machine console
  generalize (machine.step console).1 = next at round ⊢
  cases round with
  | executed here outcome => cases outcome <;> rfl
  | _ => rfl

theorem config_step (machine : Machine) (console : Console) :
    (machine.step console).1.config = machine.config := by
  have round := round_step machine console
  generalize (machine.step console).1 = next at round ⊢
  cases round with
  | executed here outcome => cases outcome <;> rfl
  | _ => rfl

/-- What every round of a running machine keeps holds throughout its run. -/
theorem runFor_keeps (holds : Machine → Prop)
    (kept : ∀ machine console, machine.state = .running → holds machine →
      holds (machine.step console).1)
    (rounds : Nat) {machine : Machine} (console : Console) (start : holds machine) :
    holds (machine.runFor rounds console).1 := by
  induction rounds generalizing machine console with
  | zero => exact start
  | succ rounds ih =>
      unfold runFor
      split
      · rename_i running
        exact ih _ (kept machine console running start)
      · exact start

/-- A machine keeps its program. -/
theorem program_runFor (rounds : Nat) (machine : Machine) (console : Console) :
    (machine.runFor rounds console).1.program = machine.program := by
  refine runFor_keeps (fun next => next.program = machine.program) ?_ rounds console rfl
  intro next console _ same
  rw [program_step, same]

/-- A machine keeps its configuration. -/
theorem config_runFor (rounds : Nat) (machine : Machine) (console : Console) :
    (machine.runFor rounds console).1.config = machine.config := by
  refine runFor_keeps (fun next => next.config = machine.config) ?_ rounds console rfl
  intro next console _ same
  rw [config_step, same]

section Operator

variable {target : String} {op : BinaryOp} {left right : Operand}

theorem execute_operator (machine : Machine) (console : Console) (target : String) (op : BinaryOp)
    (left right : Operand) :
    (∃ fault, (machine.execute console (.binary target op left right)).1 = .error fault) ∨
      ∃ value, (machine.execute console (.binary target op left right)).1 =
        .ok (machine.assign target value) := by
  simp only [execute]
  split
  · rename_i value applied
    exact .inr ⟨value, rfl⟩
  · split
    · exact .inl ⟨_, rfl⟩
    · exact .inr ⟨.int 0, rfl⟩

/-- A machine stops at an operator, or gives its target a value and goes on behind it. -/
theorem step_operator (console : Console)
    (here : machine.program.instructions[machine.counter]? = some (.binary target op left right)) :
    ((machine.step console).1.state ≠ .running ∧
        (machine.step console).1.store = machine.store) ∨
      ∃ value, (machine.step console).1.store = machine.store.set target value ∧
        (machine.step console).1.counter = machine.counter + 1 := by
  unfold step
  rw [here]
  cases running : machine.state with
  | running =>
      cases machine.reachedLimit? with
      | some limit => exact .inl ⟨by simp, rfl⟩
      | none =>
          have outcome := execute_operator machine console target op left right
          rcases executed : machine.execute console (.binary target op left right) with
            ⟨fault | next, console'⟩
          · exact .inl ⟨by simp [executed], by simp [executed]⟩
          · rw [executed] at outcome
            rcases outcome with ⟨fault, failed⟩ | ⟨value, same⟩
            · cases failed
            · cases same
              refine .inr ⟨value, ?_, ?_⟩
              · simp only [executed]
                rfl
              · simp only [executed]
                rfl
  | halted => exact .inl ⟨by simp [running], rfl⟩
  | faulted fault => exact .inl ⟨by simp [running], rfl⟩

theorem get?_step {name : String} (other : target ≠ name)
    (here : machine.program.instructions[machine.counter]? = some (.binary target op left right)) :
    (machine.step console).1.store.get? name = machine.store.get? name := by
  rcases step_operator console here with ⟨-, store⟩ | ⟨value, store, -⟩
  · rw [store]
  · rw [store, Table.get?_set, if_neg other]

end Operator

/-- Within a stretch of operators that store to other names, the value of a name stays. -/
theorem get?_runFor {code : List Instruction} {name : String}
    (operators : ∀ instruction ∈ code, ∃ target op left right,
      instruction = .binary target op left right ∧ target ≠ name)
    (held : machine.program.Holds machine.counter code) {rounds : Nat}
    (within : rounds ≤ code.length) (console : Console) :
    (machine.runFor rounds console).1.store.get? name = machine.store.get? name := by
  induction code generalizing machine console rounds with
  | nil =>
      have none : rounds = 0 := Nat.le_zero.mp within
      rw [none]
      rfl
  | cons first rest ih =>
      rcases rounds with _ | rounds
      · rfl
      rw [List.forall_mem_cons] at operators
      rcases operators with ⟨⟨target, op, left, right, rfl, other⟩, others⟩
      rcases held with ⟨here, behind⟩
      have kept : (machine.step console).1.store.get? name = machine.store.get? name :=
        get?_step other here
      rw [runFor]
      split
      · change ((machine.step console).1.runFor rounds
          (machine.step console).2).1.store.get? name = _
        rcases step_operator console here with ⟨stopped, -⟩ | ⟨value, -, counter⟩
        · rw [runFor_of_stopped stopped]
          exact kept
        · rw [← counter, ← program_step machine console] at behind
          rw [ih others behind (Nat.le_of_succ_le_succ within)]
          exact kept
      · rfl

end Machine

end SubsetC
