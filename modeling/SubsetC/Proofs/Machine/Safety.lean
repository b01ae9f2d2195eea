import SubsetC.Proofs.Machine.Labels
import SubsetC.Proofs.Machine.Steps

/-!
# Safety of runs

`Machine.Safe` is what holds at every point of every run: the machine stands at an instruction or at
the end of its program, its labels have the places of their definitions, and if it has faulted,
there was a division by zero or a step limit. A loaded machine is safe, and every round keeps it
safe. `load_safe` says what follows for a run of a program that can be loaded: no jump leads
nowhere, and what has stopped stays as it is.
-/

namespace SubsetC.Machine

variable {machine next : Machine} {console : Console}

/-- What accounts for the fault of a machine. A program that has been loaded finds no fault with its
labels. -/
def Explains (machine : Machine) : Fault → Prop
  | .divisionByZero index =>
      machine.config.strict = true ∧ ∃ target left right,
        machine.program.instructions[index]? = some (.binary target .div left right) ∧
          (right.value machine.store).toInt64 = 0
  | .stepLimitExceeded limit => machine.config.stepLimit = some limit
  | .duplicateLabel _ _ _ | .undefinedLabel _ _ => False

/-- What holds of a machine throughout its run. -/
structure Safe (machine : Machine) : Prop where
  describes : machine.labels.Describes machine.program
  counter_le : machine.counter ≤ machine.program.size
  halted : machine.state = .halted → machine.counter = machine.program.size
  explained : ∀ fault, machine.state = .faulted fault → machine.Explains fault

theorem safe_load {program : Program} {config : Config}
    (loaded : load program config = .ok machine) : machine.Safe := by
  rcases load_eq_ok loaded with ⟨labels, built, rfl⟩
  exact ⟨LabelTable.describes_of_ofProgram built, Nat.zero_le _, nofun, nofun⟩

/-- A safe machine stands at an instruction unless it stands at the end. -/
theorem Safe.counter_eq_of_none (safe : machine.Safe)
    (ended : machine.program.instructions[machine.counter]? = none) :
    machine.counter = machine.program.size :=
  Nat.le_antisymm safe.counter_le (Array.getElem?_eq_none_iff.mp ended)

theorem counter_lt_of_some {program : Program} {counter : Nat} {instruction : Instruction}
    (here : program.instructions[counter]? = some instruction) : counter < program.size := by
  rcases Array.getElem?_eq_some_iff.mp here with ⟨small, -⟩
  exact small

/-- The label of an instruction of the program has a place. -/
theorem Safe.exists_place (safe : machine.Safe) {instruction : Instruction} {label : String}
    (here : machine.program.instructions[machine.counter]? = some instruction)
    (jumps : instruction.jumpTarget? = some label) :
    ∃ place, machine.labels.place? label = some place ∧
      machine.program.instructions[place]? = some (.label label) := by
  rw [← Array.getElem?_toList] at here
  have jumped : label ∈ Instruction.targetsOf machine.program.instructions.toList :=
    List.mem_filterMap.mpr ⟨instruction, List.mem_of_getElem? here, jumps⟩
  rcases safe.describes.closed label jumped with ⟨place, leads⟩
  exact ⟨place, leads, safe.describes.defined leads⟩

/-- A safe machine that executes an instruction is safe behind it. -/
theorem Safe.of_outcome (safe : machine.Safe) (running : machine.state = .running)
    {instruction : Instruction}
    (here : machine.program.instructions[machine.counter]? = some instruction)
    (outcome : Outcome machine instruction (.ok next)) :
    Safe { next with steps := next.steps + 1 } := by
  cases outcome with
  | behind store =>
      refine ⟨safe.describes, counter_lt_of_some here, ?_, ?_⟩
      · intro halted
        simp [proceed, running] at halted
      · intro fault faulted
        simp [proceed, running] at faulted
  | jumped jumps leads =>
      refine ⟨safe.describes, ?_, ?_, ?_⟩
      · exact Nat.le_of_lt (counter_lt_of_some (safe.describes.defined leads))
      · intro halted
        simp [running] at halted
      · intro fault faulted
        simp [running] at faulted

/-- A safe machine finds no fault but a division by zero. -/
theorem Safe.explains_of_outcome (safe : machine.Safe) {instruction : Instruction} {fault : Fault}
    (here : machine.program.instructions[machine.counter]? = some instruction)
    (outcome : Outcome machine instruction (.error fault)) : machine.Explains fault := by
  cases outcome with
  | lost jumps nowhere =>
      rcases safe.exists_place here jumps with ⟨place, leads, -⟩
      rw [nowhere] at leads
      cases leads
  | divided divides strict zero =>
      rw [divides] at here
      exact ⟨strict, _, _, _, here, zero⟩

/-- Every round keeps a machine safe. -/
theorem safe_step (safe : machine.Safe) (running : machine.state = .running) (console : Console) :
    (machine.step console).1.Safe := by
  have round := round_step machine console
  generalize (machine.step console).1 = next at round ⊢
  cases round with
  | stopped stopped => exact safe
  | halted ended =>
      exact ⟨safe.describes, safe.counter_le, fun _ => safe.counter_eq_of_none ended, nofun⟩
  | limited limited reached =>
      refine ⟨safe.describes, safe.counter_le, nofun, ?_⟩
      intro fault faulted
      cases faulted
      exact limited
  | executed here outcome => exact safe.of_outcome running here outcome
  | faulted here outcome =>
      refine ⟨safe.describes, safe.counter_le, nofun, ?_⟩
      intro fault faulted
      cases faulted
      exact safe.explains_of_outcome here outcome

/-- A machine is safe throughout its run. -/
theorem safe_runFor (safe : machine.Safe) (rounds : Nat) (console : Console) :
    (machine.runFor rounds console).1.Safe :=
  runFor_keeps Safe (fun _ console running safe => safe_step safe running console) rounds console
    safe

/-- A safe machine that runs has reached the end and halts there, or its next instruction leads
somewhere. -/
theorem Safe.next_round (safe : machine.Safe) (running : machine.state = .running)
    (console : Console) :
    (machine.counter = machine.program.size ∧
        machine.step console = ({ machine with state := .halted }, console)) ∨
      ∃ instruction, machine.program.instructions[machine.counter]? = some instruction ∧
        ∀ label, instruction.jumpTarget? = some label →
          ∃ place, machine.jump label = .ok { machine with counter := place } ∧
            machine.program.instructions[place]? = some (.label label) := by
  cases here : machine.program.instructions[machine.counter]? with
  | none =>
      refine .inl ⟨safe.counter_eq_of_none here, ?_⟩
      simp only [step, running, here]
  | some instruction =>
      refine .inr ⟨instruction, rfl, ?_⟩
      intro label jumps
      rcases safe.exists_place here jumps with ⟨place, leads, defined⟩
      refine ⟨place, ?_, defined⟩
      simp only [jump, leads]

/-- Throughout the run of a program that can be loaded, the machine stands in its program, and its
next instruction leads somewhere. It halts at the end only, it faults only at a division by zero
that is not made good or at a step limit, and once it has stopped it does nothing more. -/
theorem load_safe {program : Program} {config : Config} {start : Machine}
    (loaded : load program config = .ok start) (rounds : Nat) (console : Console) :
    let machine := (start.runFor rounds console).1
    machine.counter ≤ program.size ∧
    (machine.state = .running → ∀ console',
      (machine.counter = program.size ∧
          machine.step console' = ({ machine with state := .halted }, console')) ∨
        ∃ instruction, program.instructions[machine.counter]? = some instruction ∧
          ∀ label, instruction.jumpTarget? = some label →
            ∃ place, machine.jump label = .ok { machine with counter := place } ∧
              program.instructions[place]? = some (.label label)) ∧
    (machine.state = .halted → machine.counter = program.size) ∧
    (∀ fault, machine.state = .faulted fault →
      (∃ index target left right, fault = .divisionByZero index ∧ config.strict = true ∧
        program.instructions[index]? = some (.binary target .div left right) ∧
          (right.value machine.store).toInt64 = 0) ∨
      ∃ limit, fault = .stepLimitExceeded limit ∧ config.stepLimit = some limit) ∧
    (machine.state ≠ .running → ∀ more console', machine.runFor more console' =
      (machine, console')) := by
  intro machine
  have safe : machine.Safe := safe_runFor (safe_load loaded) rounds console
  have sameProgram : machine.program = program :=
    (program_runFor rounds start console).trans (program_load loaded)
  have sameConfig : machine.config = config :=
    (config_runFor rounds start console).trans (config_load loaded)
  refine ⟨?_, ?_, ?_, ?_, fun stopped more console' => runFor_of_stopped stopped more console'⟩
  · rw [← sameProgram]
    exact safe.counter_le
  · intro running console'
    rw [← sameProgram]
    exact safe.next_round running console'
  · rw [← sameProgram]
    exact safe.halted
  · intro fault faulted
    have explained := safe.explained fault faulted
    cases fault with
    | divisionByZero index =>
        rcases explained with ⟨strict, target, left, right, here, zero⟩
        rw [sameConfig] at strict
        rw [sameProgram] at here
        exact .inl ⟨index, target, left, right, rfl, strict, here, zero⟩
    | stepLimitExceeded limit =>
        rw [← sameConfig]
        exact .inr ⟨limit, rfl, explained⟩
    | duplicateLabel label first second => exact explained.elim
    | undefinedLabel label index => exact explained.elim

/-- Divides ten by a number that is read, and by the numbers below it down to zero. -/
def quotients : Program where
  instructions :=
    #[.scan .decimal "n", .label "L1", .binary "q" .div (.literal (.int 10)) (.name "n"),
      .print .decimal "q", .binary "n" .sub (.name "n") (.literal (.int 1)),
      .jumpUnless (.literal (.int 0)) "L1"]

theorem load_safe_quotients :
    ∃ start, load quotients ⟨true, none⟩ = .ok start ∧
      (start.runFor 20 (.ofAnswers ["2"])).1.state = .faulted (.divisionByZero 2) ∧
      ∀ more console', (start.runFor 20 (.ofAnswers ["2"])).1.runFor more console' =
        ((start.runFor 20 (.ofAnswers ["2"])).1, console') := by
  refine ⟨_, rfl, ?_, ?_⟩
  · decide +kernel
  · have safe := load_safe (show load quotients ⟨true, none⟩ = .ok _ from rfl) 20 (.ofAnswers ["2"])
    exact safe.2.2.2.2 (by decide +kernel)

end SubsetC.Machine
