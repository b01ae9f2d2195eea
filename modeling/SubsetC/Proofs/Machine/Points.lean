import SubsetC.Machine

/-!
# Points of a run

`Program.Holds` says that code lies in a program at a place. A point is where a lenient machine
without a step limit is and what it has stored and done. The only thing left out is the number of
steps, which such a machine never looks at. `Point.Reaches` is what a number of rounds does, and
there is one lemma for each instruction; `Point.HaltsIn` says that the machine halts within a number
of rounds, and `haltsIn_of_reaches` that it does so behind every point that it reaches.
-/

namespace SubsetC

namespace Machine

/-- A machine that has stopped stays as it is. -/
theorem runFor_of_stopped {machine : Machine} (stopped : machine.state ≠ .running)
    (rounds : Nat) (console : Console) : machine.runFor rounds console = (machine, console) := by
  cases rounds with
  | zero => rfl
  | succ rounds => simp [runFor, stopped]

/-- Rounds may be run in two parts. -/
theorem runFor_add (first second : Nat) (machine : Machine) (console : Console) :
    machine.runFor (first + second) console =
      (machine.runFor first console).1.runFor second (machine.runFor first console).2 := by
  induction first generalizing machine console with
  | zero => simp [runFor]
  | succ first ih =>
      rw [Nat.succ_add]
      by_cases runs : machine.state = .running
      · simp only [runFor, if_pos runs]
        exact ih _ _
      · rw [runFor_of_stopped runs, runFor_of_stopped runs, runFor_of_stopped runs]

end Machine

namespace Program

variable {program : Program}

/-- The code lies in the program at the place. -/
def Holds (program : Program) : Nat → List Instruction → Prop
  | _, [] => True
  | index, first :: rest =>
      program.instructions[index]? = some first ∧ program.Holds (index + 1) rest

@[simp]
theorem holds_nil (index : Nat) : program.Holds index [] := trivial

@[simp]
theorem holds_cons {index : Nat} {first : Instruction} {rest : List Instruction} :
    program.Holds index (first :: rest) ↔
      program.instructions[index]? = some first ∧ program.Holds (index + 1) rest := Iff.rfl

/-- Code holds at a place if its first part does, and its second part behind it. -/
@[simp]
theorem holds_append {index : Nat} {first second : List Instruction} :
    program.Holds index (first ++ second) ↔
      program.Holds index first ∧ program.Holds (index + first.length) second := by
  induction first generalizing index with
  | nil => simp
  | cons instruction first ih =>
      rw [List.cons_append, holds_cons, holds_cons, ih, List.length_cons, and_assoc,
        Nat.add_right_comm, Nat.add_assoc index]

theorem mem_of_holds {index : Nat} {code : List Instruction} (held : program.Holds index code)
    {instruction : Instruction} (mem : instruction ∈ code) :
    instruction ∈ program.instructions.toList := by
  induction code generalizing index with
  | nil => cases mem
  | cons first rest ih =>
      rcases List.mem_cons.mp mem with rfl | later
      · have here := held.1
        rw [← Array.getElem?_toList] at here
        exact List.mem_of_getElem? here
      · exact ih held.2 later

/-- A program holds its own instructions. -/
theorem holds_of_drop {index : Nat} {code : List Instruction}
    (behind : program.instructions.toList.drop index = code) : program.Holds index code := by
  induction code generalizing index with
  | nil => trivial
  | cons first rest ih =>
      have here : program.instructions.toList[index]? = some first := by
        rw [← List.head?_drop, behind, List.head?_cons]
      refine ⟨by rw [← Array.getElem?_toList, here], ih ?_⟩
      rw [← List.tail_drop, behind, List.tail_cons]

end Program

/-- The place of a machine in its program, with its store and its console. -/
structure Point where
  counter : Nat
  store : Table Value
  console : Console

namespace Point

variable {program : Program} {labels : LabelTable}

/-- A lenient machine without a step limit at a point. -/
def machine (program : Program) (labels : LabelTable) (point : Point) (steps : UInt64) :
    Machine where
  program
  labels
  config := ⟨false, none⟩
  store := point.store
  counter := point.counter
  state := .running
  steps

/-- The rounds lead from one point to the other. -/
def Reaches (program : Program) (labels : LabelTable) (rounds : Nat) (first last : Point) : Prop :=
  ∀ steps, ∃ steps', (first.machine program labels steps).runFor rounds first.console =
    (last.machine program labels steps', last.console)

theorem Reaches.refl (point : Point) : Reaches program labels 0 point point :=
  fun steps => ⟨steps, rfl⟩

/-- Two ways, one behind the other. -/
theorem Reaches.trans {early late : Nat} {first middle last : Point}
    (before : Reaches program labels early first middle)
    (after : Reaches program labels late middle last) :
    Reaches program labels (early + late) first last := by
  intro steps
  rcases before steps with ⟨steps, reached⟩
  rcases after steps with ⟨steps', reached'⟩
  exact ⟨steps', by rw [Machine.runFor_add, reached, reached']⟩

/-- What an instruction does leads to the next point. -/
theorem reaches_of_execute {instruction : Instruction} {point next : Point}
    (here : program.instructions[point.counter]? = some instruction)
    (executes : ∀ steps, (point.machine program labels steps).execute point.console instruction =
      (.ok (next.machine program labels steps), next.console)) :
    Reaches program labels 1 point next := by
  intro steps
  refine ⟨steps + 1, ?_⟩
  have step : (point.machine program labels steps).step point.console =
      (next.machine program labels (steps + 1), next.console) := by
    have fetched : (point.machine program labels steps).program.instructions[
        (point.machine program labels steps).counter]? = some instruction := here
    have unlimited : (point.machine program labels steps).reachedLimit? = none := rfl
    simp only [Machine.step, fetched, unlimited, executes]
    rfl
  have running : (point.machine program labels steps).state = .running := rfl
  simp only [Machine.runFor, if_pos running, step]

section Instructions

variable {point : Point}

theorem reaches_assign {target : String} {source : Operand}
    (here : program.instructions[point.counter]? = some (.assign target source)) :
    Reaches program labels 1 point
      ⟨point.counter + 1, point.store.set target (source.value point.store), point.console⟩ :=
  reaches_of_execute here fun _ => rfl

/-- An operation stores its result. -/
theorem reaches_binary {target : String} {op : BinaryOp} {left right : Operand} {value : Value}
    (here : program.instructions[point.counter]? = some (.binary target op left right))
    (applied : op.apply (left.value point.store) (right.value point.store) = some value) :
    Reaches program labels 1 point
      ⟨point.counter + 1, point.store.set target value, point.console⟩ :=
  reaches_of_execute here fun _ => by
    simp only [Machine.execute, Point.machine, applied]
    rfl

/-- The report of a division by zero. -/
def divisionReport (instruction : Instruction) (index : Nat) : Diagnostic :=
  .runtime s!"division by zero in '{instruction.text}' at instruction {index}, using 0"

/-- A division by zero stores zero and gives a warning. -/
theorem reaches_binary_zero {target : String} {op : BinaryOp} {left right : Operand}
    (here : program.instructions[point.counter]? = some (.binary target op left right))
    (applied : op.apply (left.value point.store) (right.value point.store) = none) :
    Reaches program labels 1 point
      ⟨point.counter + 1, point.store.set target (.int 0),
        point.console.report (divisionReport (.binary target op left right) point.counter)⟩ :=
  reaches_of_execute here fun _ => by
    simp only [Machine.execute, Point.machine, applied]
    rfl

/-- A true condition leads on to the next instruction. -/
theorem reaches_jumpUnless_true {condition : Operand} {label : String}
    (here : program.instructions[point.counter]? = some (.jumpUnless condition label))
    (truth : (condition.value point.store).isTruthy = true) :
    Reaches program labels 1 point ⟨point.counter + 1, point.store, point.console⟩ :=
  reaches_of_execute here fun _ => by
    simp only [Machine.execute, Point.machine, truth, if_true]
    rfl

/-- A false condition leads to the label. -/
theorem reaches_jumpUnless_false {condition : Operand} {label : String} {place : Nat}
    (here : program.instructions[point.counter]? = some (.jumpUnless condition label))
    (falsity : (condition.value point.store).isTruthy = false)
    (leads : labels.place? label = some place) :
    Reaches program labels 1 point ⟨place, point.store, point.console⟩ :=
  reaches_of_execute here fun _ => by
    simp [Machine.execute, Point.machine, falsity, Machine.jump, leads]

/-- A jump leads to its label. -/
theorem reaches_jump {label : String} {place : Nat}
    (here : program.instructions[point.counter]? = some (.jump label))
    (leads : labels.place? label = some place) :
    Reaches program labels 1 point ⟨place, point.store, point.console⟩ :=
  reaches_of_execute here fun _ => by
    simp [Machine.execute, Point.machine, Machine.jump, leads]

theorem reaches_label {name : String}
    (here : program.instructions[point.counter]? = some (.label name)) :
    Reaches program labels 1 point ⟨point.counter + 1, point.store, point.console⟩ :=
  reaches_of_execute here fun _ => rfl

theorem reaches_printText {text : String}
    (here : program.instructions[point.counter]? = some (.printText text)) :
    Reaches program labels 1 point ⟨point.counter + 1, point.store, point.console.emit text⟩ :=
  reaches_of_execute here fun _ => rfl

theorem reaches_print {conversion : Conversion} {source : String}
    (here : program.instructions[point.counter]? = some (.print conversion source)) :
    Reaches program labels 1 point
      ⟨point.counter + 1, point.store,
        point.console.emit (conversion.write (Operand.value (.name source) point.store))⟩ :=
  reaches_of_execute here fun _ => rfl

theorem reaches_scan {conversion : Conversion} {target : String}
    (here : program.instructions[point.counter]? = some (.scan conversion target)) :
    let (answer, console) := point.console.request (conversion.prompt target)
    let (value, problem) := conversion.read target answer
    Reaches program labels 1 point
      ⟨point.counter + 1, point.store.set target value,
        problem.toList.foldl Console.report console⟩ :=
  reaches_of_execute here fun _ => rfl

end Instructions

/-- From the point the machine halts within the rounds. -/
def HaltsIn (program : Program) (labels : LabelTable) (rounds : Nat) (point : Point) : Prop :=
  ∃ steps, ((point.machine program labels steps).runFor rounds point.console).1.state = .halted

/-- A machine that halts still does so from a point on its way. -/
theorem haltsIn_of_reaches {early rounds : Nat} {first middle : Point}
    (reached : Reaches program labels early first middle)
    (halts : HaltsIn program labels rounds first) :
    early < rounds ∧ HaltsIn program labels (rounds - early) middle := by
  rcases halts with ⟨steps, halted⟩
  rcases reached steps with ⟨steps', arrived⟩
  have later : early < rounds := by
    apply Nat.lt_of_not_le
    intro sooner
    rcases Nat.exists_eq_add_of_le sooner with ⟨more, rfl⟩
    rw [Machine.runFor_add, Machine.runFor_of_stopped (by simp [halted])] at arrived
    rw [congrArg Prod.fst arrived] at halted
    cases halted
  refine ⟨later, steps', ?_⟩
  rcases Nat.exists_eq_add_of_le (Nat.le_of_lt later) with ⟨more, rfl⟩
  rw [Machine.runFor_add, arrived] at halted
  simpa using halted

/-- At the end of the program the machine halts as it is. -/
theorem runFor_one_of_end {point : Point} (ended : program.instructions.size ≤ point.counter)
    (steps : UInt64) :
    (point.machine program labels steps).runFor 1 point.console =
      ({ point.machine program labels steps with state := .halted }, point.console) := by
  have fetched : (point.machine program labels steps).program.instructions[
      (point.machine program labels steps).counter]? = none :=
    Array.getElem?_eq_none ended
  simp only [Machine.runFor, Machine.step, fetched]
  rfl

end Point

end SubsetC
