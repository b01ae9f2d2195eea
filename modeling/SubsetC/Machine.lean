import SubsetC.Machine.Console
import SubsetC.Machine.Labels

/-!
# The machine

A machine runs a program one instruction at a time over a store of named values. A name without a
value reads as zero. Division by zero and input that cannot be read are made good with a default and
a warning, unless the machine is strict about division. `Machine.step` is one round; a machine that
has halted or faulted stays as it is. `prompts_step` says that a round makes exactly the request
that `Machine.prompt?` foretells.
-/

namespace SubsetC

/-- How a machine is to run. -/
structure Config where
  /-- A division by zero is a fault. -/
  strict : Bool
  /-- The number of instructions that may be executed. -/
  stepLimit : Option UInt64
  deriving DecidableEq, Repr, Inhabited

/-- Whether a machine goes on. -/
inductive Machine.State where
  | running
  /-- The end of the program has been reached. -/
  | halted
  | faulted (fault : Fault)
  deriving DecidableEq, Repr, Inhabited

/-- A program being run. -/
structure Machine where
  program : Program
  labels : LabelTable
  config : Config
  /-- The values of variables and temporaries. -/
  store : Table Value
  /-- The place of the next instruction. -/
  counter : Nat
  state : Machine.State
  /-- The number of instructions that have been executed. -/
  steps : UInt64
  deriving DecidableEq, Repr, Inhabited

/-- A value as it is printed. As a character, a number prints as the one with that code point, and a
string as its first one; what has none prints as nothing. -/
def Conversion.write (conversion : Conversion) (value : Value) : String :=
  match conversion, value with
  | .decimal, value => Decimal.ofInt64 value.toInt64
  | .string, value => value.text
  | .character, .char value => String.singleton value
  | .character, .int value =>
    let code := value.toInt
    if 0 ≤ code ∧ code.toNat.isValidChar then String.singleton (Char.ofNat code.toNat) else ""
  | .character, .str value => String.ofList (value.toList.take 1)

/-- The value that is stored for an answer, and the problem with the answer if there is one. -/
def Conversion.read (conversion : Conversion) (target : String) (answer : Option String) :
    Value × Option Diagnostic :=
  match conversion, answer with
  | .decimal, none => (.int 0, some missing)
  | .character, none => (.char '\x00', some missing)
  | .string, none => (.str "", some missing)
  | .decimal, some text =>
    match Decimal.int64? (Blank.trim text.toList) with
    | some value => (.int value, none)
    | none =>
      (.int 0, some (.runtime s!"'{text}' is not an integer for '{target}', using 0"))
  | .character, some text => (.char (text.toList.head?.getD '\x00'), none)
  | .string, some text => (.str text, none)
where
  /-- There is no answer. -/
  missing : Diagnostic :=
    .runtime s!"no input available for '{target}', using the default"

/-- The request for the value of a variable. -/
def Conversion.prompt (conversion : Conversion) (target : String) : String :=
  s!"Enter a value for '{target}' ({conversion.specifier}): "

/-- The request that an instruction makes. -/
def Instruction.prompt? : Instruction → Option String
  | scan conversion target => some (conversion.prompt target)
  | _ => none

/-- The value of an operand. -/
def Operand.value (operand : Operand) (store : Table Value) : Value :=
  match operand with
  | literal value => value
  | name source => (store.get? source).getD .default

namespace Machine

/-- A machine before the first instruction of a program. -/
def load (program : Program) (config : Config) : Except Fault Machine :=
  match LabelTable.ofProgram program with
  | .error fault => .error fault
  | .ok labels =>
    .ok { program, labels, config, store := .empty, counter := 0, state := .running, steps := 0 }

/-- The machine behind an instruction that does not jump. -/
def proceed (machine : Machine) : Machine :=
  { machine with counter := machine.counter + 1 }

/-- The machine behind an instruction that stores a value. -/
def assign (machine : Machine) (target : String) (value : Value) : Machine :=
  { machine.proceed with store := machine.store.set target value }

/-- The machine behind a jump. -/
def jump (machine : Machine) (label : String) : Except Fault Machine :=
  match machine.labels.place? label with
  | some counter => .ok { machine with counter }
  | none => .error (.undefinedLabel label machine.counter)

/-- What an instruction does. -/
def execute (machine : Machine) (console : Console) (instruction : Instruction) :
    Except Fault Machine × Console :=
  match instruction with
  | .assign target source => (.ok (machine.assign target (source.value machine.store)), console)
  | .binary target op left right =>
    match op.apply (left.value machine.store) (right.value machine.store) with
    | some value => (.ok (machine.assign target value), console)
    | none =>
      if machine.config.strict then (.error (.divisionByZero machine.counter), console)
      else
        (.ok (machine.assign target (.int 0)),
          console.report (.runtime
            s!"division by zero in '{instruction.text}' at instruction {machine.counter}, using 0"))
  | .jumpUnless condition label =>
    if (condition.value machine.store).isTruthy then (.ok machine.proceed, console)
    else (machine.jump label, console)
  | .jump label => (machine.jump label, console)
  | .label _ => (.ok machine.proceed, console)
  | .printText text => (.ok machine.proceed, console.emit text)
  | .print conversion source =>
    let value := Operand.value (.name source) machine.store
    (.ok machine.proceed, console.emit (conversion.write value))
  | .scan conversion target =>
    let (answer, console) := console.request (conversion.prompt target)
    let (value, problem) := conversion.read target answer
    (.ok (machine.assign target value), problem.toList.foldl Console.report console)

/-- The step limit, if it has been reached. -/
def reachedLimit? (machine : Machine) : Option UInt64 :=
  machine.config.stepLimit.filter (· ≤ machine.steps)

/-- One round. At the end of the program the machine halts; a limit is looked at only where there is
an instruction to execute. An instruction that faults is counted but has no other effect. -/
def step (machine : Machine) (console : Console) : Machine × Console :=
  match machine.state with
  | .running =>
    match machine.program.instructions[machine.counter]?, machine.reachedLimit? with
    | none, _ => ({ machine with state := .halted }, console)
    | some _, some limit =>
      ({ machine with state := .faulted (.stepLimitExceeded limit) }, console)
    | some instruction, none =>
      match machine.execute console instruction with
      | (.ok machine, console) => ({ machine with steps := machine.steps + 1 }, console)
      | (.error fault, console) =>
        ({ machine with state := .faulted fault, steps := machine.steps + 1 }, console)
  | _ => (machine, console)

/-- As many rounds as given, or fewer if the machine stops. -/
def runFor : (rounds : Nat) → Machine → Console → Machine × Console
  | 0, machine, console => (machine, console)
  | rounds + 1, machine, console =>
    if machine.state = .running then
      let (machine, console) := machine.step console
      runFor rounds machine console
    else (machine, console)

/-- The request that the next round makes, if it makes one. -/
def prompt? (machine : Machine) : Option String :=
  match machine.state, machine.reachedLimit? with
  | .running, none => machine.program.instructions[machine.counter]?.bind Instruction.prompt?
  | _, _ => none

theorem prompts_execute (machine : Machine) (console : Console) (instruction : Instruction) :
    (machine.execute console instruction).2.prompts =
      console.prompts ++ instruction.prompt?.toArray := by
  cases instruction with
  | binary target op left right =>
    simp only [execute, Instruction.prompt?]
    split
    · simp
    · split <;> simp [Console.report]
  | jumpUnless condition label =>
    simp only [execute, Instruction.prompt?]
    split <;> simp
  | scan conversion target =>
    simp only [execute, Instruction.prompt?, Console.prompts_report, Console.prompts_request,
      Option.toArray_some, Array.append_singleton]
  | _ => simp [execute, Instruction.prompt?, Console.emit]

theorem prompts_step (machine : Machine) (console : Console) :
    (machine.step console).2.prompts = console.prompts ++ machine.prompt?.toArray := by
  unfold step prompt?
  cases machine.state with
  | running =>
    cases found : machine.program.instructions[machine.counter]? with
    | none => cases machine.reachedLimit? <;> simp
    | some instruction =>
      cases machine.reachedLimit? with
      | some limit => simp
      | none =>
        have made := prompts_execute machine console instruction
        simp only [Option.bind_some, ← made]
        split <;> rename_i outcome <;> rw [outcome]
  | _ => simp

end Machine

end SubsetC
