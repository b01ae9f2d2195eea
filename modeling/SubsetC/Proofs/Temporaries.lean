import SubsetC.Compilation
import SubsetC.Proofs.Grammar.Recognition
import SubsetC.Proofs.Lowering.Loading
import SubsetC.Proofs.Machine.Points
import SubsetC.Proofs.Machine.Steps
import SubsetC.Run

/-!
# Temporaries and variables

A variable of a source may have the name of a temporary, and nothing keeps the two apart. The code
of an expression is made of operators, and those of a compiled source store to the temporaries from
`t1` on. They spare the variables just if no variable has one of these names; where they do not,
computing an expression overwrites a variable.
-/

namespace SubsetC

open Instruction Session

namespace Machine

variable {machine : Machine}

/-- Up to the end of an expression whose code comes next, the machine changes none of the names. -/
def Keeps (machine : Machine) (names : List String) : Prop :=
  ∀ expr before code operand after, Lowering.Computes before expr code operand after →
    machine.program.Holds machine.counter code → ∀ rounds ≤ code.length, ∀ console,
      ∀ name ∈ names, (machine.runFor rounds console).1.store.get? name = machine.store.get? name

/-- If the machine is about to execute an operator, it changes none of the names. -/
def Spares (machine : Machine) (names : List String) : Prop :=
  ∀ (target : String) (op : BinaryOp) (left right : Operand) (console : Console),
    machine.program.instructions[machine.counter]? = some (.binary target op left right) →
      ∀ name ∈ names, (machine.step console).1.store.get? name = machine.store.get? name

section Operator

variable {target : String} {op : BinaryOp} {left right : Operand}

/-- A temporary of the code is the target of an instruction. -/
theorem mem_temporariesOf {program : Program}
    (present : .binary target op left right ∈ program.instructions.toList) :
    target ∈ temporariesOf program.instructions.toList :=
  List.mem_filterMap.mpr ⟨_, present, rfl⟩

/-- Operators that store to other names spare them. -/
theorem spares_of_not_mem {names : List String}
    (apart : ∀ name ∈ temporariesOf machine.program.instructions.toList, name ∉ names) :
    machine.Spares names := by
  intro target op left right console here name mem
  apply get?_step _ here
  rintro rfl
  rw [← Array.getElem?_toList] at here
  exact apart target (mem_temporariesOf (List.mem_of_getElem? here)) mem

/-- Only targets are changed. -/
theorem keeps_of_not_mem {names : List String}
    (apart : ∀ name ∈ temporariesOf machine.program.instructions.toList, name ∉ names) :
    machine.Keeps names := by
  intro expr before code operand after computes held rounds within console name mem
  apply get?_runFor _ held within
  intro instruction present
  rcases Lowering.isOperator_of_computes computes instruction present with
    ⟨target, op, left, right, rfl⟩
  refine ⟨target, op, left, right, rfl, ?_⟩
  rintro rfl
  exact apart target (mem_temporariesOf (Program.mem_of_holds held present)) mem

/-- A lenient machine without a step limit gives the target of an operator a value. -/
theorem isSome_get?_step {program : Program} (labels : LabelTable) (point : Point)
    (here : program.instructions[point.counter]? = some (.binary target op left right)) :
    (((point.machine program labels 0).step point.console).1.store.get? target).isSome = true := by
  have changed : ∃ value last, last.store = point.store.set target value ∧
      Point.Reaches program labels 1 point last := by
    cases applied : op.apply (left.value point.store) (right.value point.store) with
    | some value => exact ⟨value, _, rfl, Point.reaches_binary here applied⟩
    | none => exact ⟨.int 0, _, rfl, Point.reaches_binary_zero here applied⟩
  rcases changed with ⟨value, last, store, reaches⟩
  rcases reaches 0 with ⟨steps, reached⟩
  change (point.machine program labels 0).step point.console = _ at reached
  rw [reached]
  change (last.store.get? target).isSome = true
  simp [store, Table.get?_set]

/-- Where an operator stores to one of the names, a machine changes it. -/
theorem exists_not_spares {program : Program} {names : List String} {name : String}
    (stored : name ∈ temporariesOf program.instructions.toList) (mem : name ∈ names) :
    ∃ machine : Machine, machine.program = program ∧ ¬machine.Spares names := by
  rcases List.mem_filterMap.mp stored with ⟨instruction, present, stores⟩
  rcases List.mem_iff_getElem?.mp present with ⟨index, here⟩
  rw [Array.getElem?_toList] at here
  cases instruction with
  | binary target op left right =>
      cases stores
      let point : Point := ⟨index, .empty, .ofAnswers []⟩
      refine ⟨point.machine program default 0, rfl, ?_⟩
      intro spares
      have kept := spares name op left right point.console here name mem
      have changed := isSome_get?_step default point here
      rw [kept] at changed
      cases changed
  | _ => cases stores

end Operator

end Machine

namespace Tree

/-- None of the operators stores to a variable. -/
def SparesVariables (tree : Tree) : Prop :=
  ∀ index < tree.temporaries, temporaryName (UInt32.ofNat (index + 1)) ∉ tree.vars

instance (tree : Tree) : Decidable tree.SparesVariables :=
  inferInstanceAs (Decidable (∀ index < tree.temporaries, _))

/-- The temporaries of a tree are counted from the session on. -/
theorem temporariesOf_lower (tree : Tree) (session : Session) :
    temporariesOf (tree.lower session).1.instructions.toList =
      namesAfter temporaryName session.temporaries tree.temporaries := by
  rcases tree.exists_emits session with ⟨code, after, emits, program, -⟩
  have exits : temporariesOf (after.exit.toList.map Instruction.label) = [] := by
    cases after.exit <;> rfl
  rw [program, temporariesOf_append, Lowering.temporariesOf_of_emits emits, exits, List.append_nil]
  rfl

theorem sparesVariables_iff {tree : Tree} :
    tree.SparesVariables ↔
      ∀ name ∈ namesAfter temporaryName 0 tree.temporaries, name ∉ tree.vars := by
  constructor
  · intro spares name taken
    rcases mem_namesAfter.mp taken with ⟨index, small, rfl⟩
    have apart := spares index small
    rwa [UInt32.ofNat_add, UInt32.add_comm] at apart
  · intro apart index small
    apply apart
    apply mem_namesAfter.mpr
    refine ⟨index, small, ?_⟩
    rw [UInt32.ofNat_add, UInt32.add_comm]
    rfl

end Tree

section Compile

variable {source : String} {compilation : Compilation}

/-- A source that compiles has been read without an error. -/
theorem compile_eq_ok (compiled : (compile source).1 = .ok compilation) :
    (parse source .empty).1.2 = none ∧
      compilation.program = (compilation.tree.lower (parse source .empty).2).1 := by
  unfold compile at compiled
  split at compiled
  · cases compiled
  · rename_i tree session parsed
    cases compiled
    rw [parsed]
    exact ⟨rfl, rfl⟩

/-- A source that is read without an error compiles. -/
theorem compile_of_accepted (accepted : (parse source .empty).1.2 = none) :
    (compile source).1 = .ok ⟨(parse source .empty).1.1,
      ((parse source .empty).1.1.lower (parse source .empty).2).1⟩ := by
  unfold compile
  split
  · rename_i tree error session parsed
    rw [parsed] at accepted
    cases accepted
  · rename_i tree session parsed
    rw [parsed]

/-- The operators of a compiled source store to the temporaries from the first one on. -/
theorem temporariesOf_compile (compiled : (compile source).1 = .ok compilation) :
    temporariesOf compilation.program.instructions.toList =
      namesAfter temporaryName 0 compilation.tree.temporaries := by
  rcases compile_eq_ok compiled with ⟨accepted, program⟩
  rcases exists_program accepted with ⟨-, -, -, -, temporaries, -⟩
  rw [program, Tree.temporariesOf_lower, temporaries]
  rfl

end Compile

/-- The operators of a compiled source take the temporaries in order. None of these is a variable,
and no machine with the program changes a variable by an operator, just if the tree spares its
variables; then no run changes a variable while it computes an expression. -/
theorem compile_spares_iff {source : String} {compilation : Compilation}
    (compiled : (compile source).1 = .ok compilation) :
    temporariesOf compilation.program.instructions.toList =
        namesAfter temporaryName 0 compilation.tree.temporaries ∧
      ((∀ name ∈ temporariesOf compilation.program.instructions.toList,
          name ∉ compilation.tree.vars) ↔ compilation.tree.SparesVariables) ∧
      ((∀ machine : Machine, machine.program = compilation.program →
          machine.Spares compilation.tree.vars) ↔ compilation.tree.SparesVariables) ∧
      (compilation.tree.SparesVariables → ∀ config start,
        Machine.load compilation.program config = .ok start → ∀ rounds console,
          (start.runFor rounds console).1.Keeps compilation.tree.vars) := by
  have taken := temporariesOf_compile compiled
  have apart : (∀ name ∈ temporariesOf compilation.program.instructions.toList,
      name ∉ compilation.tree.vars) ↔ compilation.tree.SparesVariables := by
    rw [taken, Tree.sparesVariables_iff]
  refine ⟨taken, apart, ⟨?_, ?_⟩, ?_⟩
  · intro spares
    apply apart.mp
    intro name stored mem
    rcases Machine.exists_not_spares stored mem with ⟨machine, program, changes⟩
    exact changes (spares machine program)
  · intro holds machine program
    apply Machine.spares_of_not_mem
    rw [program]
    exact apart.mpr holds
  · intro holds config start loaded rounds console
    apply Machine.keeps_of_not_mem
    rw [Machine.program_runFor, Machine.program_load loaded]
    exact apart.mpr holds

theorem exists_of_isOk {ε α : Type} {outcome : Except ε α} (isOk : outcome.isOk = true) :
    ∃ value, outcome = .ok value := by
  cases outcome with
  | ok value => exact ⟨value, rfl⟩
  | error error => cases isOk

/-- The sum takes the name of the variable, and overwrites it. -/
example : (run 100 "int t1 = 5; int a = 1 + 2; printf(\"%d\", t1);" ⟨false, none⟩
    (.ofAnswers [])).2.text = "3" := by decide +kernel

/-- An addition, in a source where no variable has the name of a temporary. -/
def addition : String :=
  "int a = 1 + 2; printf(\"%d\", a);"

theorem compile_spares_iff_addition :
    ∃ compilation start, (compile addition).1 = .ok compilation ∧
      compilation.tree.SparesVariables ∧
      Machine.load compilation.program ⟨false, none⟩ = .ok start ∧
      ∀ rounds console, (start.runFor rounds console).1.Keeps compilation.tree.vars := by
  have accepted : (parse addition .empty).1.2 = none := by decide +kernel
  have spares : (parse addition .empty).1.1.SparesVariables := by decide +kernel
  have loads : (Machine.load ((parse addition .empty).1.1.lower (parse addition .empty).2).1
      ⟨false, none⟩).isOk = true := by decide +kernel
  have compiled := compile_of_accepted accepted
  rcases exists_of_isOk loads with ⟨start, loaded⟩
  exact ⟨_, start, compiled, spares, loaded,
    (compile_spares_iff compiled).2.2.2 spares _ start loaded⟩

end SubsetC
