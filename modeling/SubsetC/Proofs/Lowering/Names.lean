import SubsetC.Proofs.Lowering.Uses
import SubsetC.Proofs.Token.Scanning

/-!
# Names in code

The code of a tree names the variables of the tree, temporaries and labels, and nothing else. So its
names are spelled like identifiers if the variables are.
-/

namespace SubsetC

open Instruction Segment Session

namespace Session

/-- A letter with a number behind it is spelled as names are. -/
theorem isName_cons_digits {first : Char} (start : isNameStart first = true) (n : Nat) :
    IsName (first :: Decimal.digits n) := by
  refine ⟨start, ?_⟩
  intro c mem
  simp [isNameRest, Char.isAlphanum, Decimal.isDigit_of_mem_digits mem]

/-- Temporaries could be written in a source. -/
theorem isName_temporaryName (number : UInt32) : IsName (temporaryName number).toList := by
  rw [temporaryName, String.toList_ofList]
  exact isName_cons_digits (by decide) _

/-- So could labels. -/
theorem isName_labelName (number : UInt32) : IsName (labelName number).toList := by
  rw [labelName, String.toList_ofList]
  exact isName_cons_digits (by decide) _

end Session

/-- The name in the operand, if it has one, is spelled as names are. -/
def Operand.IsNamed (operand : Operand) : Prop :=
  ∀ name ∈ operand.names, IsName name.toList

namespace Instruction

/-- The variables and temporaries in the instruction. -/
def vars (instruction : Instruction) : List String :=
  instruction.reads ++ instruction.target?.toList

/-- All names in the instruction. -/
def names (instruction : Instruction) : List String :=
  instruction.vars ++ (instruction.label?.toList ++ instruction.jumpTarget?.toList)

/-- The names in the instruction are spelled as names are. -/
def IsNamed (instruction : Instruction) : Prop :=
  ∀ name ∈ instruction.names, IsName name.toList

section IsNamed

attribute [local simp] IsNamed Operand.IsNamed names vars reads target? label? jumpTarget? or_imp
  forall_and

variable {conversion : Conversion} {condition left right : Operand} {target name : String}

/-- An assignment names its target and its source. -/
theorem isNamed_assign_iff {source : Operand} :
    (assign target source).IsNamed ↔ IsName target.toList ∧ source.IsNamed := by
  simp [and_comm]

/-- An operation names its target and its operands. -/
theorem isNamed_binary_iff {op : BinaryOp} :
    (binary target op left right).IsNamed ↔
      IsName target.toList ∧ left.IsNamed ∧ right.IsNamed := by
  simp [and_comm, and_left_comm]

/-- A conditional jump names its label besides its condition. -/
theorem isNamed_jumpUnless_iff :
    (jumpUnless condition target).IsNamed ↔ condition.IsNamed ∧ IsName target.toList := by
  simp

theorem isNamed_jump_iff : (jump target).IsNamed ↔ IsName target.toList := by
  simp

theorem isNamed_label_iff : (label name).IsNamed ↔ IsName name.toList := by
  simp

theorem isNamed_print_iff : (print conversion name).IsNamed ↔ IsName name.toList := by
  simp

theorem isNamed_scan_iff : (scan conversion target).IsNamed ↔ IsName target.toList := by
  simp

end IsNamed

end Instruction

namespace Lowering

section Known

variable {Known : String → Prop}

/-- All variables and temporaries in the code are known. -/
def NamesOnly (Known : String → Prop) (code : List Instruction) : Prop :=
  ∀ instruction ∈ code, ∀ name ∈ instruction.vars, Known name

theorem namesOnly_nil : NamesOnly Known [] :=
  List.forall_mem_nil _

theorem namesOnly_singleton {instruction : Instruction} :
    NamesOnly Known [instruction] ↔ ∀ name ∈ instruction.vars, Known name :=
  List.forall_mem_singleton

/-- Code in two parts is known if both parts are. -/
theorem namesOnly_append {first second : List Instruction} :
    NamesOnly Known (first ++ second) ↔ NamesOnly Known first ∧ NamesOnly Known second :=
  List.forall_mem_append

/-- A label is no variable. -/
theorem namesOnly_label (name : String) : NamesOnly Known [.label name] :=
  namesOnly_singleton.mpr (List.forall_mem_nil _)

theorem namesOnly_jump (target : String) : NamesOnly Known [.jump target] :=
  namesOnly_singleton.mpr (List.forall_mem_nil _)

/-- What stands between the two branches of a conditional statement. -/
theorem namesOnly_turn (target name : String) :
    NamesOnly Known [.jump target, .label name] :=
  namesOnly_append.mpr ⟨namesOnly_jump target, namesOnly_label name⟩

section Singletons

attribute [local simp] namesOnly_singleton Instruction.vars Instruction.reads Instruction.target?
  or_imp forall_and

theorem namesOnly_jumpUnless {condition : Operand} {target : String} :
    NamesOnly Known [.jumpUnless condition target] ↔ ∀ name ∈ condition.names, Known name := by
  simp

theorem namesOnly_assign {target : String} {source : Operand} :
    NamesOnly Known [.assign target source] ↔
      (∀ name ∈ source.names, Known name) ∧ Known target := by
  simp

theorem namesOnly_binary {target : String} {op : BinaryOp} {left right : Operand} :
    NamesOnly Known [.binary target op left right] ↔
      (∀ name ∈ left.names, Known name) ∧ (∀ name ∈ right.names, Known name) ∧ Known target := by
  simp

theorem namesOnly_print {conversion : Conversion} {source : String} :
    NamesOnly Known [.print conversion source] ↔ Known source := by
  simp

theorem namesOnly_scan {conversion : Conversion} {target : String} :
    NamesOnly Known [.scan conversion target] ↔ Known target := by
  simp

end Singletons

/-- Texts name nothing. -/
theorem namesOnly_printText (text : String) : NamesOnly Known (printText text) := by
  unfold printText
  split
  · exact namesOnly_nil
  · exact namesOnly_singleton.mpr (List.forall_mem_nil _)

/-- The argument of an output is all that its code names. -/
theorem namesOnly_of_print {format : String} {argument : Option Identifier} {line : UInt32}
    {state : State} (vars : ∀ source ∈ argument, Known source.name) :
    NamesOnly Known ((print format argument line).run state).1 := by
  unfold print
  split
  · exact namesOnly_nil
  · exact namesOnly_printText _
  · rename_i before conversion after source parsed
    have shown : NamesOnly Known [.print conversion source.name] :=
      namesOnly_print.mpr (vars source rfl)
    exact namesOnly_append.mpr
      ⟨namesOnly_append.mpr ⟨namesOnly_printText _, shown⟩, namesOnly_printText _⟩
  · exact namesOnly_nil
  · exact namesOnly_nil

/-- The target of an input is all that its code names. -/
theorem namesOnly_of_scan {format : String} {target : Identifier} {state : State}
    (vars : Known target.name) : NamesOnly Known ((scan format target).run state).1 := by
  unfold scan
  split
  · exact namesOnly_nil
  · exact namesOnly_scan.mpr vars
  · exact namesOnly_nil

section Emitted

variable {before after : State} {code : List Instruction}
  (temporaries : ∀ number, Known (temporaryName number))

include temporaries

/-- The code of an expression names its variables, and temporaries for its operators. -/
theorem namesOnly_of_computes {expr : Expr} {operand : Operand}
    (computes : Computes before expr code operand after) (vars : ∀ name ∈ expr.vars, Known name) :
    NamesOnly Known code ∧ ∀ name ∈ operand.names, Known name := by
  have named (number : UInt32) :
      ∀ name ∈ (Operand.name (temporaryName number)).names, Known name :=
    List.forall_mem_singleton.mpr (temporaries number)
  induction computes with
  | literal state value span => exact ⟨namesOnly_nil, List.forall_mem_nil _⟩
  | var state name span => exact ⟨namesOnly_nil, vars⟩
  | binary leftComputes rightComputes ihLeft ihRight =>
      rw [Expr.vars, List.forall_mem_append] at vars
      rcases ihLeft vars.1 with ⟨leftCode, left⟩
      rcases ihRight vars.2 with ⟨rightCode, right⟩
      rw [namesOnly_append, namesOnly_append, namesOnly_binary]
      exact ⟨⟨⟨leftCode, rightCode⟩, left, right, temporaries _⟩, named _⟩
  | @unary before after op inner span code operand innerComputes ih =>
      rcases ih vars with ⟨code, operand⟩
      have zero : ∀ name ∈ (Operand.literal (.int 0)).names, Known name := List.forall_mem_nil _
      rw [namesOnly_append]
      cases op with
      | neg => exact ⟨⟨code, namesOnly_binary.mpr ⟨zero, operand, temporaries _⟩⟩, named _⟩
      | not => exact ⟨⟨code, namesOnly_binary.mpr ⟨operand, zero, temporaries _⟩⟩, named _⟩

/-- The code of a statement names its variables and temporaries. The induction is on what is
emitted. -/
theorem namesOnly_of_emits {stmt : Stmt} (emits : Emits before stmt code after)
    (vars : ∀ name ∈ stmt.vars, Known name) : NamesOnly Known code := by
  induction emits with
  | function bodyEmits ih => exact ih (by simpa using vars)
  | blockNil state span => exact namesOnly_nil
  | blockCons firstEmits restEmits ihFirst ihRest =>
      rw [Stmt.vars_block_cons, List.forall_mem_append] at vars
      exact namesOnly_append.mpr ⟨ihFirst vars.1, ihRest vars.2⟩
  | declare state type name span => exact namesOnly_nil
  | define valueComputes =>
      rw [Stmt.vars_define, List.forall_mem_cons] at vars
      rcases namesOnly_of_computes temporaries valueComputes vars.2 with ⟨code, source⟩
      exact namesOnly_append.mpr ⟨code, namesOnly_assign.mpr ⟨source, vars.1⟩⟩
  | assign valueComputes =>
      rw [Stmt.vars_assign, List.forall_mem_cons] at vars
      rcases namesOnly_of_computes temporaries valueComputes vars.2 with ⟨code, source⟩
      exact namesOnly_append.mpr ⟨code, namesOnly_assign.mpr ⟨source, vars.1⟩⟩
  | ifThen conditionComputes bodyEmits ih =>
      rw [Stmt.vars_ifThen, List.forall_mem_append] at vars
      rcases namesOnly_of_computes temporaries conditionComputes vars.1 with ⟨test, truth⟩
      rw [namesOnly_append, namesOnly_append, namesOnly_append, namesOnly_jumpUnless]
      exact ⟨⟨⟨test, truth⟩, ih vars.2⟩, namesOnly_label _⟩
  | ifElse conditionComputes bodyEmits otherwiseEmits ihBody ihOtherwise =>
      rw [Stmt.vars_ifElse, List.forall_mem_append, List.forall_mem_append] at vars
      rcases namesOnly_of_computes temporaries conditionComputes vars.1.1 with ⟨test, truth⟩
      simp only [namesOnly_append, namesOnly_jumpUnless]
      exact ⟨⟨⟨⟨⟨test, truth⟩, ihBody vars.1.2⟩, namesOnly_turn _ _⟩, ihOtherwise vars.2⟩,
        namesOnly_label _⟩
  | loop conditionComputes bodyEmits ih =>
      rw [Stmt.vars_loop, List.forall_mem_append] at vars
      rcases namesOnly_of_computes temporaries conditionComputes vars.1 with ⟨test, truth⟩
      simp only [namesOnly_append, namesOnly_jumpUnless]
      exact ⟨⟨⟨⟨namesOnly_label _, test⟩, truth⟩, ih vars.2⟩, namesOnly_turn _ _⟩
  | print state format argument span => exact namesOnly_of_print (by simpa using vars)
  | scan state format target span => exact namesOnly_of_scan (by simpa using vars)
  | leaveNone state span => exact namesOnly_jump _
  | leaveSome valueComputes =>
      have value := namesOnly_of_computes temporaries valueComputes (by simpa using vars)
      exact namesOnly_append.mpr ⟨value.1, namesOnly_jump _⟩

end Emitted

end Known

end Lowering

/-- The names in the code of a tree are spelled as names are, if its variables are. -/
theorem Tree.isNamed_of_mem_lower {tree : Tree} (vars : ∀ name ∈ tree.vars, IsName name.toList)
    (session : Session) :
    ∀ instruction ∈ (tree.lower session).1.instructions.toList, instruction.IsNamed := by
  intro instruction present name mem
  have label (named : name ∈ labelsOf (tree.lower session).1.instructions.toList) :
      IsName name.toList := by
    rcases mem_namesAfter.mp ((tree.labelsOf_lower session).mem_iff.mp named) with
      ⟨index, -, rfl⟩
    exact isName_labelName _
  rw [names, List.mem_append, List.mem_append, Option.mem_toList, Option.mem_toList] at mem
  rcases mem with stored | defined | jumped
  · rcases tree.exists_emits session with ⟨code, after, emits, program, -⟩
    have known : Lowering.NamesOnly (fun name => IsName name.toList) code :=
      Lowering.namesOnly_of_emits isName_temporaryName emits vars
    rw [program, List.mem_append] at present
    rcases present with inCode | exit
    · exact known instruction inCode name stored
    · rcases List.mem_map.mp exit with ⟨target, -, rfl⟩
      cases stored
  · exact label (List.mem_filterMap.mpr ⟨instruction, present, defined⟩)
  · apply label
    rw [← tree.mem_targetsOf_lower]
    exact List.mem_filterMap.mpr ⟨instruction, present, jumped⟩

end SubsetC
