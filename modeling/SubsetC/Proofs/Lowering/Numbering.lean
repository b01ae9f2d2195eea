import SubsetC.Proofs.Lowering.Emission
import SubsetC.Proofs.Machine.Labels
import SubsetC.Proofs.Names
import SubsetC.Proofs.Tree.Parts

/-!
# The names that a lowering gives

Each operator takes one temporary, and each jump of a statement takes one label; the label of
returns is taken with the first return and kept. `temporariesOf_of_emits` says that the operators of
emitted code store to the temporaries that have been named, in order. `labelsOf_of_emits` says that
emitted code defines the labels that have been named, each once, but for the label of returns.
-/

namespace SubsetC

/-- The name that an operator stores to. -/
def Instruction.temporary? : Instruction → Option String
  | binary target _ _ _ => some target
  | _ => none

namespace Instruction

/-- The names that operators store to, in order. -/
def temporariesOf (code : List Instruction) : List String :=
  code.filterMap temporary?

@[simp]
theorem temporariesOf_nil : temporariesOf [] = [] := rfl

@[simp]
theorem temporariesOf_cons (first : Instruction) (rest : List Instruction) :
    temporariesOf (first :: rest) = first.temporary?.toList ++ temporariesOf rest := by
  cases stores : first.temporary? <;> simp [temporariesOf, stores]

/-- Temporaries of code in two parts. -/
@[simp]
theorem temporariesOf_append (first second : List Instruction) :
    temporariesOf (first ++ second) = temporariesOf first ++ temporariesOf second :=
  List.filterMap_append

end Instruction

namespace Lowering

open Instruction Session

section Expressions

variable {before after : State} {expr : Expr} {code : List Instruction} {operand : Operand}

/-- Expressions name no labels. -/
theorem labels_of_computes (computes : Computes before expr code operand after) :
    after.session.labels = before.session.labels := by
  induction computes with
  | literal state value span => rfl
  | var state name span => rfl
  | binary leftComputes rightComputes ihLeft ihRight =>
      rw [State.labels_nameTemporary, ihRight, ihLeft]
  | unary innerComputes ih => rw [State.labels_nameTemporary, ih]

/-- Nor do they return. -/
theorem exit_of_computes (computes : Computes before expr code operand after) :
    after.exit = before.exit := by
  induction computes with
  | literal state value span => rfl
  | var state name span => rfl
  | binary leftComputes rightComputes ihLeft ihRight =>
      rw [State.exit_nameTemporary, ihRight, ihLeft]
  | unary innerComputes ih => rw [State.exit_nameTemporary, ih]

/-- One temporary is counted for each operator. -/
theorem temporaries_of_computes (computes : Computes before expr code operand after) :
    after.session.temporaries = before.session.temporaries + UInt32.ofNat expr.operators := by
  induction computes with
  | literal state value span => simp [Expr.operators]
  | var state name span => simp [Expr.operators]
  | binary leftComputes rightComputes ihLeft ihRight =>
      simp [Expr.operators, State.nextTemporary, ihLeft, ihRight, UInt32.ofNat_add,
        UInt32.add_assoc]
  | unary innerComputes ih =>
      simp [Expr.operators, State.nextTemporary, ih, UInt32.ofNat_add, UInt32.add_assoc]

theorem temporary?_signed (op : UnaryOp) (target : String) (operand : Operand) :
    (signed op target operand).temporary? = some target := by
  cases op <;> rfl

/-- The operators of an expression store to the temporaries that have been named, in order. -/
theorem temporariesOf_of_computes (computes : Computes before expr code operand after) :
    temporariesOf code =
      namesAfter temporaryName before.session.temporaries expr.operators := by
  induction computes with
  | literal state value span => rfl
  | var state name span => rfl
  | @binary before middle after op left right span leftCode rightCode leftOperand rightOperand
      leftComputes rightComputes ihLeft ihRight =>
      rw [temporaries_of_computes leftComputes] at ihRight
      rw [temporariesOf_append, temporariesOf_append, ihLeft, ihRight, Expr.operators,
        namesAfter_add, namesAfter_add, State.nextTemporary, temporaries_of_computes rightComputes,
        temporaries_of_computes leftComputes, UInt32.ofNat_add, ← UInt32.add_assoc]
      rfl
  | @unary before after op inner span code operand innerComputes ih =>
      rw [temporariesOf_append, ih, Expr.operators, namesAfter_add, State.nextTemporary,
        temporaries_of_computes innerComputes]
      simp [temporary?_signed, namesAfter_succ]

/-- The code of an expression is made of operators. -/
theorem isOperator_of_computes (computes : Computes before expr code operand after) :
    ∀ instruction ∈ code, ∃ target op left right,
      instruction = .binary target op left right := by
  induction computes with
  | literal state value span => simp
  | var state name span => simp
  | binary leftComputes rightComputes ihLeft ihRight =>
      intro instruction present
      simp only [List.mem_append, List.mem_singleton] at present
      rcases present with (inLeft | inRight) | rfl
      · exact ihLeft instruction inLeft
      · exact ihRight instruction inRight
      · exact ⟨_, _, _, _, rfl⟩
  | @unary before after op inner span code operand innerComputes ih =>
      intro instruction present
      rw [List.mem_append, List.mem_singleton] at present
      rcases present with inside | rfl
      · exact ih instruction inside
      · cases op with
        | neg => exact ⟨_, _, _, _, rfl⟩
        | not => exact ⟨_, _, _, _, rfl⟩

theorem labelsOf_of_computes (computes : Computes before expr code operand after) :
    labelsOf code = [] := by
  rw [labelsOf, List.filterMap_eq_nil_iff]
  intro instruction present
  rcases isOperator_of_computes computes instruction present with ⟨target, op, left, right, rfl⟩
  rfl

theorem targetsOf_of_computes (computes : Computes before expr code operand after) :
    targetsOf code = [] := by
  rw [targetsOf, List.filterMap_eq_nil_iff]
  intro instruction present
  rcases isOperator_of_computes computes instruction present with ⟨target, op, left, right, rfl⟩
  rfl

end Expressions

/-- The label of returns is the one that there is, or a new one. -/
theorem exitLabel_cases (state : State) :
    (∃ label, state.exit = some label ∧ exitLabel.run state = (label, state)) ∨
      (state.exit = none ∧ exitLabel.run state =
        (labelName state.nextLabel,
          { state.nameLabel with exit := some (labelName state.nextLabel) })) := by
  rcases state with ⟨session, exit⟩
  cases exit with
  | none => exact .inr ⟨rfl, rfl⟩
  | some label => exact .inl ⟨label, rfl, rfl⟩

theorem exit_exitLabel (state : State) :
    (exitLabel.run state).2.exit = some (exitLabel.run state).1 := by
  rcases exitLabel_cases state with ⟨label, known, named⟩ | ⟨-, named⟩
  · rw [named, known]
  · rw [named]

theorem temporaries_exitLabel (state : State) :
    (exitLabel.run state).2.session.temporaries = state.session.temporaries := by
  rcases exitLabel_cases state with ⟨label, -, named⟩ | ⟨-, named⟩
  · rw [named]
  · rw [named]
    rfl

/-- Between the states nothing is named, and the code only does input, output or nothing. -/
structure Plain (before : State) (code : List Instruction) (after : State) : Prop where
  exit : after.exit = before.exit
  labels : after.session.labels = before.session.labels
  temporaries : after.session.temporaries = before.session.temporaries
  noLabels : labelsOf code = []
  noTargets : targetsOf code = []
  noTemporaries : temporariesOf code = []

theorem plain_printText (state : State) (text : String) : Plain state (printText text) state := by
  unfold printText
  split <;> exact ⟨rfl, rfl, rfl, rfl, rfl, rfl⟩

/-- Output names neither temporaries nor labels. -/
theorem plain_print (format : String) (argument : Option Identifier) (line : UInt32)
    (state : State) :
    Plain state ((print format argument line).run state).1
      ((print format argument line).run state).2 := by
  unfold print
  split
  · exact ⟨rfl, rfl, rfl, rfl, rfl, rfl⟩
  · exact plain_printText state _
  · rename_i before conversion after source parsed
    have first := plain_printText state before
    have last := plain_printText state after
    refine ⟨rfl, rfl, rfl, ?_, ?_, ?_⟩
    · change labelsOf (printText before ++ [.print conversion source.name] ++ printText after) = []
      rw [labelsOf_append, labelsOf_append, first.noLabels, last.noLabels]
      rfl
    · change targetsOf (printText before ++ [.print conversion source.name] ++ printText after) = []
      rw [targetsOf_append, targetsOf_append, first.noTargets, last.noTargets]
      rfl
    · change temporariesOf (printText before ++ [.print conversion source.name] ++
        printText after) = []
      rw [temporariesOf_append, temporariesOf_append, first.noTemporaries, last.noTemporaries]
      rfl
  · exact ⟨rfl, rfl, rfl, rfl, rfl, rfl⟩
  · exact ⟨rfl, rfl, rfl, rfl, rfl, rfl⟩

theorem plain_scan (format : String) (target : Identifier) (state : State) :
    Plain state ((scan format target).run state).1 ((scan format target).run state).2 := by
  unfold scan
  split <;> exact ⟨rfl, rfl, rfl, rfl, rfl, rfl⟩

/-- The label of returns if it has been named between the states. -/
def newExit (before after : State) : List String :=
  if before.exit.isNone then after.exit.toList else []

theorem newExit_of_eq {before after : State} (same : after.exit = before.exit) :
    newExit before after = [] := by
  cases known : before.exit <;> simp [newExit, same, known]

theorem newExit_congr {before before' : State} (after : State) (same : before'.exit = before.exit) :
    newExit before' after = newExit before after := by
  simp [newExit, same]

theorem newExit_append {before middle after : State}
    (early : ∀ label, before.exit = some label → middle.exit = some label)
    (late : ∀ label, middle.exit = some label → after.exit = some label) :
    newExit before after = newExit before middle ++ newExit middle after := by
  cases first : before.exit with
  | some label => simp [newExit, first, early label first]
  | none =>
      cases second : middle.exit with
      | some label => simp [newExit, first, second, late label second]
      | none => simp [newExit, first, second]

section Statements

variable {before after : State} {stmt : Stmt} {code : List Instruction}

/-- The label for returns is named with the first return and kept. -/
theorem exit_of_emits (emits : Emits before stmt code after) (label : String)
    (known : before.exit = some label) : after.exit = some label := by
  induction emits with
  | function bodyEmits ih => exact ih known
  | blockNil state span => exact known
  | blockCons firstEmits restEmits ihFirst ihRest => exact ihRest (ihFirst known)
  | declare state type name span => exact known
  | define valueComputes => rw [exit_of_computes valueComputes, known]
  | assign valueComputes => rw [exit_of_computes valueComputes, known]
  | ifThen conditionComputes bodyEmits ih =>
      exact ih (by rw [State.exit_nameLabel, exit_of_computes conditionComputes, known])
  | ifElse conditionComputes bodyEmits otherwiseEmits ihBody ihOtherwise =>
      apply ihOtherwise
      apply ihBody
      rw [State.exit_nameLabel, State.exit_nameLabel, exit_of_computes conditionComputes, known]
  | loop conditionComputes bodyEmits ih =>
      apply ih
      rw [exit_of_computes conditionComputes, State.exit_nameLabel, State.exit_nameLabel, known]
  | print state format argument span => rw [(plain_print _ _ _ _).exit, known]
  | scan state format target span => rw [(plain_scan _ _ _).exit, known]
  | leaveNone state span =>
      rcases exitLabel_cases state with ⟨other, -, named⟩ | ⟨unknown, -⟩
      · rw [named, known]
      · simp [unknown] at known
  | @leaveSome before after value span code operand valueComputes =>
      have known : after.exit = some label := by rw [exit_of_computes valueComputes, known]
      rcases exitLabel_cases after with ⟨other, -, named⟩ | ⟨unknown, -⟩
      · rw [named, known]
      · simp [unknown] at known

/-- The label of returns is named if there is a return. -/
theorem isSome_exit_of_emits (emits : Emits before stmt code after) :
    after.exit.isSome = (before.exit.isSome || stmt.leaves) := by
  induction emits with
  | function bodyEmits ih => simpa [Stmt.leaves, Stmt.isLeave] using ih
  | blockNil state span => simp [Stmt.leaves]
  | blockCons firstEmits restEmits ihFirst ihRest =>
      rw [ihRest, ihFirst]
      simp [Stmt.leaves, Bool.or_assoc]
  | declare state type name span => simp [Stmt.leaves, Stmt.isLeave]
  | define valueComputes => simp [Stmt.leaves, Stmt.isLeave, exit_of_computes valueComputes]
  | assign valueComputes => simp [Stmt.leaves, Stmt.isLeave, exit_of_computes valueComputes]
  | ifThen conditionComputes bodyEmits ih =>
      rw [ih, State.exit_nameLabel, exit_of_computes conditionComputes]
      simp [Stmt.leaves, Stmt.isLeave]
  | ifElse conditionComputes bodyEmits otherwiseEmits ihBody ihOtherwise =>
      rw [ihOtherwise, ihBody, State.exit_nameLabel, State.exit_nameLabel,
        exit_of_computes conditionComputes]
      simp [Stmt.leaves, Stmt.isLeave, Bool.or_assoc]
  | loop conditionComputes bodyEmits ih =>
      rw [ih, exit_of_computes conditionComputes]
      simp [Stmt.leaves, Stmt.isLeave]
  | print state format argument span =>
      simp [(plain_print format argument span.line state).exit, Stmt.leaves, Stmt.isLeave]
  | scan state format target span =>
      simp [(plain_scan format target state).exit, Stmt.leaves, Stmt.isLeave]
  | leaveNone state span => simp [exit_exitLabel, Stmt.leaves, Stmt.isLeave]
  | leaveSome valueComputes => simp [exit_exitLabel, Stmt.leaves, Stmt.isLeave]

/-- The label of returns takes a number only if it is new. -/
theorem labels_exitLabel (state : State) :
    (exitLabel.run state).2.session.labels =
      state.session.labels + UInt32.ofNat (newExit state (exitLabel.run state).2).length := by
  rcases exitLabel_cases state with ⟨label, known, named⟩ | ⟨unknown, named⟩
  · simp [named, newExit_of_eq]
  · rw [named]
    simp [newExit, unknown, State.nextLabel]

theorem newExit_exitLabel (state : State) :
    newExit state (exitLabel.run state).2 =
      namesAfter labelName state.session.labels
        (newExit state (exitLabel.run state).2).length := by
  rcases exitLabel_cases state with ⟨label, known, named⟩ | ⟨unknown, named⟩
  · simp [named, newExit_of_eq]
  · rw [named]
    simp [newExit, unknown, State.nextLabel, namesAfter_succ]

/-- Labels are counted as the parts of the statement need them. -/
theorem labels_of_emits (emits : Emits before stmt code after) :
    after.session.labels =
      before.session.labels + UInt32.ofNat (stmt.labels + (newExit before after).length) := by
  induction emits with
  | function bodyEmits ih => simpa using ih
  | blockNil state span => simp [newExit_of_eq]
  | blockCons firstEmits restEmits ihFirst ihRest =>
      rw [ihRest, ihFirst, newExit_append (exit_of_emits firstEmits) (exit_of_emits restEmits)]
      simp only [Stmt.labels_block_cons, List.length_append, UInt32.ofNat_add]
      ac_rfl
  | declare state type name span => simp [Stmt.labels, Stmt.ownLabels, newExit_of_eq]
  | define valueComputes =>
      simp [Stmt.labels, Stmt.ownLabels, newExit_of_eq (exit_of_computes valueComputes),
        labels_of_computes valueComputes]
  | assign valueComputes =>
      simp [Stmt.labels, Stmt.ownLabels, newExit_of_eq (exit_of_computes valueComputes),
        labels_of_computes valueComputes]
  | ifThen conditionComputes bodyEmits ih =>
      rw [ih, newExit_congr _ (State.exit_nameLabel _),
        newExit_congr _ (exit_of_computes conditionComputes), State.labels_nameLabel,
        State.nextLabel, labels_of_computes conditionComputes]
      simp only [Stmt.labels_ifThen, UInt32.ofNat_add, UInt32.ofNat_one]
      ac_rfl
  | @ifElse before tested middle after condition body otherwise span test code otherCode truth
      conditionComputes bodyEmits otherwiseEmits ihBody ihOtherwise =>
      have early : ∀ label, before.exit = some label → middle.exit = some label :=
        fun label known => exit_of_emits bodyEmits label
          (by simpa [exit_of_computes conditionComputes] using known)
      have two : UInt32.ofNat 2 = 1 + 1 := rfl
      rw [newExit_congr _ (State.exit_nameLabel _), newExit_congr _ (State.exit_nameLabel _),
        newExit_congr _ (exit_of_computes conditionComputes)] at ihBody
      rw [ihOtherwise, ihBody, newExit_append early (exit_of_emits otherwiseEmits),
        State.labels_nameLabel, State.nextLabel, State.labels_nameLabel, State.nextLabel,
        labels_of_computes conditionComputes]
      simp only [Stmt.labels_ifElse, List.length_append, UInt32.ofNat_add, two]
      ac_rfl
  | loop conditionComputes bodyEmits ih =>
      have two : UInt32.ofNat 2 = 1 + 1 := rfl
      rw [newExit_congr _ (exit_of_computes conditionComputes),
        newExit_congr _ (State.exit_nameLabel _), newExit_congr _ (State.exit_nameLabel _)] at ih
      rw [ih, labels_of_computes conditionComputes, State.labels_nameLabel, State.nextLabel,
        State.labels_nameLabel, State.nextLabel]
      simp only [Stmt.labels_loop, UInt32.ofNat_add, two]
      ac_rfl
  | print state format argument span =>
      have plain := plain_print format argument span.line state
      simp [Stmt.labels, Stmt.ownLabels, newExit_of_eq plain.exit, plain.labels]
  | scan state format target span =>
      have plain := plain_scan format target state
      simp [Stmt.labels, Stmt.ownLabels, newExit_of_eq plain.exit, plain.labels]
  | leaveNone state span =>
      rw [labels_exitLabel]
      simp [Stmt.labels, Stmt.ownLabels]
  | leaveSome valueComputes =>
      rw [labels_exitLabel, newExit_congr _ (exit_of_computes valueComputes),
        labels_of_computes valueComputes]
      simp [Stmt.labels, Stmt.ownLabels]

/-- The labels that the code defines, with that of returns if it is new, are those that have been
named. -/
theorem labelsOf_of_emits (emits : Emits before stmt code after) :
    (labelsOf code ++ newExit before after).Perm
      (namesAfter labelName before.session.labels
        (stmt.labels + (newExit before after).length)) := by
  induction emits with
  | function bodyEmits ih => simpa using ih
  | blockNil state span => simp [newExit_of_eq]
  | @blockCons before middle after first rest span firstCode restCode firstEmits restEmits ihFirst
      ihRest =>
      have split := newExit_append (exit_of_emits firstEmits) (exit_of_emits restEmits)
      have count : (Stmt.block ⟨first :: rest, span⟩).labels + (newExit before after).length =
          (first.labels + (newExit before middle).length) +
            ((Stmt.block ⟨rest, span⟩).labels + (newExit middle after).length) := by
        rw [split, Stmt.labels_block_cons, List.length_append]
        omega
      rw [labels_of_emits firstEmits] at ihRest
      rw [count, namesAfter_add, split, labelsOf_append]
      refine .trans ?_ (ihFirst.append ihRest)
      rw [List.perm_iff_count]
      intro label
      simp only [List.count_append]
      omega
  | declare state type name span => simp [Stmt.labels, Stmt.ownLabels, newExit_of_eq]
  | define valueComputes =>
      simp [Stmt.labels, Stmt.ownLabels, newExit_of_eq (exit_of_computes valueComputes),
        labelsOf_of_computes valueComputes, label?]
  | assign valueComputes =>
      simp [Stmt.labels, Stmt.ownLabels, newExit_of_eq (exit_of_computes valueComputes),
        labelsOf_of_computes valueComputes, label?]
  | @ifThen before tested after condition body span test code truth conditionComputes bodyEmits
      ih =>
      have same := newExit_congr after (exit_of_computes conditionComputes)
      rw [newExit_congr _ (State.exit_nameLabel _), same, State.labels_nameLabel] at ih
      rw [Stmt.labels_ifThen, Nat.add_right_comm, namesAfter_succ,
        ← labels_of_computes conditionComputes]
      refine .trans ?_ (ih.cons _)
      rw [List.perm_iff_count]
      intro label
      simp [labelsOf_of_computes conditionComputes, label?, State.nextLabel, List.count_cons]
      omega
  | @ifElse before tested middle after condition body otherwise span test code otherCode truth
      conditionComputes bodyEmits otherwiseEmits ihBody ihOtherwise =>
      have same := newExit_congr middle (exit_of_computes conditionComputes)
      have early : ∀ label, before.exit = some label → middle.exit = some label :=
        fun label known => exit_of_emits bodyEmits label
          (by simpa [exit_of_computes conditionComputes] using known)
      have split := newExit_append early (exit_of_emits otherwiseEmits)
      have count : (Stmt.ifElse condition body otherwise span).labels +
          (newExit before after).length =
            (((Stmt.block body).labels + (newExit before middle).length) +
              ((Stmt.block otherwise).labels + (newExit middle after).length)) + 1 + 1 := by
        rw [split, Stmt.labels_ifElse, List.length_append]
        omega
      have counter := labels_of_emits bodyEmits
      rw [newExit_congr _ (State.exit_nameLabel _), newExit_congr _ (State.exit_nameLabel _), same]
        at ihBody counter
      rw [counter] at ihOtherwise
      rw [count, namesAfter_succ, namesAfter_succ, namesAfter_add, split,
        ← labels_of_computes conditionComputes]
      refine .trans ?_ (((ihBody.append ihOtherwise).cons _).cons _)
      rw [List.perm_iff_count]
      intro label
      simp [labelsOf_of_computes conditionComputes, label?, State.nextLabel, List.count_cons]
      omega
  | @loop before tested after condition body span test code truth conditionComputes bodyEmits ih =>
      have same := newExit_congr after (exit_of_computes conditionComputes)
      rw [same, newExit_congr _ (State.exit_nameLabel _), newExit_congr _ (State.exit_nameLabel _),
        labels_of_computes conditionComputes] at ih
      rw [Stmt.labels_loop, Nat.add_right_comm, namesAfter_succ, namesAfter_succ]
      refine .trans ?_ ((ih.cons _).cons _)
      rw [List.perm_iff_count]
      intro label
      simp [labelsOf_of_computes conditionComputes, label?, State.nextLabel, List.count_cons]
      omega
  | print state format argument span =>
      have plain := plain_print format argument span.line state
      simp [Stmt.labels, Stmt.ownLabels, newExit_of_eq plain.exit, plain.noLabels]
  | scan state format target span =>
      have plain := plain_scan format target state
      simp [Stmt.labels, Stmt.ownLabels, newExit_of_eq plain.exit, plain.noLabels]
  | leaveNone state span =>
      simp [Stmt.labels, Stmt.ownLabels, label?, ← newExit_exitLabel]
  | leaveSome valueComputes =>
      rw [newExit_congr _ (exit_of_computes valueComputes).symm,
        ← labels_of_computes valueComputes]
      simp [Stmt.labels, Stmt.ownLabels, label?, labelsOf_of_computes valueComputes,
        ← newExit_exitLabel]

/-- Temporaries are counted as the operators of the statement need them. -/
theorem temporaries_of_emits (emits : Emits before stmt code after) :
    after.session.temporaries = before.session.temporaries + UInt32.ofNat stmt.operators := by
  induction emits with
  | function bodyEmits ih => simpa using ih
  | blockNil state span => simp
  | blockCons firstEmits restEmits ihFirst ihRest =>
      rw [ihRest, ihFirst, UInt32.add_assoc, ← UInt32.ofNat_add, Stmt.operators_block_cons]
  | declare state type name span => simp
  | define valueComputes => exact temporaries_of_computes valueComputes
  | assign valueComputes => exact temporaries_of_computes valueComputes
  | ifThen conditionComputes bodyEmits ih =>
      rw [ih, State.temporaries_nameLabel, temporaries_of_computes conditionComputes,
        UInt32.add_assoc, ← UInt32.ofNat_add, Stmt.operators_ifThen]
  | ifElse conditionComputes bodyEmits otherwiseEmits ihBody ihOtherwise =>
      rw [ihOtherwise, ihBody, State.temporaries_nameLabel, State.temporaries_nameLabel,
        temporaries_of_computes conditionComputes, Stmt.operators_ifElse, UInt32.ofNat_add,
        UInt32.ofNat_add]
      ac_rfl
  | loop conditionComputes bodyEmits ih =>
      rw [ih, temporaries_of_computes conditionComputes, State.temporaries_nameLabel,
        State.temporaries_nameLabel, UInt32.add_assoc, ← UInt32.ofNat_add, Stmt.operators_loop]
  | print state format argument span =>
      simp [(plain_print format argument span.line state).temporaries]
  | scan state format target span => simp [(plain_scan format target state).temporaries]
  | leaveNone state span => simp [temporaries_exitLabel]
  | leaveSome valueComputes =>
      rw [temporaries_exitLabel, temporaries_of_computes valueComputes]
      simp

/-- The operators of a statement store to the temporaries that have been named, in order. -/
theorem temporariesOf_of_emits (emits : Emits before stmt code after) :
    temporariesOf code =
      namesAfter temporaryName before.session.temporaries stmt.operators := by
  induction emits with
  | function bodyEmits ih => simpa using ih
  | blockNil state span => simp
  | blockCons firstEmits restEmits ihFirst ihRest =>
      rw [temporariesOf_append, ihFirst, ihRest, temporaries_of_emits firstEmits,
        Stmt.operators_block_cons, namesAfter_add]
  | declare state type name span => simp
  | define valueComputes => simp [temporariesOf_of_computes valueComputes, temporary?]
  | assign valueComputes => simp [temporariesOf_of_computes valueComputes, temporary?]
  | ifThen conditionComputes bodyEmits ih =>
      rw [State.temporaries_nameLabel, temporaries_of_computes conditionComputes] at ih
      simp [temporariesOf_of_computes conditionComputes, temporary?, ih, namesAfter_add]
  | ifElse conditionComputes bodyEmits otherwiseEmits ihBody ihOtherwise =>
      rw [temporaries_of_emits bodyEmits] at ihOtherwise
      rw [State.temporaries_nameLabel, State.temporaries_nameLabel,
        temporaries_of_computes conditionComputes] at ihBody ihOtherwise
      simp [temporariesOf_of_computes conditionComputes, temporary?, ihBody, ihOtherwise,
        namesAfter_add, UInt32.ofNat_add, UInt32.add_assoc]
  | loop conditionComputes bodyEmits ih =>
      rw [temporaries_of_computes conditionComputes] at ih
      simp [temporariesOf_of_computes conditionComputes, temporary?, ih, namesAfter_add]
  | print state format argument span =>
      simp [(plain_print format argument span.line state).noTemporaries]
  | scan state format target span => simp [(plain_scan format target state).noTemporaries]
  | leaveNone state span => simp [temporary?]
  | leaveSome valueComputes => simp [temporariesOf_of_computes valueComputes, temporary?]

/-- Once there has been a return, the label of returns stays. -/
theorem exit_eq_of_leaves {middle : State} {first rest : Stmt}
    {firstCode restCode : List Instruction} (firstEmits : Emits before first firstCode middle)
    (restEmits : Emits middle rest restCode after)
    (leaves : first.leaves = true) : middle.exit = after.exit := by
  have some := isSome_exit_of_emits firstEmits
  rw [leaves, Bool.or_true, Option.isSome_iff_exists] at some
  rcases some with ⟨label, known⟩
  rw [known, exit_of_emits restEmits label known]

/-- The jumps of a statement lead to its labels and, if there is a return in it, to that of returns;
and each of these is jumped to. -/
theorem mem_targetsOf_of_emits (emits : Emits before stmt code after) (label : String) :
    label ∈ targetsOf code ↔
      label ∈ labelsOf code ∨ (stmt.leaves = true ∧ after.exit = some label) := by
  induction emits with
  | function bodyEmits ih => simpa [Stmt.leaves, Stmt.isLeave] using ih
  | blockNil state span => simp [Stmt.leaves]
  | @blockCons before middle after first rest span firstCode restCode firstEmits restEmits ihFirst
      ihRest =>
      have leaves : (Stmt.block ⟨first :: rest, span⟩).leaves =
          (first.leaves || (Stmt.block ⟨rest, span⟩).leaves) := by
        simp [Stmt.leaves]
      rw [targetsOf_append, labelsOf_append, List.mem_append, List.mem_append, ihFirst, ihRest,
        leaves, Bool.or_eq_true]
      by_cases returns : first.leaves = true
      · rw [exit_eq_of_leaves firstEmits restEmits returns]
        grind
      · grind
  | declare state type name span => simp [Stmt.leaves, Stmt.isLeave]
  | define valueComputes =>
      simp [targetsOf_of_computes valueComputes, labelsOf_of_computes valueComputes, jumpTarget?,
        label?, Stmt.leaves, Stmt.isLeave]
  | assign valueComputes =>
      simp [targetsOf_of_computes valueComputes, labelsOf_of_computes valueComputes, jumpTarget?,
        label?, Stmt.leaves, Stmt.isLeave]
  | @ifThen before tested after condition body span test code truth conditionComputes bodyEmits
      ih =>
      have leaves : (Stmt.ifThen condition body span).leaves = (Stmt.block body).leaves := by
        simp [Stmt.leaves, Stmt.isLeave]
      simp only [targetsOf_append, targetsOf_of_computes conditionComputes, targetsOf_cons,
        labelsOf_append, labelsOf_of_computes conditionComputes, labelsOf_cons, jumpTarget?,
        label?, List.mem_append, ih, leaves, targetsOf_nil, labelsOf_nil]
      grind
  | @ifElse before tested middle after condition body otherwise span test code otherCode truth
      conditionComputes bodyEmits otherwiseEmits ihBody ihOtherwise =>
      have leaves : (Stmt.ifElse condition body otherwise span).leaves =
          ((Stmt.block body).leaves || (Stmt.block otherwise).leaves) := by
        simp [Stmt.leaves, Stmt.isLeave]
      simp only [targetsOf_append, targetsOf_of_computes conditionComputes, targetsOf_cons,
        labelsOf_append, labelsOf_of_computes conditionComputes, labelsOf_cons, jumpTarget?,
        label?, List.mem_append, ihBody, ihOtherwise, leaves, targetsOf_nil, labelsOf_nil,
        Bool.or_eq_true]
      by_cases returns : (Stmt.block body).leaves = true
      · rw [exit_eq_of_leaves bodyEmits otherwiseEmits returns]
        grind
      · grind
  | @loop before tested after condition body span test code truth conditionComputes bodyEmits ih =>
      have leaves : (Stmt.loop condition body span).leaves = (Stmt.block body).leaves := by
        simp [Stmt.leaves, Stmt.isLeave]
      simp only [targetsOf_append, targetsOf_of_computes conditionComputes, targetsOf_cons,
        labelsOf_append, labelsOf_of_computes conditionComputes, labelsOf_cons, jumpTarget?,
        label?, List.mem_append, ih, leaves, targetsOf_nil, labelsOf_nil]
      grind
  | print state format argument span =>
      have plain := plain_print format argument span.line state
      simp [plain.noTargets, plain.noLabels, Stmt.leaves, Stmt.isLeave]
  | scan state format target span =>
      have plain := plain_scan format target state
      simp [plain.noTargets, plain.noLabels, Stmt.leaves, Stmt.isLeave]
  | leaveNone state span =>
      simp [jumpTarget?, label?, Stmt.leaves, Stmt.isLeave, exit_exitLabel, eq_comm]
  | leaveSome valueComputes =>
      simp [targetsOf_of_computes valueComputes, labelsOf_of_computes valueComputes, jumpTarget?,
        label?, Stmt.leaves, Stmt.isLeave, exit_exitLabel, eq_comm]

end Statements

end Lowering

end SubsetC
