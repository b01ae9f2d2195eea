import SubsetC.Code.Lowering
import SubsetC.Proofs.Grammar.Derivations
import SubsetC.Proofs.Session
import SubsetC.Proofs.Tree.Parts

/-!
# Places decide nothing in a lowering

A statement and the same statement without its places are lowered to the same code, with the same
messages. Since a statement and its bare form have the same shape, this is one induction;
`lower_alike` follows for any two trees that have the same bare form.
-/

namespace SubsetC

namespace Lowering

/-- The states differ in nothing but places. -/
structure State.Alike (first second : State) : Prop where
  session : first.session.Alike second.session
  exit : first.exit = second.exit

/-- From states that are alike, the lowerings give the same and lead to states that are alike. -/
def Alike {α : Type} (first second : Lowering α) : Prop :=
  ∀ ⦃state state' : State⦄, state.Alike state' →
    (first.run state).1 = (second.run state').1 ∧ (first.run state).2.Alike (second.run state').2

namespace Alike

variable {α β : Type} {first first' third : Lowering α}

theorem symm (alike : Alike first first') : Alike first' first := by
  intro state state' same
  rcases alike ⟨same.session.symm, same.exit.symm⟩ with ⟨value, last⟩
  exact ⟨value.symm, last.session.symm, last.exit.symm⟩

/-- Likeness of states goes on from one to the next. -/
theorem trans (early : Alike first first') (late : Alike first' third) : Alike first third := by
  intro state state' same
  rcases early same with ⟨value, last⟩
  rcases late ⟨.refl state'.session, rfl⟩ with ⟨value', last'⟩
  exact ⟨value.trans value', last.session.trans last'.session, last.exit.trans last'.exit⟩

theorem pure (value : α) : Alike (Pure.pure value) (Pure.pure value) :=
  fun _ _ same => ⟨rfl, same⟩

/-- Like lowerings behind one another are alike. -/
theorem bind {second second' : α → Lowering β} (early : Alike first first')
    (late : ∀ value, Alike (second value) (second' value)) :
    Alike (first >>= second) (first' >>= second') := by
  intro state state' same
  rcases early same with ⟨value, last⟩
  change ((second (first.run state).1).run (first.run state).2).1 =
      ((second' (first'.run state').1).run (first'.run state').2).1 ∧
    ((second (first.run state).1).run (first.run state).2).2.Alike
      ((second' (first'.run state').1).run (first'.run state').2).2
  rw [← value]
  exact late (first.run state).1 last

end Alike

/-- Names are generated by number alone. -/
theorem alike_freshTemporary : Alike freshTemporary freshTemporary := by
  intro state state' same
  rcases same.session.freshTemporary with ⟨name, session⟩
  exact ⟨name, session, same.exit⟩

theorem alike_freshLabel : Alike freshLabel freshLabel := by
  intro state state' same
  rcases same.session.freshLabel with ⟨name, session⟩
  exact ⟨name, session, same.exit⟩

theorem alike_exitLabel : Alike exitLabel exitLabel := by
  rintro ⟨session, exit⟩ ⟨session', exit'⟩ ⟨sessions, rfl : exit = exit'⟩
  cases exit with
  | some label => exact ⟨rfl, sessions, rfl⟩
  | none =>
      rcases sessions.freshLabel with ⟨name, sessions'⟩
      exact ⟨name, sessions', congrArg some name⟩

/-- A rejected format is reported alike but for its line. -/
theorem alike_reject (message : String) (line line' : UInt32) :
    Alike (reject message line) (reject message line') :=
  fun _ _ same => ⟨rfl, same.session.report message line line', same.exit⟩

/-- Expressions that differ in their places have the same code. -/
theorem alike_expression (expr : Expr) : Alike (expression expr) (expression expr.bare) := by
  induction expr with
  | literal value span => exact .pure _
  | var name span => exact .pure _
  | binary op left right span leftAlike rightAlike =>
      refine leftAlike.bind fun (leftCode, leftOperand) => ?_
      refine rightAlike.bind fun (rightCode, rightOperand) => ?_
      exact alike_freshTemporary.bind fun target => .pure _
  | unary op inner span innerAlike =>
      refine innerAlike.bind fun (code, operand) => ?_
      exact alike_freshTemporary.bind fun target => .pure _

theorem alike_print (format : String) (argument : Option Identifier) (line line' : UInt32) :
    Alike (print format argument line) (print format (argument.map Identifier.bare) line') := by
  unfold print
  cases argument with
  | none =>
      rcases Format.parse (Escape.string format) with error | ⟨before, _ | conversion, after⟩
      · exact alike_reject _ _ _
      · exact .pure _
      · exact alike_reject _ _ _
  | some source =>
      rcases Format.parse (Escape.string format) with error | ⟨before, _ | conversion, after⟩
      · exact alike_reject _ _ _
      · exact alike_reject _ _ _
      · exact .pure _

theorem alike_scan (format : String) (target : Identifier) :
    Alike (scan format target) (scan format target.bare) := by
  unfold scan
  rcases Format.parse (Escape.string format) with error | ⟨before, _ | conversion, after⟩
  · exact alike_reject _ _ _
  · exact alike_reject _ _ _
  · exact .pure _

/-- So have statements. -/
theorem alike_statement (stmt : Stmt) : Alike (statement stmt) (statement stmt.bare) := by
  induction stmt using Stmt.nestedInduction with
  | function type name body span bodyAlike => exact bodyAlike
  | blockNil span => exact .pure []
  | blockCons first rest span firstAlike restAlike =>
      exact firstAlike.bind fun code => restAlike.bind fun others => .pure _
  | declare type name span => exact .pure []
  | define type target value span =>
      exact (alike_expression value).bind fun (code, source) => .pure _
  | assign target value span =>
      exact (alike_expression value).bind fun (code, source) => .pure _
  | ifThen condition body span bodyAlike =>
      refine (alike_expression condition).bind fun (code, condition) => ?_
      refine alike_freshLabel.bind fun finish => ?_
      exact bodyAlike.bind fun body => .pure _
  | ifElse condition body otherwise span bodyAlike otherwiseAlike =>
      refine (alike_expression condition).bind fun (code, condition) => ?_
      refine alike_freshLabel.bind fun alternative => ?_
      refine alike_freshLabel.bind fun finish => ?_
      refine bodyAlike.bind fun body => ?_
      exact otherwiseAlike.bind fun otherwise => .pure _
  | loop condition body span bodyAlike =>
      refine alike_freshLabel.bind fun start => ?_
      refine alike_freshLabel.bind fun finish => ?_
      refine (alike_expression condition).bind fun (code, condition) => ?_
      exact bodyAlike.bind fun body => .pure _
  | print format argument span => exact alike_print format argument _ _
  | scan format target span => exact alike_scan format target
  | leave value span =>
      cases value with
      | none => exact alike_exitLabel.bind fun label => .pure _
      | some value =>
          refine (alike_expression value).bind fun (code, _) => ?_
          exact alike_exitLabel.bind fun label => .pure _

theorem alike_statements (list : List Stmt) :
    Alike (statements list) (statements (statementsBare list)) :=
  alike_statement (.block ⟨list, default⟩)

end Lowering

/-- Trees that differ in places only are lowered to the same program. -/
theorem Tree.lower_alike {first second : Tree} {session session' : Session}
    (same : statementsBare first.statements = statementsBare second.statements)
    (alike : session.Alike session') :
    (first.lower session).1 = (second.lower session').1 ∧
      (first.lower session).2.Alike (second.lower session').2 := by
  have forward := Lowering.alike_statements first.statements
  rw [same] at forward
  have both := forward.trans (Lowering.alike_statements second.statements).symm
  have states : Lowering.State.Alike ⟨session, none⟩ ⟨session', none⟩ := ⟨alike, rfl⟩
  rcases both states with ⟨code, state⟩
  have program (tree : Tree) (session : Session) : (tree.lower session).1 =
      let ended := (Lowering.statements tree.statements).run ⟨session, none⟩
      ⟨(ended.1 ++ ended.2.exit.toList.map Instruction.label).toArray⟩ := rfl
  refine ⟨?_, state.session⟩
  rw [program, program]
  simp only [code, state.exit]

end SubsetC
