import SubsetC.Code.Lowering
import SubsetC.Proofs.Tree.Misfits

/-!
# Misfits are reported and become no code

A lowering reports each output and input statement whose format does not fit it, and does nothing
else with it: no code is emitted and no name is taken. `Silences` compares a lowering with one that
leaves such statements out. It has one rule for each combinator, and `silences_statement` goes by
the statement.
-/

namespace SubsetC

/-- The report of a misfit. -/
def Diagnostic.ofMisfit (misfit : String × UInt32) : Diagnostic :=
  .error .semantic misfit.1 misfit.2

namespace Lowering

/-- The state with other reports. -/
def State.withDiagnostics (state : State) (diagnostics : Diagnostics) : State :=
  { state with session := { state.session with diagnostics } }

/-- The first lowering reports the misfits. Otherwise the two do the same, whatever has been
reported before, and the declarations stay. -/
structure Silences {α : Type} (first second : Lowering α) (misfits : List (String × UInt32)) :
    Prop where
  run : ∀ state diagnostics, second.run (state.withDiagnostics diagnostics) =
    ((first.run state).1, (first.run state).2.withDiagnostics diagnostics)
  diagnostics : ∀ state, (first.run state).2.session.diagnostics =
    state.session.diagnostics ++ (misfits.map Diagnostic.ofMisfit).toArray
  symbols : ∀ state, (first.run state).2.session.symbols = state.session.symbols

namespace Silences

variable {α β : Type} {first second : Lowering α} {next next' : α → Lowering β}
  {early late : List (String × UInt32)}

theorem pure (value : α) : Silences (Pure.pure value) (Pure.pure value) [] where
  run _ _ := rfl
  diagnostics _ := (Array.append_empty).symm
  symbols _ := rfl

/-- What is silenced in two parts is silenced in all. -/
theorem bind (before : Silences first second early)
    (behind : ∀ value, Silences (next value) (next' value) late) :
    Silences (first >>= next) (second >>= next') (early ++ late) where
  run state diagnostics := by
    change (next' (second.run _).1).run (second.run _).2 = _
    rw [before.run]
    exact (behind _).run _ diagnostics
  diagnostics state := by
    change ((next (first.run state).1).run (first.run state).2).2.session.diagnostics = _
    rw [(behind _).diagnostics, before.diagnostics]
    simp
  symbols state := by
    change ((next (first.run state).1).run (first.run state).2).2.session.symbols = _
    rw [(behind _).symbols, before.symbols]

/-- Nothing is reported at first. -/
theorem behind (before : Silences first second [])
    (rest : ∀ value, Silences (next value) (next' value) late) :
    Silences (first >>= next) (second >>= next') late :=
  before.bind rest

/-- Nothing is reported any more. -/
theorem ending (before : Silences first second early) (finish : α → β) :
    Silences (first >>= fun value => Pure.pure (finish value))
      (second >>= fun value => Pure.pure (finish value)) early := by
  have chain := before.bind fun value => pure (finish value)
  rwa [List.append_nil] at chain

end Silences

theorem silences_freshTemporary : Silences freshTemporary freshTemporary [] where
  run _ _ := rfl
  diagnostics _ := (Array.append_empty).symm
  symbols _ := rfl

theorem silences_freshLabel : Silences freshLabel freshLabel [] where
  run _ _ := rfl
  diagnostics _ := (Array.append_empty).symm
  symbols _ := rfl

theorem silences_exitLabel : Silences exitLabel exitLabel [] where
  run := by
    rintro ⟨session, _ | label⟩ diagnostics <;> rfl
  diagnostics := by
    rintro ⟨session, _ | label⟩ <;> exact (Array.append_empty).symm
  symbols := by
    rintro ⟨session, _ | label⟩ <;> rfl

/-- Expressions report nothing. -/
theorem silences_expression (expr : Expr) : Silences (expression expr) (expression expr) [] := by
  induction expr with
  | literal value span => exact .pure _
  | var name span => exact .pure _
  | binary op left right span ihLeft ihRight =>
      refine ihLeft.behind fun (leftCode, leftOperand) => ?_
      refine ihRight.behind fun (rightCode, rightOperand) => ?_
      exact silences_freshTemporary.ending _
  | unary op inner span ih =>
      refine ih.behind fun (code, operand) => ?_
      exact silences_freshTemporary.ending _

theorem silences_reject (message : String) (line : UInt32) :
    Silences (reject message line) (Pure.pure []) [(message, line)] where
  run _ _ := rfl
  diagnostics _ := Array.push_eq_append
  symbols _ := rfl

/-- A misfit is reported, and that is all. -/
theorem statement_of_misfit {stmt : Stmt} {message : String} {line : UInt32}
    (misfit : stmt.misfit? = some (message, line)) : statement stmt = reject message line := by
  cases stmt with
  | print format argument span =>
      change Stmt.printMisfit? argument span (Format.parse (Escape.string format)) = _ at misfit
      change print format argument span.line = _
      unfold print
      revert misfit
      rcases Format.parse (Escape.string format) with error | ⟨before, _ | conversion, after⟩
      · rintro ⟨⟩
        rfl
      · cases argument with
        | none => rintro ⟨⟩
        | some source =>
            rintro ⟨⟩
            rfl
      · cases argument with
        | none =>
            rintro ⟨⟩
            rfl
        | some source => rintro ⟨⟩
  | scan format target span =>
      change Stmt.scanMisfit? target (Format.parse (Escape.string format)) = _ at misfit
      change scan format target = _
      unfold scan
      revert misfit
      rcases Format.parse (Escape.string format) with error | ⟨before, _ | conversion, after⟩
      · rintro ⟨⟩
        rfl
      · rintro ⟨⟩
        rfl
      · rintro ⟨⟩
  | _ => cases misfit

/-- An output that fits its format reports nothing. -/
theorem silences_print {format : String} {argument : Option Identifier} {span : Span}
    (fits : (Stmt.print format argument span).misfit? = none) :
    Silences (print format argument span.line) (print format argument span.line) [] := by
  change Stmt.printMisfit? argument span (Format.parse (Escape.string format)) = none at fits
  unfold print
  revert fits
  rcases Format.parse (Escape.string format) with error | ⟨before, _ | conversion, after⟩
  · rintro ⟨⟩
  · cases argument with
    | none => exact fun _ => .pure _
    | some source => rintro ⟨⟩
  · cases argument with
    | none => rintro ⟨⟩
    | some source => exact fun _ => .pure _

/-- Nor does such an input. -/
theorem silences_scan {format : String} {target : Identifier} {span : Span}
    (fits : (Stmt.scan format target span).misfit? = none) :
    Silences (scan format target) (scan format target) [] := by
  change Stmt.scanMisfit? target (Format.parse (Escape.string format)) = none at fits
  unfold scan
  revert fits
  rcases Format.parse (Escape.string format) with error | ⟨before, _ | conversion, after⟩
  · rintro ⟨⟩
  · rintro ⟨⟩
  · exact fun _ => .pure _

/-- A statement is lowered like what is left of it without misfits. -/
theorem silences_statement (stmt : Stmt) (fits : stmt.misfit? = none) :
    Silences (statement stmt) (statement stmt.pruned) stmt.misfits := by
  induction stmt using Stmt.nestedInduction with
  | function type name body span ih => exact ih rfl
  | blockNil span => exact .pure []
  | blockCons first rest span ihFirst ihRest =>
      have others := ihRest rfl
      rw [Stmt.misfits_block_cons]
      cases misfit : first.misfit? with
      | none =>
          rw [Stmt.pruned_block_cons_of_fits misfit]
          exact (ihFirst misfit).bind fun code => others.ending _
      | some problem =>
          -- The report stands where the code of the statement would have been.
          rw [Stmt.pruned_block_cons_of_misfit misfit, Stmt.misfits_of_misfit misfit]
          have reports := silences_reject problem.1 problem.2
          rw [← statement_of_misfit misfit] at reports
          exact reports.bind fun code => others.ending _
  | declare type name span => exact .pure []
  | define type target value span => exact (silences_expression value).ending _
  | assign target value span => exact (silences_expression value).ending _
  | ifThen condition body span ih =>
      refine (silences_expression condition).behind fun (code, condition) => ?_
      exact silences_freshLabel.behind fun finish => (ih rfl).ending _
  | ifElse condition body otherwise span ihBody ihOtherwise =>
      rw [Stmt.misfits_ifElse]
      refine (silences_expression condition).behind fun (code, condition) => ?_
      refine silences_freshLabel.behind fun alternative => ?_
      refine silences_freshLabel.behind fun finish => ?_
      exact (ihBody rfl).bind fun body => (ihOtherwise rfl).ending _
  | loop condition body span ih =>
      refine silences_freshLabel.behind fun start => ?_
      refine silences_freshLabel.behind fun finish => ?_
      refine (silences_expression condition).behind fun (code, condition) => ?_
      exact (ih rfl).ending _
  | print format argument span =>
      rw [Stmt.misfits_of_parts rfl fits]
      exact silences_print fits
  | scan format target span =>
      rw [Stmt.misfits_of_parts rfl fits]
      exact silences_scan fits
  | leave value span =>
      cases value with
      | none => exact silences_exitLabel.ending _
      | some value =>
          refine (silences_expression value).behind fun (code, _) => ?_
          exact silences_exitLabel.ending _

end Lowering

namespace Tree

theorem silences_statements (tree : Tree) :
    Lowering.Silences (Lowering.statements tree.statements)
      (Lowering.statements tree.pruned.statements) tree.whole.misfits :=
  Lowering.silences_statement tree.whole rfl

/-- A lowering reports the statements whose format does not fit, in order and each once, and nothing
else. Otherwise it leaves the declarations as they are and does the same as for the tree without
these statements. That tree has all other statements, in the same order. -/
theorem lower_misfits (tree : Tree) (session : Session) :
    (tree.lower session).2.diagnostics = session.diagnostics ++
        ((tree.whole.parts.filterMap Stmt.misfit?).map Diagnostic.ofMisfit).toArray ∧
      (∀ stmt : Stmt, stmt.misfit?.isSome = true ↔ stmt.IllFormed) ∧
      (tree.lower session).2.symbols = session.symbols ∧
      tree.pruned.lower session =
        ((tree.lower session).1,
          { (tree.lower session).2 with diagnostics := session.diagnostics }) ∧
      tree.pruned.whole.parts =
        (tree.whole.parts.filter fun part => part.misfit?.isNone).map Stmt.pruned := by
  have silences := tree.silences_statements
  refine ⟨silences.diagnostics ⟨session, none⟩, Stmt.isSome_misfit?_iff,
    silences.symbols ⟨session, none⟩, ?_, Stmt.parts_pruned tree.whole rfl⟩
  have run := silences.run ⟨session, none⟩ session.diagnostics
  have same : Lowering.State.withDiagnostics ⟨session, none⟩ session.diagnostics =
      ⟨session, none⟩ := rfl
  rw [same] at run
  simp only [lower, run]
  rfl

/-- An output statement whose format cannot be read is left out, and so is an input statement
without a conversion. -/
example : (Tree.lower ⟨[.print "%x" none default, .print "done" none default,
    .scan "now" ⟨"a", default⟩ default], default⟩ .empty).1 = ⟨#[.printText "done"]⟩ := by
  decide +kernel

end Tree

end SubsetC
