import SubsetC.Format
import SubsetC.Proofs.Tree.Parts
import SubsetC.Text.Escape

/-!
# Statements whose format does not fit

An output statement shows a variable just if its format has a conversion, and an input statement
needs one. Statements of the two kinds for which this fails are misfits. `Tree.pruned` is a tree
without its misfits; `parts_pruned` says that everything else is still there, in the same order.
-/

namespace SubsetC

namespace Stmt

/-- What is wrong with a format for an output statement, and the line that is told. -/
def printMisfit? (argument : Option Identifier) (span : Span) :
    Except FormatError Format → Option (String × UInt32)
  | .error error => some (error.message, span.line)
  | .ok format =>
    match format.conversion, argument with
    | some conversion, none =>
      some (s!"Format specifier '{conversion.specifier}' has no matching argument", span.line)
    | none, some source =>
      some (s!"Argument '{source.name}' has no format specifier", source.span.line)
    | none, none | some _, some _ => none

/-- What is wrong with a format for an input statement, and the line that is told. -/
def scanMisfit? (target : Identifier) : Except FormatError Format → Option (String × UInt32)
  | .error error => some (error.message, target.span.line)
  | .ok format =>
    if format.conversion.isSome then none
    else some ("scanf format has no format specifier", target.span.line)

/-- What is wrong with the format of the statement, if it has one. -/
def misfit? : Stmt → Option (String × UInt32)
  | print format argument span => printMisfit? argument span (Format.parse (Escape.string format))
  | scan format target _ => scanMisfit? target (Format.parse (Escape.string format))
  | _ => none

/-- The format of the statement does not fit it. -/
inductive IllFormed : Stmt → Prop
  | unreadable {format : String} {argument : Option Identifier} {span : Span} {error : FormatError}
      (failed : Format.parse (Escape.string format) = .error error) :
      IllFormed (.print format argument span)
  | noArgument {format : String} {span : Span} {read : Format}
      (parsed : Format.parse (Escape.string format) = .ok read)
      (converts : read.conversion.isSome = true) : IllFormed (.print format none span)
  | noConversion {format : String} {source : Identifier} {span : Span} {read : Format}
      (parsed : Format.parse (Escape.string format) = .ok read)
      (plain : read.conversion = none) : IllFormed (.print format (some source) span)
  | scan {format : String} {target : Identifier} {span : Span}
      (unfit : ∀ read, Format.parse (Escape.string format) = .ok read → read.conversion = none) :
      IllFormed (.scan format target span)

theorem isSome_misfit?_iff (stmt : Stmt) : stmt.misfit?.isSome = true ↔ stmt.IllFormed := by
  constructor
  · intro misfit
    cases stmt with
    | print format argument span =>
        rcases parsed : Format.parse (Escape.string format) with
          error | ⟨before, _ | conversion, after⟩
        · exact .unreadable parsed
        · cases argument with
          | none => simp [misfit?, parsed, printMisfit?] at misfit
          | some source => exact .noConversion parsed rfl
        · cases argument with
          | none => exact .noArgument parsed rfl
          | some source => simp [misfit?, parsed, printMisfit?] at misfit
    | scan format target span =>
        apply IllFormed.scan
        intro read parsed
        simpa [misfit?, parsed, scanMisfit?] using misfit
    | _ => cases misfit
  · intro illFormed
    cases illFormed with
    | unreadable failed => simp [misfit?, failed, printMisfit?]
    | noArgument parsed converts =>
        rcases Option.isSome_iff_exists.mp converts with ⟨conversion, known⟩
        simp [misfit?, parsed, printMisfit?, known]
    | noConversion parsed plain => simp [misfit?, parsed, printMisfit?, plain]
    | @scan format target span unfit =>
        rcases parsed : Format.parse (Escape.string format) with error | read
        · simp [misfit?, parsed, scanMisfit?]
        · simp [misfit?, parsed, scanMisfit?, unfit read parsed]

end Stmt

mutual

/-- The statement without the misfits inside of it. -/
def Stmt.pruned : Stmt → Stmt
  | .function type name body span => .function type name (blockPruned body) span
  | .block body => .block (blockPruned body)
  | .ifThen condition body span => .ifThen condition (blockPruned body) span
  | .ifElse condition body otherwise span =>
      .ifElse condition (blockPruned body) (blockPruned otherwise) span
  | .loop condition body span => .loop condition (blockPruned body) span
  | stmt => stmt

/-- The block without its misfits. -/
def blockPruned : Block Stmt → Block Stmt
  | ⟨statements, span⟩ => ⟨statementsPruned statements, span⟩

/-- The statements without their misfits. -/
def statementsPruned : List Stmt → List Stmt
  | [] => []
  | first :: rest =>
      if first.misfit?.isSome then statementsPruned rest
      else first.pruned :: statementsPruned rest

end

/-- The tree without its misfits. -/
def Tree.pruned (tree : Tree) : Tree :=
  ⟨statementsPruned tree.statements, tree.span⟩

namespace Stmt

/-- The misfits in the statement, in order. -/
def misfits (stmt : Stmt) : List (String × UInt32) :=
  stmt.parts.filterMap misfit?

/-- A misfit has no statements inside. -/
theorem parts_of_misfit {stmt : Stmt} (misfit : stmt.misfit?.isSome = true) :
    stmt.parts = [stmt] := by
  cases stmt with
  | print format argument span => rfl
  | scan format target span => rfl
  | _ => cases misfit

/-- A statement that fits and has no others inside. -/
theorem misfits_of_parts {stmt : Stmt} (alone : stmt.parts = [stmt]) (fits : stmt.misfit? = none) :
    stmt.misfits = [] := by
  simp [misfits, alone, fits]

theorem misfits_of_misfit {stmt : Stmt} {misfit : String × UInt32}
    (found : stmt.misfit? = some misfit) : stmt.misfits = [misfit] := by
  have alone := parts_of_misfit (Option.isSome_of_eq_some found)
  simp [misfits, alone, found]

section Cons

variable {first : Stmt} {rest : List Stmt} {span : Span}

theorem misfits_block_cons :
    (block ⟨first :: rest, span⟩).misfits = first.misfits ++ (block ⟨rest, span⟩).misfits := by
  simp [misfits]

theorem pruned_block_cons_of_fits (fits : first.misfit? = none) :
    (block ⟨first :: rest, span⟩).pruned =
      block ⟨first.pruned :: statementsPruned rest, span⟩ := by
  simp [pruned, blockPruned, statementsPruned, fits]

theorem pruned_block_cons_of_misfit {misfit : String × UInt32}
    (found : first.misfit? = some misfit) :
    (block ⟨first :: rest, span⟩).pruned = (block ⟨rest, span⟩).pruned := by
  simp [pruned, blockPruned, statementsPruned, found]

end Cons

theorem misfits_ifElse (condition : Expr) (body otherwise : Block Stmt) (span : Span) :
    (ifElse condition body otherwise span).misfits =
      (block body).misfits ++ (block otherwise).misfits :=
  List.filterMap_append

/-- What is left of a statement are its parts without the misfits. -/
theorem parts_pruned (stmt : Stmt) (fits : stmt.misfit? = none) :
    stmt.pruned.parts = (stmt.parts.filter fun part => part.misfit?.isNone).map pruned := by
  induction stmt using nestedInduction with
  | function type name body span ih => simpa [pruned, misfit?] using ih rfl
  | blockNil span => rfl
  | blockCons first rest span ihFirst ihRest =>
      have others := ihRest rfl
      cases misfit : first.misfit? with
      | some problem =>
          have alone := parts_of_misfit (Option.isSome_of_eq_some misfit)
          simp [pruned_block_cons_of_misfit misfit, alone, misfit, others]
      | none =>
          have left : (block ⟨statementsPruned rest, span⟩).parts = _ := others
          simp [pruned_block_cons_of_fits misfit, ihFirst misfit, left]
  | declare type name span => rfl
  | define type target value span => rfl
  | assign target value span => rfl
  | ifThen condition body span ih => simpa [pruned, misfit?] using ih rfl
  | ifElse condition body otherwise span ihBody ihOtherwise =>
      have first := ihBody rfl
      have second := ihOtherwise rfl
      simp only [pruned] at first second
      simp [pruned, misfit?, first, second]
  | loop condition body span ih => simpa [pruned, misfit?] using ih rfl
  | print format argument span => simp [pruned, fits]
  | scan format target span => simp [pruned, fits]
  | leave value span => rfl

end Stmt

end SubsetC
