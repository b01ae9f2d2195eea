import SubsetC.Code.Lowering

/-!
# What a lowering emits

`Computes` and `Emits` relate expressions and statements to their code and to the states before and
after. They say what a lowering does one construct at a time, so that a property of emitted code is
one induction with a case for each construct. A list of statements counts as a block.
`computes_expression` and `emits_statement` say that lowerings do just this.
-/

namespace SubsetC.Lowering

namespace State

/-- The number of the next temporary. -/
def nextTemporary (state : State) : UInt32 :=
  state.session.temporaries + 1

/-- The number of the next label. -/
def nextLabel (state : State) : UInt32 :=
  state.session.labels + 1

/-- The state once the next temporary has been named. -/
def nameTemporary (state : State) : State :=
  { state with session := { state.session with temporaries := state.nextTemporary } }

/-- The state once the next label has been named. -/
def nameLabel (state : State) : State :=
  { state with session := { state.session with labels := state.nextLabel } }

/-- Naming a temporary counts it. -/
@[simp]
theorem temporaries_nameTemporary (state : State) :
    state.nameTemporary.session.temporaries = state.nextTemporary := rfl

/-- Labels are counted apart from temporaries. -/
@[simp]
theorem labels_nameTemporary (state : State) :
    state.nameTemporary.session.labels = state.session.labels := rfl

/-- The label for returns is not touched. -/
@[simp]
theorem exit_nameTemporary (state : State) : state.nameTemporary.exit = state.exit := rfl

@[simp]
theorem temporaries_nameLabel (state : State) :
    state.nameLabel.session.temporaries = state.session.temporaries := rfl

/-- Naming a label counts it. -/
@[simp]
theorem labels_nameLabel (state : State) :
    state.nameLabel.session.labels = state.nextLabel := rfl

@[simp]
theorem exit_nameLabel (state : State) : state.nameLabel.exit = state.exit := rfl

end State

/-- From the state `before`, the code of the expression leaves its value in the operand. -/
inductive Computes : State → Expr → List Instruction → Operand → State → Prop where
  | literal (state : State) (value : Literal) (span : Span) :
      Computes state (.literal value span) [] (.literal (.ofLiteral value)) state
  | var (state : State) (name : String) (span : Span) :
      Computes state (.var name span) [] (.name name) state
  | binary {before middle after : State} {op : BinaryOp} {left right : Expr} {span : Span}
      {leftCode rightCode : List Instruction} {leftOperand rightOperand : Operand}
      (leftComputes : Computes before left leftCode leftOperand middle)
      (rightComputes : Computes middle right rightCode rightOperand after) :
      Computes before (.binary op left right span)
        (leftCode ++ rightCode ++
          [.binary (Session.temporaryName after.nextTemporary) op leftOperand rightOperand])
        (.name (Session.temporaryName after.nextTemporary)) after.nameTemporary
  | unary {before after : State} {op : UnaryOp} {inner : Expr} {span : Span}
      {code : List Instruction} {operand : Operand}
      (innerComputes : Computes before inner code operand after) :
      Computes before (.unary op inner span)
        (code ++ [signed op (Session.temporaryName after.nextTemporary) operand])
        (.name (Session.temporaryName after.nextTemporary)) after.nameTemporary

/-- The lowering of an expression computes it. -/
theorem computes_expression (expr : Expr) (state : State) :
    Computes state expr ((expression expr).run state).1.1 ((expression expr).run state).1.2
      ((expression expr).run state).2 := by
  induction expr generalizing state with
  | literal value span => exact .literal state value span
  | var name span => exact .var state name span
  | binary op left right span ihLeft ihRight => exact .binary (ihLeft state) (ihRight _)
  | unary op operand span ih => exact .unary (ih state)

/-- From the state `before`, the code is that of the statement. -/
inductive Emits : State → Stmt → List Instruction → State → Prop where
  | function {before after : State} {type : DataType} {name : Identifier} {body : Block Stmt}
      {span : Span} {code : List Instruction} (bodyEmits : Emits before (.block body) code after) :
      Emits before (.function type name body span) code after
  | blockNil (state : State) (span : Span) : Emits state (.block ⟨[], span⟩) [] state
  | blockCons {before middle after : State} {first : Stmt} {rest : List Stmt} {span : Span}
      {firstCode restCode : List Instruction} (firstEmits : Emits before first firstCode middle)
      (restEmits : Emits middle (.block ⟨rest, span⟩) restCode after) :
      Emits before (.block ⟨first :: rest, span⟩) (firstCode ++ restCode) after
  | declare (state : State) (type : DataType) (name : Identifier) (span : Span) :
      Emits state (.declare type name span) [] state
  | define {before after : State} {type : DataType} {target : Identifier} {value : Expr}
      {span : Span} {code : List Instruction} {source : Operand}
      (valueComputes : Computes before value code source after) :
      Emits before (.define type target value span) (code ++ [.assign target.name source]) after
  | assign {before after : State} {target : Identifier} {value : Expr} {span : Span}
      {code : List Instruction} {source : Operand}
      (valueComputes : Computes before value code source after) :
      Emits before (.assign target value span) (code ++ [.assign target.name source]) after
  | ifThen {before tested after : State} {condition : Expr} {body : Block Stmt} {span : Span}
      {test code : List Instruction} {truth : Operand}
      (conditionComputes : Computes before condition test truth tested)
      (bodyEmits : Emits tested.nameLabel (.block body) code after) :
      Emits before (.ifThen condition body span)
        (test ++ [.jumpUnless truth (Session.labelName tested.nextLabel)] ++ code ++
          [.label (Session.labelName tested.nextLabel)]) after
  | ifElse {before tested middle after : State} {condition : Expr} {body otherwise : Block Stmt}
      {span : Span} {test code otherCode : List Instruction} {truth : Operand}
      (conditionComputes : Computes before condition test truth tested)
      (bodyEmits : Emits tested.nameLabel.nameLabel (.block body) code middle)
      (otherwiseEmits : Emits middle (.block otherwise) otherCode after) :
      Emits before (.ifElse condition body otherwise span)
        (test ++ [.jumpUnless truth (Session.labelName tested.nextLabel)] ++ code ++
          [.jump (Session.labelName tested.nameLabel.nextLabel),
            .label (Session.labelName tested.nextLabel)] ++ otherCode ++
          [.label (Session.labelName tested.nameLabel.nextLabel)]) after
  | loop {before tested after : State} {condition : Expr} {body : Block Stmt} {span : Span}
      {test code : List Instruction} {truth : Operand}
      (conditionComputes : Computes before.nameLabel.nameLabel condition test truth tested)
      (bodyEmits : Emits tested (.block body) code after) :
      Emits before (.loop condition body span)
        ([.label (Session.labelName before.nextLabel)] ++ test ++
          [.jumpUnless truth (Session.labelName before.nameLabel.nextLabel)] ++ code ++
          [.jump (Session.labelName before.nextLabel),
            .label (Session.labelName before.nameLabel.nextLabel)]) after
  | print (state : State) (format : String) (argument : Option Identifier) (span : Span) :
      Emits state (.print format argument span) ((print format argument span.line).run state).1
        ((print format argument span.line).run state).2
  | scan (state : State) (format : String) (target : Identifier) (span : Span) :
      Emits state (.scan format target span) ((scan format target).run state).1
        ((scan format target).run state).2
  | leaveNone (state : State) (span : Span) :
      Emits state (.leave none span) [.jump (exitLabel.run state).1] (exitLabel.run state).2
  | leaveSome {before after : State} {value : Expr} {span : Span} {code : List Instruction}
      {operand : Operand} (valueComputes : Computes before value code operand after) :
      Emits before (.leave (some value) span) (code ++ [.jump (exitLabel.run after).1])
        (exitLabel.run after).2

mutual

/-- The lowering of a statement emits its code. -/
theorem emits_statement (stmt : Stmt) (state : State) :
    Emits state stmt ((statement stmt).run state).1 ((statement stmt).run state).2 := by
  match stmt with
  | .function _ _ ⟨body, span⟩ _ => exact .function (emits_statements body span state)
  | .block ⟨body, span⟩ => exact emits_statements body span state
  | .declare type name span => exact .declare state type name span
  | .define _ _ value _ => exact .define (computes_expression value state)
  | .assign _ value _ => exact .assign (computes_expression value state)
  | .ifThen condition ⟨body, span⟩ _ =>
      exact .ifThen (computes_expression condition state) (emits_statements body span _)
  | .ifElse condition ⟨body, span⟩ ⟨otherwise, otherSpan⟩ _ =>
      exact .ifElse (computes_expression condition state) (emits_statements body span _)
        (emits_statements otherwise otherSpan _)
  | .loop condition ⟨body, span⟩ _ =>
      exact .loop (computes_expression condition _) (emits_statements body span _)
  | .print format argument span => exact .print state format argument span
  | .scan format target span => exact .scan state format target span
  | .leave none span => exact .leaveNone state span
  | .leave (some value) _ => exact .leaveSome (computes_expression value state)

/-- Statements in a row are lowered one behind the other, as those of a block. -/
theorem emits_statements (stmts : List Stmt) (span : Span) (state : State) :
    Emits state (.block ⟨stmts, span⟩) ((statements stmts).run state).1
      ((statements stmts).run state).2 := by
  match stmts with
  | [] => exact .blockNil state span
  | first :: rest => exact .blockCons (emits_statement first state) (emits_statements rest span _)

end

end SubsetC.Lowering
