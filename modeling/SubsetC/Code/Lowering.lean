import SubsetC.Code
import SubsetC.Session
import SubsetC.Text.Escape

/-!
# From trees to code

Every statement becomes one stretch of code, and every operator of an expression one instruction
that stores to a temporary of its own. The labels of a statement are named before the code that
jumps to them, in the orders

```text
if (C) A          [C] ifFalse C goto end  [A] end:
if (C) A else B   [C] ifFalse C goto else [A] goto end else: [B] end:
while (C) A       start: [C] ifFalse C goto end [A] goto start end:
```

All returns jump to one label, which is placed behind everything else. A statement of output or
input whose format does not fit it is reported and becomes no code.
-/

namespace SubsetC

/-- The state of a lowering. -/
structure Lowering.State where
  /-- Names and reports. -/
  session : Session
  /-- The label that returns jump to, if there has been one. -/
  exit : Option String
  deriving DecidableEq, Inhabited

/-- A lowering, which names temporaries and labels and reports problems. -/
abbrev Lowering := StateM Lowering.State

namespace Lowering

/-- Code and the operand that holds the value it computes. -/
abbrev Computed := List Instruction × Operand

/-- Names a temporary. -/
def freshTemporary : Lowering String :=
  modifyGet fun state =>
    let (name, session) := state.session.freshTemporary
    (name, { state with session })

/-- Names a label. -/
def freshLabel : Lowering String :=
  modifyGet fun state =>
    let (name, session) := state.session.freshLabel
    (name, { state with session })

/-- The label that returns jump to. -/
def exitLabel : Lowering String := do
  match (← get).exit with
  | some label => return label
  | none =>
    let label ← freshLabel
    modify fun state => { state with exit := some label }
    return label

/-- Reports a problem with a statement. It becomes no code. -/
def reject (message : String) (line : UInt32) : Lowering (List Instruction) := do
  modify fun state => { state with session := state.session.report (.error .semantic message line) }
  return []

/-- The operator and operands that a sign stands for. -/
def signed (op : UnaryOp) (target : String) (operand : Operand) : Instruction :=
  match op with
  | .neg => .binary target .sub (.literal (.int 0)) operand
  | .not => .binary target .eq operand (.literal (.int 0))

/-- Code for an expression, the left operand first. -/
def expression : Expr → Lowering Computed
  | .literal value _ => return ([], .literal (.ofLiteral value))
  | .var name _ => return ([], .name name)
  | .binary op left right _ => do
    let (leftCode, left) ← expression left
    let (rightCode, right) ← expression right
    let target ← freshTemporary
    return (leftCode ++ rightCode ++ [.binary target op left right], .name target)
  | .unary op operand _ => do
    let (code, operand) ← expression operand
    let target ← freshTemporary
    return (code ++ [signed op target operand], .name target)

/-- Code for a text that is printed as it is. -/
def printText (text : String) : List Instruction :=
  if text = "" then [] else [.printText text]

/-- Code for an output statement. -/
def print (format : String) (argument : Option Identifier) (line : UInt32) :
    Lowering (List Instruction) :=
  match Format.parse (Escape.string format), argument with
  | .error error, _ => reject error.message line
  | .ok ⟨before, none, _⟩, none => return printText before
  | .ok ⟨before, some conversion, after⟩, some source =>
    return printText before ++ [.print conversion source.name] ++ printText after
  | .ok ⟨_, some conversion, _⟩, none =>
    reject s!"Format specifier '{conversion.specifier}' has no matching argument" line
  | .ok ⟨_, none, _⟩, some source =>
    reject s!"Argument '{source.name}' has no format specifier" source.span.line

/-- Code for an input statement. -/
def scan (format : String) (target : Identifier) : Lowering (List Instruction) :=
  match Format.parse (Escape.string format) with
  | .error error => reject error.message target.span.line
  | .ok ⟨_, some conversion, _⟩ => return [.scan conversion target.name]
  | .ok ⟨_, none, _⟩ => reject "scanf format has no format specifier" target.span.line

mutual

/-- Code for a statement. -/
def statement : Stmt → Lowering (List Instruction)
  | .function _ _ body _ => block body
  | .block body => block body
  | .declare _ _ _ => return []
  | .define _ target value _ | .assign target value _ => do
    let (code, source) ← expression value
    return code ++ [.assign target.name source]
  | .ifThen condition body _ => do
    let (code, condition) ← expression condition
    let finish ← freshLabel
    let body ← block body
    return code ++ [.jumpUnless condition finish] ++ body ++ [.label finish]
  | .ifElse condition body otherwise _ => do
    let (code, condition) ← expression condition
    let alternative ← freshLabel
    let finish ← freshLabel
    let body ← block body
    let otherwise ← block otherwise
    return code ++ [.jumpUnless condition alternative] ++ body ++
      [.jump finish, .label alternative] ++ otherwise ++ [.label finish]
  | .loop condition body _ => do
    let start ← freshLabel
    let finish ← freshLabel
    let (code, condition) ← expression condition
    let body ← block body
    return [.label start] ++ code ++ [.jumpUnless condition finish] ++ body ++
      [.jump start, .label finish]
  | .print format argument span => print format argument span.line
  | .scan format target _ => scan format target
  | .leave none _ => return [.jump (← exitLabel)]
  | .leave (some value) _ => do
    let (code, _) ← expression value
    return code ++ [.jump (← exitLabel)]

/-- Code for a block. -/
def block : Block Stmt → Lowering (List Instruction)
  | ⟨body, _⟩ => statements body

/-- Code for statements in a row. -/
def statements : List Stmt → Lowering (List Instruction)
  | [] => return []
  | first :: rest => do
    let code ← statement first
    return code ++ (← statements rest)

end

end Lowering

/-- The code of a tree. Temporaries and labels are named on from those of the session, which gets
what is reported. -/
def Tree.lower (tree : Tree) (session : Session) : Program × Session :=
  let (code, state) := (Lowering.statements tree.statements).run ⟨session, none⟩
  let exit := state.exit.toList.map Instruction.label
  (⟨(code ++ exit).toArray⟩, state.session)

end SubsetC
