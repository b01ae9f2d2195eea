import SubsetC.Machine
import SubsetC.Proofs.Tree.Parts
import SubsetC.Text.Escape

/-!
# The meaning of trees

What a source means, said of its tree alone. An expression has a value in every scene, and on the
way to it each division by zero gives a warning. `Stmt.Runs` relates a statement to the scenes
before and after it and says whether the program goes on behind it. A list of statements counts as a
block.
-/

namespace SubsetC

/-- What a program is warned of. -/
inductive Warning where
  /-- A division by zero, which gave zero. -/
  | divisionByZero
  /-- A problem with an answer, which a default was used for. -/
  | answer (problem : Diagnostic)
  deriving DecidableEq, Repr, Inhabited

/-- The values of a program's variables, the answers that it will be given, and what it has done. -/
structure Scene where
  store : Table Value
  answers : List String
  prompts : List String
  output : List String
  warnings : List Warning
  deriving DecidableEq, Repr, Inhabited

namespace Scene

/-- Nothing has been done, and these answers will be given. -/
def start (answers : List String) : Scene :=
  ⟨.empty, answers, [], [], []⟩

/-- The value of a variable. One without a value reads as zero. -/
def read (scene : Scene) (name : String) : Value :=
  (scene.store.get? name).getD .default

/-- The scene with a variable at a value. -/
def assign (scene : Scene) (name : String) (value : Value) : Scene :=
  { scene with store := scene.store.set name value }

/-- The scene with one more warning. -/
def warn (scene : Scene) (warning : Warning) : Scene :=
  { scene with warnings := scene.warnings ++ [warning] }

/-- The scene with one more printed text. -/
def emit (scene : Scene) (text : String) : Scene :=
  { scene with output := scene.output ++ [text] }

/-- The scene with one more printed text, unless the text is empty. -/
def emitText (scene : Scene) (text : String) : Scene :=
  if text = "" then scene else scene.emit text

/-- The result of an operator. A division by zero gives zero and a warning. -/
def apply (scene : Scene) (op : BinaryOp) (left right : Value) : Value × Scene :=
  match op.apply left right with
  | some value => (value, scene)
  | none => (.int 0, scene.warn .divisionByZero)

/-- The scene behind an output statement. One whose format and argument do not fit does nothing. -/
def print (scene : Scene) (format : String) (argument : Option Identifier) : Scene :=
  match Format.parse (Escape.string format), argument with
  | .ok ⟨before, none, _⟩, none => scene.emitText before
  | .ok ⟨before, some conversion, after⟩, some source =>
      ((scene.emitText before).emit (conversion.write (scene.read source.name))).emitText after
  | _, _ => scene

/-- The scene behind a request for the value of a variable. -/
def request (scene : Scene) (conversion : Conversion) (target : String) : Scene :=
  let (value, problem) := conversion.read target scene.answers.head?
  { store := scene.store.set target value
    answers := scene.answers.tail
    prompts := scene.prompts ++ [conversion.prompt target]
    output := scene.output
    warnings := scene.warnings ++ (problem.map Warning.answer).toList }

/-- The scene behind an input statement. One whose format does not fit does nothing. -/
def scan (scene : Scene) (format : String) (target : Identifier) : Scene :=
  match Format.parse (Escape.string format) with
  | .ok ⟨_, some conversion, _⟩ => scene.request conversion target.name
  | _ => scene

@[simp]
theorem read_emitText (scene : Scene) (text name : String) :
    (scene.emitText text).read name = scene.read name := by
  unfold emitText
  split <;> rfl

end Scene

/-- The value of an expression, the left operand first, and the scene with the warnings that were
given on the way to it. -/
def Expr.evaluate : Expr → Scene → Value × Scene
  | literal value _, scene => (.ofLiteral value, scene)
  | var name _, scene => (scene.read name, scene)
  | binary op left right _, scene =>
      let (leftValue, scene) := left.evaluate scene
      let (rightValue, scene) := right.evaluate scene
      scene.apply op leftValue rightValue
  | unary .neg operand _, scene =>
      let (value, scene) := operand.evaluate scene
      scene.apply .sub (.int 0) value
  | unary .not operand _, scene =>
      let (value, scene) := operand.evaluate scene
      scene.apply .eq value (.int 0)

/-- How a program goes on behind a statement. -/
inductive Outcome where
  /-- With what comes next. -/
  | finished
  /-- Not at all. -/
  | left
  deriving DecidableEq, Repr, Inhabited

/-- From one scene the statement leads to another, with this outcome. -/
inductive Stmt.Runs : Stmt → Scene → Outcome → Scene → Prop where
  | function {type : DataType} {name : Identifier} {body : Block Stmt} {span : Span}
      {scene scene' : Scene} {outcome : Outcome}
      (bodyRuns : Runs (.block body) scene outcome scene') :
      Runs (.function type name body span) scene outcome scene'
  | blockNil (span : Span) (scene : Scene) : Runs (.block ⟨[], span⟩) scene .finished scene
  | blockCons {first : Stmt} {rest : List Stmt} {span : Span} {scene middle scene' : Scene}
      {outcome : Outcome} (firstRuns : Runs first scene .finished middle)
      (restRuns : Runs (.block ⟨rest, span⟩) middle outcome scene') :
      Runs (.block ⟨first :: rest, span⟩) scene outcome scene'
  | blockLeft {first : Stmt} {rest : List Stmt} {span : Span} {scene scene' : Scene}
      (firstRuns : Runs first scene .left scene') :
      Runs (.block ⟨first :: rest, span⟩) scene .left scene'
  | declare (type : DataType) (name : Identifier) (span : Span) (scene : Scene) :
      Runs (.declare type name span) scene .finished scene
  | define (type : DataType) (target : Identifier) (value : Expr) (span : Span) (scene : Scene) :
      Runs (.define type target value span) scene .finished
        ((value.evaluate scene).2.assign target.name (value.evaluate scene).1)
  | assign (target : Identifier) (value : Expr) (span : Span) (scene : Scene) :
      Runs (.assign target value span) scene .finished
        ((value.evaluate scene).2.assign target.name (value.evaluate scene).1)
  | ifThenTrue {condition : Expr} {body : Block Stmt} {span : Span} {scene scene' : Scene}
      {outcome : Outcome} (holds : (condition.evaluate scene).1.isTruthy = true)
      (bodyRuns : Runs (.block body) (condition.evaluate scene).2 outcome scene') :
      Runs (.ifThen condition body span) scene outcome scene'
  | ifThenFalse {condition : Expr} {body : Block Stmt} {span : Span} {scene : Scene}
      (fails : (condition.evaluate scene).1.isTruthy = false) :
      Runs (.ifThen condition body span) scene .finished (condition.evaluate scene).2
  | ifElseTrue {condition : Expr} {body otherwise : Block Stmt} {span : Span}
      {scene scene' : Scene} {outcome : Outcome}
      (holds : (condition.evaluate scene).1.isTruthy = true)
      (bodyRuns : Runs (.block body) (condition.evaluate scene).2 outcome scene') :
      Runs (.ifElse condition body otherwise span) scene outcome scene'
  | ifElseFalse {condition : Expr} {body otherwise : Block Stmt} {span : Span}
      {scene scene' : Scene} {outcome : Outcome}
      (fails : (condition.evaluate scene).1.isTruthy = false)
      (otherwiseRuns : Runs (.block otherwise) (condition.evaluate scene).2 outcome scene') :
      Runs (.ifElse condition body otherwise span) scene outcome scene'
  | loopTrue {condition : Expr} {body : Block Stmt} {span : Span} {scene middle scene' : Scene}
      {outcome : Outcome} (holds : (condition.evaluate scene).1.isTruthy = true)
      (bodyRuns : Runs (.block body) (condition.evaluate scene).2 .finished middle)
      (againRuns : Runs (.loop condition body span) middle outcome scene') :
      Runs (.loop condition body span) scene outcome scene'
  | loopLeft {condition : Expr} {body : Block Stmt} {span : Span} {scene scene' : Scene}
      (holds : (condition.evaluate scene).1.isTruthy = true)
      (bodyRuns : Runs (.block body) (condition.evaluate scene).2 .left scene') :
      Runs (.loop condition body span) scene .left scene'
  | loopFalse {condition : Expr} {body : Block Stmt} {span : Span} {scene : Scene}
      (fails : (condition.evaluate scene).1.isTruthy = false) :
      Runs (.loop condition body span) scene .finished (condition.evaluate scene).2
  | print (format : String) (argument : Option Identifier) (span : Span) (scene : Scene) :
      Runs (.print format argument span) scene .finished (scene.print format argument)
  | scan (format : String) (target : Identifier) (span : Span) (scene : Scene) :
      Runs (.scan format target span) scene .finished (scene.scan format target)
  | leaveNone (span : Span) (scene : Scene) : Runs (.leave none span) scene .left scene
  | leaveSome (value : Expr) (span : Span) (scene : Scene) :
      Runs (.leave (some value) span) scene .left (value.evaluate scene).2

/-- From one scene the tree leads to another. It ends there, whether or not by a return. -/
def Tree.Runs (tree : Tree) (scene scene' : Scene) : Prop :=
  ∃ outcome, tree.whole.Runs scene outcome scene'

end SubsetC
