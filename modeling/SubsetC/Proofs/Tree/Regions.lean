import SubsetC.Tree

/-!
# Where the nodes of a tree lie

A `Region` is a tree without anything but its spans: the span of a node, and the regions of the
nodes inside of it in the order in which they are written. `Region.Fits` says that the spans are
stretches of a source that lie in each other as the nodes do, and apart from each other where the
nodes are side by side.
-/

namespace SubsetC

/-- The span of a node, and the regions of the nodes right inside of it. -/
inductive Region where
  | node (span : Span) (parts : List Region)

namespace Region

/-- The span of the node on top. -/
def span : Region → Span
  | node span _ => span

/-- The regions right inside of the node on top. -/
def parts : Region → List Region
  | node _ parts => parts

end Region

/-- The span goes from one character boundary of the source to another one behind it, and its line
counts the line feeds before it. -/
def Span.Sits (source : String) (span : Span) : Prop :=
  ∃ before text rest : List Char, source.toList = before ++ (text ++ rest) ∧
    span.start = Position.byteLength before ∧ span.stop = Position.byteLength (before ++ text) ∧
    span.line.toNat = before.count '\n' + 1

/-- The span lies inside of another one. -/
def Span.Within (inner outer : Span) : Prop :=
  outer.start ≤ inner.start ∧ inner.stop ≤ outer.stop

/-- Each node sits in the source, has its parts inside of it, and each part ends before the next one
starts. -/
inductive Region.Fits (source : String) : Region → Prop
  | node {span : Span} {parts : List Region} (sits : span.Sits source)
      (within : ∀ part ∈ parts, part.span.Within span)
      (inTurn : parts.Pairwise fun first second => first.span.stop ≤ second.span.start)
      (inside : ∀ part ∈ parts, part.Fits source) : Fits source (.node span parts)

/-- The region of a name. -/
def Identifier.region (identifier : Identifier) : Region :=
  .node identifier.span []

/-- The regions of an expression and its operands. -/
def Expr.region : Expr → Region
  | literal _ span | var _ span => .node span []
  | binary _ left right span => .node span [left.region, right.region]
  | unary _ operand span => .node span [operand.region]

mutual

/-- The regions of a statement, the names and expressions that it is made of, and its blocks. -/
def Stmt.region : Stmt → Region
  | .function _ name body span => .node span [name.region, blockRegion body]
  | .block body => .node body.span [blockRegion body]
  | .declare _ name span => .node span [name.region]
  | .define _ name value span => .node span [name.region, value.region]
  | .assign target value span => .node span [target.region, value.region]
  | .ifThen condition body span => .node span [condition.region, blockRegion body]
  | .ifElse condition body otherwise span =>
      .node span [condition.region, blockRegion body, blockRegion otherwise]
  | .loop condition body span => .node span [condition.region, blockRegion body]
  | .print _ argument span => .node span (argument.toList.map Identifier.region)
  | .scan _ target span => .node span [target.region]
  | .leave value span => .node span (value.toList.map Expr.region)

/-- The regions of a block and its statements. -/
def blockRegion : Block Stmt → Region
  | ⟨statements, span⟩ => .node span (statementRegions statements)

/-- The regions of statements. -/
def statementRegions : List Stmt → List Region
  | [] => []
  | first :: rest => first.region :: statementRegions rest

end

/-- The regions of all nodes of the tree. -/
def Tree.region (tree : Tree) : Region :=
  .node tree.span (statementRegions tree.statements)

theorem Expr.region_withSpan (expr : Expr) (span : Span) :
    (expr.withSpan span).region = .node span expr.region.parts := by
  cases expr <;> rfl

@[simp]
theorem Expr.span_region (expr : Expr) : expr.region.span = expr.span := by
  cases expr <;> rfl

end SubsetC
