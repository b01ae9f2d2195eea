import SubsetC.Proofs.Tree.Parts

/-!
# Mentions of names

A tree mentions a name where it is used and where it is declared. `Tree.mentions` has the mentions
in the order in which they come to count: a declaration does once it is complete, behind the value
that the variable starts with. What follows from them is which type each name has, and which uses
are of names that have none.
-/

namespace SubsetC

/-- A mention of a name. -/
inductive Mention (ν : Type) where
  | use (name : ν)
  | declare (type : DataType) (name : ν)
  deriving DecidableEq, Repr

namespace Mention

variable {ν μ : Type}

/-- The mention of another name in the same way. -/
def map (f : ν → μ) : Mention ν → Mention μ
  | use name => use (f name)
  | declare type name => declare type (f name)

/-- The name that is used. -/
def used? : Mention ν → Option ν
  | use name => some name
  | declare .. => none

/-- The type that the name is declared with. -/
def typeOf? (name : String) : Mention String → Option DataType
  | use _ => none
  | declare type declared => if declared = name then some type else none

end Mention

/-- The types of the names that have one. -/
abbrev Scope := String → Option DataType

namespace Scope

/-- The scope in which a name has this type. -/
def declare (scope : Scope) (type : DataType) (name : String) : Scope :=
  fun other => if name = other then some type else scope other

/-- The scope behind a mention. -/
def enter (scope : Scope) : Mention String → Scope
  | .use _ => scope
  | .declare type name => scope.declare type name

/-- The scope behind mentions. -/
def after (scope : Scope) (mentions : List (Mention String)) : Scope :=
  mentions.foldl enter scope

/-- The uses of names that have no type where they are used. -/
def undeclared (scope : Scope) : List (Mention Identifier) → List Identifier
  | [] => []
  | .use used :: later =>
    if (scope used.name).isSome then scope.undeclared later else used :: scope.undeclared later
  | .declare type declared :: later => (scope.declare type declared.name).undeclared later

variable (scope : Scope)

theorem after_append (early late : List (Mention String)) :
    scope.after (early ++ late) = (scope.after early).after late := by
  simp [after]

theorem undeclared_append (early late : List (Mention Identifier)) :
    scope.undeclared (early ++ late) =
      scope.undeclared early ++
        (scope.after (early.map (.map Identifier.name))).undeclared late := by
  induction early generalizing scope with
  | nil => rfl
  | cons mention early ih =>
      cases mention with
      | use used =>
          simp only [List.cons_append, undeclared, ih]
          split <;> rfl
      | declare type declared =>
          simp only [List.cons_append, undeclared, ih]
          rfl

/-- A name has the type of its last declaration, if there is one. -/
theorem after_apply (mentions : List (Mention String)) (name : String) :
    scope.after mentions name =
      (mentions.filterMap (Mention.typeOf? name)).getLast?.or (scope name) := by
  induction mentions generalizing scope with
  | nil => rfl
  | cons mention mentions ih =>
      have later : scope.after (mention :: mentions) = (scope.enter mention).after mentions := rfl
      rw [later, ih]
      cases mention with
      | use used => rfl
      | declare type declared =>
          by_cases same : declared = name
          · simp only [enter, declare, Mention.typeOf?, List.filterMap_cons, if_pos same]
            rw [List.getLast?_cons]
            cases (mentions.filterMap (Mention.typeOf? name)).getLast? <;> rfl
          · simp only [enter, declare, Mention.typeOf?, List.filterMap_cons, if_neg same]

theorem after_eq_none_iff {mentions : List (Mention String)} {name : String} :
    scope.after mentions name = none ↔
      scope name = none ∧ ∀ type, .declare type name ∉ mentions := by
  rw [after_apply, Option.or_eq_none_iff, List.getLast?_eq_none_iff, List.filterMap_eq_nil_iff,
    and_comm]
  apply and_congr_right
  intro unknown
  constructor
  · intro apart type mem
    have other := apart _ mem
    simp [Mention.typeOf?] at other
  · intro apart mention mem
    cases mention with
    | use used => rfl
    | declare type declared =>
        apply if_neg
        rintro rfl
        exact apart type mem

/-- What is undeclared are the uses of names without a type that no earlier mention declares. -/
theorem mem_undeclared_iff {mentions : List (Mention Identifier)} {used : Identifier} :
    used ∈ scope.undeclared mentions ↔
      ∃ earlier later, mentions = earlier ++ .use used :: later ∧ scope used.name = none ∧
        ∀ type, Mention.declare type used.name ∉ earlier.map (.map Identifier.name) := by
  simp only [← after_eq_none_iff]
  constructor
  · intro mem
    induction mentions generalizing scope with
    | nil => cases mem
    | cons mention mentions ih =>
        cases mention with
        | use first =>
            rw [undeclared] at mem
            split at mem
            · rcases ih scope mem with ⟨earlier, later, rfl, unknown⟩
              exact ⟨.use first :: earlier, later, rfl, unknown⟩
            · rename_i unknown
              rcases List.mem_cons.mp mem with rfl | mem
              · exact ⟨[], mentions, rfl, by simpa [after] using unknown⟩
              · rcases ih scope mem with ⟨earlier, later, rfl, unknown⟩
                exact ⟨.use first :: earlier, later, rfl, unknown⟩
        | declare type declared =>
            rcases ih _ mem with ⟨earlier, later, rfl, unknown⟩
            exact ⟨.declare type declared :: earlier, later, rfl, unknown⟩
  · rintro ⟨earlier, later, rfl, unknown⟩
    rw [undeclared_append, undeclared, unknown]
    simp

end Scope

namespace Expr

/-- The mentions in an expression, which are uses. -/
def mentions (expr : Expr) : List (Mention String) :=
  expr.vars.map .use

section Mentions

variable (span : Span)

@[simp]
theorem mentions_literal (value : Literal) : (literal value span).mentions = [] := rfl

@[simp]
theorem mentions_var (name : String) : (var name span).mentions = [.use name] := rfl

@[simp]
theorem mentions_binary (op : BinaryOp) (left right : Expr) :
    (binary op left right span).mentions = left.mentions ++ right.mentions := by
  simp [mentions, vars]

@[simp]
theorem mentions_unary (op : UnaryOp) (operand : Expr) :
    (unary op operand span).mentions = operand.mentions := rfl

@[simp]
theorem mentions_withSpan (expr : Expr) : (expr.withSpan span).mentions = expr.mentions := by
  cases expr <;> rfl

end Mentions

end Expr

namespace Stmt

/-- The mentions that are not in a statement further inside. -/
def ownMentions : Stmt → List (Mention String)
  | declare type name _ => [.declare type name.name]
  | define type name value _ => value.mentions ++ [.declare type name.name]
  | assign target value _ => .use target.name :: value.mentions
  | ifThen condition _ _ | ifElse condition _ _ _ | loop condition _ _ => condition.mentions
  | print _ argument _ => argument.toList.map fun argument => .use argument.name
  | scan _ target _ => [.use target.name]
  | leave value _ => value.toList.flatMap Expr.mentions
  | function .. | block _ => []

/-- All mentions in the statement. -/
def mentions (stmt : Stmt) : List (Mention String) :=
  stmt.parts.flatMap ownMentions

section Mentions

variable (type : DataType) (name : Identifier) (condition value : Expr)
  (body otherwise : Block Stmt) (span : Span)

@[simp]
theorem mentions_block_nil : (block ⟨[], span⟩).mentions = [] := rfl

@[simp]
theorem mentions_block_cons (first : Stmt) (rest : List Stmt) :
    (block ⟨first :: rest, span⟩).mentions =
      first.mentions ++ (block ⟨rest, span⟩).mentions := by
  simp [mentions]

theorem mentions_block (statements : List Stmt) :
    (block ⟨statements, span⟩).mentions = statements.flatMap mentions := by
  induction statements with
  | nil => rfl
  | cons first rest ih => simp [ih]

@[simp]
theorem mentions_function : (function type name body span).mentions = (block body).mentions := by
  simp [mentions, ownMentions]

@[simp]
theorem mentions_declare :
    (declare type name span).mentions = [.declare type name.name] := rfl

@[simp]
theorem mentions_define :
    (define type name value span).mentions =
      value.mentions ++ [.declare type name.name] := by
  simp [mentions, ownMentions]

@[simp]
theorem mentions_assign :
    (assign name value span).mentions = .use name.name :: value.mentions := by
  simp [mentions, ownMentions]

@[simp]
theorem mentions_ifThen :
    (ifThen condition body span).mentions =
      condition.mentions ++ (block body).mentions := by
  simp [mentions, ownMentions]

@[simp]
theorem mentions_ifElse :
    (ifElse condition body otherwise span).mentions =
      condition.mentions ++ ((block body).mentions ++ (block otherwise).mentions) := by
  simp [mentions, ownMentions]

@[simp]
theorem mentions_loop :
    (loop condition body span).mentions = condition.mentions ++ (block body).mentions := by
  simp [mentions, ownMentions]

@[simp]
theorem mentions_print (format : String) (argument : Option Identifier) :
    (print format argument span).mentions =
      argument.toList.map fun argument => .use argument.name := by
  simp [mentions, ownMentions]

@[simp]
theorem mentions_scan (format : String) :
    (scan format name span).mentions = [.use name.name] := rfl

@[simp]
theorem mentions_leave (value : Option Expr) :
    (leave value span).mentions = value.toList.flatMap Expr.mentions := by
  simp [mentions, ownMentions]

end Mentions

end Stmt

/-- All mentions in the tree. -/
def Tree.mentions (tree : Tree) : List (Mention String) :=
  tree.whole.mentions

end SubsetC
