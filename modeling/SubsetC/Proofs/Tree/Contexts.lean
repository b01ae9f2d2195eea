import SubsetC.Proofs.Tree.Meaning

/-!
# A statement in its place

A statement lies in a block, which lies in another statement, and so on up to the tree. Each step of
this way is a `Frame`, and `fill` puts a statement into a row of them, the outermost first.
`Frame.Meets` says in which scenes a run comes to the statement. If two statements run alike in all
these scenes, then what holds them runs alike too (`alike_fill`).
-/

namespace SubsetC

/-- What a block lies in. -/
inductive Holder where
  | function (type : DataType) (name : Identifier) (span : Span)
  | alone
  | ifThen (condition : Expr) (span : Span)
  | thenBranch (condition : Expr) (otherwise : Block Stmt) (span : Span)
  | elseBranch (condition : Expr) (body : Block Stmt) (span : Span)
  | loop (condition : Expr) (span : Span)

/-- The statement that consists of the holder and a block. -/
def Holder.around : Holder → Block Stmt → Stmt
  | function type name span, block => .function type name block span
  | alone, block => .block block
  | ifThen condition span, block => .ifThen condition block span
  | thenBranch condition otherwise span, block => .ifElse condition block otherwise span
  | elseBranch condition body span, block => .ifElse condition body block span
  | loop condition span, block => .loop condition block span

/-- What a statement lies in: a holder, and the other statements of the block. -/
structure Frame where
  holder : Holder
  before : List Stmt
  after : List Stmt
  span : Span

/-- The block with the statement in it. -/
def Frame.block (frame : Frame) (stmt : Stmt) : Block Stmt :=
  ⟨frame.before ++ stmt :: frame.after, frame.span⟩

/-- The statement that consists of the frame and what lies in it. -/
def Frame.around (frame : Frame) (stmt : Stmt) : Stmt :=
  frame.holder.around (frame.block stmt)

/-- The statement in all of the frames, of which the first is outermost. -/
def fill (frames : List Frame) (stmt : Stmt) : Stmt :=
  frames.foldr Frame.around stmt

/-- On a run from the first scene the block is entered in the second one. -/
inductive Holder.Opens (block : Block Stmt) : Holder → Scene → Scene → Prop
  | function (type : DataType) (name : Identifier) (span : Span) (scene : Scene) :
      Opens block (.function type name span) scene scene
  | alone (scene : Scene) : Opens block .alone scene scene
  | ifThen {condition : Expr} {span : Span} {scene : Scene}
      (holds : (condition.evaluate scene).1.isTruthy = true) :
      Opens block (.ifThen condition span) scene (condition.evaluate scene).2
  | thenBranch {condition : Expr} {otherwise : Block Stmt} {span : Span} {scene : Scene}
      (holds : (condition.evaluate scene).1.isTruthy = true) :
      Opens block (.thenBranch condition otherwise span) scene (condition.evaluate scene).2
  | elseBranch {condition : Expr} {body : Block Stmt} {span : Span} {scene : Scene}
      (fails : (condition.evaluate scene).1.isTruthy = false) :
      Opens block (.elseBranch condition body span) scene (condition.evaluate scene).2
  | loop {condition : Expr} {span : Span} {scene : Scene}
      (holds : (condition.evaluate scene).1.isTruthy = true) :
      Opens block (.loop condition span) scene (condition.evaluate scene).2
  | again {condition : Expr} {span : Span} {scene middle scene' : Scene}
      (holds : (condition.evaluate scene).1.isTruthy = true)
      (ran : (Stmt.block block).Runs (condition.evaluate scene).2 .finished middle)
      (later : Opens block (.loop condition span) middle scene') :
      Opens block (.loop condition span) scene scene'

/-- On a run from the first scene the statement in the frame starts in the second one. -/
def Frame.Meets (frame : Frame) (stmt : Stmt) (scene scene' : Scene) : Prop :=
  ∃ middle, frame.holder.Opens (frame.block stmt) scene middle ∧
    (Stmt.block ⟨frame.before, frame.span⟩).Runs middle .finished scene'

/-- On a run from the first scene the innermost statement starts in the second one. -/
def Meets : List Frame → Stmt → Scene → Scene → Prop
  | [], _, scene, scene' => scene' = scene
  | frame :: frames, stmt, scene, scene' =>
      ∃ middle, frame.Meets (fill frames stmt) scene middle ∧ Meets frames stmt middle scene'

namespace Stmt

/-- From the scene both statements have the same runs. -/
def Alike (stmt stmt' : Stmt) (scene : Scene) : Prop :=
  ∀ outcome scene', stmt.Runs scene outcome scene' ↔ stmt'.Runs scene outcome scene'

theorem runs_block_cons {first : Stmt} {rest : List Stmt} {span : Span} {scene scene' : Scene}
    {outcome : Outcome} : (block ⟨first :: rest, span⟩).Runs scene outcome scene' ↔
      (∃ middle, first.Runs scene .finished middle ∧
        (block ⟨rest, span⟩).Runs middle outcome scene') ∨
      outcome = .left ∧ first.Runs scene .left scene' := by
  constructor
  · intro runs
    cases runs with
    | blockCons firstRuns restRuns => exact .inl ⟨_, firstRuns, restRuns⟩
    | blockLeft firstRuns => exact .inr ⟨rfl, firstRuns⟩
  · rintro (⟨middle, firstRuns, restRuns⟩ | ⟨rfl, firstRuns⟩)
    · exact .blockCons firstRuns restRuns
    · exact .blockLeft firstRuns

/-- The statements of a block before and behind one that is exchanged. -/
theorem alike_block {before after : List Stmt} {stmt stmt' : Stmt} {span : Span} {scene : Scene}
    (alike : ∀ middle, (block ⟨before, span⟩).Runs scene .finished middle →
      Alike stmt stmt' middle) :
    Alike (block ⟨before ++ stmt :: after, span⟩) (block ⟨before ++ stmt' :: after, span⟩)
      scene := by
  induction before generalizing scene with
  | nil =>
      have here := alike scene (.blockNil span scene)
      intro outcome scene'
      simp only [List.nil_append, runs_block_cons, here _ _]
  | cons first before ih =>
      have behind : ∀ middle, first.Runs scene .finished middle →
          Alike (block ⟨before ++ stmt :: after, span⟩) (block ⟨before ++ stmt' :: after, span⟩)
            middle :=
        fun middle ran => ih fun later beforeRuns => alike later (.blockCons ran beforeRuns)
      intro outcome scene'
      simp only [List.cons_append, runs_block_cons]
      apply or_congr_left
      apply exists_congr
      intro middle
      exact and_congr_right fun ran => behind middle ran outcome scene'

end Stmt

namespace Holder

variable {block block' : Block Stmt} {scene : Scene}

/-- What is met with one block is met with the other one. -/
theorem Opens.exchange {holder : Holder} {scene' : Scene} (opens : holder.Opens block' scene scene')
    (alike : ∀ middle, holder.Opens block scene middle →
      Stmt.Alike (.block block) (.block block') middle) : holder.Opens block scene scene' := by
  induction opens with
  | function type name span scene => exact .function type name span scene
  | alone scene => exact .alone scene
  | ifThen holds => exact .ifThen holds
  | thenBranch holds => exact .thenBranch holds
  | elseBranch fails => exact .elseBranch fails
  | loop holds => exact .loop holds
  | again holds ran later ih =>
      have ran' := (alike _ (.loop holds) _ _).mpr ran
      exact .again holds ran' (ih fun middle opens => alike middle (.again holds ran' opens))

/-- A run of a loop is one of the loop with the other block. -/
theorem runs_loop {condition : Expr} {span : Span} {outcome : Outcome} {scene' : Scene}
    (runs : ((loop condition span).around block).Runs scene outcome scene')
    (alike : ∀ middle, (loop condition span).Opens block scene middle →
      ∀ outcome scene', (Stmt.block block).Runs middle outcome scene' →
        (Stmt.block block').Runs middle outcome scene') :
    ((loop condition span).around block').Runs scene outcome scene' := by
  generalize whole : (loop condition span).around block = stmt at runs
  induction runs with
  | loopTrue holds bodyRuns againRuns ihBody ihAgain =>
      cases whole
      refine .loopTrue holds (alike _ (.loop holds) _ _ bodyRuns) (ihAgain ?_ rfl)
      intro middle opens
      exact alike middle (.again holds bodyRuns opens)
  | loopLeft holds bodyRuns ihBody =>
      cases whole
      exact .loopLeft holds (alike _ (.loop holds) _ _ bodyRuns)
  | loopFalse fails =>
      cases whole
      exact .loopFalse fails
  | _ => cases whole

/-- A run of what holds a block is one of what holds another block that runs on from where the first
one is entered. -/
theorem runs_around {holder : Holder} {outcome : Outcome} {scene' : Scene}
    (runs : (holder.around block).Runs scene outcome scene')
    (onward : ∀ middle, holder.Opens block scene middle → ∀ outcome scene',
      (Stmt.block block).Runs middle outcome scene' →
        (Stmt.block block').Runs middle outcome scene') :
    (holder.around block').Runs scene outcome scene' := by
  cases holder with
  | function type name span =>
      cases runs with
      | function bodyRuns =>
          exact .function (onward _ (.function type name span scene) _ _ bodyRuns)
  | alone => exact onward _ (.alone scene) _ _ runs
  | ifThen condition span =>
      cases runs with
      | ifThenTrue holds bodyRuns =>
          exact .ifThenTrue holds (onward _ (.ifThen holds) _ _ bodyRuns)
      | ifThenFalse fails => exact .ifThenFalse fails
  | thenBranch condition otherwise span =>
      cases runs with
      | ifElseTrue holds bodyRuns =>
          exact .ifElseTrue holds (onward _ (.thenBranch holds) _ _ bodyRuns)
      | ifElseFalse fails otherwiseRuns => exact .ifElseFalse fails otherwiseRuns
  | elseBranch condition body span =>
      cases runs with
      | ifElseTrue holds bodyRuns => exact .ifElseTrue holds bodyRuns
      | ifElseFalse fails otherwiseRuns =>
          exact .ifElseFalse fails (onward _ (.elseBranch fails) _ _ otherwiseRuns)
  | loop condition span => exact runs_loop runs onward

/-- Blocks that run alike from where they are entered make statements that run alike. -/
theorem alike {holder : Holder} (alike : ∀ middle, holder.Opens block scene middle →
      Stmt.Alike (.block block) (.block block') middle) :
    Stmt.Alike (holder.around block) (holder.around block') scene := by
  intro outcome scene'
  constructor
  · intro runs
    exact runs_around runs fun middle opens outcome scene' =>
      (alike middle opens outcome scene').mp
  · intro runs
    exact runs_around runs fun middle opens outcome scene' =>
      (alike middle (opens.exchange alike) outcome scene').mpr

end Holder

/-- Statements that run alike wherever they are met can be exchanged. -/
theorem alike_fill {frames : List Frame} {stmt stmt' : Stmt} {scene : Scene}
    (alike : ∀ scene', Meets frames stmt scene scene' → Stmt.Alike stmt stmt' scene') :
    Stmt.Alike (fill frames stmt) (fill frames stmt') scene := by
  induction frames generalizing scene with
  | nil => exact alike scene rfl
  | cons frame frames ih =>
      apply Holder.alike
      intro entered opens
      apply Stmt.alike_block
      intro middle beforeRuns
      exact ih fun scene' meets => alike scene' ⟨middle, ⟨entered, opens, beforeRuns⟩, meets⟩

/-- The first statement uses nothing that the second one does not use. -/
structure Stmt.Spares (stmt stmt' : Stmt) : Prop where
  vars : stmt.vars ⊆ stmt'.vars
  operators : stmt.operators ≤ stmt'.operators
  labels : stmt.labels ≤ stmt'.labels
  leaves : stmt.leaves → stmt'.leaves

/-- What a holder uses does not depend on the block in it. -/
theorem Holder.exists_uses (holder : Holder) :
    ∃ (before after : List String) (operators labels : Nat) (leaves : Bool), ∀ block : Block Stmt,
      (holder.around block).vars = before ++ ((Stmt.block block).vars ++ after) ∧
      (holder.around block).operators = operators + (Stmt.block block).operators ∧
      (holder.around block).labels = labels + (Stmt.block block).labels ∧
      (holder.around block).leaves = (leaves || (Stmt.block block).leaves) := by
  cases holder with
  | function type name span =>
      exact ⟨[], [], 0, 0, false, fun block => by simp [around, Stmt.leaves, Stmt.isLeave]⟩
  | alone => exact ⟨[], [], 0, 0, false, fun block => by simp [around]⟩
  | ifThen condition span =>
      refine ⟨condition.vars, [], condition.operators, 1, false, fun block => ?_⟩
      simp [around, Stmt.leaves, Stmt.isLeave, Nat.add_comm]
  | thenBranch condition otherwise span =>
      refine ⟨condition.vars, (Stmt.block otherwise).vars,
        condition.operators + (Stmt.block otherwise).operators,
        (Stmt.block otherwise).labels + 2, (Stmt.block otherwise).leaves, fun block => ?_⟩
      refine ⟨by simp [around], ?_, ?_, by simp [around, Stmt.leaves, Stmt.isLeave, Bool.or_comm]⟩
      · rw [around, Stmt.operators_ifElse]
        exact Nat.add_right_comm _ _ _
      · rw [around, Stmt.labels_ifElse]
        omega
  | elseBranch condition body span =>
      refine ⟨condition.vars ++ (Stmt.block body).vars, [],
        condition.operators + (Stmt.block body).operators, (Stmt.block body).labels + 2,
        (Stmt.block body).leaves, fun block => ?_⟩
      simp [around, Stmt.leaves, Stmt.isLeave, Nat.add_right_comm]
  | loop condition span =>
      refine ⟨condition.vars, [], condition.operators, 2, false, fun block => ?_⟩
      simp [around, Stmt.leaves, Stmt.isLeave, Nat.add_comm]

namespace Stmt.Spares

variable {stmt stmt' : Stmt}

theorem refl (stmt : Stmt) : stmt.Spares stmt :=
  ⟨List.Subset.refl _, Nat.le_refl _, Nat.le_refl _, id⟩

theorem cons {rest rest' : List Stmt} {span : Span} (first : stmt.Spares stmt')
    (others : (Stmt.block ⟨rest, span⟩).Spares (.block ⟨rest', span⟩)) :
    (Stmt.block ⟨stmt :: rest, span⟩).Spares (.block ⟨stmt' :: rest', span⟩) where
  vars := by
    rw [vars_block_cons, vars_block_cons]
    exact List.append_subset.mpr ⟨List.subset_append_of_subset_left _ first.vars,
      List.subset_append_of_subset_right _ others.vars⟩
  operators := by
    rw [operators_block_cons, operators_block_cons]
    exact Nat.add_le_add first.operators others.operators
  labels := by
    rw [labels_block_cons, labels_block_cons]
    exact Nat.add_le_add first.labels others.labels
  leaves := by
    simp only [Stmt.leaves, parts_block_cons, List.any_append, Bool.or_eq_true]
    exact Or.imp first.leaves others.leaves

theorem block (before after : List Stmt) (span : Span) (spares : stmt.Spares stmt') :
    (Stmt.block ⟨before ++ stmt :: after, span⟩).Spares
      (.block ⟨before ++ stmt' :: after, span⟩) := by
  induction before with
  | nil => exact spares.cons (.refl _)
  | cons first before ih => exact (refl first).cons ih

theorem around {block block' : Block Stmt} (holder : Holder)
    (spares : (Stmt.block block).Spares (.block block')) :
    (holder.around block).Spares (holder.around block') := by
  rcases holder.exists_uses with ⟨before, after, operators, labels, leaves, uses⟩
  rcases uses block with ⟨vars₁, operators₁, labels₁, leaves₁⟩
  rcases uses block' with ⟨vars₂, operators₂, labels₂, leaves₂⟩
  constructor
  · rw [vars₁, vars₂]
    intro name mem
    simp only [List.mem_append] at mem ⊢
    exact mem.imp_right (Or.imp_left fun inside => spares.vars inside)
  · rw [operators₁, operators₂]
    exact Nat.add_le_add_left spares.operators operators
  · rw [labels₁, labels₂]
    exact Nat.add_le_add_left spares.labels labels
  · rw [leaves₁, leaves₂, Bool.or_eq_true, Bool.or_eq_true]
    exact Or.imp_right spares.leaves

theorem fill (frames : List Frame) (spares : stmt.Spares stmt') :
    (fill frames stmt).Spares (SubsetC.fill frames stmt') := by
  induction frames with
  | nil => exact spares
  | cons frame frames ih => exact around frame.holder (ih.block frame.before frame.after frame.span)

end Stmt.Spares

end SubsetC
