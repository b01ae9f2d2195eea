import SubsetC.Proofs.Lowering.Loading
import SubsetC.Proofs.Tree.Nodes

/-!
# Where the code of each statement lies

The code of a statement is one stretch, and so is the code of each statement inside of it:
`Stmt.extents` lists them with their places. `mem_extents` says that the code at such a place is
that of the statement, and `ahead_statement` where its jumps lead. They lead ahead, but for the
jump that closes a loop; only returns lead out of the statement.
-/

namespace SubsetC

open Instruction Lowering Session

/-- A statement, the place of its code and the state that it is lowered in. -/
structure Extent where
  stmt : Stmt
  place : Nat
  before : Lowering.State

namespace Extent

/-- The code of the statement. -/
def code (extent : Extent) : List Instruction :=
  ((statement extent.stmt).run extent.before).1

/-- The state behind the statement. -/
def after (extent : Extent) : Lowering.State :=
  ((statement extent.stmt).run extent.before).2

/-- The place behind the code. -/
def stop (extent : Extent) : Nat :=
  extent.place + extent.code.length

/-- The statement is a loop that starts with the label, and the jump back to it, at `index`, is the
last instruction but one. -/
def Closes (extent : Extent) (index : Nat) (label : String) : Prop :=
  ∃ condition body span inner finish, extent.stmt = .loop condition body span ∧
    extent.code = .label label :: inner ++ [.jump label, .label finish] ∧ index + 2 = extent.stop

/-- The extent lies in this code, which starts at `place`. Its label of returns is the one behind
the code. -/
def Within (place : Nat) (code : List Instruction) (exit : Option String) (extent : Extent) :
    Prop :=
  ∃ front rest, code = front ++ extent.code ++ rest ∧ extent.place = place + front.length ∧
    ∀ label, extent.after.exit = some label → exit = some label

/-- What lies in a stretch lies in a wider one. -/
theorem Within.widen {place start : Nat} {code : List Instruction} {exit exit' : Option String}
    {extent : Extent} (inside : Within start code exit extent) (front rest : List Instruction)
    (here : start = place + front.length)
    (kept : ∀ label, exit = some label → exit' = some label) :
    Within place (front ++ code ++ rest) exit' extent := by
  rcases inside with ⟨front', rest', rfl, same, known⟩
  refine ⟨front ++ front', rest' ++ rest, by simp, ?_, fun label named => kept _ (known _ named)⟩
  rw [same, here, List.length_append, Nat.add_assoc]

end Extent

mutual

/-- The statement and all statements inside of it, as nodes of the tree, each with its extent. -/
def Stmt.extents (place : Nat) (state : State) : Stmt → List Extent
  | .function type name body span =>
      ⟨.function type name body span, place, state⟩ :: blockExtents place state body
  | .block body => ⟨.block body, place, state⟩ :: blockExtents place state body
  | .ifThen condition body span =>
      let test := (expression condition).run state
      ⟨.ifThen condition body span, place, state⟩ ::
        blockExtents (place + (test.1.1.length + 1)) test.2.nameLabel body
  | .ifElse condition body otherwise span =>
      let test := (expression condition).run state
      let first := (block body).run test.2.nameLabel.nameLabel
      ⟨.ifElse condition body otherwise span, place, state⟩ ::
        (blockExtents (place + (test.1.1.length + 1)) test.2.nameLabel.nameLabel body ++
          blockExtents (place + (test.1.1.length + first.1.length + 3)) first.2 otherwise)
  | .loop condition body span =>
      let test := (expression condition).run state.nameLabel.nameLabel
      ⟨.loop condition body span, place, state⟩ ::
        blockExtents (place + (test.1.1.length + 2)) test.2 body
  | stmt => [⟨stmt, place, state⟩]

/-- The extents of all statements inside of a block. -/
def blockExtents (place : Nat) (state : State) : Block Stmt → List Extent
  | ⟨statements, _⟩ => statementExtents place state statements

/-- The extents of the statements of a list and of all statements inside of them. -/
def statementExtents (place : Nat) (state : State) : List Stmt → List Extent
  | [] => []
  | first :: rest =>
      let head := (statement first).run state
      first.extents place state ++ statementExtents (place + head.1.length) head.2 rest

end

mutual

/-- There is one extent for each statement. -/
theorem map_stmt_extents (stmt : Stmt) (place : Nat) (state : State) :
    (stmt.extents place state).map Extent.stmt = stmt.nodes := by
  match stmt with
  | .function type name ⟨body, span⟩ span' =>
      simp [Stmt.extents, Stmt.nodes, blockExtents, blockNodes, map_stmt_statementExtents body]
  | .block ⟨body, span⟩ =>
      simp [Stmt.extents, Stmt.nodes, blockExtents, blockNodes, map_stmt_statementExtents body]
  | .ifThen condition ⟨body, span⟩ span' =>
      simp [Stmt.extents, Stmt.nodes, blockExtents, blockNodes, map_stmt_statementExtents body]
  | .ifElse condition ⟨body, span⟩ ⟨otherwise, span'⟩ span'' =>
      simp [Stmt.extents, Stmt.nodes, blockExtents, blockNodes, map_stmt_statementExtents body,
        map_stmt_statementExtents otherwise]
  | .loop condition ⟨body, span⟩ span' =>
      simp [Stmt.extents, Stmt.nodes, blockExtents, blockNodes, map_stmt_statementExtents body]
  | .declare .. | .define .. | .assign .. | .print .. | .scan .. | .leave .. => rfl

theorem map_stmt_statementExtents (stmts : List Stmt) (place : Nat) (state : State) :
    (statementExtents place state stmts).map Extent.stmt = statementNodes stmts := by
  match stmts with
  | [] => rfl
  | first :: rest =>
      simp [statementExtents, statementNodes, map_stmt_extents first,
        map_stmt_statementExtents rest]

end

namespace Lowering

section Run

variable (condition : Expr) (body otherwise : List Stmt) (bodySpan otherSpan span : Span)
  (state : State)

theorem run_ifThen :
    (statement (.ifThen condition ⟨body, bodySpan⟩ span)).run state =
      let test := (expression condition).run state
      let first := (statements body).run test.2.nameLabel
      (test.1.1 ++ [.jumpUnless test.1.2 (labelName test.2.nextLabel)] ++ first.1 ++
        [.label (labelName test.2.nextLabel)], first.2) := rfl

theorem run_ifElse :
    (statement (.ifElse condition ⟨body, bodySpan⟩ ⟨otherwise, otherSpan⟩ span)).run state =
      let test := (expression condition).run state
      let first := (statements body).run test.2.nameLabel.nameLabel
      let second := (statements otherwise).run first.2
      (test.1.1 ++ [.jumpUnless test.1.2 (labelName test.2.nextLabel)] ++ first.1 ++
        [.jump (labelName test.2.nameLabel.nextLabel), .label (labelName test.2.nextLabel)] ++
        second.1 ++ [.label (labelName test.2.nameLabel.nextLabel)], second.2) := rfl

theorem run_loop :
    (statement (.loop condition ⟨body, bodySpan⟩ span)).run state =
      let test := (expression condition).run state.nameLabel.nameLabel
      let first := (statements body).run test.2
      ([.label (labelName state.nextLabel)] ++ test.1.1 ++
        [.jumpUnless test.1.2 (labelName state.nameLabel.nextLabel)] ++ first.1 ++
        [.jump (labelName state.nextLabel), .label (labelName state.nameLabel.nextLabel)],
        first.2) := rfl

theorem run_cons (first : Stmt) (rest : List Stmt) :
    (statements (first :: rest)).run state =
      let head := (statement first).run state
      (head.1 ++ ((statements rest).run head.2).1, ((statements rest).run head.2).2) := rfl

end Run

/-- Behind statements the label of returns is still the same. -/
theorem exit_statements (stmts : List Stmt) (state : State) (label : String)
    (known : state.exit = some label) : ((statements stmts).run state).2.exit = some label :=
  exit_of_emits (emits_statements stmts default state) label known

end Lowering

open Extent

/-- A statement lies in its own code. -/
theorem within_self (stmt : Stmt) (place : Nat) (state : State) :
    Within place ((statement stmt).run state).1 ((statement stmt).run state).2.exit
      ⟨stmt, place, state⟩ :=
  ⟨[], [], by simp [code], rfl, fun label known => known⟩

mutual

/-- The code of each statement inside is a part of the code. -/
theorem within_statement (stmt : Stmt) (place : Nat) (state : State) :
    ∀ extent ∈ stmt.extents place state,
      Within place ((statement stmt).run state).1 ((statement stmt).run state).2.exit extent := by
  have self := within_self stmt place state
  intro extent mem
  match stmt with
  | .function _ _ ⟨body, _⟩ _ | .block ⟨body, _⟩ =>
      rcases List.mem_cons.mp mem with rfl | inside
      · exact self
      · exact within_statements body place state extent inside
  | .ifThen condition ⟨body, _⟩ _ =>
      rcases List.mem_cons.mp mem with rfl | inside
      · exact self
      · rw [run_ifThen]
        exact (within_statements body _ _ extent inside).widen _ _ (by simp) fun _ known => known
  | .ifElse condition ⟨body, _⟩ ⟨otherwise, _⟩ _ =>
      rcases List.mem_cons.mp mem with rfl | inside
      · exact self
      · rw [run_ifElse]
        rcases List.mem_append.mp inside with inBody | inOther
        · dsimp only
          rw [List.append_assoc, List.append_assoc]
          exact (within_statements body _ _ extent inBody).widen _ _ (by simp)
            (exit_statements otherwise _)
        · exact (within_statements otherwise _ _ extent inOther).widen _ _
            (by simp [block]; omega) fun _ known => known
  | .loop condition ⟨body, _⟩ _ =>
      rcases List.mem_cons.mp mem with rfl | inside
      · exact self
      · rw [run_loop]
        exact (within_statements body _ _ extent inside).widen _ _ (by simp) fun _ known => known
  | .declare .. | .define .. | .assign .. | .print .. | .scan .. | .leave .. =>
      rw [List.mem_singleton.mp mem]
      exact self

/-- The extents of a row lie in the stretch of the row. -/
theorem within_statements (stmts : List Stmt) (place : Nat) (state : State) :
    ∀ extent ∈ statementExtents place state stmts,
      Within place ((statements stmts).run state).1 ((statements stmts).run state).2.exit
        extent := by
  intro extent mem
  match stmts with
  | [] => cases mem
  | first :: rest =>
      rw [run_cons]
      rcases List.mem_append.mp mem with here | behind
      · exact (within_statement first place state extent here).widen [] _ rfl
          (exit_statements rest _)
      · dsimp only
        rw [← List.append_nil (_ ++ _)]
        exact (within_statements rest _ _ extent behind).widen _ _ rfl fun _ known => known

end

/-- Each jump of the code, which starts at `place`, leads to a label further on in the code or to
one of the labels `behind` it or to the label of returns, unless it closes one of the loops. -/
def Ahead (extents : List Extent) (exit : Option String) (behind : List String) :
    (place : Nat) → List Instruction → Prop
  | _, [] => True
  | place, first :: rest =>
      (∀ label, first.jumpTarget? = some label →
        label ∈ labelsOf rest ++ behind ∨ exit = some label ∨
          first = .jump label ∧ ∃ extent ∈ extents, extent.Closes place label) ∧
      Ahead extents exit behind (place + 1) rest

section Ahead

variable {extents extents' : List Extent} {exit exit' : Option String}
  {behind behind' : List String} {place : Nat} {code : List Instruction}

@[simp]
theorem ahead_nil : Ahead extents exit behind place [] := trivial

@[simp]
theorem ahead_append {first second : List Instruction} :
    Ahead extents exit behind place (first ++ second) ↔
      Ahead extents exit (labelsOf second ++ behind) place first ∧
        Ahead extents exit behind (place + first.length) second := by
  induction first generalizing place with
  | nil => simp
  | cons instruction first ih =>
      rw [List.cons_append, Ahead, Ahead, ih, and_assoc, labelsOf_append, List.length_cons,
        List.append_assoc, Nat.add_right_comm, Nat.add_assoc place]

theorem Ahead.mono (ahead : Ahead extents exit behind place code)
    (more : ∀ extent ∈ extents, extent ∈ extents')
    (kept : ∀ label, exit = some label → exit' = some label)
    (further : ∀ label ∈ behind, label ∈ behind') : Ahead extents' exit' behind' place code := by
  induction code generalizing place with
  | nil => trivial
  | cons first rest ih =>
      refine ⟨?_, ih ahead.2⟩
      intro label jumps
      rcases ahead.1 label jumps with later | left | ⟨back, extent, mem, closes⟩
      · rw [List.mem_append] at later ⊢
        exact .inl (later.imp_right (further label))
      · exact .inr (.inl (kept label left))
      · exact .inr (.inr ⟨back, extent, more extent mem, closes⟩)

/-- Code without jumps. -/
theorem ahead_of_targetsOf (none : targetsOf code = []) : Ahead extents exit behind place code := by
  induction code generalizing place with
  | nil => trivial
  | cons first rest ih =>
      rw [targetsOf_cons, List.append_eq_nil_iff, Option.toList_eq_nil_iff] at none
      refine ⟨?_, ih none.2⟩
      intro label jumps
      rw [none.1] at jumps
      cases jumps

/-- A single jump. -/
theorem ahead_singleton {instruction : Instruction} :
    Ahead extents exit behind place [instruction] ↔
      ∀ label, instruction.jumpTarget? = some label → label ∈ behind ∨ exit = some label ∨
        instruction = .jump label ∧ ∃ extent ∈ extents, extent.Closes place label := by
  simp [Ahead]

theorem Ahead.later (ahead : Ahead extents exit [] place code) {index : Nat}
    {instruction : Instruction} {label : String} (here : code[index]? = some instruction)
    (jumps : instruction.jumpTarget? = some label) :
    (∃ later, index < later ∧ code[later]? = some (.label label)) ∨ exit = some label ∨
      instruction = .jump label ∧ ∃ extent ∈ extents, extent.Closes (place + index) label := by
  induction code generalizing place index with
  | nil => cases here
  | cons first rest ih =>
      cases index with
      | zero =>
          cases here
          rcases ahead.1 label jumps with later | others
          · rw [List.append_nil, mem_labelsOf] at later
            rcases List.getElem?_of_mem later with ⟨later, found⟩
            exact .inl ⟨later + 1, Nat.succ_pos later, found⟩
          · exact .inr others
      | succ index =>
          rcases ih ahead.2 here with ⟨later, further, found⟩ | others
          · exact .inl ⟨later + 1, Nat.succ_lt_succ further, found⟩
          · rw [Nat.add_assoc, Nat.add_comm 1] at others
            exact .inr others

/-- An expression jumps nowhere. -/
theorem ahead_of_computes {before after : State} {expr : Expr} {operand : Operand}
    (computes : Computes before expr code operand after) {rest : List Instruction}
    (ahead : Ahead extents exit behind (place + code.length) rest) :
    Ahead extents exit behind place (code ++ rest) :=
  ahead_append.mpr ⟨ahead_of_targetsOf (targetsOf_of_computes computes), ahead⟩

theorem ahead_exitLabel (state : State) :
    Ahead extents (exitLabel.run state).2.exit behind place [.jump (exitLabel.run state).1] := by
  rw [ahead_singleton, exit_exitLabel]
  rintro label ⟨⟩
  exact .inr (.inl rfl)

end Ahead

mutual

/-- The jumps of a statement lead ahead, but for those that close a loop, and returns. -/
theorem ahead_statement (stmt : Stmt) (place : Nat) (state : State) :
    Ahead (stmt.extents place state) ((statement stmt).run state).2.exit [] place
      ((statement stmt).run state).1 := by
  match stmt with
  | .function _ _ ⟨body, _⟩ _ | .block ⟨body, _⟩ =>
      exact (ahead_statements body place state).mono (fun _ => List.mem_cons_of_mem _)
        (fun _ known => known) (fun _ mem => mem)
  | .declare .. => trivial
  | .define _ _ value _ | .assign _ value _ =>
      apply ahead_of_computes (computes_expression value state)
      exact ahead_of_targetsOf rfl
  | .print format argument span =>
      exact ahead_of_targetsOf (plain_print format argument span.line state).noTargets
  | .scan format target span => exact ahead_of_targetsOf (plain_scan format target state).noTargets
  | .leave none span => exact ahead_exitLabel state
  | .leave (some value) span =>
      apply ahead_of_computes (computes_expression value state)
      exact ahead_exitLabel _
  | .ifThen condition ⟨body, _⟩ _ =>
      rw [run_ifThen]
      dsimp only
      rw [List.append_assoc, List.append_assoc]
      apply ahead_of_computes (computes_expression condition state)
      refine ahead_append.mpr ⟨?_, ahead_append.mpr ⟨?_, ahead_of_targetsOf rfl⟩⟩
      · simp [ahead_singleton, jumpTarget?, label?]
      · refine (ahead_statements body _ _).mono ?_ (fun _ known => known) (by simp)
        intro extent mem
        exact List.mem_cons_of_mem _ mem
  | .ifElse condition ⟨body, _⟩ ⟨otherwise, _⟩ _ =>
      rw [run_ifElse]
      simp only [List.append_assoc]
      apply ahead_of_computes (computes_expression condition state)
      refine ahead_append.mpr ⟨?_, ahead_append.mpr ⟨?_, ahead_append.mpr ⟨?_, ahead_append.mpr
        ⟨?_, ahead_of_targetsOf rfl⟩⟩⟩⟩
      · simp [ahead_singleton, jumpTarget?, label?]
      · refine (ahead_statements body _ _).mono ?_ (exit_statements otherwise _) (by simp)
        intro extent mem
        exact List.mem_cons_of_mem _ (List.mem_append_left _ mem)
      · simp [Ahead, jumpTarget?, label?]
      · refine (ahead_statements otherwise _ _).mono ?_ (fun _ known => known) (by simp)
        intro extent mem
        refine List.mem_cons_of_mem _ (List.mem_append_right _ ?_)
        simpa [blockExtents, block, Nat.add_assoc, Nat.add_comm 1] using mem
  | .loop condition ⟨body, span⟩ span' =>
      rw [run_loop]
      simp only [List.append_assoc]
      refine ahead_append.mpr ⟨ahead_of_targetsOf rfl, ?_⟩
      apply ahead_of_computes (computes_expression condition _)
      refine ahead_append.mpr ⟨?_, ahead_append.mpr ⟨?_, ?_⟩⟩
      · simp [ahead_singleton, jumpTarget?, label?]
      · refine (ahead_statements body _ _).mono ?_ (fun _ known => known) (by simp)
        intro extent mem
        refine List.mem_cons_of_mem _ ?_
        simpa [blockExtents, Nat.add_assoc, Nat.add_comm 1] using mem
      · refine ⟨?_, ahead_of_targetsOf rfl⟩
        rintro label ⟨⟩
        refine .inr (.inr ⟨rfl, _, List.mem_cons_self, condition, _, _, _, _, rfl, rfl, ?_⟩)
        rw [Extent.stop, Extent.code, run_loop]
        simp only [List.length_append, List.length_cons, List.length_nil]
        omega

/-- All jumps but those of loops lead ahead. -/
theorem ahead_statements (stmts : List Stmt) (place : Nat) (state : State) :
    Ahead (statementExtents place state stmts) ((statements stmts).run state).2.exit [] place
      ((statements stmts).run state).1 := by
  match stmts with
  | [] => trivial
  | first :: rest =>
      rw [run_cons]
      apply ahead_append.mpr
      constructor
      · exact (ahead_statement first place state).mono (fun _ => List.mem_append_left _)
          (exit_statements rest _) (by simp)
      · exact (ahead_statements rest _ _).mono (fun _ => List.mem_append_right _)
          (fun _ known => known) (fun _ mem => mem)

end

end SubsetC
