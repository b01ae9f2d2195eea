import SubsetC.Proofs.Lowering.Evaluation

/-!
# Statements in programs

`Embedded` says that the code of a statement lies at a place of a program. For each statement with
statements inside, the code of these is embedded too, and there are lemmas on the ways between the
places: `Embedded.ifThen`, `Embedded.ifElse` and `Embedded.loop` say where the test leads to and
where the ends of the inner code lead to. Both directions of the simulation use nothing else.
-/

namespace SubsetC

open Instruction Lowering Session

/-- The point is at a place and mirrors the scene. -/
structure Shows (program : Program) (place : Nat) (scene : Scene) (point : Point) : Prop where
  counter : point.counter = place
  mirrors : Mirrors program scene point.store point.console

/-- The rounds lead from the point to a place, with the scene mirrored there. -/
def Leads (program : Program) (labels : LabelTable) (rounds : Nat) (point : Point) (place : Nat)
    (scene : Scene) : Prop :=
  ∃ last, Point.Reaches program labels rounds point last ∧ Shows program place scene last

/-- The code of a statement lies at a place of the program. No variable is a temporary, there is
room for all temporaries, and if returns have a label, then it leads to the place `exit`. -/
structure Embedded (program : Program) (labels : LabelTable) (exit place : Nat) (before : State)
    (stmt : Stmt) (code : List Instruction) (after : State) : Prop where
  emits : Emits before stmt code after
  fresh : ∀ name ∈ stmt.vars, ¬IsTemporary name
  room : before.session.temporaries.toNat + stmt.operators < 2 ^ 32
  held : program.Holds place code
  exits : ∀ label, after.exit = some label → labels.place? label = some exit

/-- Each label of the program leads to its place. -/
def LabelTable.Fits (labels : LabelTable) (program : Program) : Prop :=
  ∀ (place : Nat) (name : String),
    program.instructions[place]? = some (.label name) → labels.place? name = some place

/-- The room that a statement leaves. -/
theorem room_of_emits {before after : State} {stmt : Stmt} {code : List Instruction}
    (emits : Emits before stmt code after) {count : Nat}
    (room : before.session.temporaries.toNat + (stmt.operators + count) < 2 ^ 32) :
    after.session.temporaries.toNat + count < 2 ^ 32 := by
  rw [temporaries_of_emits emits, toNat_add_ofNat (by omega)]
  omega

variable {program : Program} {labels : LabelTable} {exit place : Nat} {before after : State}
  {code : List Instruction} {scene : Scene} {point : Point}

theorem Leads.refl (shows : Shows program place scene point) :
    Leads program labels 0 point place scene :=
  ⟨point, .refl point, shows⟩

/-- One stretch of code leads on to the next. -/
theorem Leads.trans {early late middle : Nat} {scene' : Scene}
    (first : Leads program labels early point middle scene)
    (second : ∀ point, Shows program middle scene point →
      Leads program labels late point place scene') :
    Leads program labels (early + late) point place scene' := by
  rcases first with ⟨between, reached, shows⟩
  rcases second between shows with ⟨last, reached', shows'⟩
  exact ⟨last, reached.trans reached', shows'⟩

section Edges

theorem leads_computed {expr : Expr} {operand : Operand}
    (computes : Computes before expr code operand after)
    (fresh : ∀ name ∈ expr.vars, ¬IsTemporary name)
    (room : before.session.temporaries.toNat + expr.operators < 2 ^ 32)
    (held : program.Holds place code) (shows : Shows program place scene point) :
    Leads program labels code.length point (place + code.length) (expr.evaluate scene).2 := by
  rcases shows with ⟨rfl, mirrors⟩
  rcases exists_computed labels computes fresh room held mirrors with ⟨last, computed⟩
  exact ⟨last, computed.reached, computed.counter, computed.mirrors⟩

/-- Behind an assignment the variable has the value of the expression. -/
theorem leads_assign {expr : Expr} {source : Operand} {target : String}
    (computes : Computes before expr code source after)
    (fresh : ∀ name ∈ expr.vars, ¬IsTemporary name)
    (room : before.session.temporaries.toNat + expr.operators < 2 ^ 32)
    (held : program.Holds place (code ++ [.assign target source]))
    (shows : Shows program place scene point) :
    Leads program labels (code.length + 1) point (place + (code.length + 1))
      ((expr.evaluate scene).2.assign target (expr.evaluate scene).1) := by
  rcases shows with ⟨rfl, mirrors⟩
  rw [Program.holds_append, Program.holds_cons] at held
  rcases held with ⟨codeHeld, here, -⟩
  rcases exists_computed labels computes fresh room codeHeld mirrors with ⟨middle, computed⟩
  rw [← computed.counter] at here
  refine ⟨_, computed.reached.trans (Point.reaches_assign here), ?_, ?_⟩
  · rw [computed.counter, Nat.add_assoc]
  · rw [computed.value]
    exact computed.mirrors.assign target _

/-- A test leads on if the condition holds and to its label if it fails. -/
theorem leads_test {condition : Expr} {truth : Operand} {label : String} {target : Nat}
    (computes : Computes before condition code truth after)
    (fresh : ∀ name ∈ condition.vars, ¬IsTemporary name)
    (room : before.session.temporaries.toNat + condition.operators < 2 ^ 32)
    (held : program.Holds place (code ++ [.jumpUnless truth label]))
    (leads : labels.place? label = some target) (shows : Shows program place scene point) :
    Leads program labels (code.length + 1) point
      (if (condition.evaluate scene).1.isTruthy then place + (code.length + 1) else target)
      (condition.evaluate scene).2 := by
  rcases shows with ⟨rfl, mirrors⟩
  rw [Program.holds_append, Program.holds_cons] at held
  rcases held with ⟨codeHeld, here, -⟩
  rcases exists_computed labels computes fresh room codeHeld mirrors with ⟨middle, computed⟩
  rw [← computed.counter] at here
  have value := computed.value
  cases holds : (condition.evaluate scene).1.isTruthy with
  | true =>
      rw [← value] at holds
      refine ⟨_, computed.reached.trans (Point.reaches_jumpUnless_true here holds), ?_,
        computed.mirrors⟩
      rw [computed.counter, if_pos rfl, Nat.add_assoc]
  | false =>
      rw [← value] at holds
      exact ⟨_, computed.reached.trans (Point.reaches_jumpUnless_false here holds leads), rfl,
        computed.mirrors⟩

/-- A text is printed unless it is empty. -/
theorem leads_printText {text : String} (held : program.Holds place (Lowering.printText text))
    (shows : Shows program place scene point) :
    Leads program labels (Lowering.printText text).length point
      (place + (Lowering.printText text).length) (scene.emitText text) := by
  unfold Lowering.printText at held ⊢
  unfold Scene.emitText
  by_cases empty : text = ""
  · rw [if_pos empty, if_pos empty]
    exact .refl shows
  · rw [if_neg empty, Program.holds_cons] at held
    rw [if_neg empty, if_neg empty]
    rcases shows with ⟨rfl, mirrors⟩
    exact ⟨_, Point.reaches_printText held.1, rfl, mirrors.emit text⟩

/-- The value that is printed is that of the variable in the scene. -/
theorem leads_value {conversion : Conversion} {source : String}
    (here : program.instructions[place]? = some (.print conversion source))
    (lasting : ¬IsTemporary source) (shows : Shows program place scene point) :
    Leads program labels 1 point (place + 1)
      (scene.emit (conversion.write (scene.read source))) := by
  rcases shows with ⟨rfl, mirrors⟩
  rw [← mirrors.read lasting]
  exact ⟨_, Point.reaches_print here, rfl, mirrors.emit _⟩

end Edges

/-- From the one place the machine goes on to the other, and nothing else happens. -/
def Flows (program : Program) (labels : LabelTable) (first last : Nat) : Prop :=
  ∀ scene point, Shows program first scene point →
    ∃ rounds, Leads program labels rounds point last scene

/-- From the place the machine goes on to `start` if the condition holds and to `otherwise` if it
fails. It takes a round at least. -/
def Branches (program : Program) (labels : LabelTable) (place : Nat) (condition : Expr)
    (start otherwise : Nat) : Prop :=
  ∀ scene point, Shows program place scene point →
    ∃ rounds, 0 < rounds ∧ Leads program labels rounds point
      (if (condition.evaluate scene).1.isTruthy then start else otherwise)
      (condition.evaluate scene).2

section Branches

variable {condition : Expr} {start otherwise : Nat}

/-- Where the condition holds, the branch is entered. -/
theorem Branches.true (branches : Branches program labels place condition start otherwise)
    (holds : (condition.evaluate scene).1.isTruthy = true)
    (shows : Shows program place scene point) :
    ∃ rounds, 0 < rounds ∧
      Leads program labels rounds point start (condition.evaluate scene).2 := by
  have leads := branches scene point shows
  rwa [if_pos holds] at leads

/-- Where it fails, the branch is left out. -/
theorem Branches.false (branches : Branches program labels place condition start otherwise)
    (fails : (condition.evaluate scene).1.isTruthy = false)
    (shows : Shows program place scene point) :
    ∃ rounds, 0 < rounds ∧
      Leads program labels rounds point otherwise (condition.evaluate scene).2 := by
  have leads := branches scene point shows
  rwa [if_neg (by rw [fails]; exact Bool.false_ne_true)] at leads

end Branches

theorem Branches.behind {start otherwise first : Nat} {condition : Expr}
    (branches : Branches program labels place condition start otherwise)
    (flows : Flows program labels first place) :
    Branches program labels first condition start otherwise := by
  intro scene point shows
  rcases flows scene point shows with ⟨early, middle, reached, shows'⟩
  rcases branches scene middle shows' with ⟨late, positive, leads⟩
  rcases leads with ⟨last, reached', shows''⟩
  exact ⟨early + late, by omega, last, reached.trans reached', shows''⟩

/-- Labels and jumps behind one another. -/
theorem Flows.trans {first middle last : Nat} (early : Flows program labels first middle)
    (late : Flows program labels middle last) : Flows program labels first last := by
  intro scene point shows
  rcases early scene point shows with ⟨rounds, between, reached, shows'⟩
  rcases late scene between shows' with ⟨rounds', last, reached', shows''⟩
  exact ⟨rounds + rounds', last, reached.trans reached', shows''⟩

theorem flows_label {name : String} (here : program.instructions[place]? = some (.label name)) :
    Flows program labels place (place + 1) := by
  intro scene point shows
  rcases shows with ⟨rfl, mirrors⟩
  exact ⟨1, _, Point.reaches_label here, rfl, mirrors⟩

theorem flows_jump {label : String} {target : Nat}
    (here : program.instructions[place]? = some (.jump label))
    (leads : labels.place? label = some target) : Flows program labels place target := by
  intro scene point shows
  rcases shows with ⟨rfl, mirrors⟩
  exact ⟨1, _, Point.reaches_jump here leads, rfl, mirrors⟩

/-- A test leads on if the condition holds and behind its label if it fails. -/
theorem branches_test (fits : labels.Fits program) {condition : Expr} {truth : Operand}
    {label : String} {target : Nat} (computes : Computes before condition code truth after)
    (fresh : ∀ name ∈ condition.vars, ¬IsTemporary name)
    (room : before.session.temporaries.toNat + condition.operators < 2 ^ 32)
    (held : program.Holds place (code ++ [.jumpUnless truth label]))
    (there : program.instructions[target]? = some (.label label)) :
    Branches program labels place condition (place + (code.length + 1)) (target + 1) := by
  intro scene point shows
  have tests := leads_test computes fresh room held (fits target label there) shows
  cases holds : (condition.evaluate scene).1.isTruthy with
  | true =>
      rw [holds] at tests
      exact ⟨_, Nat.succ_pos _, tests⟩
  | false =>
      rw [holds] at tests
      rcases tests with ⟨middle, reached, shows'⟩
      rcases flows_label there _ _ shows' with ⟨rounds, last, reached', shows''⟩
      exact ⟨_, by omega, last, reached.trans reached', shows''⟩

namespace Embedded

variable {condition : Expr} {body otherwise : Block Stmt} {span : Span}

theorem function {type : DataType} {name : Identifier}
    (embedded : Embedded program labels exit place before (.function type name body span) code
      after) :
    Embedded program labels exit place before (.block body) code after := by
  rcases embedded with ⟨emits, fresh, room, held, exits⟩
  rw [Stmt.vars_function] at fresh
  rw [Stmt.operators_function] at room
  cases emits with
  | function bodyEmits => exact ⟨bodyEmits, fresh, room, held, exits⟩

theorem cons {first : Stmt} {rest : List Stmt}
    (embedded : Embedded program labels exit place before (.block ⟨first :: rest, span⟩) code
      after) :
    ∃ middle firstCode restCode, code = firstCode ++ restCode ∧
      Embedded program labels exit place before first firstCode middle ∧
      Embedded program labels exit (place + firstCode.length) middle (.block ⟨rest, span⟩) restCode
        after := by
  rcases embedded with ⟨emits, fresh, room, held, exits⟩
  rw [Stmt.vars_block_cons, List.forall_mem_append] at fresh
  rw [Stmt.operators_block_cons] at room
  cases emits with
  | @blockCons before middle after first rest span firstCode restCode firstEmits restEmits =>
      rw [Program.holds_append] at held
      refine ⟨middle, firstCode, restCode, rfl, ⟨firstEmits, fresh.1, by omega, held.1, ?_⟩,
        ⟨restEmits, fresh.2, room_of_emits firstEmits room, held.2, exits⟩⟩
      intro label known
      exact exits label (exit_of_emits restEmits label known)

theorem ifThen (fits : labels.Fits program)
    (embedded : Embedded program labels exit place before (.ifThen condition body span) code
      after) :
    ∃ start tested bodyCode,
      Embedded program labels exit start tested (.block body) bodyCode after ∧
      Branches program labels place condition start (place + code.length) ∧
      Flows program labels (start + bodyCode.length) (place + code.length) := by
  rcases embedded with ⟨emits, fresh, room, held, exits⟩
  rw [Stmt.vars_ifThen, List.forall_mem_append] at fresh
  rw [Stmt.operators_ifThen] at room
  cases emits with
  | @ifThen before tested after condition body span test code truth conditionComputes bodyEmits =>
      have bodyRoom := room_of_computes conditionComputes room
      simp only [Program.holds_append, Program.holds_cons, List.length_append,
        List.length_singleton, ← Nat.add_assoc] at held ⊢
      rcases held with ⟨⟨testHeld, bodyHeld⟩, finish, -⟩
      refine ⟨place + (test.length + 1), tested.nameLabel, code,
        ⟨bodyEmits, fresh.2, bodyRoom, bodyHeld, exits⟩, ?_, ?_⟩
      · exact branches_test fits conditionComputes fresh.1 (by omega)
          (Program.holds_append.mpr ⟨testHeld.1, testHeld.2⟩) finish
      · exact flows_label finish

theorem ifElse (fits : labels.Fits program)
    (embedded : Embedded program labels exit place before (.ifElse condition body otherwise span)
      code after) :
    ∃ start tested bodyCode middle other otherCode,
      Embedded program labels exit start tested (.block body) bodyCode middle ∧
      Embedded program labels exit other middle (.block otherwise) otherCode after ∧
      Branches program labels place condition start other ∧
      Flows program labels (start + bodyCode.length) (place + code.length) ∧
      Flows program labels (other + otherCode.length) (place + code.length) := by
  rcases embedded with ⟨emits, fresh, room, held, exits⟩
  rw [Stmt.vars_ifElse, List.forall_mem_append, List.forall_mem_append] at fresh
  rw [Stmt.operators_ifElse, Nat.add_assoc] at room
  cases emits with
  | @ifElse before tested middle after condition body otherwise span test code otherCode truth
      conditionComputes bodyEmits otherwiseEmits =>
      have innerRoom := room_of_computes conditionComputes room
      simp only [Program.holds_append, Program.holds_cons, List.length_append, List.length_cons,
        List.length_nil, ← Nat.add_assoc, Nat.zero_add] at held ⊢
      rcases held with ⟨⟨⟨⟨testHeld, bodyHeld⟩, jump, alternative, -⟩, otherHeld⟩, finish, -⟩
      refine ⟨place + (test.length + 1), tested.nameLabel.nameLabel, code, middle,
        place + test.length + 1 + code.length + 1 + 1, otherCode,
        ⟨bodyEmits, fresh.1.2, ?_, bodyHeld, ?_⟩,
        ⟨otherwiseEmits, fresh.2, room_of_emits bodyEmits innerRoom, otherHeld, exits⟩, ?_, ?_, ?_⟩
      · rw [State.temporaries_nameLabel, State.temporaries_nameLabel]
        omega
      · intro label known
        exact exits label (exit_of_emits otherwiseEmits label known)
      · exact branches_test fits conditionComputes fresh.1.1 (by omega)
          (Program.holds_append.mpr ⟨testHeld.1, testHeld.2⟩) alternative
      · exact (flows_jump jump (fits _ _ finish)).trans (flows_label finish)
      · exact flows_label finish

/-- The end of the body is the test once more. -/
theorem loop (fits : labels.Fits program)
    (embedded : Embedded program labels exit place before (.loop condition body span) code after) :
    ∃ start tested bodyCode,
      Embedded program labels exit start tested (.block body) bodyCode after ∧
      Branches program labels place condition start (place + code.length) ∧
      Flows program labels (start + bodyCode.length) place := by
  rcases embedded with ⟨emits, fresh, room, held, exits⟩
  rw [Stmt.vars_loop, List.forall_mem_append] at fresh
  rw [Stmt.operators_loop] at room
  cases emits with
  | @loop before tested after condition body span test code truth conditionComputes bodyEmits =>
      have bodyRoom := room_of_computes conditionComputes room
      simp only [Program.holds_append, Program.holds_cons, List.length_append, List.length_cons,
        List.length_nil, ← Nat.add_assoc, Nat.zero_add] at held ⊢
      rcases held with ⟨⟨⟨⟨⟨start, -⟩, testHeld⟩, jumpUnless⟩, bodyHeld⟩, jump, finish, -⟩
      have testRoom : before.nameLabel.nameLabel.session.temporaries.toNat + condition.operators <
          2 ^ 32 := by
        rw [State.temporaries_nameLabel, State.temporaries_nameLabel]
        omega
      refine ⟨place + 1 + (test.length + 1), tested, code,
        ⟨bodyEmits, fresh.2, bodyRoom, bodyHeld, exits⟩, ?_, ?_⟩
      · refine Branches.behind ?_ (flows_label start)
        exact branches_test fits conditionComputes fresh.1 testRoom
          (Program.holds_append.mpr ⟨testHeld, jumpUnless⟩) finish
      · exact flows_jump jump (fits _ _ start)

end Embedded

end SubsetC
