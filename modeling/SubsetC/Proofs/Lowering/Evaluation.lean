import SubsetC.Proofs.Lowering.Mirroring
import SubsetC.Proofs.Lowering.Numbering

/-!
# The code of expressions

The code of an expression leads from a point that mirrors a scene to one that mirrors the scene
behind the expression. There the operand has the expression's value, and only the temporaries that
the expression takes have been stored to. A temporary that is taken on the left is not taken again
on the right; this is why the left operand still has its value when the operator comes.
-/

namespace SubsetC

open Instruction Lowering Session

variable {program : Program} {labels : LabelTable}

theorem Operand.value_congr {operand : Operand} {store store' : Table Value}
    (same : ∀ name, operand = .name name → store'.get? name = store.get? name) :
    operand.value store' = operand.value store := by
  cases operand with
  | literal value => rfl
  | name source => rw [value, value, same source rfl]

/-- The last point is behind code that has been executed from the first one, with the value in the
operand and nothing stored but what operators store. -/
structure Computed (program : Program) (labels : LabelTable) (code : List Instruction)
    (operand : Operand) (result : Value × Scene) (first last : Point) : Prop where
  reached : Point.Reaches program labels code.length first last
  counter : last.counter = first.counter + code.length
  mirrors : Mirrors program result.2 last.store last.console
  value : operand.value last.store = result.1
  frame : ∀ name, name ∉ temporariesOf code → last.store.get? name = first.store.get? name

variable (labels) in
/-- An operator applies to the values of its operands. -/
theorem computed_binary {point : Point} {scene : Scene} {target : String} {op : BinaryOp}
    {left right : Operand}
    (here : program.instructions[point.counter]? = some (.binary target op left right))
    (mirrors : Mirrors program scene point.store point.console) (temporary : IsTemporary target) :
    ∃ last, Computed program labels [.binary target op left right] (.name target)
      (scene.apply op (left.value point.store) (right.value point.store)) point last := by
  have value : ∀ value, Operand.value (.name target) (point.store.set target value) = value := by
    intro value
    simp only [Operand.value, Table.get?_set, if_true, Option.getD_some]
  have frame : ∀ value name, name ∉ [target] →
      (point.store.set target value).get? name = point.store.get? name := by
    intro value name other
    rw [List.mem_singleton] at other
    rw [Table.get?_set, if_neg (Ne.symm other)]
  cases applied : op.apply (left.value point.store) (right.value point.store) with
  | some result =>
      simp only [Scene.apply, applied]
      exact ⟨_, Point.reaches_binary here applied, rfl, mirrors.setTemporary temporary result,
        value result, frame result⟩
  | none =>
      simp only [Scene.apply, applied]
      exact ⟨_, Point.reaches_binary_zero here applied, rfl,
        (mirrors.setTemporary temporary (.int 0)).warn (.divisionByZero here), value (.int 0),
        frame (.int 0)⟩

variable (labels) in
/-- A sign is an operator with a zero on one side. -/
theorem computed_signed {point : Point} {scene : Scene} {target : String} {op : UnaryOp}
    {inner : Expr} {span : Span} {operand : Operand}
    (here : program.instructions[point.counter]? = some (signed op target operand))
    (mirrors : Mirrors program (inner.evaluate scene).2 point.store point.console)
    (value : operand.value point.store = (inner.evaluate scene).1)
    (temporary : IsTemporary target) :
    ∃ last, Computed program labels [signed op target operand] (.name target)
      ((Expr.unary op inner span).evaluate scene) point last := by
  cases op with
  | neg =>
      have computed := computed_binary labels here mirrors temporary
      rwa [value] at computed
  | not =>
      have computed := computed_binary labels here mirrors temporary
      rwa [value] at computed

/-- Code behind code. -/
theorem Computed.append {first middle last : Point} {firstCode secondCode : List Instruction}
    {firstOperand operand : Operand} {firstResult result : Value × Scene}
    (before : Computed program labels firstCode firstOperand firstResult first middle)
    (after : Computed program labels secondCode operand result middle last) :
    Computed program labels (firstCode ++ secondCode) operand result first last where
  reached := by
    rw [List.length_append]
    exact before.reached.trans after.reached
  counter := by
    rw [after.counter, before.counter, List.length_append, Nat.add_assoc]
  mirrors := after.mirrors
  value := after.value
  frame := by
    intro name untaken
    rw [temporariesOf_append, List.mem_append, not_or] at untaken
    rw [after.frame name untaken.2, before.frame name untaken.1]

/-- An operand is a variable of the expression or a temporary that its code stores to. -/
theorem operand_of_computes {before after : State} {expr : Expr} {code : List Instruction}
    {operand : Operand} (computes : Computes before expr code operand after) {name : String}
    (named : operand = .name name) : name ∈ expr.vars ∨ name ∈ temporariesOf code := by
  cases computes with
  | literal state value span => cases named
  | var state source span =>
      left
      cases named
      exact List.mem_singleton_self _
  | binary leftComputes rightComputes =>
      right
      cases named
      simp [temporary?]
  | unary innerComputes =>
      right
      cases named
      simp [temporary?_signed]

/-- The room that an expression leaves. -/
theorem room_of_computes {before after : State} {expr : Expr} {code : List Instruction}
    {operand : Operand} (computes : Computes before expr code operand after) {count : Nat}
    (room : before.session.temporaries.toNat + (expr.operators + count) < 2 ^ 32) :
    after.session.temporaries.toNat + count < 2 ^ 32 := by
  rw [temporaries_of_computes computes, toNat_add_ofNat (by omega)]
  omega

/-- The code on the right does not store to the operand on the left. -/
theorem operand_not_mem {before middle after : State} {left right : Expr}
    {leftCode rightCode : List Instruction} {leftOperand rightOperand : Operand}
    (leftComputes : Computes before left leftCode leftOperand middle)
    (rightComputes : Computes middle right rightCode rightOperand after)
    (fresh : ∀ name ∈ left.vars, ¬IsTemporary name)
    (room : before.session.temporaries.toNat + (left.operators + right.operators) < 2 ^ 32)
    {name : String} (named : leftOperand = .name name) : name ∉ temporariesOf rightCode := by
  intro late
  have rightTaken := temporariesOf_of_computes rightComputes
  rcases operand_of_computes leftComputes named with source | early
  · rw [rightTaken] at late
    exact fresh name source (isTemporary_of_mem late)
  · have distinct : (namesAfter temporaryName before.session.temporaries
        (left.operators + right.operators)).Nodup :=
      nodup_namesAfter temporaryName_injective (by omega)
    rw [namesAfter_add, ← temporaries_of_computes leftComputes,
      ← temporariesOf_of_computes leftComputes, ← rightTaken, List.nodup_append] at distinct
    exact distinct.2.2 name early name late rfl

variable (labels) in
/-- The code of an expression is executed from wherever the scene is mirrored. -/
theorem exists_computed {before after : State} {expr : Expr} {code : List Instruction}
    {operand : Operand} (computes : Computes before expr code operand after)
    (fresh : ∀ name ∈ expr.vars, ¬IsTemporary name)
    (room : before.session.temporaries.toNat + expr.operators < 2 ^ 32)
    {point : Point} {scene : Scene} (held : program.Holds point.counter code)
    (mirrors : Mirrors program scene point.store point.console) :
    ∃ last, Computed program labels code operand (expr.evaluate scene) point last := by
  induction computes generalizing point scene with
  | literal state value span =>
      exact ⟨point, .refl point, rfl, mirrors, rfl, fun name untaken => rfl⟩
  | var state name span =>
      have lasting := fresh name (List.mem_singleton_self name)
      exact ⟨point, .refl point, rfl, mirrors, mirrors.read lasting, fun name untaken => rfl⟩
  | @binary before middle after op left right span leftCode rightCode leftOperand rightOperand
      leftComputes rightComputes ihLeft ihRight =>
      rw [Expr.operators] at room
      rw [Program.holds_append, Program.holds_append, Program.holds_cons, List.length_append,
        ← Nat.add_assoc] at held
      rcases held with ⟨⟨leftHeld, rightHeld⟩, here, -⟩
      rcases List.forall_mem_append.mp fresh with ⟨leftFresh, rightFresh⟩
      have rightRoom : middle.session.temporaries.toNat + right.operators < 2 ^ 32 :=
        room_of_computes leftComputes (by omega)
      rcases ihLeft leftFresh (by omega) leftHeld mirrors with ⟨inner, leftComputed⟩
      rw [← leftComputed.counter] at rightHeld here
      rcases ihRight rightFresh rightRoom rightHeld leftComputed.mirrors with
        ⟨operands, rightComputed⟩
      rw [← rightComputed.counter] at here
      have kept : leftOperand.value operands.store = leftOperand.value inner.store := by
        apply Operand.value_congr
        intro name named
        exact rightComputed.frame name
          (operand_not_mem leftComputes rightComputes leftFresh (by omega) named)
      rcases computed_binary labels here rightComputed.mirrors ⟨_, rfl⟩ with ⟨last, computed⟩
      rw [kept, leftComputed.value, rightComputed.value] at computed
      exact ⟨last, (leftComputed.append rightComputed).append computed⟩
  | @unary before after op inner span code operand innerComputes ih =>
      rw [Program.holds_append, Program.holds_cons] at held
      rcases held with ⟨innerHeld, here, -⟩
      rw [Expr.operators] at room
      rcases ih fresh (by omega) innerHeld mirrors with ⟨middle, innerComputed⟩
      rw [← innerComputed.counter] at here
      rcases computed_signed labels here innerComputed.mirrors innerComputed.value ⟨_, rfl⟩ with
        ⟨last, computed⟩
      exact ⟨last, innerComputed.append computed⟩

end SubsetC
