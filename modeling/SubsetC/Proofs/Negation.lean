import SubsetC.Proofs.Divisions
import SubsetC.Proofs.Tree.Contexts
import SubsetC.Run

/-!
# Negation and branching

A negation is a comparison with zero, and a branch asks whether its condition is true. The two go
apart for texts alone: one that is not empty is true, and it counts as zero if it is no numeral, or
one of zero. Only a variable can hold a text, since every operator gives a number. Where no such
text is met, the branches of a negated condition can be exchanged.
-/

namespace SubsetC

open Lowering Session

namespace Value

/-- The value is true and counts as zero. -/
def Clashes (value : Value) : Prop :=
  value.isTruthy = true ∧ value.toInt64 = 0

instance (value : Value) : Decidable value.Clashes :=
  inferInstanceAs (Decidable (_ ∧ _))

/-- What is false counts as zero. -/
theorem toInt64_of_false {value : Value} (falsity : value.isTruthy = false) :
    value.toInt64 = 0 := by
  cases value with
  | int value =>
      obtain rfl : value = 0 := by simpa [isTruthy] using falsity
      rfl
  | char value =>
      obtain rfl : value = '\x00' := by simpa [isTruthy] using falsity
      rfl
  | str value =>
      obtain rfl : value = "" := by simpa [isTruthy] using falsity
      rfl

/-- Only texts are true and count as zero. -/
theorem Clashes.exists_text {value : Value} (clashes : value.Clashes) :
    ∃ text, value = .str text := by
  rcases clashes with ⟨truth, zero⟩
  cases value with
  | int value =>
      have nonzero : value ≠ 0 := by simpa [isTruthy] using truth
      exact absurd zero nonzero
  | char value =>
      have nonzero : value ≠ '\x00' := by simpa [isTruthy] using truth
      have small : value.toNat < 2 ^ 63 := Nat.lt_trans value.val.toNat_lt (by decide)
      have number := congrArg Int64.toInt zero
      rw [toInt64, Int64.toInt_ofNat_of_lt small] at number
      exact absurd (Char.toNat_inj.mp (Int.ofNat_inj.mp number)) nonzero
  | str value => exact ⟨value, rfl⟩

/-- What a negation gives: one for the values that a branch takes to be false, and for those that
clash. -/
def negated (value : Value) : Value :=
  .int (if value.isTruthy = false ∨ value.Clashes then 1 else 0)

theorem apply_eq_zero (value : Value) :
    BinaryOp.eq.apply value (.int 0) = some value.negated := by
  have counts : value.toInt64 = 0 ↔ value.isTruthy = false ∨ value.Clashes := by
    constructor
    · intro zero
      cases truth : value.isTruthy with
      | false => exact .inl rfl
      | true => exact .inr ⟨truth, zero⟩
    · rintro (falsity | clashes)
      · exact toInt64_of_false falsity
      · exact clashes.2
  have applied : BinaryOp.eq.apply value (.int 0) =
      some (.ofBool (compare value.toInt64 0 == .eq)) := by
    cases value <;> rfl
  simp only [applied, ofBool, negated, beq_iff_eq, Std.compare_eq_iff_eq, counts]

/-- A negated value is true just if the value counts as zero. -/
theorem isTruthy_negated {value : Value} (clear : ¬value.Clashes) :
    value.negated.isTruthy = !value.isTruthy := by
  cases truth : value.isTruthy with
  | false =>
      rw [negated, if_pos (.inl truth)]
      rfl
  | true =>
      rw [negated, if_neg (by simp [truth, clear])]
      rfl

end Value

theorem BinaryOp.exists_int {op : BinaryOp} {left right result : Value}
    (applied : op.apply left right = some result) : ∃ number, result = .int number := by
  cases op with
  | add | sub | mul | and | or =>
      cases applied
      exact ⟨_, rfl⟩
  | div =>
      simp only [apply] at applied
      split at applied
      · cases applied
      · cases applied
        exact ⟨_, rfl⟩
  | eq | ne | lt | le | gt | ge =>
      cases left <;> cases right <;>
        · cases applied
          exact ⟨_, rfl⟩

section Code

variable {program : Program} {labels : LabelTable}

/-- From the point the code of the expression leads to the last one, and it leaves the value. -/
def Leaves (program : Program) (labels : LabelTable) (state : State) (expr : Expr) (point : Point)
    (value : Value) (last : Point) : Prop :=
  let computed := ((expression expr).run state).1
  Point.Reaches program labels computed.1.length point last ∧
    last.counter = point.counter + computed.1.length ∧ computed.2.value last.store = value

/-- An operator goes on to the next instruction and stores a number. -/
theorem exists_stored {target : String} {op : BinaryOp} {left right : Operand} {point : Point}
    (here : program.instructions[point.counter]? = some (.binary target op left right)) :
    ∃ number last, Point.Reaches program labels 1 point last ∧
      last.counter = point.counter + 1 ∧
      Operand.value (.name target) last.store = .int number := by
  have stored (value : Value) :
      Operand.value (.name target) (point.store.set target value) = value := by
    simp [Operand.value, Table.get?_set]
  cases applied : op.apply (left.value point.store) (right.value point.store) with
  | some result =>
      rcases BinaryOp.exists_int applied with ⟨number, rfl⟩
      exact ⟨number, _, Point.reaches_binary here applied, rfl, stored _⟩
  | none => exact ⟨0, _, Point.reaches_binary_zero here applied, rfl, stored _⟩

/-- Operators are executed one after the other, whatever is stored. -/
theorem exists_operated {code : List Instruction} {point : Point}
    (operators : ∀ instruction ∈ code, ∃ target op left right,
      instruction = .binary target op left right)
    (held : program.Holds point.counter code) :
    ∃ last, Point.Reaches program labels code.length point last ∧
      last.counter = point.counter + code.length := by
  induction code generalizing point with
  | nil => exact ⟨point, .refl point, rfl⟩
  | cons first rest ih =>
      rcases List.forall_mem_cons.mp operators with ⟨⟨target, op, left, right, rfl⟩, others⟩
      rcases exists_stored held.1 with ⟨number, middle, reached, counter, -⟩
      rcases ih others (by rw [counter]; exact held.2) with ⟨last, reached', counter'⟩
      rw [List.length_cons, Nat.add_comm]
      refine ⟨last, reached.trans reached', ?_⟩
      rw [counter', counter, Nat.add_assoc]

/-- The last operator leaves a number. -/
theorem exists_result {code : List Instruction} {target : String} {op : BinaryOp}
    {left right : Operand} {point : Point}
    (operators : ∀ instruction ∈ code ++ [.binary target op left right],
      ∃ target op left right, instruction = .binary target op left right)
    (held : program.Holds point.counter (code ++ [.binary target op left right])) :
    ∃ last number, Point.Reaches program labels (code.length + 1) point last ∧
      last.counter = point.counter + (code.length + 1) ∧
      Operand.value (.name target) last.store = .int number := by
  rw [Program.holds_append] at held
  rw [List.forall_mem_append] at operators
  rcases exists_operated operators.1 held.1 with ⟨middle, reached, counter⟩
  rw [← counter] at held
  rcases exists_stored held.2.1 with ⟨number, last, reached', counter', value⟩
  exact ⟨last, number, reached.trans reached', by rw [counter', counter, Nat.add_assoc], value⟩

variable (labels) in
/-- The code of an expression other than a variable leaves no text. -/
theorem exists_left {before after : State} {expr : Expr} {code : List Instruction}
    {operand : Operand} (computes : Computes before expr code operand after) {point : Point}
    (held : program.Holds point.counter code) :
    ∃ last, Point.Reaches program labels code.length point last ∧
      last.counter = point.counter + code.length ∧
      ((operand.value last.store).Clashes → ∃ name span, expr = .var name span) := by
  have operators := isOperator_of_computes computes
  have number {value : Value} {number : Int64} (same : value = .int number) :
      value.Clashes → ∃ name span, expr = .var name span := by
    rintro clashes
    rcases clashes.exists_text with ⟨text, rfl⟩
    cases same
  cases computes with
  | literal state value span =>
      refine ⟨point, .refl point, rfl, ?_⟩
      intro clashes
      rcases clashes.exists_text with ⟨text, same⟩
      cases value <;> cases same
  | var state name span => exact ⟨point, .refl point, rfl, fun _ => ⟨name, span, rfl⟩⟩
  | binary leftComputes rightComputes =>
      rcases exists_result operators held with ⟨last, _, reached, counter, value⟩
      rw [List.length_append, List.length_singleton]
      exact ⟨last, reached, counter, number value⟩
  | @unary _ _ op _ _ _ _ innerComputes =>
      cases op with
      | neg =>
          rcases exists_result operators held with ⟨last, _, reached, counter, value⟩
          rw [List.length_append, List.length_singleton]
          exact ⟨last, reached, counter, number value⟩
      | not =>
          rcases exists_result operators held with ⟨last, _, reached, counter, value⟩
          rw [List.length_append, List.length_singleton]
          exact ⟨last, reached, counter, number value⟩

variable (labels) in
/-- Behind the code of a negation its operand holds the negated value. -/
theorem exists_negated (expr : Expr) (mark : Span) (state : State) {point : Point}
    (held : program.Holds point.counter
      ((expression (.unary .not expr mark)).run state).1.1) :
    ∃ value middle last, Leaves program labels state expr point value middle ∧
      Leaves program labels state (.unary .not expr mark) point value.negated last ∧
      (value.Clashes → ∃ name span, expr = .var name span) := by
  let own := ((expression expr).run state).1
  let target := Session.temporaryName ((expression expr).run state).2.nextTemporary
  have code : ((expression (.unary .not expr mark)).run state).1 =
      (own.1 ++ [.binary target .eq own.2 (.literal (.int 0))], .name target) := rfl
  rw [code, Program.holds_append] at held
  rcases exists_left labels (computes_expression expr state) held.1 with
    ⟨middle, reached, counter, named⟩
  rw [← counter] at held
  let last : Point := ⟨middle.counter + 1,
    middle.store.set target (own.2.value middle.store).negated, middle.console⟩
  have compared : Point.Reaches program labels 1 middle last :=
    Point.reaches_binary held.2.1 (Value.apply_eq_zero _)
  refine ⟨own.2.value middle.store, middle, last, ⟨reached, counter, rfl⟩, ?_, named⟩
  rw [Leaves, code, List.length_append, ← Nat.add_assoc, ← counter]
  refine ⟨reached.trans compared, rfl, ?_⟩
  simp [last, Operand.value, Table.get?_set]

end Code

section Branches

variable (condition : Expr) (body otherwise : Block Stmt) (mark span : Span)

/-- Where the condition has no value that clashes, its negation has the opposite truth. -/
theorem alike_exchanged {scene : Scene} (clear : ¬(condition.evaluate scene).1.Clashes) :
    Stmt.Alike (.ifElse (.unary .not condition mark) body otherwise span)
      (.ifElse condition otherwise body span) scene := by
  have negation : (Expr.unary .not condition mark).evaluate scene =
      ((condition.evaluate scene).1.negated, (condition.evaluate scene).2) := by
    simp only [Expr.evaluate, Scene.apply, Value.apply_eq_zero]
  have opposite := Value.isTruthy_negated clear
  intro outcome scene'
  constructor
  · intro runs
    cases runs with
    | ifElseTrue holds bodyRuns =>
        rw [negation] at holds bodyRuns
        rw [opposite, Bool.not_eq_true'] at holds
        exact .ifElseFalse holds bodyRuns
    | ifElseFalse fails otherwiseRuns =>
        rw [negation] at fails otherwiseRuns
        rw [opposite, Bool.not_eq_false'] at fails
        exact .ifElseTrue fails otherwiseRuns
  · intro runs
    cases runs with
    | ifElseTrue holds otherwiseRuns =>
        rw [holds] at opposite
        apply Stmt.Runs.ifElseFalse
        · rw [negation]
          exact opposite
        · rw [negation]
          exact otherwiseRuns
    | ifElseFalse fails bodyRuns =>
        rw [fails] at opposite
        apply Stmt.Runs.ifElseTrue
        · rw [negation]
          exact opposite
        · rw [negation]
          exact bodyRuns

/-- The exchanged statement uses a temporary less, and nothing else than before. -/
theorem spares_exchanged :
    (Stmt.ifElse condition otherwise body span).Spares
      (.ifElse (.unary .not condition mark) body otherwise span) where
  vars := by
    intro name mem
    simp only [Stmt.vars_ifElse, Expr.vars, List.mem_append] at mem ⊢
    rw [or_right_comm]
    exact mem
  operators := by
    simp only [Stmt.operators_ifElse, Expr.operators]
    omega
  labels := by
    simp only [Stmt.labels_ifElse]
    omega
  leaves := by
    simp [Stmt.leaves, Stmt.isLeave, or_comm]

end Branches

/-- Both programs can be loaded. One machine halts if and only if the other one does, and both have
then given the same output, made the same requests, left the same answers, given the same warnings
and put the same values into the variables of a source. The machines are strict or lenient, and have
no step limit. -/
def Agree (strict : Bool) (program program' : Program) (answers : List String) : Prop :=
  ∃ machine machine', Machine.load program ⟨strict, none⟩ = .ok machine ∧
    Machine.load program' ⟨strict, none⟩ = .ok machine' ∧
    ((∃ store console, machine.Halts (.ofAnswers answers) store console) ↔
      ∃ store console, machine'.Halts (.ofAnswers answers) store console) ∧
    ∀ store console store' console', machine.Halts (.ofAnswers answers) store console →
      machine'.Halts (.ofAnswers answers) store' console' →
        ∃ scene, Mirrors program scene store console ∧ Mirrors program' scene store' console'

/-- Programs on which lenient machines agree are the same to strict ones: where one of these ends in
a division by zero, so does the other. -/
theorem Agree.of_lenient {program program' : Program} {answers : List String}
    (agree : Agree false program program' answers) (strict : Bool) :
    Agree strict program program' answers := by
  cases strict with
  | false => exact agree
  | true =>
      rcases agree with ⟨machine, machine', loaded, loaded', halt_iff, same⟩
      refine ⟨_, _, Machine.load_withConfig loaded _, Machine.load_withConfig loaded' _,
        ⟨?_, ?_⟩, ?_⟩
      · apply Machine.exists_halts_strict loaded loaded' halt_iff.mp
        intro store console store' console' halts halts'
        rcases same _ _ _ _ halts halts' with ⟨scene, mirrors, mirrors'⟩
        exact (mirrors.tells_iff mirrors').mpr
      · apply Machine.exists_halts_strict loaded' loaded halt_iff.mpr
        intro store' console' store console halts' halts
        rcases same _ _ _ _ halts halts' with ⟨scene, mirrors, mirrors'⟩
        exact (mirrors.tells_iff mirrors').mp
      · intro store console store' console' halts halts'
        exact same _ _ _ _ ((Machine.halts_strict_iff loaded).mp halts).1
          ((Machine.halts_strict_iff loaded').mp halts').1

namespace Tree

variable {tree tree' : Tree} {session : Session} {answers : List String}

/-- Trees that run alike have lenient machines that do the same. -/
theorem agree_of_alike (alike : Stmt.Alike tree.whole tree'.whole (.start answers))
    (spares : tree'.whole.Spares tree.whole) (fresh : ∀ name ∈ tree.vars, ¬IsTemporary name)
    (temporaries : session.temporaries.toNat + tree.temporaries < 2 ^ 32)
    (labels : session.labels.toNat + tree.labels < 2 ^ 32) :
    Agree false (tree.lower session).1 (tree'.lower session).1 answers := by
  have fresh' : ∀ name ∈ tree'.vars, ¬IsTemporary name :=
    fun name mem => fresh name (spares.vars mem)
  have temporaries' : session.temporaries.toNat + tree'.temporaries < 2 ^ 32 :=
    Nat.lt_of_le_of_lt (Nat.add_le_add_left spares.operators _) temporaries
  have labels' : session.labels.toNat + tree'.labels < 2 ^ 32 := by
    have leaves : tree'.whole.leaves.toNat ≤ tree.whole.leaves.toNat := by
      cases known : tree'.whole.leaves with
      | false => exact Nat.zero_le _
      | true => rw [spares.leaves known]
    exact Nat.lt_of_le_of_lt (Nat.add_le_add_left (Nat.add_le_add spares.labels leaves) _) labels
  rcases tree.ofProgram_lower session labels with ⟨table, built, fits⟩
  rcases tree'.ofProgram_lower session labels' with ⟨table', built', fits'⟩
  refine ⟨(startPoint answers).machine (tree.lower session).1 table 0,
    (startPoint answers).machine (tree'.lower session).1 table' 0, ?_, ?_, ⟨?_, ?_⟩, ?_⟩
  · simp only [Machine.load, built]
    rfl
  · simp only [Machine.load, built']
    rfl
  · rintro ⟨store, console, halts⟩
    rcases runs_of_halts fresh temporaries fits halts with ⟨scene, outcome, runs⟩
    rcases halts_of_runs fresh' temporaries' fits' ⟨outcome, (alike outcome scene).mp runs⟩ with
      ⟨store', console', halts', -⟩
    exact ⟨store', console', halts'⟩
  · rintro ⟨store', console', halts'⟩
    rcases runs_of_halts fresh' temporaries' fits' halts' with ⟨scene, outcome, runs⟩
    rcases halts_of_runs fresh temporaries fits ⟨outcome, (alike outcome scene).mpr runs⟩ with
      ⟨store, console, halts, -⟩
    exact ⟨store, console, halts⟩
  · intro store console store' console' halts halts'
    rcases runs_of_halts fresh temporaries fits halts with ⟨scene, outcome, runs⟩
    rcases halts_of_runs fresh temporaries fits ⟨outcome, runs⟩ with
      ⟨store₁, console₁, halts₁, mirrors⟩
    rcases halts_of_runs fresh' temporaries' fits' ⟨outcome, (alike outcome scene).mp runs⟩ with
      ⟨store₂, console₂, halts₂, mirrors'⟩
    rcases Machine.halts_unique halts₁ halts with ⟨rfl, rfl⟩
    rcases Machine.halts_unique halts₂ halts' with ⟨rfl, rfl⟩
    exact ⟨scene, mirrors, mirrors'⟩

end Tree

/-- The code of a negation leaves one if the condition is false or clashes, and zero if not; a value
that clashes is that of a variable. Where none is met, the branches can be exchanged. -/
theorem negation_agrees (condition : Expr) (mark : Span) :
    (∀ (program : Program) (labels : LabelTable) (state : State) (point : Point),
      program.Holds point.counter ((expression (.unary .not condition mark)).run state).1.1 →
        ∃ value middle last, Leaves program labels state condition point value middle ∧
          Leaves program labels state (.unary .not condition mark) point value.negated last ∧
          (value.Clashes → ∃ name span, condition = .var name span)) ∧
    ∀ (body otherwise : Block Stmt) (span : Span) (frames : List Frame) (tree tree' : Tree)
      (session : Session) (answers : List String) (strict : Bool),
      tree.whole = fill frames (.ifElse (.unary .not condition mark) body otherwise span) →
      tree'.whole = fill frames (.ifElse condition otherwise body span) →
      (∀ name ∈ tree.vars, ¬IsTemporary name) →
      session.temporaries.toNat + tree.temporaries < 2 ^ 32 →
      session.labels.toNat + tree.labels < 2 ^ 32 →
      (∀ scene, Meets frames (.ifElse (.unary .not condition mark) body otherwise span)
        (.start answers) scene → ¬(condition.evaluate scene).1.Clashes) →
      Agree strict (tree.lower session).1 (tree'.lower session).1 answers := by
  constructor
  · intro program labels state point held
    exact exists_negated labels condition mark state held
  · intro body otherwise span frames tree tree' session answers strict whole whole' fresh
      temporaries labels clear
    refine (Tree.agree_of_alike ?_ ?_ fresh temporaries labels).of_lenient strict
    · rw [whole, whole']
      apply alike_fill
      intro scene meets
      exact alike_exchanged condition body otherwise mark span (clear scene meets)
    · rw [whole, whole']
      exact (spares_exchanged condition body otherwise mark span).fill frames

/-- A function that reads a number before the branches of a statement. -/
def asking : List Frame :=
  [⟨.alone, [], [], default⟩,
    ⟨.function .int ⟨"main", default⟩ default, [.scan "%d" ⟨"n", default⟩ default], [], default⟩]

/-- The function around this statement. -/
def Tree.asking (stmt : Stmt) : Tree :=
  ⟨[(fill (SubsetC.asking.drop 1) stmt)], default⟩

/-- A negation of a text that clashes, and branches that ask for a number. -/
theorem negation_agrees_asking :
    (∃ value middle last,
      Leaves ⟨#[.binary "t1" .eq (.name "n") (.literal (.int 0))]⟩ ⟨.empty⟩ ⟨.empty, none⟩
        (.var "n" default) ⟨0, Table.empty.set "n" (.str "0"), .ofAnswers []⟩ value middle ∧
      Leaves ⟨#[.binary "t1" .eq (.name "n") (.literal (.int 0))]⟩ ⟨.empty⟩ ⟨.empty, none⟩
        (.unary .not (.var "n" default) default) ⟨0, Table.empty.set "n" (.str "0"), .ofAnswers []⟩
        value.negated last ∧
      (value.Clashes → ∃ name span, Expr.var "n" default = .var name span)) ∧
    Agree true
      ((Tree.asking (.ifElse (.unary .not (.var "n" default) default)
        ⟨[.print "A" none default], default⟩ ⟨[.print "B" none default], default⟩
        default)).lower .empty).1
      ((Tree.asking (.ifElse (.var "n" default) ⟨[.print "B" none default], default⟩
        ⟨[.print "A" none default], default⟩ default)).lower .empty).1 ["0"] := by
  have agrees := negation_agrees (.var "n" default) default
  refine ⟨agrees.1 _ _ ⟨.empty, none⟩ _ ⟨rfl, trivial⟩, agrees.2 _ _ default asking _ _ .empty ["0"]
    true rfl rfl (by decide) (by decide) (by decide) ?_⟩
  rintro scene ⟨inMain, ⟨_, opens, ran⟩, behind, ⟨_, opens', ran'⟩, rfl⟩
  cases opens
  cases ran
  cases opens'
  cases ran' with
  | blockCons scanRuns restRuns =>
      cases scanRuns
      cases restRuns
      decide

/-- Reads a text and asks whether it is false. -/
def denied : String :=
  "char s; scanf(\"%s\", &s); if (!s) \x7b printf(\"A\"); \x7d else \x7b printf(\"B\"); \x7d"

/-- Reads a text and asks whether it is true, with the branches exchanged. -/
def affirmed : String :=
  "char s; scanf(\"%s\", &s); if (s) \x7b printf(\"B\"); \x7d else \x7b printf(\"A\"); \x7d"

/-- A text that is true for a branch and has a negation that is true as well, so that the branches
cannot be exchanged. -/
theorem negation_disagrees :
    ((run 100 denied ⟨false, none⟩ (.ofAnswers ["abc"])).1.toOption.map fun run =>
      (run.machine.state, run.machine.store.get? "s", run.machine.store.get? "t1")) =
        some (.halted, some (.str "abc"), some (.int 1)) ∧
    (Value.str "abc").isTruthy = true ∧
    ((run 100 affirmed ⟨false, none⟩ (.ofAnswers ["abc"])).1.toOption.map fun run =>
      (run.machine.state, run.machine.store.get? "s")) = some (.halted, some (.str "abc")) ∧
    (run 100 denied ⟨false, none⟩ (.ofAnswers ["abc"])).2.output = #["A"] ∧
    (run 100 affirmed ⟨false, none⟩ (.ofAnswers ["abc"])).2.output = #["B"] := by
  refine ⟨?_, ?_, ?_, ?_, ?_⟩ <;> decide +kernel

end SubsetC
