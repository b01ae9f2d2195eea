import SubsetC.Proofs.Lowering.Loading

/-!
# How temporaries are used

The code of an expression leaves its value in a temporary that has just been computed and has not
been read. `Orderly` says how far code keeps to this: a temporary is stored to by operators only, is
read at most as often as it is stored to, and is computed right before it is read. It is kept where
code is put together, so there is one case for each construct. Variables that have the names of
temporaries are excluded.
-/

namespace SubsetC

open Session

/-- The name that is read, if the operand has one. -/
def Operand.names : Operand → List String
  | literal _ => []
  | name source => [source]

namespace Instruction

/-- The names that the instruction reads. What it reads twice is there twice. -/
def reads : Instruction → List String
  | assign _ source => source.names
  | binary _ _ left right => left.names ++ right.names
  | jumpUnless condition _ => condition.names
  | print _ source => [source]
  | jump _ | label _ | printText _ | scan _ _ => []

/-- The name that the instruction stores to. -/
def target? : Instruction → Option String
  | assign target _ | binary target _ _ _ | scan _ target => some target
  | jumpUnless _ _ | jump _ | label _ | printText _ | print _ _ => none

/-- The instruction is neither a label nor a jump. -/
def IsStraight (instruction : Instruction) : Prop :=
  instruction.label? = none ∧ instruction.jumpTarget? = none

/-- The names that instructions read, in order. -/
def readsOf (code : List Instruction) : List String :=
  code.flatMap reads

@[simp]
theorem readsOf_nil : readsOf [] = [] := rfl

@[simp]
theorem readsOf_singleton (instruction : Instruction) :
    readsOf [instruction] = instruction.reads := by
  simp [readsOf]

@[simp]
theorem readsOf_append (first second : List Instruction) :
    readsOf (first ++ second) = readsOf first ++ readsOf second :=
  List.flatMap_append

/-- Behind an operator that stores to the name there is neither a label nor a jump. -/
def Supplied (code : List Instruction) (name : String) : Prop :=
  ∃ front op left right behind, code = front ++ binary name op left right :: behind ∧
    ∀ instruction ∈ behind, instruction.IsStraight

section Supplied

variable {code more : List Instruction} {name : String}

/-- Code that ends in an operator supplies the name that this stores to. -/
theorem supplied_concat (code : List Instruction) (name : String) (op : BinaryOp)
    (left right : Operand) : Supplied (code ++ [binary name op left right]) name :=
  ⟨code, op, left, right, [], rfl, List.forall_mem_nil _⟩

theorem Supplied.after (supplied : Supplied code name) (early : List Instruction) :
    Supplied (early ++ code) name := by
  rcases supplied with ⟨front, op, left, right, behind, rfl, straight⟩
  exact ⟨early ++ front, op, left, right, behind, (List.append_assoc ..).symm, straight⟩

/-- Straight code behind it leaves a name supplied. -/
theorem Supplied.append (supplied : Supplied code name)
    (goesOn : ∀ instruction ∈ more, instruction.IsStraight) : Supplied (code ++ more) name := by
  rcases supplied with ⟨front, op, left, right, behind, rfl, straight⟩
  refine ⟨front, op, left, right, behind ++ more, List.append_assoc .., ?_⟩
  rw [List.forall_mem_append]
  exact ⟨straight, goesOn⟩

/-- What supplies a name has a place before the one where it is supplied. -/
theorem Supplied.exists_place {index : Nat} (supplied : Supplied (code.take index) name) :
    ∃ place < index, (∃ op left right, code[place]? = some (binary name op left right)) ∧
      ∀ between, place < between → between < index → ∀ instruction,
        code[between]? = some instruction → instruction.IsStraight := by
  rcases supplied with ⟨front, op, left, right, behind, split, straight⟩
  have before : front.length < index := by
    have lengths := congrArg List.length split
    simp only [List.length_take, List.length_append, List.length_cons] at lengths
    omega
  refine ⟨front.length, before, ⟨op, left, right, ?_⟩, ?_⟩
  · rw [← List.getElem?_take_of_lt before, split]
    simp
  · intro between behindPlace small instruction here
    rw [← List.getElem?_take_of_lt small, split, List.getElem?_append_right (by omega),
      List.getElem?_cons, if_neg (by omega)] at here
    exact straight instruction (List.mem_of_getElem? here)

end Supplied

/-- Where the code reads a temporary, it has been supplied; `early` stands in front of the code. -/
def Backed (early code : List Instruction) : Prop :=
  ∀ index instruction, code[index]? = some instruction → ∀ name ∈ instruction.reads,
    IsTemporary name → Supplied (early ++ code.take index) name

section Backed

variable {early code first second : List Instruction}

theorem backed_nil (early : List Instruction) : Backed early [] := by
  intro index instruction here
  cases here

theorem backed_singleton {instruction : Instruction}
    (supplied : ∀ name ∈ instruction.reads, IsTemporary name → Supplied early name) :
    Backed early [instruction] := by
  rintro (_ | index) other here
  · cases here
    simpa using supplied
  · cases here

/-- Code in two parts is backed if each part is, the second one behind the first. -/
theorem Backed.append (before : Backed early first) (behind : Backed (early ++ first) second) :
    Backed early (first ++ second) := by
  intro index instruction here name read temporary
  rcases Nat.lt_or_ge index first.length with inFirst | inSecond
  · rw [List.getElem?_append_left inFirst] at here
    rw [List.take_append_of_le_length (Nat.le_of_lt inFirst)]
    exact before index instruction here name read temporary
  · rw [List.getElem?_append_right inSecond] at here
    rw [List.take_append, List.take_of_length_le inSecond, ← List.append_assoc]
    exact behind _ instruction here name read temporary

theorem Backed.after (backed : Backed [] code) (early : List Instruction) : Backed early code :=
  fun index instruction here name read temporary =>
    (backed index instruction here name read temporary).after early

end Backed

/-- Only operators store to temporaries. Each of them is read at most once, right behind the
operator; those that are unread can still be read next. -/
structure Orderly (code : List Instruction) (unread : List String) : Prop where
  stores : ∀ instruction ∈ code, ∀ name, instruction.target? = some name → IsTemporary name →
    instruction.temporary? = some name
  once : ∀ name, IsTemporary name →
    (readsOf code).count name + unread.count name ≤ (temporariesOf code).count name
  backed : Backed [] code
  ready : ∀ name ∈ unread, IsTemporary name → Supplied code name

section Orderly

variable {code first second leftCode rightCode : List Instruction} {unread : List String}

/-- Code that has nothing to do with temporaries. -/
theorem orderly_of_apart
    (reads : ∀ instruction ∈ code, ∀ name ∈ instruction.reads, ¬IsTemporary name)
    (stores : ∀ instruction ∈ code, ∀ name, instruction.target? = some name → ¬IsTemporary name) :
    Orderly code [] where
  stores instruction present name stored temporary :=
    absurd temporary (stores instruction present name stored)
  once name temporary := by
    have absent : name ∉ readsOf code := by
      intro read
      rcases List.mem_flatMap.mp read with ⟨instruction, present, read⟩
      exact reads instruction present name read temporary
    rw [List.count_eq_zero.mpr absent]
    exact Nat.zero_le _
  backed index instruction here name read temporary :=
    absurd temporary (reads instruction (List.mem_of_getElem? here) name read)
  ready := List.forall_mem_nil _

theorem orderly_nil : Orderly [] [] :=
  orderly_of_apart (List.forall_mem_nil _) (List.forall_mem_nil _)

theorem orderly_variable {name : String} (fresh : ¬IsTemporary name) : Orderly [] [name] where
  stores := List.forall_mem_nil _
  once other temporary := by
    have apart : name ≠ other := by
      rintro rfl
      exact fresh temporary
    simp [apart]
  backed := backed_nil []
  ready other read temporary := by
    rw [List.mem_singleton] at read
    subst read
    exact absurd temporary fresh

/-- What can be read need not be read. -/
theorem Orderly.ignore (orderly : Orderly code unread) : Orderly code [] where
  stores := orderly.stores
  once name temporary := Nat.le_trans (Nat.le_add_right _ _) (orderly.once name temporary)
  backed := orderly.backed
  ready := List.forall_mem_nil _

theorem Orderly.append (before : Orderly first []) (behind : Orderly second []) :
    Orderly (first ++ second) [] where
  stores := by
    rw [List.forall_mem_append]
    exact ⟨before.stores, behind.stores⟩
  once name temporary := by
    have early := before.once name temporary
    have late := behind.once name temporary
    simp only [readsOf_append, temporariesOf_append, List.count_append]
    omega
  backed := before.backed.append (behind.backed.after first)
  ready := List.forall_mem_nil _

/-- An instruction behind the code reads what can be read. -/
theorem Orderly.concat {instruction : Instruction} (orderly : Orderly code instruction.reads)
    (stores : ∀ name, instruction.target? = some name → ¬IsTemporary name) :
    Orderly (code ++ [instruction]) [] where
  stores := by
    rw [List.forall_mem_append, List.forall_mem_singleton]
    exact ⟨orderly.stores, fun name stored temporary => absurd temporary (stores name stored)⟩
  once name temporary := by
    have once := orderly.once name temporary
    simp only [readsOf_append, readsOf_singleton, temporariesOf_append, List.count_append,
      List.count_nil]
    omega
  backed := orderly.backed.append (backed_singleton orderly.ready)
  ready := List.forall_mem_nil _

/-- An operator reads both operands, and its target can be read behind it. Between the left operand
and the operator stands nothing but the code of the right one. -/
theorem Orderly.operator {left right : Operand} (before : Orderly leftCode left.names)
    (behind : Orderly rightCode right.names)
    (straight : ∀ instruction ∈ rightCode, instruction.IsStraight) (target : String)
    (op : BinaryOp) :
    Orderly (leftCode ++ rightCode ++ [.binary target op left right]) [target] where
  stores := by
    rw [List.forall_mem_append, List.forall_mem_append, List.forall_mem_singleton]
    exact ⟨⟨before.stores, behind.stores⟩, fun name stored _ => stored⟩
  once name temporary := by
    have early := before.once name temporary
    have late := behind.once name temporary
    have read : reads (.binary target op left right) = left.names ++ right.names := rfl
    have stored : temporariesOf [.binary target op left right] = [target] := rfl
    simp only [readsOf_append, readsOf_singleton, read, temporariesOf_append, stored,
      List.count_append]
    omega
  backed := by
    refine (before.backed.append (behind.backed.after _)).append (backed_singleton ?_)
    intro name read temporary
    rcases List.mem_append.mp read with inLeft | inRight
    · exact (before.ready name inLeft temporary).append straight
    · exact (behind.ready name inRight temporary).after leftCode
  ready name read _ := by
    rw [List.mem_singleton] at read
    subst read
    exact supplied_concat _ _ op left right

end Orderly

end Instruction

namespace Lowering

open Instruction

section Expressions

variable {before after : State} {expr : Expr} {code : List Instruction} {operand : Operand}

/-- The code of an expression has no jumps. -/
theorem isStraight_of_computes (computes : Computes before expr code operand after) :
    ∀ instruction ∈ code, instruction.IsStraight := by
  intro instruction present
  rcases isOperator_of_computes computes instruction present with ⟨target, op, left, right, rfl⟩
  exact ⟨rfl, rfl⟩

/-- The code of an expression leaves its operand to be read. -/
theorem orderly_of_computes (computes : Computes before expr code operand after)
    (fresh : ∀ name ∈ expr.vars, ¬IsTemporary name) : Orderly code operand.names := by
  induction computes with
  | literal state value span => exact orderly_nil
  | var state name span => exact orderly_variable (fresh name (List.mem_singleton_self name))
  | binary leftComputes rightComputes ihLeft ihRight =>
      rw [Expr.vars, List.forall_mem_append] at fresh
      exact (ihLeft fresh.1).operator (ihRight fresh.2) (isStraight_of_computes rightComputes) _ _
  | @unary before after op inner span code operand innerComputes ih =>
      have inner := ih fresh
      have zero : Orderly [] (Operand.literal (.int 0)).names := orderly_nil
      cases op with
      | neg =>
          exact zero.operator inner (isStraight_of_computes innerComputes)
            (temporaryName after.nextTemporary) .sub
      | not =>
          have compared := inner.operator zero (List.forall_mem_nil _)
            (temporaryName after.nextTemporary) .eq
          rw [List.append_nil] at compared
          exact compared

/-- A test reads its truth once. -/
theorem orderly_test (computes : Computes before expr code operand after)
    (fresh : ∀ name ∈ expr.vars, ¬IsTemporary name) (label : String) :
    Orderly (code ++ [.jumpUnless operand label]) [] :=
  Orderly.concat (orderly_of_computes computes fresh) nofun

end Expressions

section Statements

variable {before after : State} {stmt : Stmt} {code : List Instruction}

/-- Output reads variables only. -/
theorem orderly_print (format : String) (argument : Option Identifier) (line : UInt32)
    (state : State) (fresh : ∀ source ∈ argument, ¬IsTemporary source.name) :
    Orderly ((print format argument line).run state).1 [] := by
  have text (text : String) : Orderly (printText text) [] := by
    unfold printText
    split
    · exact orderly_nil
    · exact orderly_of_apart (by simp [reads]) (by simp [target?])
  unfold print
  split
  · exact orderly_nil
  · exact text _
  · rename_i before conversion after source parsed
    refine ((text before).append (orderly_of_apart ?_ ?_)).append (text after)
    · simpa [reads] using fresh
    · simp [target?]
  · exact orderly_nil
  · exact orderly_nil

theorem orderly_scan (format : String) (target : Identifier) (state : State)
    (fresh : ¬IsTemporary target.name) : Orderly ((scan format target).run state).1 [] := by
  unfold scan
  split
  · exact orderly_nil
  · apply orderly_of_apart
    · change ∀ instruction ∈ [_], _
      simp [reads]
    · change ∀ instruction ∈ [_], _
      simpa [target?] using fresh
  · exact orderly_nil

theorem orderly_label (name : String) : Orderly [.label name] [] :=
  orderly_of_apart (by simp [reads]) (by simp [target?])

theorem orderly_jump (name : String) : Orderly [.jump name] [] :=
  orderly_of_apart (by simp [reads]) (by simp [target?])

theorem orderly_turn (target name : String) : Orderly [.jump target, .label name] [] :=
  (orderly_jump target).append (orderly_label name)

/-- The code of a statement is orderly, if no variable has the name of a temporary. -/
theorem orderly_of_emits (emits : Emits before stmt code after)
    (fresh : ∀ name ∈ stmt.vars, ¬IsTemporary name) : Orderly code [] := by
  induction emits with
  | function bodyEmits ih => exact ih (by simpa using fresh)
  | blockNil state span => exact orderly_nil
  | blockCons firstEmits restEmits ihFirst ihRest =>
      rw [Stmt.vars_block_cons, List.forall_mem_append] at fresh
      exact (ihFirst fresh.1).append (ihRest fresh.2)
  | declare state type name span => exact orderly_nil
  | define valueComputes =>
      rw [Stmt.vars_define, List.forall_mem_cons] at fresh
      refine Orderly.concat (orderly_of_computes valueComputes fresh.2) ?_
      simpa [target?] using fresh.1
  | assign valueComputes =>
      rw [Stmt.vars_assign, List.forall_mem_cons] at fresh
      refine Orderly.concat (orderly_of_computes valueComputes fresh.2) ?_
      simpa [target?] using fresh.1
  | ifThen conditionComputes bodyEmits ih =>
      rw [Stmt.vars_ifThen, List.forall_mem_append] at fresh
      have tested := orderly_test conditionComputes fresh.1
      exact ((tested _).append (ih fresh.2)).append (orderly_label _)
  | ifElse conditionComputes bodyEmits otherwiseEmits ihBody ihOtherwise =>
      rw [Stmt.vars_ifElse, List.forall_mem_append, List.forall_mem_append] at fresh
      refine (Orderly.append (Orderly.append ?_ (orderly_turn _ _)) ?_).append (orderly_label _)
      · exact (orderly_test conditionComputes fresh.1.1 _).append (ihBody fresh.1.2)
      · exact ihOtherwise fresh.2
  | loop conditionComputes bodyEmits ih =>
      rw [Stmt.vars_loop, List.forall_mem_append] at fresh
      refine (Orderly.append ?_ (ih fresh.2)).append (orderly_turn _ _)
      rw [List.append_assoc]
      exact (orderly_label _).append (orderly_test conditionComputes fresh.1 _)
  | print state format argument span =>
      apply orderly_print
      simpa using fresh
  | scan state format target span =>
      apply orderly_scan
      simpa using fresh
  | leaveNone state span => exact orderly_jump _
  | leaveSome valueComputes =>
      have value := orderly_of_computes valueComputes (by simpa using fresh)
      exact value.ignore.append (orderly_jump _)

end Statements

end Lowering

/-- The code of a tree is orderly, if no variable has the name of a temporary. -/
theorem Tree.orderly_lower {tree : Tree} (fresh : ∀ name ∈ tree.vars, ¬IsTemporary name)
    (session : Session) : Instruction.Orderly (tree.lower session).1.instructions.toList [] := by
  rcases tree.exists_emits session with ⟨code, after, emits, program, -⟩
  rw [program]
  refine (Lowering.orderly_of_emits emits fresh).append ?_
  cases after.exit with
  | none => exact Instruction.orderly_nil
  | some label => exact Lowering.orderly_label label

end SubsetC
