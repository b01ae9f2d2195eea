import SubsetC.Proofs.Linking
import SubsetC.Proofs.Lowering.Extents
import SubsetC.Proofs.Machine.Forward

/-!
# The layout of lowered programs

`Tree.lower_layout` puts together where the code of each statement lies and where jumps lead. Only
the end of a loop jumps back, so the program of a tree without loops goes forward, and a machine
that it is loaded into stops after no more instructions than there are.
-/

namespace SubsetC

open Instruction Lowering Session

namespace Program

variable {program : Program} {index target : Nat}

/-- A label is at one place only. -/
theorem Linked.eq_of_label (linked : program.Linked) {label : String}
    (here : program.instructions[index]? = some (.label label))
    (there : program.instructions[target]? = some (.label label)) : index = target := by
  rcases LabelTable.ofProgram_eq_ok linked.distinct linked.closed with ⟨table, -, found⟩
  have same := found index label here
  rw [found target label there] at same
  exact (Option.some.inj same).symm

theorem Linked.exists_jumps (linked : program.Linked) {instruction : Instruction} {label : String}
    (here : program.instructions[index]? = some instruction)
    (jumps : instruction.jumpTarget? = some label) : ∃ target, program.Jumps index target := by
  have mem : instruction ∈ program.instructions.toList := by
    rw [← Array.getElem?_toList] at here
    exact List.mem_of_getElem? here
  have defined := linked.closed label (List.mem_filterMap.mpr ⟨instruction, mem, jumps⟩)
  rw [mem_labelsOf] at defined
  rcases List.getElem?_of_mem defined with ⟨target, there⟩
  rw [Array.getElem?_toList] at there
  exact ⟨target, instruction, label, here, jumps, there⟩

theorem holds_getElem? {place offset : Nat} {code : List Instruction} {instruction : Instruction}
    (held : program.Holds place code) (here : code[offset]? = some instruction) :
    program.instructions[place + offset]? = some instruction := by
  induction code generalizing place offset with
  | nil => cases here
  | cons first rest ih =>
      cases offset with
      | zero =>
          cases here
          exact held.1
      | succ offset =>
          rw [Nat.add_comm offset, ← Nat.add_assoc]
          exact ih held.2 here

end Program

namespace Tree

/-- The extents of all statements of the tree, at any depth. -/
def extents (tree : Tree) (session : Session) : List Extent :=
  statementExtents 0 ⟨session, none⟩ tree.statements

/-- The code of all statements, and the state behind them. -/
def lowered (tree : Tree) (session : Session) : List Instruction × State :=
  (Lowering.statements tree.statements).run ⟨session, none⟩

/-- The label that the returns of the tree jump to, if there are any. -/
def exit? (tree : Tree) (session : Session) : Option String :=
  (tree.lowered session).2.exit

section Layout

variable {tree : Tree} {session : Session}

/-- The code of all statements, behind which there is only the label of returns. -/
theorem toList_lower (tree : Tree) (session : Session) :
    (tree.lower session).1.instructions.toList =
      (tree.lowered session).1 ++
        (tree.exit? session).toList.map .label := by
  change (_ ++ _ : List Instruction).toArray.toList = _
  rw [List.toList_toArray]
  rfl

/-- The extents of a tree lie in its code. -/
theorem within_lowered : ∀ extent ∈ tree.extents session,
    Extent.Within 0 (tree.lowered session).1 (tree.exit? session) extent :=
  within_statements tree.statements 0 ⟨session, none⟩

/-- Jumps of the code lead ahead, those of loops apart. -/
theorem ahead_lowered :
    Ahead (tree.extents session) (tree.exit? session) [] 0 (tree.lowered session).1 :=
  ahead_statements tree.statements 0 ⟨session, none⟩

theorem isSome_exit? (tree : Tree) (session : Session) :
    (tree.exit? session).isSome = tree.whole.leaves :=
  isSome_exit_of_emits (emits_statements tree.statements tree.span ⟨session, none⟩)

/-- The code ends with the label for returns, if there are any. -/
theorem size_lower (tree : Tree) (session : Session) :
    (tree.lower session).1.size =
      (tree.lowered session).1.length + (tree.exit? session).toList.length := by
  rw [Program.size, ← Array.length_toList, toList_lower, List.length_append, List.length_map]

/-- The label of returns is the last instruction. -/
theorem getElem?_exit {label : String} (known : tree.exit? session = some label) :
    (tree.lower session).1.instructions[
      (tree.lowered session).1.length]? = some (.label label) := by
  rw [← Array.getElem?_toList, toList_lower, known,
    List.getElem?_append_right (Nat.le_refl _), Nat.sub_self]
  rfl

/-- The code of a statement is found in its extent. -/
theorem holds_extent {extent : Extent} (mem : extent ∈ tree.extents session) :
    (tree.lower session).1.Holds extent.place extent.code ∧
      ∀ label, extent.after.exit = some label → tree.exit? session = some label := by
  rcases within_lowered extent mem with ⟨front, rest, code, place, known⟩
  have held : (tree.lower session).1.Holds 0 (front ++ extent.code ++ rest ++
      (tree.exit? session).toList.map .label) := by
    apply Program.holds_of_drop
    rw [List.drop_zero, toList_lower, code]
  simp only [Program.holds_append] at held
  rw [place]
  exact ⟨held.1.1.2, known⟩

/-- A jump in the code of a statement leads to a label in this code or to that of returns. -/
theorem target_inside (linked : (tree.lower session).1.Linked) {extent : Extent}
    (mem : extent ∈ tree.extents session) {index target : Nat} {instruction : Instruction}
    {label : String} (here : (tree.lower session).1.instructions[index]? = some instruction)
    (jumps : instruction.jumpTarget? = some label)
    (there : (tree.lower session).1.instructions[target]? = some (.label label))
    (starts : extent.place ≤ index) (stops : index < extent.stop) :
    (extent.place ≤ target ∧ target < extent.stop) ∨ tree.exit? session = some label := by
  rcases holds_extent mem with ⟨held, known⟩
  rw [Extent.stop] at stops ⊢
  have inside : index - extent.place < extent.code.length := by omega
  have own := Program.holds_getElem? held (List.getElem?_eq_getElem inside)
  rw [Nat.add_sub_cancel' starts, here, Option.some.injEq] at own
  have targets : label ∈ targetsOf extent.code :=
    List.mem_filterMap.mpr ⟨instruction, own ▸ List.getElem_mem inside, jumps⟩
  rcases (mem_targetsOf_of_emits (emits_statement extent.stmt extent.before) label).mp targets with
    defined | ⟨-, exit⟩
  · rcases List.getElem?_of_mem (mem_labelsOf.mp defined) with ⟨offset, found⟩
    have same := linked.eq_of_label (Program.holds_getElem? held found) there
    have short : offset < extent.code.length := (List.getElem?_eq_some_iff.mp found).1
    left
    omega
  · exact .inr (known label exit)

/-- A jump that does not lead ahead closes a loop. -/
theorem closes_of_back (linked : (tree.lower session).1.Linked) {index target : Nat}
    (jumps : (tree.lower session).1.Jumps index target) (back : target ≤ index) :
    ∃ extent ∈ tree.extents session, ∃ condition body span label,
      extent.stmt = .loop condition body span ∧ target = extent.place ∧ index + 2 = extent.stop ∧
        (tree.lower session).1.instructions[index]? = some (.jump label) := by
  rcases jumps with ⟨instruction, label, here, jumps, there⟩
  have whole := here
  rw [← Array.getElem?_toList, toList_lower] at whole
  rcases Nat.lt_or_ge index
    (tree.lowered session).1.length with inside | outside
  · rw [List.getElem?_append_left inside] at whole
    rcases ahead_lowered.later whole jumps with
      ⟨later, further, found⟩ | exit | ⟨rfl, extent, mem, closes⟩
    · have ahead : (tree.lower session).1.instructions[later]? = some (.label label) := by
        rw [← Array.getElem?_toList, toList_lower, List.getElem?_append_left
          (List.getElem?_eq_some_iff.mp found).1, found]
      have same := linked.eq_of_label ahead there
      omega
    · have same := linked.eq_of_label (getElem?_exit exit) there
      omega
    · rcases closes with ⟨condition, body, span, inner, finish, isLoop, code, stop⟩
      rw [Nat.zero_add] at stop
      have starts : (tree.lower session).1.instructions[extent.place]? = some (.label label) := by
        have held := (holds_extent mem).1
        rw [code] at held
        exact held.1
      exact ⟨extent, mem, condition, body, span, label, isLoop,
        (linked.eq_of_label starts there).symm, stop, here⟩
  · -- Only the label of returns stands behind the code.
    rw [List.getElem?_append_right outside, List.getElem?_map, Option.map_eq_some_iff] at whole
    rcases whole with ⟨exit, -, rfl⟩
    cases jumps

/-- Without loops nothing leads back. -/
theorem forward_lower (linked : (tree.lower session).1.Linked)
    (loopless : ∀ stmt ∈ tree.statementNodes, ∀ condition body span,
      stmt ≠ .loop condition body span) : (tree.lower session).1.Forward := by
  intro index target jumps
  by_contra back
  rcases closes_of_back linked jumps (Nat.le_of_not_lt back) with
    ⟨extent, mem, condition, body, span, label, isLoop, -⟩
  refine loopless extent.stmt ?_ condition body span isLoop
  rw [Tree.statementNodes, ← map_stmt_statementExtents tree.statements 0 ⟨session, none⟩]
  exact List.mem_map_of_mem mem

/-- A return jumps to the end. -/
theorem jump_of_leave {extent : Extent} (mem : extent ∈ tree.extents session) {value : Option Expr}
    {span : Span} (leaves : extent.stmt = .leave value span) :
    ∃ label, tree.exit? session = some label ∧ extent.code.getLast? = some (.jump label) := by
  rcases holds_extent mem with ⟨-, known⟩
  rcases extent with ⟨stmt, place, before⟩
  cases leaves
  cases value with
  | none => exact ⟨_, known _ (exit_exitLabel _), rfl⟩
  | some value => exact ⟨_, known _ (exit_exitLabel _), List.getLast?_concat ..⟩

end Layout

/-- The code of each statement of a tree, at any depth, lies in the program in one stretch. Every
jump in it leads to one place, in the stretch or at the label of returns. There is a label of
returns if and only if there is a return, and then it is the last instruction and all returns jump
to it. A jump does not lead ahead only if it is the last but one instruction of a loop, and then it
leads to the first one. So the program of a tree without loops, which can be loaded, stops for every
input after at most as many instructions as it has. -/
theorem lower_layout (tree : Tree) (session : Session) (room : tree.labels ≤ 2 ^ 32) :
    (tree.extents session).map Extent.stmt = tree.statementNodes ∧
    (∀ extent ∈ tree.extents session,
      (tree.lower session).1.Holds extent.place extent.code ∧
      (∀ index instruction label, extent.place ≤ index → index < extent.stop →
        (tree.lower session).1.instructions[index]? = some instruction →
        instruction.jumpTarget? = some label →
        ∃ target, (∀ other, (tree.lower session).1.instructions[other]? = some (.label label) ↔
            other = target) ∧
          ((extent.place ≤ target ∧ target < extent.stop) ∨ tree.exit? session = some label)) ∧
      ∀ value span, extent.stmt = .leave value span →
        ∃ label, tree.exit? session = some label ∧
          extent.code.getLast? = some (.jump label)) ∧
    (tree.exit? session).isSome = tree.whole.leaves ∧
    (∀ label, tree.exit? session = some label →
      (tree.lower session).1.instructions.back? = some (.label label)) ∧
    (∀ index target, (tree.lower session).1.Jumps index target → target ≤ index →
      ∃ extent ∈ tree.extents session, ∃ condition body span label,
        extent.stmt = .loop condition body span ∧ target = extent.place ∧
          index + 2 = extent.stop ∧
          (tree.lower session).1.instructions[index]? = some (.jump label)) ∧
    ((∀ stmt ∈ tree.statementNodes, ∀ condition body span, stmt ≠ .loop condition body span) →
      ∀ config, ∃ machine, Machine.load (tree.lower session).1 config = .ok machine ∧
        ∀ console, ∃ count last console', machine.EndsAfter console count last console' ∧
          count ≤ (tree.lower session).1.size ∧ last.steps = UInt64.ofNat count) := by
  have linked := tree.linked_lower session room
  refine ⟨map_stmt_statementExtents tree.statements 0 _, ?_, isSome_exit? tree session, ?_, ?_, ?_⟩
  · intro extent mem
    refine ⟨(holds_extent mem).1, ?_, fun value span => jump_of_leave mem⟩
    intro index instruction label starts stops here jumps
    rcases linked.exists_jumps here jumps with ⟨target, instruction', label', here', jumps', there⟩
    rw [here, Option.some.injEq] at here'
    subst here'
    rw [jumps, Option.some.injEq] at jumps'
    subst jumps'
    refine ⟨target, fun other => ⟨fun defined => linked.eq_of_label defined there, ?_⟩,
      target_inside linked mem here jumps there starts stops⟩
    rintro rfl
    exact there
  · intro label known
    rw [Array.back?_eq_getElem?, ← getElem?_exit known]
    congr 1
    change (tree.lower session).1.size - 1 = _
    rw [size_lower, known]
    rfl
  · intro index target
    exact closes_of_back linked
  · intro loopless config
    rcases tree.exists_load session room config with ⟨machine, loaded⟩
    refine ⟨machine, loaded, ?_⟩
    intro console
    have same := Machine.program_load loaded
    have forward : machine.program.Forward := by
      rw [same]
      exact forward_lower linked loopless
    have ended : ∃ count last console', machine.EndsAfter console count last console' ∧
        count ≤ machine.program.size :=
      Machine.exists_endsAfter (Machine.safe_load loaded) forward
    rcases ended with ⟨count, last, console', ends, few⟩
    rw [same] at few
    refine ⟨count, last, console', ends, few, ?_⟩
    rcases ends with ⟨rounds, ran, -, executed⟩
    have steps := Machine.steps_runFor rounds machine console
    rw [ran, executed, Machine.steps_load loaded, UInt64.zero_add] at steps
    exact steps

/-- Reads a number and ends the program if it is not zero. -/
def gate : Tree where
  statements :=
    [.scan "%d" ⟨"n", default⟩ default,
      .ifElse (.var "n" default) ⟨[.leave none default], default⟩
        ⟨[.assign ⟨"n", default⟩ (.literal (.int 1) default) default], default⟩ default]
  span := default

/-- The one jump back in the search closes its loop, and the gate, which has no loop, stops after at
most eight instructions whatever it reads. -/
theorem lower_layout_search :
    (search.lower .empty).1.Jumps 8 0 ∧
    (∃ extent ∈ search.extents .empty, ∃ condition body span label,
      extent.stmt = .loop condition body span ∧ 0 = extent.place ∧ 8 + 2 = extent.stop ∧
        (search.lower .empty).1.instructions[8]? = some (.jump label)) ∧
    ∀ config, ∃ machine, Machine.load (gate.lower .empty).1 config = .ok machine ∧
      ∀ console, ∃ count last console', machine.EndsAfter console count last console' ∧
        count ≤ 8 ∧ last.steps = UInt64.ofNat count := by
  have back : (search.lower .empty).1.Jumps 8 0 := ⟨.jump "L1", "L1", by decide, rfl, by decide⟩
  refine ⟨back, ?_, ?_⟩
  · rcases lower_layout search .empty (by decide) with ⟨-, -, -, -, closes, -⟩
    exact closes 8 0 back (by decide)
  · rcases lower_layout gate .empty (by decide) with ⟨-, -, -, -, -, ends⟩
    exact ends (by simp [gate, Tree.statementNodes, SubsetC.statementNodes, Stmt.nodes, blockNodes])

end Tree

end SubsetC
