import SubsetC.Proofs.Lowering.Numbering

/-!
# Lowered programs load

The labels of a lowered program are those that have been named, each of them once, and its jumps
lead to them. So it is linked and has a label table, unless the counter of labels starts over.
-/

namespace SubsetC

open Instruction Lowering Session

/-- No label is defined twice, every jump leads to a label, and every label is jumped to. -/
structure Program.Linked (program : Program) : Prop where
  distinct : (labelsOf program.instructions.toList).Nodup
  closed : ∀ name ∈ targetsOf program.instructions.toList,
    name ∈ labelsOf program.instructions.toList
  used : ∀ name ∈ labelsOf program.instructions.toList,
    name ∈ targetsOf program.instructions.toList

namespace Tree

/-- The program of a tree is its code, with the label of returns behind it if there is a return. -/
theorem exists_emits (tree : Tree) (session : Session) :
    ∃ code after, Emits ⟨session, none⟩ tree.whole code after ∧
      (tree.lower session).1.instructions.toList = code ++ after.exit.toList.map .label ∧
      (tree.lower session).2 = after.session := by
  refine ⟨_, _, emits_statements tree.statements tree.span ⟨session, none⟩, ?_, rfl⟩
  change (_ ++ _ : List Instruction).toArray.toList = _
  rw [List.toList_toArray]
  rfl

theorem labelsOf_exit (exit : Option String) :
    labelsOf (exit.toList.map .label) = exit.toList := by
  cases exit <;> rfl

theorem targetsOf_exit (exit : Option String) :
    targetsOf (exit.toList.map .label) = [] := by
  cases exit <;> rfl

theorem length_exit_of_emits {tree : Tree} {session : Session} {code : List Instruction}
    {after : Lowering.State} (emits : Emits ⟨session, none⟩ tree.whole code after) :
    after.exit.toList.length = tree.whole.leaves.toNat := by
  have isSome := isSome_exit_of_emits emits
  cases leaves : tree.whole.leaves <;> cases exit : after.exit <;> simp_all

theorem labelsOf_lower (tree : Tree) (session : Session) :
    (labelsOf (tree.lower session).1.instructions.toList).Perm
      (namesAfter labelName session.labels tree.labels) := by
  rcases tree.exists_emits session with ⟨code, after, emits, program, -⟩
  have named := labelsOf_of_emits emits
  have new : newExit ⟨session, none⟩ after = after.exit.toList := rfl
  rw [new, length_exit_of_emits emits] at named
  rw [program, labelsOf_append, labelsOf_exit]
  exact named

theorem mem_targetsOf_lower (tree : Tree) (session : Session) (label : String) :
    label ∈ targetsOf (tree.lower session).1.instructions.toList ↔
      label ∈ labelsOf (tree.lower session).1.instructions.toList := by
  rcases tree.exists_emits session with ⟨code, after, emits, program, -⟩
  have isSome := isSome_exit_of_emits emits
  rw [program, targetsOf_append, labelsOf_append, targetsOf_exit, labelsOf_exit,
    List.append_nil, List.mem_append, mem_targetsOf_of_emits emits, Option.mem_toList]
  constructor
  · rintro (defined | ⟨-, exit⟩)
    · exact .inl defined
    · exact .inr exit
  · rintro (defined | exit)
    · exact .inl defined
    · refine .inr ⟨?_, exit⟩
      simpa [Option.mem_def.mp exit] using isSome.symm

/-- The lowering counts the labels that the tree needs. -/
theorem labels_lower (tree : Tree) (session : Session) :
    (tree.lower session).2.labels = session.labels + UInt32.ofNat tree.labels := by
  rcases tree.exists_emits session with ⟨code, after, emits, -, same⟩
  have new : newExit ⟨session, none⟩ after = after.exit.toList := rfl
  rw [same, labels_of_emits emits, new, length_exit_of_emits emits]
  rfl

theorem linked_lower (tree : Tree) (session : Session) (room : tree.labels ≤ 2 ^ 32) :
    (tree.lower session).1.Linked where
  distinct := (labelsOf_lower tree session).nodup_iff.mpr
    (nodup_namesAfter labelName_injective room)
  closed label := (mem_targetsOf_lower tree session label).mp
  used label := (mem_targetsOf_lower tree session label).mpr

/-- The table of a lowered program gives each label the place of its definition. -/
theorem ofProgram_lower (tree : Tree) (session : Session)
    (room : session.labels.toNat + tree.labels < 2 ^ 32) :
    ∃ table, LabelTable.ofProgram (tree.lower session).1 = .ok table ∧
      ∀ (index : Nat) (name : String),
        (tree.lower session).1.instructions[index]? = some (.label name) →
          table.place? name = some index := by
  have linked := linked_lower tree session (by omega)
  exact LabelTable.ofProgram_eq_ok linked.distinct linked.closed

end Tree

end SubsetC
