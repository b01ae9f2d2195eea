import Mathlib.Data.List.Nodup
import SubsetC.Proofs.Lowering.Loading
import SubsetC.Run

/-!
# The programs of one session

Trees may be lowered one after the other in one session, and then the labels go on being counted.
`loweredInTurn_linked` says that every program is linked and has a label table and that no two of
them share a label, as long as the counter does not start over; so whatever has been compiled can be
loaded.
-/

namespace SubsetC

open Instruction Session

namespace Tree

/-- The programs of trees that are lowered one after the other in one session, of which `labels`
labels have been named at first. Between two trees anything in the session may change but this
count. -/
inductive LoweredInTurn : (labels : UInt32) → List Tree → List Program → Prop
  | nil (labels : UInt32) : LoweredInTurn labels [] []
  | cons (tree : Tree) (session : Session) {trees : List Tree} {programs : List Program}
      (others : LoweredInTurn (tree.lower session).2.labels trees programs) :
      LoweredInTurn session.labels (tree :: trees) ((tree.lower session).1 :: programs)

variable {labels : UInt32} {trees : List Tree} {programs : List Program}

theorem LoweredInTurn.linked (lowered : LoweredInTurn labels trees programs)
    (room : (trees.map Tree.labels).sum ≤ 2 ^ 32) : ∀ program ∈ programs, program.Linked := by
  induction lowered with
  | nil labels => simp
  | cons tree session others ih =>
      rw [List.map_cons, List.sum_cons] at room
      rw [List.forall_mem_cons]
      exact ⟨linked_lower tree session (by omega), ih (by omega)⟩

/-- The labels of all programs are those that have been named, each of them once. -/
theorem LoweredInTurn.labelsOf (lowered : LoweredInTurn labels trees programs) :
    (programs.flatMap fun program => labelsOf program.instructions.toList).Perm
      (namesAfter labelName labels (trees.map Tree.labels).sum) := by
  induction lowered with
  | nil labels => exact .refl _
  | cons tree session others ih =>
      rw [List.map_cons, List.sum_cons, namesAfter_add, List.flatMap_cons]
      rw [labels_lower] at ih
      exact (labelsOf_lower tree session).append ih

theorem LoweredInTurn.disjoint (lowered : LoweredInTurn labels trees programs)
    (room : (trees.map Tree.labels).sum ≤ 2 ^ 32) :
    programs.Pairwise fun first second =>
      (Instruction.labelsOf first.instructions.toList).Disjoint
        (Instruction.labelsOf second.instructions.toList) := by
  have distinct := lowered.labelsOf.nodup_iff.mpr (nodup_namesAfter labelName_injective room)
  exact (List.nodup_flatMap.mp distinct).2

end Tree

namespace Program

theorem Linked.exists_table {program : Program} (linked : program.Linked) :
    ∃ table, LabelTable.ofProgram program = .ok table := by
  rcases LabelTable.ofProgram_eq_ok linked.distinct linked.closed with ⟨table, built, -⟩
  exact ⟨table, built⟩

end Program

/-- Code with labels that can be counted is not refused by the machine. -/
theorem Tree.exists_load (tree : Tree) (session : Session) (room : tree.labels ≤ 2 ^ 32)
    (config : Config) : ∃ machine, Machine.load (tree.lower session).1 config = .ok machine := by
  rcases (tree.linked_lower session room).exists_table with ⟨table, built⟩
  simp [Machine.load, built]

theorem prepare_ne_load {source : String} (room : (parse source .empty).1.1.labels ≤ 2 ^ 32)
    (config : Config) (fault : Fault) : (prepare source config).1 ≠ .error (.load fault) := by
  unfold prepare compile
  rcases parsed : parse source .empty with ⟨⟨tree, failure⟩, session⟩
  rw [parsed] at room
  cases failure with
  | some error => simp
  | none =>
      rcases tree.exists_load session room config with ⟨machine, loaded⟩
      simp [loaded]

theorem run_ne_load {source : String} (room : (parse source .empty).1.1.labels ≤ 2 ^ 32)
    (rounds : Nat) (config : Config) (console : Console) (fault : Fault) :
    (run rounds source config console).1 ≠ .error (.load fault) := by
  have loads := prepare_ne_load room config fault
  unfold run
  rcases prepared : prepare source config with ⟨outcome, diagnostics⟩
  rw [prepared] at loads
  cases outcome with
  | error error => exact loads
  | ok start => exact nofun

/-- Programs that are lowered one after the other in one session have tables and are linked, each
for itself: its labels are defined once, its jumps lead to them, and they are all jumped to. No two
of the programs share a label. So no source is refused once it has been compiled. All this holds as
long as no more labels are needed than there are numbers for them. -/
theorem loweredInTurn_linked {labels : UInt32} {trees : List Tree} {programs : List Program}
    (lowered : Tree.LoweredInTurn labels trees programs)
    (room : (trees.map Tree.labels).sum ≤ 2 ^ 32) :
    (∀ program ∈ programs, program.Linked ∧
      ∃ table, LabelTable.ofProgram program = .ok table) ∧
    (programs.Pairwise fun first second =>
      (labelsOf first.instructions.toList).Disjoint (labelsOf second.instructions.toList)) ∧
    ∀ source, (parse source .empty).1.1.labels ≤ 2 ^ 32 → ∀ rounds config console fault,
      (run rounds source config console).1 ≠ .error (.load fault) := by
  refine ⟨?_, lowered.disjoint room, fun source few => run_ne_load few⟩
  intro program mem
  have linked := lowered.linked room program mem
  exact ⟨linked, linked.exists_table⟩

namespace Tree

/-- A loop that may end the program, with a condition in it. -/
def search : Tree where
  statements :=
    [.loop (.var "n" default)
      ⟨[.ifElse (.var "found" default) ⟨[.leave none default], default⟩
        ⟨[.assign ⟨"n", default⟩ (.literal (.int 0) default) default], default⟩ default],
        default⟩ default]
  span := default

end Tree

/-- The same tree twice in a session in which seven labels have been named, and a source. -/
theorem loweredInTurn_linked_search :
    let session : Session := { Session.empty with labels := 7 }
    let first := Tree.search.lower session
    let second := Tree.search.lower { first.2 with diagnostics := #[] }
    (first.1.Linked ∧ second.1.Linked) ∧
      (labelsOf first.1.instructions.toList).Disjoint (labelsOf second.1.instructions.toList) ∧
      ∀ fault, (run 10 "while (0) { return; }" ⟨true, none⟩ (.ofAnswers [])).1 ≠
        .error (.load fault) := by
  intro session first second
  have linked := loweredInTurn_linked
    (.cons Tree.search session (.cons Tree.search { first.2 with diagnostics := #[] } (.nil _)))
    (by decide)
  refine ⟨⟨(linked.1 _ (by simp [first])).1, (linked.1 _ (by simp [second])).1⟩, ?_, ?_⟩
  · exact (List.pairwise_cons.mp linked.2.1).1 _ (List.mem_singleton.mpr rfl)
  · exact linked.2.2 _ (by decide +kernel) _ _ _

end SubsetC
