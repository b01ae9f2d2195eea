import SubsetC.Proofs.Machine.Stretches
import SubsetC.Proofs.Temporaries

/-!
# Temporaries are assigned once

Each operator of a tree gets one instruction and a temporary of its own. Nothing else stores to the
temporary, and it is read at most once. Neither a label nor a jump stands between the two, so in a
run the value that is read is the one that has just been computed, however often the run comes by.
-/

namespace SubsetC

open Instruction Session

theorem Session.temporaryName_eq (number : UInt32) :
    temporaryName number = "t" ++ toString number.toNat := by
  apply String.toList_injective
  simp [temporaryName, Decimal.digits, Nat.repr]

/-- The names of temporaries count on, as long as the counter does not start over. -/
theorem Session.namesAfter_temporaryName {last : UInt32} {count : Nat}
    (room : last.toNat + count < 2 ^ 32) :
    namesAfter temporaryName last count =
      (List.range count).map fun index => "t" ++ toString (last.toNat + index + 1) := by
  induction count with
  | zero => rfl
  | succ count ih =>
      have number : (last + UInt32.ofNat count + 1).toNat = last.toNat + count + 1 := by
        have next := toNat_add_ofNat room
        rwa [UInt32.ofNat_add, ← UInt32.add_assoc, ← Nat.add_assoc] at next
      rw [namesAfter_add, ih (by omega), List.range_succ, List.map_append, List.map_singleton,
        namesAfter_succ, namesAfter_zero, temporaryName_eq, number]

/-- No two operators store to the same name. -/
theorem Instruction.temporary?_ne_of_lt {code : List Instruction} {name : String}
    {first second : Nat} (distinct : (temporariesOf code).Nodup) (before : first < second)
    {instruction other : Instruction} (here : code[first]? = some instruction)
    (there : code[second]? = some other) (stores : instruction.temporary? = some name) :
    other.temporary? ≠ some name := by
  intro again
  rcases List.getElem?_eq_some_iff.mp here with ⟨firstSmall, rfl⟩
  rcases List.getElem?_eq_some_iff.mp there with ⟨secondSmall, rfl⟩
  have apart := List.pairwise_iff_getElem.mp (List.pairwise_filterMap.mp distinct) first second
    firstSmall secondSmall before
  exact apart name stores name again rfl

/-- The operator at `place` stores to the name, and nothing in front of `index` stores to it again,
is a label or jumps. -/
structure Program.Supplies (program : Program) (name : String) (place index : Nat) : Prop where
  before : place < index
  operator : ∃ op left right, program.instructions[place]? = some (.binary name op left right)
  straight : ∀ between, place < between → between < index → ∀ instruction,
    program.instructions[between]? = some instruction →
      instruction.IsStraight ∧ instruction.target? ≠ some name

/-- Behind the earlier rounds of the run stands an operator that stores to the name. The further
rounds have executed it and gone straight on, and the name has the value that it has computed. -/
structure Machine.Recalls (start : Machine) (console : Console) (name : String)
    (earlier more : Nat) : Prop where
  later : 0 < more
  straight : ∀ passed ≤ more, (start.runFor (earlier + passed) console).1.state = .running ∧
    (start.runFor (earlier + passed) console).1.counter =
      (start.runFor earlier console).1.counter + passed
  computed : ∃ op left right,
    start.program.instructions[(start.runFor earlier console).1.counter]? =
      some (.binary name op left right) ∧
    (start.runFor (earlier + more) console).1.store.get? name =
      some ((op.apply (left.value (start.runFor earlier console).1.store)
        (right.value (start.runFor earlier console).1.store)).getD (.int 0))

namespace Machine

/-- A run that has come to where a name has been supplied recalls it. -/
theorem exists_recalls {start : Machine} {console : Console} {name : String} {rounds place : Nat}
    (safe : start.Safe) (first : start.counter = 0)
    (running : (start.runFor rounds console).1.state = .running)
    (supplies : start.program.Supplies name place (start.runFor rounds console).1.counter)
    (unlabelled : ∀ label, start.program.instructions[(start.runFor rounds console).1.counter]? ≠
      some (.label label)) :
    ∃ earlier more, rounds = earlier + more ∧ start.Recalls console name earlier more := by
  have before := supplies.before
  obtain ⟨length, here⟩ : ∃ length, (start.runFor rounds console).1.counter = place + length :=
    Nat.exists_eq_add_of_le (Nat.le_of_lt before)
  rw [here] at before unlabelled supplies
  have noLabels : ∀ between, place < between → between ≤ place + length → ∀ label,
      start.program.instructions[between]? ≠ some (.label label) := by
    intro between after within label labelled
    rcases Nat.lt_or_eq_of_le within with inside | rfl
    · have straight := supplies.straight between after inside _ labelled
      cases straight.1.1
    · exact unlabelled label labelled
  rcases exists_earlier safe first running here noLabels with ⟨earlier, rfl, through⟩
  have atStart : (start.runFor earlier console).1.counter = place := (through 0 (Nat.zero_le _)).2
  refine ⟨earlier, length, rfl, by omega, ?_, ?_⟩
  · rw [atStart]
    exact through
  · rcases supplies.operator with ⟨op, left, right, operator⟩
    rw [← atStart] at operator
    refine ⟨op, left, right, operator, ?_⟩
    -- The operator is the first of the further rounds, and the others leave the name alone.
    obtain ⟨others, rfl⟩ : ∃ others, length = 1 + others := Nat.exists_eq_add_of_le (by omega)
    rw [← Nat.add_assoc, get?_runFor_of_target]
    · have goesOn := (through 1 (by omega)).1
      rw [runFor_succ_last] at goesOn ⊢
      apply get?_step_binary _ goesOn
      rw [program_runFor]
      exact operator
    · intro passed small instruction there
      rw [Nat.add_assoc, (through (1 + passed) (by omega)).2] at there
      exact (supplies.straight (place + (1 + passed)) (by omega) (by omega) instruction there).2

end Machine

namespace Tree

variable {tree : Tree} {session : Session}

theorem nodup_temporariesOf_lower (room : session.temporaries.toNat + tree.temporaries < 2 ^ 32) :
    (temporariesOf (tree.lower session).1.instructions.toList).Nodup := by
  rw [temporariesOf_lower]
  exact nodup_namesAfter temporaryName_injective (by omega)

/-- Where an instruction of a tree reads a temporary, it is supplied. -/
theorem exists_supplies (fresh : ∀ name ∈ tree.vars, ¬IsTemporary name)
    (room : session.temporaries.toNat + tree.temporaries < 2 ^ 32) {index : Nat}
    {instruction : Instruction}
    (here : (tree.lower session).1.instructions[index]? = some instruction) {name : String}
    (read : name ∈ instruction.reads) (temporary : IsTemporary name) :
    ∃ place, (tree.lower session).1.Supplies name place index := by
  have orderly := orderly_lower fresh session
  rw [← Array.getElem?_toList] at here
  have supplied := orderly.backed index instruction here name read temporary
  rcases supplied.exists_place with ⟨place, before, ⟨op, left, right, operator⟩, straight⟩
  refine ⟨place, before, ⟨op, left, right, ?_⟩, ?_⟩
  · rw [← Array.getElem?_toList, operator]
  · intro between behind inFront other there
    rw [← Array.getElem?_toList] at there
    refine ⟨straight between behind inFront other there, ?_⟩
    intro stores
    have again := orderly.stores other (List.mem_of_getElem? there) name stores temporary
    exact temporary?_ne_of_lt (nodup_temporariesOf_lower room) behind operator there rfl again

/-- If no variable has the name of a temporary and the counter does not start over, the operators of
a tree store to one temporary each, in order. Nothing else stores to a temporary, each is read once
at most, and where it is read, it has been stored to without a label or a jump in between. So
wherever a run reads a temporary, it finds what has just been computed for it. -/
theorem lower_singleAssignment (fresh : ∀ name ∈ tree.vars, ¬IsTemporary name)
    (room : session.temporaries.toNat + tree.temporaries < 2 ^ 32) :
    let program := (tree.lower session).1
    temporariesOf program.instructions.toList =
        (List.range (tree.whole.expressions.map Expr.operators).sum).map
          (fun index => "t" ++ toString (session.temporaries.toNat + index + 1)) ∧
      (∀ instruction ∈ program.instructions.toList, ∀ name, instruction.target? = some name →
        IsTemporary name → ∃ op left right, instruction = .binary name op left right) ∧
      (∀ name, IsTemporary name → (readsOf program.instructions.toList).count name ≤ 1) ∧
      (∀ index instruction, program.instructions[index]? = some instruction →
        ∀ name ∈ instruction.reads, IsTemporary name →
          ∃ place, program.Supplies name place index) ∧
      (∀ config start, Machine.load program config = .ok start → ∀ rounds console instruction,
        (start.runFor rounds console).1.state = .running →
        program.instructions[(start.runFor rounds console).1.counter]? = some instruction →
        ∀ name ∈ instruction.reads, IsTemporary name →
          ∃ earlier more, rounds = earlier + more ∧ start.Recalls console name earlier more) := by
  intro program
  have orderly := orderly_lower fresh session
  refine ⟨?_, ?_, ?_, ?_, ?_⟩
  · rw [temporariesOf_lower]
    exact namesAfter_temporaryName room
  · intro instruction present name stores temporary
    have operator := orderly.stores instruction present name stores temporary
    cases instruction with
    | binary target op left right =>
        cases operator
        exact ⟨op, left, right, rfl⟩
    | _ => cases operator
  · intro name temporary
    have distinct := List.nodup_iff_count.mp (nodup_temporariesOf_lower room) name
    exact Nat.le_trans (orderly.once name temporary) distinct
  · intro index instruction here name read temporary
    exact exists_supplies fresh room here read temporary
  · intro config start loaded rounds console instruction running here name read temporary
    rcases exists_supplies fresh room here read temporary with ⟨place, supplies⟩
    have same : start.program = program := Machine.program_load loaded
    apply Machine.exists_recalls (Machine.safe_load loaded) (Machine.counter_load loaded) running
    · rw [same]
      exact supplies
    · intro label labelled
      rw [same, here] at labelled
      cases labelled
      cases read

/-- Takes one from three until nothing is left. -/
def decrement : Tree where
  statements :=
    [.define .int ⟨"i", default⟩ (.literal (.int 3) default) default,
      .loop (.var "i" default)
        ⟨[.assign ⟨"i", default⟩
          (.binary .sub (.var "i" default) (.literal (.int 1) default) default) default], default⟩
        default]
  span := default

/-- The difference is computed anew each time, in the temporary behind those of the session. -/
theorem lower_singleAssignment_decrement :
    ∃ start, Machine.load (decrement.lower { Session.empty with temporaries := 5 }).1 default =
        .ok start ∧
      (start.runFor 9 (.ofAnswers [])).1.state = .running ∧
      ∃ earlier more, 9 = earlier + more ∧ start.Recalls (.ofAnswers []) "t6" earlier more := by
  refine ⟨_, rfl, by decide +kernel, ?_⟩
  have settled := @lower_singleAssignment decrement { Session.empty with temporaries := 5 }
    (by decide +kernel) (by decide +kernel)
  exact settled.2.2.2.2 default _ rfl 9 (.ofAnswers []) (.assign "i" (.name "t6"))
    (by decide +kernel) (by decide +kernel) "t6" (by decide) ⟨6, by decide +kernel⟩

end Tree

end SubsetC
