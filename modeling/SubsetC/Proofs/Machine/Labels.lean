import SubsetC.Machine.Labels

/-!
# Programs that have a label table

A program whose labels are distinct and whose jumps lead to labels has a table, and the table gives
each label the place of its definition. Whatever program has a table, `LabelTable.Describes` holds
of it: each place in the table is that of a definition, and each jump has a place.
-/

namespace SubsetC

namespace Instruction

/-- The labels that instructions define, in order. -/
def labelsOf (code : List Instruction) : List String :=
  code.filterMap label?

/-- The labels that instructions may jump to, in order. -/
def targetsOf (code : List Instruction) : List String :=
  code.filterMap jumpTarget?

@[simp]
theorem labelsOf_nil : labelsOf [] = [] := rfl

@[simp]
theorem labelsOf_cons (first : Instruction) (rest : List Instruction) :
    labelsOf (first :: rest) = first.label?.toList ++ labelsOf rest := by
  cases defines : first.label? <;> simp [labelsOf, defines]

/-- Labels of code in two parts. -/
@[simp]
theorem labelsOf_append (first second : List Instruction) :
    labelsOf (first ++ second) = labelsOf first ++ labelsOf second :=
  List.filterMap_append

@[simp]
theorem targetsOf_nil : targetsOf [] = [] := rfl

@[simp]
theorem targetsOf_cons (first : Instruction) (rest : List Instruction) :
    targetsOf (first :: rest) = first.jumpTarget?.toList ++ targetsOf rest := by
  cases jumps : first.jumpTarget? <;> simp [targetsOf, jumps]

/-- Targets of code in two parts. -/
@[simp]
theorem targetsOf_append (first second : List Instruction) :
    targetsOf (first ++ second) = targetsOf first ++ targetsOf second :=
  List.filterMap_append

theorem eq_label_of_label? {instruction : Instruction} {name : String}
    (defines : instruction.label? = some name) : instruction = .label name := by
  cases instruction <;> simp only [label?, reduceCtorEq, Option.some.injEq] at defines
  rw [defines]

/-- A label is in the code where an instruction defines it. -/
theorem mem_labelsOf {code : List Instruction} {name : String} :
    name ∈ labelsOf code ↔ .label name ∈ code := by
  simp only [labelsOf, List.mem_filterMap]
  constructor
  · rintro ⟨instruction, present, defines⟩
    rwa [eq_label_of_label? defines] at present
  · intro present
    exact ⟨_, present, rfl⟩

end Instruction

namespace LabelTable

open Instruction

/-- What is entered for code at `index` whose labels are distinct and have no place yet. -/
theorem define_eq_ok {code : List Instruction} (places : Table Nat) (index : Nat)
    (distinct : (labelsOf code).Nodup) (fresh : ∀ name ∈ labelsOf code, places.get? name = none) :
    ∃ places', define places index code = .ok places' ∧
      (∀ name, name ∉ labelsOf code → places'.get? name = places.get? name) ∧
      ∀ offset name, code[offset]? = some (.label name) →
        places'.get? name = some (index + offset) := by
  induction code generalizing places index with
  | nil => exact ⟨places, rfl, by simp, by simp⟩
  | cons instruction rest ih =>
      cases defines : instruction.label? with
      | none =>
          have same : labelsOf (instruction :: rest) = labelsOf rest := by simp [labelsOf, defines]
          rw [same] at distinct fresh
          rcases ih places (index + 1) distinct fresh with ⟨places', defined, others, found⟩
          refine ⟨places', ?_, ?_, ?_⟩
          · simpa [define, defines] using defined
          · simpa [same] using others
          · intro offset name here
            cases offset with
            | zero =>
                simp only [List.getElem?_cons_zero, Option.some.injEq] at here
                simp [here, label?] at defines
            | succ offset =>
                have place := found offset name (by simpa using here)
                rw [place]
                congr 1
                omega
      | some label =>
          have more : labelsOf (instruction :: rest) = label :: labelsOf rest := by
            simp [labelsOf, defines]
          rw [more] at distinct fresh
          rcases List.nodup_cons.mp distinct with ⟨unused, distinct⟩
          have fresh' : ∀ name ∈ labelsOf rest, (places.set label index).get? name = none := by
            intro name present
            have other : label ≠ name := by
              rintro rfl
              exact unused present
            rw [Table.get?_set, if_neg other]
            exact fresh name (List.mem_cons_of_mem _ present)
          rcases ih (places.set label index) (index + 1) distinct fresh' with
            ⟨places', defined, others, found⟩
          refine ⟨places', ?_, ?_, ?_⟩
          · have free := fresh label List.mem_cons_self
            simpa [define, defines, free] using defined
          · intro name absent
            rw [more, List.mem_cons, not_or] at absent
            rw [others name absent.2, Table.get?_set, if_neg (Ne.symm absent.1)]
          · intro offset name here
            cases offset with
            | zero =>
                simp only [List.getElem?_cons_zero, Option.some.injEq] at here
                rw [here] at defines
                simp only [label?, Option.some.injEq] at defines
                subst defines
                simp [others _ unused, Table.get?_set]
            | succ offset =>
                have place := found offset name (by simpa using here)
                rw [place]
                congr 1
                omega

/-- No target is missing if all of them have a place. -/
theorem undefined?_eq_none {code : List Instruction} {places : Table Nat} {index : Nat}
    (defined : ∀ name ∈ targetsOf code, places.contains name = true) :
    undefined? places index code = none := by
  induction code generalizing index with
  | nil => rfl
  | cons instruction rest ih =>
      cases jumps : instruction.jumpTarget? with
      | none =>
          simp only [undefined?, jumps]
          exact ih (by simpa [targetsOf, jumps] using defined)
      | some label =>
          have more : targetsOf (instruction :: rest) = label :: targetsOf rest := by
            simp [targetsOf, jumps]
          rw [more] at defined
          simp only [undefined?, jumps, defined label List.mem_cons_self, if_true]
          exact ih fun name present => defined name (List.mem_cons_of_mem _ present)

/-- Without a fault the table has the labels of the code. -/
theorem ofProgram_eq_ok {program : Program}
    (distinct : (labelsOf program.instructions.toList).Nodup)
    (closed : ∀ name ∈ targetsOf program.instructions.toList,
      name ∈ labelsOf program.instructions.toList) :
    ∃ table, ofProgram program = .ok table ∧
      ∀ (index : Nat) (name : String), program.instructions[index]? = some (.label name) →
        table.place? name = some index := by
  rcases define_eq_ok .empty 0 distinct fun _ _ => rfl with ⟨places, defined, -, found⟩
  have contained : ∀ name ∈ targetsOf program.instructions.toList,
      places.contains name = true := by
    intro name jumped
    rcases List.getElem?_of_mem (mem_labelsOf.mp (closed name jumped)) with ⟨offset, here⟩
    simp [Table.contains, found offset name here]
  refine ⟨⟨places⟩, ?_, ?_⟩
  · simp [ofProgram, defined, undefined?_eq_none contained]
  · intro index name here
    have place := found index name (by simpa using here)
    simpa [place?] using place

/-- What is in the table of a program: places of definitions only, and one for each jump. -/
structure Describes (table : LabelTable) (program : Program) : Prop where
  defined : ∀ {name : String} {index : Nat}, table.place? name = some index →
    program.instructions[index]? = some (.label name)
  closed : ∀ name ∈ targetsOf program.instructions.toList, ∃ index, table.place? name = some index

/-- What has a place once code at `index` has been entered had one before or is defined there. -/
theorem defined_of_define {code : List Instruction} {places places' : Table Nat} {index : Nat}
    (entered : define places index code = .ok places') {name : String} {place : Nat}
    (found : places'.get? name = some place) :
    places.get? name = some place ∨
      ∃ offset, place = index + offset ∧ code[offset]? = some (.label name) := by
  induction code generalizing places index with
  | nil =>
      cases entered
      exact .inl found
  | cons instruction rest ih =>
      cases defines : instruction.label? with
      | none =>
          simp only [define, defines] at entered
          rcases ih entered with before | ⟨offset, same, here⟩
          · exact .inl before
          · refine .inr ⟨offset + 1, ?_, ?_⟩
            · omega
            · simpa using here
      | some label =>
          simp only [define, defines] at entered
          split at entered
          · cases entered
          · rcases ih entered with before | ⟨offset, same, here⟩
            · rw [Table.get?_set] at before
              split at before
              · rename_i equal
                cases before
                subst equal
                refine .inr ⟨0, rfl, ?_⟩
                rw [List.getElem?_cons_zero, eq_label_of_label? defines]
              · exact .inl before
            · refine .inr ⟨offset + 1, ?_, ?_⟩
              · omega
              · simpa using here

theorem contains_of_undefined? {code : List Instruction} {places : Table Nat} {index : Nat}
    (closed : undefined? places index code = none) :
    ∀ name ∈ targetsOf code, places.contains name = true := by
  induction code generalizing index with
  | nil => simp
  | cons instruction rest ih =>
      cases jumps : instruction.jumpTarget? with
      | none =>
          simp only [undefined?, jumps] at closed
          simpa [jumps] using ih closed
      | some label =>
          simp only [undefined?, jumps] at closed
          split at closed
          · rename_i known
            simpa [jumps, known] using ih closed
          · cases closed

/-- The table of a program describes it. -/
theorem describes_of_ofProgram {program : Program} {table : LabelTable}
    (built : ofProgram program = .ok table) : table.Describes program := by
  simp only [ofProgram] at built
  split at built
  · cases built
  · rename_i places entered
    split at built
    · cases built
    · rename_i closed
      cases built
      constructor
      · intro name index found
        rcases defined_of_define entered found with before | ⟨offset, rfl, here⟩
        · cases before
        · rw [Nat.zero_add, ← Array.getElem?_toList, here]
      · intro name jumped
        exact Option.isSome_iff_exists.mp (contains_of_undefined? closed name jumped)

end LabelTable

end SubsetC
