import SubsetC.Code.Saved
import SubsetC.Proofs.Json.Values

/-!
# Restoring what was saved

`Program.restore_save`: a saved program is restored as it was, whatever names, texts and values
stand in it. The first part undoes the records: each value, operand and instruction is what its JSON
value says. The second part follows `Program.reader` over the text, with the lemmas on parts between
brackets for the instructions and for their fields.
-/

namespace SubsetC

open Json

/-! ## What the records say -/

theorem Json.tagged?_object (alternatives : List String) {tag content : String} (name : String)
    (value : Json) (distinct : tag ≠ content) :
    (Json.object [(tag, .string name), (content, value)]).tagged? alternatives tag content =
      some (name, value) := by
  simp [tagged?, Record.fields?, choice?, distinct, distinct.symm]

theorem Value.ofJson?_toJson (value : Value) : Value.ofJson? value.toJson = some value := by
  cases value with
  | int value =>
      rw [Value.toJson, Value.ofJson?, tagged?_object _ _ _ (by decide)]
      simp [Decimal.int64OfInt?_toInt value]
  | char value =>
      rw [Value.toJson, Value.ofJson?, tagged?_object _ _ _ (by decide)]
      simp
  | str value =>
      rw [Value.toJson, Value.ofJson?, tagged?_object _ _ _ (by decide)]
      rfl

theorem Operand.ofJson?_toJson (operand : Operand) :
    Operand.ofJson? operand.toJson = some operand := by
  cases operand with
  | literal value =>
      rw [Operand.toJson, Operand.ofJson?, tagged?_object _ _ _ (by decide)]
      simp [Value.ofJson?_toJson value]
  | name source =>
      rw [Operand.toJson, Operand.ofJson?, tagged?_object _ _ _ (by decide)]
      rfl

theorem BinaryOp.ofJson?_label (op : BinaryOp) :
    BinaryOp.ofJson? (.string op.label) = some op := by
  cases op <;> rfl

theorem Conversion.ofJson?_label (conversion : Conversion) :
    Conversion.ofJson? (.string conversion.label) = some conversion := by
  cases conversion <;> rfl

namespace Instruction

theorem ofParts?_parts (instruction : Instruction) :
    ofParts? instruction.form instruction.parts = some instruction := by
  cases instruction <;>
    simp [form, parts, ofParts?, text?, Operand.ofJson?_toJson, BinaryOp.ofJson?_label,
      Conversion.ofJson?_label]

theorem length_parts (instruction : Instruction) :
    instruction.parts.length = instruction.form.fields.length := by
  cases instruction <;> rfl

end Instruction

namespace Json.Record

/-- A name that is there once finds its own field. -/
theorem filter_name {fields : List (String × Json)} (distinct : (fields.map Prod.fst).Nodup)
    {field : String × Json} (mem : field ∈ fields) :
    fields.filter (fun other => other.1 == field.1) = [field] := by
  induction fields with
  | nil => cases mem
  | cons first fields ih =>
      rw [List.map_cons, List.nodup_cons] at distinct
      rcases List.mem_cons.mp mem with rfl | mem
      · have others : fields.filter (fun other => other.1 == field.1) = [] := by
          rw [List.filter_eq_nil_iff]
          intro other otherMem same
          exact distinct.1 (beq_iff_eq.mp same ▸ List.mem_map_of_mem otherMem)
        rw [List.filter_cons, if_pos BEq.rfl, others]
      · have other : ¬(first.1 == field.1) = true := fun same =>
          distinct.1 (beq_iff_eq.mp same ▸ List.mem_map_of_mem mem)
        rw [List.filter_cons, if_neg other, ih distinct.2 mem]

theorem mapM_eq_some {α : Type} {read : String → Option α} {pairs : List (String × α)}
    (found : ∀ pair ∈ pairs, read pair.1 = some pair.2) :
    (pairs.map Prod.fst).mapM read = some (pairs.map Prod.snd) := by
  induction pairs with
  | nil => rfl
  | cons pair pairs ih =>
      rw [List.forall_mem_cons] at found
      simp only [List.map_cons, List.mapM_cons, found.1, ih found.2]
      rfl

/-- Distinct names find their own values. -/
theorem fields?_names {fields : List (String × Json)} (distinct : (fields.map Prod.fst).Nodup) :
    (Record.named fields).fields? (fields.map Prod.fst) = some (fields.map Prod.snd) := by
  rw [fields?]
  apply mapM_eq_some
  intro field mem
  simp only [filter_name distinct mem]

end Json.Record

theorem Instruction.ofRecord?_zip (instruction : Instruction) :
    Instruction.ofRecord? instruction.form
      (.named (instruction.form.fields.zip instruction.parts)) = some instruction := by
  have distinct (form : Form) : form.fields.Nodup := by
    cases form <;> decide
  have lengths := instruction.length_parts
  have names := List.map_fst_zip (Nat.le_of_eq lengths.symm)
  have values := List.map_snd_zip (Nat.le_of_eq lengths)
  have found := Record.fields?_names (names ▸ distinct instruction.form)
  rw [names, values] at found
  rw [ofRecord?, found]
  exact instruction.ofParts?_parts

/-! ## What the reader reads -/

theorem Value.readable_toJson (value : Value) (room : Nat) : Readable (room + 1) value.toJson := by
  have parts {tag : String} {json : Json} (readable : Readable room json) :
      Readable (room + 1) (.object [("type", .string tag), ("value", json)]) :=
    .object (by simpa using ⟨.string tag, readable⟩)
  cases value with
  | int value =>
      have low := Int64.minValue_le_toInt value
      have high := value.toInt_lt
      exact parts (.integer (by simp [UInt64.size] at low high ⊢; omega))
  | char value => exact parts (.string _)
  | str value => exact parts (.string _)

theorem Operand.readable_toJson (operand : Operand) (room : Nat) :
    Readable (room + 2) operand.toJson := by
  have parts {tag : String} {json : Json} (readable : Readable (room + 1) json) :
      Readable (room + 2) (.object [("kind", .string tag), ("value", json)]) :=
    .object (by simpa using ⟨.string tag, readable⟩)
  cases operand with
  | literal value => exact parts (value.readable_toJson room)
  | name source => exact parts (.string _)

theorem Instruction.readable_of_mem_parts {instruction : Instruction} {json : Json}
    (mem : json ∈ instruction.parts) (room : Nat) : Readable (room + 2) json := by
  have text (text : String) : Readable (room + 2) (.string text) := .string text
  have operand (operand : Operand) := operand.readable_toJson room
  cases instruction <;> simp only [parts, List.mem_cons, List.not_mem_nil, or_false] at mem <;>
    rcases mem with rfl | rfl | rfl | rfl <;> first | exact text _ | exact operand _

namespace Program

/-- The name of a form is read behind a space. -/
theorem run_form (form : Instruction.Form) (depth : Nat) (rest : List Char) :
    Program.form.run (' ' :: (((Json.string form.name).prettyAt depth).toList ++ rest)) =
      (.ok form, rest) := by
  have spelled : ((Json.string form.name).prettyAt depth).toList = (quote form.name).toList := by
    simp [prettyAt, atom]
  have read := run_stringLiteral form.name rest
  have named : (Instruction.Form.all.find? fun other => other.name == form.name) = some form := by
    cases form <;> rfl
  rw [spelled, Program.form]
  rw [toList_quote, List.cons_append] at read ⊢
  rw [run_peekBehindGap_space, Reader.run_bind_of_ok (run_peekBehindGap_cons rfl _)]
  refine (Reader.run_bind_of_ok read).trans ?_
  rw [named]
  rfl

/-- The first field of an instruction tells its form. -/
theorem readsAs_instructionField_form (form : Instruction.Form) (depth : Nat)
    (fields : Array (String × Json)) :
    ReadsAs (instructionField (none, fields)) (fieldText depth ("instr", .string form.name))
      (some form, fields) where
  opens := opens_fieldText _
  run {rest} _ := by
    rw [instructionField, fieldText_append,
      Reader.run_bind_of_ok (run_stringLiteral "instr" _), beq_self_eq_true]
    refine (Reader.run_bind_of_ok (run_colon _)).trans ?_
    rw [Reader.run_bind_of_ok (run_form form depth rest), Reader.run_pure]

/-- The other fields of an instruction are collected. -/
theorem readsAs_instructionField_part {form : Option Instruction.Form} {depth : Nat}
    {field : String × Json} {fields : Array (String × Json)} (other : field.1 ≠ "instr")
    (readable : Readable (maxDepth - 3) field.2) :
    ReadsAs (instructionField (form, fields)) (fieldText depth field)
      (form, fields.push field) where
  opens := opens_fieldText _
  run {rest} ends := by
    rcases field with ⟨name, value⟩
    have read := (readsAs_value readable depth).run ends
    rw [← run_value_space] at read
    rw [instructionField, fieldText_append,
      Reader.run_bind_of_ok (run_stringLiteral name _), beq_false_of_ne other]
    refine (Reader.run_bind_of_ok (run_colon _)).trans ?_
    exact Reader.run_bind_of_ok read

theorem partsRead_instruction (instruction : Instruction) (depth : Nat) :
    PartsRead instructionField (none, #[])
      ((("instr", .string instruction.form.name) ::
        instruction.form.fields.zip instruction.parts).map (fieldText depth))
      (some instruction.form, (instruction.form.fields.zip instruction.parts).toArray) := by
  have other (form : Instruction.Form) : "instr" ∉ form.fields := by
    cases form <;> decide
  have field (field : String × Json) (mem : field ∈ instruction.form.fields.zip instruction.parts)
      (found : Array (String × Json)) :
      ReadsAs (instructionField (some instruction.form, found)) (fieldText depth field)
        (some instruction.form, found.push field) := by
    have mems := List.of_mem_zip mem
    -- A part may hold 124 brackets in each other, and holds two at most.
    exact readsAs_instructionField_part (fun same => other _ (same ▸ mems.1))
      (Instruction.readable_of_mem_parts mems.2 122)
  have fields := partsRead_push instructionField (some instruction.form, ·) id field #[]
  rw [List.map_id, Array.empty_append] at fields
  exact .cons (readsAs_instructionField_form instruction.form depth #[]) fields

/-- An instruction is read from what is written for it. -/
theorem readsAs_instruction (instruction : Instruction) (depth : Nat) :
    ReadsAs Program.instruction (instruction.toJson.prettyAt depth).toList instruction where
  opens := opens_object depth _
  run {rest} _ := by
    have read := run_parts depth (.inr rfl) (partsRead_instruction instruction (depth + 1)) rest
    rw [Instruction.toJson, toList_object, Program.instruction,
      Reader.run_bind_of_ok (run_peekBehindGap_cons rfl _)]
    refine (Reader.run_bind_of_ok (run_char '{' _)).trans ?_
    refine (Reader.run_bind_of_ok read).trans ?_
    refine (Reader.run_bind_of_ok (Reader.run_pure _ _)).trans ?_
    rw [Instruction.ofRecord?_zip]
    rfl

/-- The instructions of a program are read behind a space. -/
theorem run_instructionList (instructions : List Instruction) (depth : Nat) (rest : List Char) :
    instructionList.run
        (' ' :: (((Json.array (instructions.map Instruction.toJson)).prettyAt depth).toList ++
          rest)) =
      (.ok instructions.toArray, rest) := by
  have read := run_items depth id (fun instruction (_ : instruction ∈ instructions) =>
    readsAs_instruction instruction (depth + 1)) rest
  rw [List.map_id] at read
  rw [toList_array, List.map_map, instructionList, run_peekBehindGap_space,
    Reader.run_bind_of_ok (run_peekBehindGap_cons rfl _)]
  exact (Reader.run_bind_of_ok (run_char '[' _)).trans read

/-- The only field of a saved program holds its instructions. -/
theorem readsAs_programField (instructions : List Instruction) (depth : Nat) :
    ReadsAs (programField none)
      (fieldText depth ("instructions", .array (instructions.map Instruction.toJson)))
      (some instructions.toArray) where
  opens := opens_fieldText _
  run {rest} _ := by
    rw [programField, fieldText_append,
      Reader.run_bind_of_ok (run_stringLiteral "instructions" _), if_pos rfl]
    refine (Reader.run_bind_of_ok (run_colon _)).trans ?_
    exact Reader.run_bind_of_ok (run_instructionList instructions depth rest)

theorem run_save (program : Program) :
    reader.run program.save.toList = (.ok program, []) := by
  have field := readsAs_programField program.instructions.toList 1
  have read := run_parts 0 (.inr rfl) (.cons field (.nil _)) []
  have spelled := toList_object 0 []
    [("instructions", .array (program.instructions.toList.map Instruction.toJson))]
  rw [List.append_nil, List.map_cons, List.map_nil, Nat.zero_add] at spelled
  rw [save, pretty, toJson, spelled, reader,
    Reader.run_bind_of_ok (run_peekBehindGap_cons rfl _)]
  refine (Reader.run_bind_of_ok (run_char '{' _)).trans ?_
  rw [Reader.run_bind_of_ok read]
  rfl

/-- A saved program is restored as it was. -/
theorem restore_save (program : Program) : restore program.save = .ok program := by
  rw [restore, run_save]
  rfl

end Program

end SubsetC
