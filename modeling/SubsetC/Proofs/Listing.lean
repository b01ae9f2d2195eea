import SubsetC.Proofs.Code.Spelling
import SubsetC.Proofs.Grammar.Names
import SubsetC.Proofs.Temporaries

/-!
# Listings

A program that has been compiled can be told from its listing, which has one line for each of its
instructions. Both hold because the names in it are spelled as names are: no variable and no text
can make one line look like another or like two.
-/

namespace SubsetC

open Quoted Segment

/-! ## Lines -/

theorem isShown_of_isWordPart {c : Char} (part : isWordPart c = true) : IsShown c := by
  have bounds : 0x20 ≤ c.toNat ∧ c.toNat < 0x7f := by
    simp only [isWordPart, isNameRest, Char.isAlphanum, Bool.or_eq_true, beq_iff_eq] at part
    rcases part with ((letter | digit) | rfl) | rfl
    · rcases (Bool.or_eq_true _ _).mp letter with upper | lower
      · have range : 65 ≤ c.toNat ∧ c.toNat ≤ 90 := of_decide_eq_true upper
        omega
      · have range : 97 ≤ c.toNat ∧ c.toNat ≤ 122 :=
          (Bool.and_eq_true_iff.mp lower).imp of_decide_eq_true of_decide_eq_true
        omega
    · have range : 48 ≤ c.toNat ∧ c.toNat ≤ 57 :=
        (Bool.and_eq_true_iff.mp digit).imp of_decide_eq_true of_decide_eq_true
      omega
    · decide
    · decide
  rw [IsShown, Printable.isUnprintable_ascii (by omega), Bool.or_eq_false_iff,
    decide_eq_false_iff_not, beq_eq_false_iff_ne]
  omega

theorem isShown_of_isName {name : List Char} (isName : IsName name) : ∀ c ∈ name, IsShown c :=
  fun c mem => isShown_of_isWordPart (isWordPart_of_isName isName c mem)

theorem ne_nil_of_isName {name : List Char} (isName : IsName name) : name ≠ [] := by
  rintro rfl
  exact isName

theorem Operand.isShown_of_mem_text {operand : Operand} (named : operand.IsNamed) :
    ∀ c ∈ operand.text.toList, IsShown c := by
  cases operand with
  | literal value =>
      cases value with
      | int value => exact fun c mem => isShown_of_isWordPart (isWordPart_ofInt64 value c mem)
      | char value =>
          rw [text, Quoted.char, String.toList_ofList]
          exact fun c => isShown_of_mem_between (.inl rfl)
      | str value =>
          rw [text, Quoted.string, String.toList_ofList]
          exact fun c => isShown_of_mem_between (.inr rfl)
  | name source => exact isShown_of_isName (named source (.head _))

theorem BinaryOp.isShown_of_mem_spelling (op : BinaryOp) :
    ∀ c ∈ op.spelling.toList, IsShown c := by
  cases op <;> exact isShown_of_all (by decide +kernel)

namespace Instruction

variable {instruction : Instruction}

theorem isShown_variable (conversion : Conversion) {name : String} (isName : IsName name.toList) :
    ∀ c ∈ (print conversion name).behind, IsShown c := by
  have space : IsShown ' ' := by decide +kernel
  simp only [behind, List.forall_mem_cons]
  refine ⟨space, by decide +kernel, ?_, space, isShown_of_isName isName⟩
  cases conversion <;> decide +kernel

theorem word_ne_nil (named : instruction.IsNamed) : instruction.word.toList ≠ [] := by
  cases instruction with
  | assign target source => exact ne_nil_of_isName (isNamed_assign_iff.mp named).1
  | binary target op left right => exact ne_nil_of_isName (isNamed_binary_iff.mp named).1
  | label name => exact ne_nil_of_isName (isNamed_label_iff.mp named)
  | jumpUnless condition target => exact (by decide : "ifFalse".toList ≠ [])
  | jump target => exact (by decide : "goto".toList ≠ [])
  | printText text => exact (by decide : "print".toList ≠ [])
  | print conversion source => exact (by decide : "print".toList ≠ [])
  | scan conversion target => exact (by decide : "scan".toList ≠ [])

/-- The text of an instruction does not begin with a space. -/
theorem breaks_text (named : instruction.IsNamed) :
    Breaks (· == ' ') instruction.text.toList := by
  rcases List.exists_cons_of_ne_nil (word_ne_nil named) with ⟨first, rest, word⟩
  have part : isWordPart first = true :=
    isWordPart_word named first (word ▸ List.mem_cons_self)
  rw [toList_text, word]
  apply breaks_cons
  rw [beq_eq_false_iff_ne]
  rintro rfl
  cases part

theorem isShown_of_mem_behind (named : instruction.IsNamed) :
    ∀ c ∈ instruction.behind, IsShown c := by
  have space : IsShown ' ' := by decide +kernel
  cases instruction with
  | assign target source =>
      have source := Operand.isShown_of_mem_text (isNamed_assign_iff.mp named).2
      simp only [behind, List.forall_mem_cons]
      exact ⟨space, by decide +kernel, space, source⟩
  | binary target op left right =>
      rcases isNamed_binary_iff.mp named with ⟨-, left, right⟩
      simp only [behind, List.forall_mem_cons, List.forall_mem_append]
      exact ⟨space, by decide +kernel, space, Operand.isShown_of_mem_text left, space,
        op.isShown_of_mem_spelling, space, Operand.isShown_of_mem_text right⟩
  | jumpUnless condition target =>
      rcases isNamed_jumpUnless_iff.mp named with ⟨condition, target⟩
      simp only [behind, List.forall_mem_cons, List.forall_mem_append]
      exact ⟨space, Operand.isShown_of_mem_text condition, space,
        isShown_of_all (by decide +kernel), isShown_of_isName target⟩
  | jump target =>
      rw [behind, List.forall_mem_cons]
      exact ⟨space, isShown_of_isName (isNamed_jump_iff.mp named)⟩
  | label name =>
      rw [behind, List.forall_mem_singleton]
      decide +kernel
  | printText text =>
      rw [behind, List.forall_mem_cons, Quoted.string, String.toList_ofList]
      exact ⟨space, fun c mem => isShown_of_mem_between (.inr rfl) mem⟩
  | print conversion source => exact isShown_variable conversion (isNamed_print_iff.mp named)
  | scan conversion target => exact isShown_variable conversion (isNamed_scan_iff.mp named)

theorem isShown_of_mem_text (named : instruction.IsNamed) :
    ∀ c ∈ instruction.text.toList, IsShown c := by
  rw [toList_text, List.forall_mem_append]
  exact ⟨fun c mem => isShown_of_isWordPart (isWordPart_word named c mem),
    isShown_of_mem_behind named⟩

end Instruction

namespace Program

variable {index : Nat} {instruction instruction' : Instruction}

/-- A line of a listing without the line break at its end. -/
def line (index : Nat) (instruction : Instruction) : String :=
  let gap := if instruction.label?.isSome then "  " else "      "
  Columns.number 4 index ++ gap ++ instruction.text

/-- The lines of a listing. -/
def lines (program : Program) : List String :=
  program.instructions.toList.mapIdx line

theorem listing_eq (program : Program) :
    program.listing = String.join (program.lines.map (· ++ "\n")) := by
  rw [listing, lines, Array.toList_mapIdx, List.mapIdx_eq_zipIdx_map, List.mapIdx_eq_zipIdx_map,
    List.map_map]
  rfl

theorem length_lines (program : Program) : program.lines.length = program.size := by
  simp [lines, size]

/-- In front of an instruction's text stand its place and some spaces. -/
theorem exists_line (index : Nat) (instruction : Instruction) :
    ∃ spaces, (line index instruction).toList = (Columns.number 4 index).toList ++
      (List.replicate spaces ' ' ++ instruction.text.toList) := by
  refine ⟨if instruction.label?.isSome then 2 else 6, ?_⟩
  rw [line, String.toList_append, String.toList_append, List.append_assoc]
  split <;> rfl

/-- An instruction is told from its line, if its place is known. -/
theorem line_injective (named : instruction.IsNamed) (named' : instruction'.IsNamed)
    (same : line index instruction = line index instruction') : instruction = instruction' := by
  rcases exists_line index instruction with ⟨spaces, text⟩
  rcases exists_line index instruction' with ⟨spaces', text'⟩
  have spaced := congrArg String.toList same
  rw [text, text'] at spaced
  have isSpace (width : Nat) : ∀ c ∈ List.replicate width ' ', (c == ' ') = true := by simp
  rcases append_cancel_of_breaks (isSpace spaces) (Instruction.breaks_text named)
    (isSpace spaces') (Instruction.breaks_text named') (List.append_cancel_left spaced) with
    ⟨-, texts⟩
  exact Instruction.text_injective named named' (String.toList_injective texts)

theorem isShown_of_mem_spaces (width : Nat) : ∀ c ∈ List.replicate width ' ', IsShown c := by
  intro c mem
  rw [List.eq_of_mem_replicate mem]
  decide +kernel

theorem isShown_of_mem_number (width n : Nat) :
    ∀ c ∈ (Columns.number width n).toList, IsShown c := by
  rw [Columns.number, Columns.right, Columns.gap, String.toList_append, String.toList_ofList,
    String.toList_ofList, List.forall_mem_append]
  exact ⟨isShown_of_mem_spaces _, fun c mem =>
    isShown_of_isWordPart (isWordPart_of_isDigit (Decimal.isDigit_of_mem_digits mem))⟩

theorem isShown_of_mem_line (named : instruction.IsNamed) :
    ∀ c ∈ (line index instruction).toList, IsShown c := by
  rcases exists_line index instruction with ⟨spaces, text⟩
  rw [text]
  simp only [List.forall_mem_append]
  refine ⟨?_, ?_, Instruction.isShown_of_mem_text named⟩
  · exact isShown_of_mem_number 4 index
  · exact isShown_of_mem_spaces spaces

theorem isInLine {text : List Char} (whole : '\n' ∉ text) : ∀ c ∈ text, (c != '\n') = true := by
  intro c mem
  rw [bne_iff_ne]
  rintro rfl
  exact whole mem

/-- Lines of which each stands with a line break behind it are told from the whole text. -/
theorem lines_injective {lines lines' : List String} (whole : ∀ line ∈ lines, '\n' ∉ line.toList)
    (whole' : ∀ line ∈ lines', '\n' ∉ line.toList)
    (same : (lines.map (· ++ "\n")).flatMap String.toList =
      (lines'.map (· ++ "\n")).flatMap String.toList) : lines = lines' := by
  induction lines generalizing lines' with
  | nil =>
      cases lines' with
      | nil => rfl
      | cons line' rest' => simp at same
  | cons line rest ih =>
      cases lines' with
      | nil => simp at same
      | cons line' rest' =>
          rw [List.forall_mem_cons] at whole whole'
          simp only [List.map_cons, List.flatMap_cons, String.toList_append, List.append_assoc]
            at same
          rcases append_cancel_of_breaks (isInLine whole.1) (breaks_cons rfl _)
            (isInLine whole'.1) (breaks_cons rfl _) same with ⟨first, others⟩
          rw [String.toList_injective first, ih whole.2 whole'.2 (List.cons.inj others).2]

/-- The names in the program are spelled as names are. -/
def IsNamed (program : Program) : Prop :=
  ∀ instruction ∈ program.instructions.toList, instruction.IsNamed

variable {program program' : Program}

theorem isShown_of_mem_lines (named : program.IsNamed) :
    ∀ line ∈ program.lines, ∀ c ∈ line.toList, IsShown c := by
  intro line mem
  rcases List.mem_mapIdx.mp mem with ⟨index, inside, rfl⟩
  exact isShown_of_mem_line (named _ (List.getElem_mem inside))

theorem newline_not_mem_lines (named : program.IsNamed) :
    ∀ line ∈ program.lines, '\n' ∉ line.toList := by
  intro line mem newline
  exact (isShown_of_mem_lines named line mem _ newline).not_isLineBreak (by simp [IsLineBreak])

theorem eq_of_lines (named : program.IsNamed) (named' : program'.IsNamed)
    (same : program.lines = program'.lines) : program = program' := by
  have instructions : program.instructions.toList = program'.instructions.toList := by
    apply List.ext_getElem?
    intro index
    have lineAt := congrArg (·[index]?) same
    simp only [lines, List.getElem?_mapIdx] at lineAt
    rcases here : program.instructions.toList[index]? with _ | instruction
    · rw [here] at lineAt
      exact (Option.map_eq_none_iff.mp lineAt.symm).symm
    · rw [here] at lineAt
      rcases Option.map_eq_some_iff.mp lineAt.symm with ⟨instruction', there, line⟩
      rw [there, line_injective (named _ (List.mem_of_getElem? here))
        (named' _ (List.mem_of_getElem? there)) line.symm]
  exact congrArg Program.mk (Array.toList_inj.mp instructions)

/-- A program is told from its listing. -/
theorem listing_injective (named : program.IsNamed) (named' : program'.IsNamed)
    (same : program.listing = program'.listing) : program = program' := by
  have texts := congrArg String.toList same
  rw [listing_eq, listing_eq, String.toList_join, String.toList_join] at texts
  exact eq_of_lines named named' (lines_injective (newline_not_mem_lines named)
    (newline_not_mem_lines named') texts)

/-- A name that is spelled otherwise can be mistaken for an operator with its operands. -/
example : (⟨#[.assign "x" (.name "a + b")]⟩ : Program).listing =
    (⟨#[.binary "x" .add (.name "a") (.name "b")]⟩ : Program).listing := by decide +kernel

/-- Some source is read without an error, in any session, and the program is the code of its tree,
lowered in any session. -/
inductive Compiled : Program → Prop
  | lower {source : String} {session : Session} (accepted : (parse source session).1.2 = none)
      (later : Session) : Compiled ((parse source session).1.1.lower later).1

theorem Compiled.isNamed (compiled : program.Compiled) : program.IsNamed := by
  cases compiled with
  | lower accepted later =>
      exact Tree.isNamed_of_mem_lower (fun name => isName_of_mem_vars accepted) later

/-- What a source by itself is compiled to. -/
theorem compiled_of_compile {source : String} {compilation : Compilation}
    (compiled : (compile source).1 = .ok compilation) : compilation.program.Compiled := by
  have accepted := (compile_eq_ok compiled).1
  rw [compile_of_accepted accepted] at compiled
  cases compiled
  exact .lower accepted _

end Program

/-- Two programs with the same listing are the same, if sources have been compiled to them. The
listing has a line for each instruction, whatever is printed: no line has a line break in it. -/
theorem listing_faithful {program : Program} (compiled : program.Compiled) :
    (∀ program' : Program, program'.Compiled → program.listing = program'.listing →
      program = program') ∧
    ∃ lines : List String, lines.length = program.size ∧
      program.listing = String.join (lines.map (· ++ "\n")) ∧
      ∀ line ∈ lines, ∀ c ∈ line.toList, ¬IsLineBreak c := by
  refine ⟨fun program' compiled' => Program.listing_injective compiled.isNamed compiled'.isNamed,
    program.lines, program.length_lines, program.listing_eq, ?_⟩
  intro line mem c inLine
  exact (Program.isShown_of_mem_lines compiled.isNamed line mem c inLine).not_isLineBreak

/-- A variable that is called like the word for output, and a line break that is printed. -/
theorem listing_faithful_print :
    let program : Program :=
      ⟨#[.assign "print" (.literal (.int 1)), .printText "\n\"", .print .decimal "print"]⟩
    program.listing =
        "   0      print = 1\n   1      print \"\\n\\\"\"\n   2      print %d print\n" ∧
      (∀ program' : Program, program'.Compiled → program.listing = program'.listing →
        program = program') ∧
      ∃ lines : List String, lines.length = 3 ∧
        program.listing = String.join (lines.map (· ++ "\n")) ∧
        ∀ line ∈ lines, ∀ c ∈ line.toList, ¬IsLineBreak c := by
  intro program
  have accepted :
      (parse "int print = 1; printf(\"\\n\\\"%d\", print);" .empty).1.2 = none := by
    decide +kernel
  have compiled := Program.compiled_of_compile (compile_of_accepted accepted)
  have code : ((parse "int print = 1; printf(\"\\n\\\"%d\", print);" .empty).1.1.lower
      (parse "int print = 1; printf(\"\\n\\\"%d\", print);" .empty).2).1 = program := by
    decide +kernel
  rw [code] at compiled
  exact ⟨by decide +kernel, listing_faithful compiled⟩

end SubsetC
