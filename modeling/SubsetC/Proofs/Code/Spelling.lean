import SubsetC.Code
import SubsetC.Proofs.Lowering.Names
import SubsetC.Proofs.Text.Numerals
import SubsetC.Proofs.Text.Quoted
import SubsetC.Proofs.Token.RoundTrip

/-!
# Instructions and their texts

An instruction can be told from its text if its names are spelled as names are. The text is a word
and what follows, and the first characters of what follows tell the form of the instruction, even if
a variable is called like the word that other instructions begin with. Then each part shows where it
ends: names and numbers in front of the next space, and quoted texts at their second delimiter.
-/

namespace SubsetC

open Segment

/-- The text is at its end, or goes on with another kind of character. -/
def Breaks (holds : Char → Bool) (rest : List Char) : Prop :=
  ∀ c ∈ rest.head?, holds c = false

section Breaks

variable {holds : Char → Bool}

theorem breaks_nil : Breaks holds [] := nofun

theorem breaks_cons {c : Char} (other : holds c = false) (rest : List Char) :
    Breaks holds (c :: rest) := by
  rintro first ⟨⟩
  exact other

/-- A word ends where something follows that is no part of it. -/
theorem takeWhile_append_of_breaks {front rest : List Char} (all : ∀ c ∈ front, holds c = true)
    (breaks : Breaks holds rest) : (front ++ rest).takeWhile holds = front := by
  rw [List.takeWhile_append_of_pos all]
  cases rest with
  | nil => simp
  | cons c rest => simp [breaks c rfl]

/-- Characters of one kind show where they end. -/
theorem append_cancel_of_breaks {front front' rest rest' : List Char}
    (all : ∀ c ∈ front, holds c = true) (breaks : Breaks holds rest)
    (all' : ∀ c ∈ front', holds c = true) (breaks' : Breaks holds rest')
    (same : front ++ rest = front' ++ rest') : front = front' ∧ rest = rest' := by
  have fronts := congrArg (List.takeWhile holds) same
  rw [takeWhile_append_of_breaks all breaks, takeWhile_append_of_breaks all' breaks'] at fronts
  subst fronts
  exact ⟨rfl, List.append_cancel_left same⟩

end Breaks

/-- A character of a name or of a number. -/
def isWordPart (c : Char) : Bool :=
  isNameRest c || c == '-'

/-- Names are words. -/
theorem isWordPart_of_isName {name : List Char} (isName : IsName name) :
    ∀ c ∈ name, isWordPart c = true := by
  cases name with
  | nil => exact List.forall_mem_nil _
  | cons first rest =>
      rw [List.forall_mem_cons]
      refine ⟨?_, fun c mem => by simp [isWordPart, isName.2 c mem]⟩
      have start := isName.1
      simp only [isNameStart, Bool.or_eq_true] at start
      rcases start with letter | underscore
      · simp [isWordPart, isNameRest, Char.isAlphanum, letter]
      · simp [isWordPart, isNameRest, underscore]

theorem exists_of_isName {name : String} (isName : IsName name.toList) :
    ∃ first rest, name.toList = first :: rest ∧ isNameStart first = true := by
  rcases text : name.toList with _ | ⟨first, rest⟩
  · rw [text] at isName
    exact isName.elim
  · rw [text] at isName
    exact ⟨first, rest, rfl, isName.1⟩

theorem isWordPart_of_isDigit {c : Char} (isDigit : c.isDigit = true) : isWordPart c = true := by
  simp [isWordPart, isNameRest, Char.isAlphanum, isDigit]

theorem exists_ofInt (n : Int) : ∃ first rest, Decimal.ofInt n = first :: rest ∧
    (first = '-' ∨ first.isDigit = true) ∧ ∀ c ∈ rest, c.isDigit = true := by
  cases n with
  | ofNat n =>
      rcases List.exists_cons_of_ne_nil (Decimal.digits_ne_nil n) with ⟨first, rest, digits⟩
      have isDigit : ∀ c ∈ first :: rest, c.isDigit = true :=
        digits ▸ fun _ => Decimal.isDigit_of_mem_digits
      rw [List.forall_mem_cons] at isDigit
      exact ⟨first, rest, digits, .inr isDigit.1, isDigit.2⟩
  | negSucc n => exact ⟨'-', _, rfl, .inl rfl, fun _ => Decimal.isDigit_of_mem_digits⟩

theorem isWordPart_ofInt64 (n : Int64) : ∀ c ∈ (Decimal.ofInt64 n).toList, isWordPart c = true := by
  rcases exists_ofInt n.toInt with ⟨first, rest, text, start, isDigit⟩
  rw [Decimal.ofInt64, String.toList_ofList, text, List.forall_mem_cons]
  refine ⟨?_, fun c mem => isWordPart_of_isDigit (isDigit c mem)⟩
  rcases start with rfl | first
  · decide
  · exact isWordPart_of_isDigit first

/-- Numbers are told by their spelling. -/
theorem Decimal.ofInt64_injective {m n : Int64} (same : ofInt64 m = ofInt64 n) : m = n := by
  have read := int64?_eq_some_iff.mpr (isNumeral_ofInt m.toInt)
  rw [String.ofList_injective same, int64?_eq_some_iff.mpr (isNumeral_ofInt n.toInt),
    Option.some_inj] at read
  exact read.symm

namespace Operand

/-- What an operand is, as its first character shows. -/
inductive Kind where
  | number
  | character
  | string
  | name
  deriving DecidableEq

/-- What the operand is. -/
def kind : Operand → Kind
  | literal (.int _) => .number
  | literal (.char _) => .character
  | literal (.str _) => .string
  | name _ => .name

/-- What an operand is that begins so. -/
def kindOf (first : Char) : Kind :=
  if first = '\'' then .character
  else if first = '"' then .string
  else if isNameStart first then .name
  else .number

variable {operand operand' : Operand}

theorem kindOf_of_isDigit {first : Char} (isDigit : first.isDigit = true) :
    kindOf first = .number := by
  have noLetter : isNameStart first = false := by
    rw [← Bool.not_eq_true]
    intro start
    rw [isDigit_of_isNameStart start] at isDigit
    cases isDigit
  have noQuote : first ≠ '\'' ∧ first ≠ '"' := by
    constructor <;> (rintro rfl; cases isDigit)
  simp [kindOf, noLetter, noQuote]

theorem kindOf_of_isNameStart {first : Char} (start : isNameStart first = true) :
    kindOf first = .name := by
  have noQuote : first ≠ '\'' ∧ first ≠ '"' := by
    constructor <;> (rintro rfl; cases start)
  simp [kindOf, start, noQuote]

theorem exists_of_kind_number (kind : operand.kind = .number) :
    ∃ value, operand = literal (.int value) := by
  match operand with
  | literal (.int value) => exact ⟨value, rfl⟩

theorem exists_of_kind_character (kind : operand.kind = .character) :
    ∃ value, operand = literal (.char value) := by
  match operand with
  | literal (.char value) => exact ⟨value, rfl⟩

/-- Only a text is of the kind of texts. -/
theorem exists_of_kind_string (kind : operand.kind = .string) :
    ∃ value, operand = literal (.str value) := by
  match operand with
  | literal (.str value) => exact ⟨value, rfl⟩

theorem exists_of_kind_name (kind : operand.kind = .name) :
    ∃ source, operand = name source := by
  match operand with
  | name source => exact ⟨source, rfl⟩

/-- The first character of an operand shows what it is, and it is no equality sign. -/
theorem exists_first (named : operand.IsNamed) :
    ∃ first rest, operand.text.toList = first :: rest ∧ kindOf first = operand.kind ∧
      first ≠ '=' := by
  match operand with
  | literal (.int value) =>
      rcases exists_ofInt value.toInt with ⟨first, rest, text, start, -⟩
      refine ⟨first, rest, String.toList_ofList.trans text, ?_⟩
      rcases start with rfl | isDigit
      · exact ⟨rfl, by decide⟩
      · refine ⟨kindOf_of_isDigit isDigit, ?_⟩
        rintro rfl
        cases isDigit
  | literal (.char value) => exact ⟨_, _, String.toList_ofList, rfl, by decide⟩
  | literal (.str value) => exact ⟨_, _, String.toList_ofList, rfl, by decide⟩
  | name source =>
      rcases exists_of_isName (named source (List.mem_singleton_self source)) with
        ⟨first, rest, text, start⟩
      refine ⟨first, rest, text, kindOf_of_isNameStart start, ?_⟩
      rintro rfl
      cases start

/-- An operand shows where it ends. -/
theorem text_append_cancel (named : operand.IsNamed) (named' : operand'.IsNamed)
    {rest rest' : List Char} (breaks : Breaks isWordPart rest) (breaks' : Breaks isWordPart rest')
    (same : operand.text.toList ++ rest = operand'.text.toList ++ rest') :
    operand = operand' ∧ rest = rest' := by
  have sameKind : operand.kind = operand'.kind := by
    rcases exists_first named with ⟨first, behind, text, kind, -⟩
    rcases exists_first named' with ⟨first', behind', text', kind', -⟩
    rw [text, text'] at same
    rw [← kind, ← kind', (List.cons.inj same).1]
  cases operand with
  | literal value =>
      cases value with
      | int value =>
          rcases exists_of_kind_number sameKind.symm with ⟨value', rfl⟩
          rcases append_cancel_of_breaks (isWordPart_ofInt64 value) breaks
            (isWordPart_ofInt64 value') breaks' same with ⟨texts, behind⟩
          rw [Decimal.ofInt64_injective (String.toList_injective texts)]
          exact ⟨rfl, behind⟩
      | char value =>
          rcases exists_of_kind_character sameKind.symm with ⟨value', rfl⟩
          rcases Quoted.char_append_cancel same with ⟨rfl, behind⟩
          exact ⟨rfl, behind⟩
      | str value =>
          rcases exists_of_kind_string sameKind.symm with ⟨value', rfl⟩
          rcases Quoted.string_append_cancel same with ⟨rfl, behind⟩
          exact ⟨rfl, behind⟩
  | name source =>
      rcases exists_of_kind_name sameKind.symm with ⟨source', rfl⟩
      rcases append_cancel_of_breaks (isWordPart_of_isName (named source (.head _))) breaks
        (isWordPart_of_isName (named' source' (.head _))) breaks' same with ⟨texts, behind⟩
      rw [String.toList_injective texts]
      exact ⟨rfl, behind⟩

/-- Operands are told by their spelling. -/
theorem text_injective (named : operand.IsNamed) (named' : operand'.IsNamed)
    (same : operand.text = operand'.text) : operand = operand' :=
  (text_append_cancel named named' breaks_nil breaks_nil (congrArg (·.toList ++ []) same)).1

end Operand

theorem BinaryOp.space_not_mem (op : BinaryOp) :
    ∀ c ∈ op.spelling.toList, (c != ' ') = true := by
  rw [← List.all_eq_true]
  cases op <;> decide

/-- Operators are told by their spelling. -/
theorem BinaryOp.spelling_injective {op op' : BinaryOp} (same : op.spelling = op'.spelling) :
    op = op' := by
  revert same
  cases op <;> cases op' <;> decide

theorem Conversion.letter_injective {conversion conversion' : Conversion}
    (same : conversion.letter = conversion'.letter) : conversion = conversion' := by
  revert same
  cases conversion <;> cases conversion' <;> decide

namespace Instruction

/-- What an instruction is, as far as the beginning of its text shows. -/
inductive Shape where
  | store
  | test
  | jump
  | label
  | text
  | output
  | input
  deriving DecidableEq

/-- What the instruction is. -/
def shape : Instruction → Shape
  | assign .. | binary .. => .store
  | jumpUnless .. => .test
  | jump _ => .jump
  | label _ => .label
  | printText _ => .text
  | print .. => .output
  | scan .. => .input

/-- The word that the text begins with. -/
def word : Instruction → String
  | assign target _ | binary target _ _ _ => target
  | jumpUnless .. => "ifFalse"
  | jump _ => "goto"
  | label name => name
  | printText _ | print .. => "print"
  | scan .. => "scan"

/-- The text behind the word. -/
def behind : Instruction → List Char
  | assign _ source => ' ' :: '=' :: ' ' :: source.text.toList
  | binary _ op left right =>
      ' ' :: '=' :: ' ' ::
        (left.text.toList ++ ' ' :: (op.spelling.toList ++ ' ' :: right.text.toList))
  | jumpUnless condition target =>
      ' ' :: (condition.text.toList ++ ' ' :: ("goto ".toList ++ target.toList))
  | jump target => ' ' :: target.toList
  | label _ => [':']
  | printText text => ' ' :: (Quoted.string text).toList
  | print conversion source | scan conversion source =>
      ' ' :: '%' :: conversion.letter :: ' ' :: source.toList

/-- What an instruction is whose text has this word and goes on so. -/
def shapeOf (word : String) (behind : List Char) : Shape :=
  if behind.head? = some ':' then .label
  else if behind[1]? = some '=' then .store
  else if word = "ifFalse" then .test
  else if word = "goto" then .jump
  else if word = "scan" then .input
  else if behind[1]? = some '"' then .text
  else .output

theorem toList_text (instruction : Instruction) :
    instruction.text.toList = instruction.word.toList ++ instruction.behind := by
  cases instruction with
  | assign target source =>
      change (target ++ " = " ++ source.text).toList = _
      simp [word, behind]
  | binary target op left right =>
      change (target ++ " = " ++ left.text ++ " " ++ op.spelling ++ " " ++ right.text).toList = _
      simp [word, behind]
  | jumpUnless condition target =>
      change ("ifFalse " ++ condition.text ++ " goto " ++ target).toList = _
      simp [word, behind]
  | jump target =>
      change ("goto " ++ target).toList = _
      simp [word, behind]
  | label name =>
      change (name ++ ":").toList = _
      simp [word, behind]
  | printText text =>
      change ("print " ++ Quoted.string text).toList = _
      simp [word, behind]
  | print conversion source =>
      change ("print " ++ conversion.specifier ++ " " ++ source).toList = _
      simp [word, behind, Conversion.specifier]
  | scan conversion target =>
      change ("scan " ++ conversion.specifier ++ " " ++ target).toList = _
      simp [word, behind, Conversion.specifier]

variable {instruction instruction' : Instruction}

theorem isWordPart_word (named : instruction.IsNamed) :
    ∀ c ∈ instruction.word.toList, isWordPart c = true := by
  cases instruction with
  | assign target source => exact isWordPart_of_isName (isNamed_assign_iff.mp named).1
  | binary target op left right => exact isWordPart_of_isName (isNamed_binary_iff.mp named).1
  | label name => exact isWordPart_of_isName (isNamed_label_iff.mp named)
  | jumpUnless condition target =>
      exact List.all_eq_true.mp (by decide : "ifFalse".toList.all isWordPart = true)
  | jump target => exact List.all_eq_true.mp (by decide : "goto".toList.all isWordPart = true)
  | printText text => exact List.all_eq_true.mp (by decide : "print".toList.all isWordPart = true)
  | print conversion source =>
      exact List.all_eq_true.mp (by decide : "print".toList.all isWordPart = true)
  | scan conversion target =>
      exact List.all_eq_true.mp (by decide : "scan".toList.all isWordPart = true)

theorem breaks_behind (instruction : Instruction) : Breaks isWordPart instruction.behind := by
  cases instruction <;> exact breaks_cons rfl _

/-- The word and what is behind it show what an instruction is. -/
theorem shapeOf_behind (named : instruction.IsNamed) :
    shapeOf instruction.word instruction.behind = instruction.shape := by
  cases instruction with
  | assign target source => rfl
  | binary target op left right => rfl
  | jumpUnless condition target =>
      rcases Operand.exists_first (isNamed_jumpUnless_iff.mp named).1 with
        ⟨first, rest, text, -, other⟩
      simp [shapeOf, word, behind, shape, text, other]
  | jump target =>
      rcases exists_of_isName (isNamed_jump_iff.mp named) with ⟨first, rest, text, start⟩
      have other : first ≠ '=' := by
        rintro rfl
        cases start
      simp [shapeOf, word, behind, shape, text, other]
  | label name => rfl
  | printText text => simp [shapeOf, word, behind, shape, Quoted.string, Quoted.between]
  | print conversion source => simp [shapeOf, word, behind, shape]
  | scan conversion target => simp [shapeOf, word, behind, shape]

/-- What is stored is all that comes behind the equals sign. -/
theorem stored_of_cons {stored stored' : List Char}
    (same : ' ' :: '=' :: ' ' :: stored = ' ' :: '=' :: ' ' :: stored') : stored = stored' := by
  simpa only [List.cons.injEq, true_and] using same

theorem behind_assign_ne_binary {target target' : String} {source left right : Operand}
    {op : BinaryOp} (named : source.IsNamed) (named' : left.IsNamed) :
    (assign target source).behind ≠ (binary target' op left right).behind := by
  intro same
  have operands := stored_of_cons same
  rw [← List.append_nil source.text.toList] at operands
  have ends := (Operand.text_append_cancel named named' breaks_nil (breaks_cons rfl _) operands).2
  cases ends

/-- The two operands are told by the operator between them. -/
theorem operands_of_behind {target target' : String} {op op' : BinaryOp}
    {left right left' right' : Operand}
    (named : (binary target op left right).IsNamed)
    (named' : (binary target' op' left' right').IsNamed)
    (same : (binary target op left right).behind = (binary target' op' left' right').behind) :
    op = op' ∧ left = left' ∧ right = right' := by
  rcases isNamed_binary_iff.mp named with ⟨-, namedLeft, namedRight⟩
  rcases isNamed_binary_iff.mp named' with ⟨-, namedLeft', namedRight'⟩
  rcases Operand.text_append_cancel namedLeft namedLeft' (breaks_cons rfl _) (breaks_cons rfl _)
    (stored_of_cons same) with ⟨rfl, operator⟩
  rcases append_cancel_of_breaks op.space_not_mem (breaks_cons (by decide) _) op'.space_not_mem
    (breaks_cons (by decide) _) (List.cons.inj operator).2 with ⟨ops, operand⟩
  have rightText := String.toList_injective (List.cons.inj operand).2
  exact ⟨BinaryOp.spelling_injective (String.toList_injective ops), rfl,
    Operand.text_injective namedRight namedRight' rightText⟩

theorem variable_of_behind {conversion conversion' : Conversion} {source source' : String}
    (same : (print conversion source).behind = (print conversion' source').behind) :
    conversion = conversion' ∧ source = source' := by
  simp only [behind, List.cons.injEq, true_and] at same
  exact ⟨Conversion.letter_injective same.1, String.toList_injective same.2⟩

/-- An instruction is told from its text. -/
theorem text_injective (named : instruction.IsNamed) (named' : instruction'.IsNamed)
    (same : instruction.text = instruction'.text) : instruction = instruction' := by
  have texts := congrArg String.toList same
  rw [toList_text, toList_text] at texts
  rcases append_cancel_of_breaks (isWordPart_word named) (breaks_behind instruction)
    (isWordPart_word named') (breaks_behind instruction') texts with ⟨words, rest⟩
  have sameWord := String.toList_injective words
  have sameShape : instruction.shape = instruction'.shape := by
    rw [← shapeOf_behind named, ← shapeOf_behind named', sameWord, rest]
  cases instruction with
  | assign target source =>
      have source := (isNamed_assign_iff.mp named).2
      cases instruction' with
      | assign target' source' =>
          have source' := (isNamed_assign_iff.mp named').2
          have sources := String.toList_injective (stored_of_cons rest)
          exact congrArg₂ assign sameWord (Operand.text_injective source source' sources)
      | binary target' op' left' right' =>
          exact absurd rest (behind_assign_ne_binary source (isNamed_binary_iff.mp named').2.1)
      | _ => cases sameShape
  | binary target op left right =>
      cases instruction' with
      | assign target' source' =>
          exact absurd rest.symm (behind_assign_ne_binary (isNamed_assign_iff.mp named').2
            (isNamed_binary_iff.mp named).2.1)
      | binary target' op' left' right' =>
          rcases operands_of_behind named named' rest with ⟨rfl, rfl, rfl⟩
          exact congrArg (binary · op left right) sameWord
      | _ => cases sameShape
  | jumpUnless condition target =>
      cases instruction' with
      | jumpUnless condition' target' =>
          rcases Operand.text_append_cancel (isNamed_jumpUnless_iff.mp named).1
            (isNamed_jumpUnless_iff.mp named').1 (breaks_cons rfl _) (breaks_cons rfl _)
            (List.cons.inj rest).2 with ⟨rfl, jump⟩
          have targets := List.append_cancel_left (List.cons.inj jump).2
          rw [String.toList_injective targets]
      | _ => cases sameShape
  | jump target =>
      cases instruction' with
      | jump target' => exact congrArg jump (String.toList_injective (List.cons.inj rest).2)
      | _ => cases sameShape
  | label name =>
      cases instruction' with
      | label name' => exact congrArg label sameWord
      | _ => cases sameShape
  | printText text =>
      cases instruction' with
      | printText text' =>
          have quoted := congrArg (· ++ []) (List.cons.inj rest).2
          rw [(Quoted.string_append_cancel quoted).1]
      | _ => cases sameShape
  | print conversion source =>
      cases instruction' with
      | print conversion' source' =>
          rcases variable_of_behind rest with ⟨rfl, rfl⟩
          rfl
      | _ => cases sameShape
  | scan conversion target =>
      cases instruction' with
      | scan conversion' target' =>
          rcases variable_of_behind rest with ⟨rfl, rfl⟩
          rfl
      | _ => cases sameShape

end Instruction

end SubsetC
