import SubsetC.Code
import SubsetC.Json.Reader

/-!
# Saved code

Programs as JSON texts. `Program.save` writes every record as an object with its fields in a fixed
order. `Program.restore` takes more than that: fields in any order, fields that it does not know,
arrays that give the fields of a record by position, numbers of alternatives in such arrays, and
names of alternatives as objects with one empty field elsewhere. It reads from the front and stops
at the first thing that is wrong: an instruction's own name is judged where it stands, and its other
parts once the whole instruction has been read.
-/

namespace SubsetC

/-- The value as JSON. -/
def Value.toJson : Value → Json
  | int value => .object [("type", .string "int"), ("value", .integer value.toInt)]
  | char value => .object [("type", .string "char"), ("value", .string (String.singleton value))]
  | str value => .object [("type", .string "str"), ("value", .string value)]

/-- The operand as JSON. -/
def Operand.toJson : Operand → Json
  | literal value => .object [("kind", .string "literal"), ("value", value.toJson)]
  | name source => .object [("kind", .string "name"), ("value", .string source)]

/-- The forms of an instruction. -/
inductive Instruction.Form where
  | assign
  | binary
  | jumpUnless
  | jump
  | label
  | printText
  | print
  | scan
  deriving DecidableEq, Repr

namespace Instruction

namespace Form

/-- Every form. -/
def all : List Form :=
  [assign, binary, jumpUnless, jump, label, printText, print, scan]

/-- The name of the form in saved code. -/
def name : Form → String
  | assign => "assign"
  | binary => "bin_op"
  | jumpUnless => "if_false_goto"
  | jump => "goto"
  | label => "label"
  | printText => "print_literal"
  | print => "print_var"
  | scan => "scan_var"

/-- The names of the fields, in their order. -/
def fields : Form → List String
  | assign => ["dst", "src"]
  | binary => ["dst", "op", "lhs", "rhs"]
  | jumpUnless => ["cond", "label"]
  | jump => ["label"]
  | label => ["name"]
  | printText => ["text"]
  | print => ["kind", "var"]
  | scan => ["kind", "var"]

end Form

/-- The form of the instruction. -/
def form : Instruction → Form
  | assign _ _ => .assign
  | binary _ _ _ _ => .binary
  | jumpUnless _ _ => .jumpUnless
  | jump _ => .jump
  | label _ => .label
  | printText _ => .printText
  | print _ _ => .print
  | scan _ _ => .scan

/-- The values of the fields, in their order. -/
def parts : Instruction → List Json
  | assign target source => [.string target, source.toJson]
  | binary target op left right => [.string target, .string op.label, left.toJson, right.toJson]
  | jumpUnless condition target => [condition.toJson, .string target]
  | jump target => [.string target]
  | label name => [.string name]
  | printText text => [.string text]
  | print conversion source => [.string conversion.label, .string source]
  | scan conversion target => [.string conversion.label, .string target]

/-- The instruction as JSON. -/
def toJson (instruction : Instruction) : Json :=
  let form := instruction.form
  .object (("instr", .string form.name) :: form.fields.zip instruction.parts)

end Instruction

namespace Program

/-- The program as JSON. -/
def toJson (program : Program) : Json :=
  .object [("instructions", .array (program.instructions.toList.map Instruction.toJson))]

/-- The program as a text that can be kept. -/
def save (program : Program) : String :=
  program.toJson.pretty

end Program

/-! ## What a value says -/

namespace Json

/-- The fields of a record, by name or by position. -/
inductive Record where
  | named (fields : List (String × Json))
  | positional (items : List Json)

/-- The fields of these names in this order. Each is there once; by position there are no others. -/
def Record.fields? (names : List String) : Record → Option (List Json)
  | named fields => names.mapM fun name =>
    match fields.filter fun field => field.1 == name with
    | [(_, value)] => some value
    | _ => none
  | positional items => if items.length = names.length then some items else none

/-- The text of a string. -/
def text? : Json → Option String
  | string text => some text
  | _ => none

/-- The name of an alternative: a string, or an object whose only field is empty. -/
def choice? : Json → Option String
  | string name => some name
  | object [(name, null)] => some name
  | object [(name, object [])] => some name
  | _ => none

/-- One of these alternatives with what comes with it. In an object, the alternative is named by a
field; in an array, by the first item, which may also be its number, counted from zero. -/
def tagged? (alternatives : List String) (tag content : String) : Json → Option (String × Json)
  | object fields => do
    match ← (Record.named fields).fields? [tag, content] with
    | [tag, content] => return (← tag.choice?, content)
    | _ => none
  | array [string name, content] => some (name, content)
  | array [integer (.ofNat number), content] => (alternatives[number]?).map (·, content)
  | _ => none

end Json

/-- The value that a JSON value stands for. -/
def Value.ofJson? (json : Json) : Option Value := do
  match ← json.tagged? ["int", "char", "str"] "type" "value" with
  | ("int", .integer value) => return .int (← Decimal.int64OfInt? value)
  | ("char", .string text) =>
    match text.toList with
    | [c] => return .char c
    | _ => none
  | ("str", .string text) => return .str text
  | _ => none

/-- The operand that a JSON value stands for. -/
def Operand.ofJson? (json : Json) : Option Operand := do
  match ← json.tagged? ["literal", "name"] "kind" "value" with
  | ("literal", value) => return .literal (← Value.ofJson? value)
  | ("name", .string text) => return .name text
  | _ => none

/-- The operator that a JSON value names. -/
def BinaryOp.ofJson? (json : Json) : Option BinaryOp := do
  let name ← json.choice?
  all.find? fun op => op.label == name

/-- The conversion that a JSON value names. -/
def Conversion.ofJson? (json : Json) : Option Conversion := do
  let name ← json.choice?
  all.find? fun conversion => conversion.label == name

namespace Instruction

/-- The instruction of a form that has these fields. -/
def ofParts? : Form → List Json → Option Instruction
  | .assign, [target, source] => return .assign (← target.text?) (← Operand.ofJson? source)
  | .binary, [target, op, left, right] =>
    return .binary (← target.text?) (← BinaryOp.ofJson? op) (← Operand.ofJson? left)
      (← Operand.ofJson? right)
  | .jumpUnless, [condition, target] =>
    return .jumpUnless (← Operand.ofJson? condition) (← target.text?)
  | .jump, [target] => return .jump (← target.text?)
  | .label, [name] => return .label (← name.text?)
  | .printText, [text] => return .printText (← text.text?)
  | .print, [conversion, source] =>
    return .print (← Conversion.ofJson? conversion) (← source.text?)
  | .scan, [conversion, target] =>
    return .scan (← Conversion.ofJson? conversion) (← target.text?)
  | _, _ => none

/-- The instruction of a form that has the fields of a record. -/
def ofRecord? (form : Form) (record : Json.Record) : Option Instruction :=
  (record.fields? form.fields).bind (ofParts? form)

end Instruction

/-! ## Reading -/

namespace Program

open Json

/-- The number of brackets that may lie in each other in a text. -/
def maxDepth : Nat := 127

/-- The reader for the parts of an instruction, which lie in three brackets. -/
def part : TextReader Json :=
  Json.value (maxDepth - 3)

/-- Fails at a value that is not of the form that is asked for. Of a value without parts, the whole
is looked at first. -/
def mismatch {α : Type} : TextReader α := do
  match ← peekBehindGap with
  | some '[' | some '{' => Reader.fail .unfit
  | _ =>
    let _ ← scalar.toReader
    Reader.fail .unfit

/-- Gives what is there, and fails if nothing is. -/
def require {α : Type} : Option α → TextReader α
  | some value => pure value
  | none => Reader.fail .unfit

/-- The name of an instruction's form. -/
def form : TextReader Instruction.Form := do
  match ← peekBehindGap with
  | some '"' =>
    let name ← stringLiteral.toReader
    require (Instruction.Form.all.find? fun form => form.name == name)
  | _ => mismatch

/-- One field of an instruction: its form, or some other one. -/
def instructionField (found : Option Instruction.Form × Array (String × Json)) :
    TextReader (Option Instruction.Form × Array (String × Json)) := do
  let name ← stringLiteral.toReader
  match name == "instr", found with
  | true, (some _, _) => Reader.fail .unfit
  | true, (none, fields) =>
    colon
    return (some (← form), fields)
  | false, (known, fields) =>
    colon
    return (known, fields.push (name, ← part))

/-- An instruction. -/
def instruction : TextReader Instruction := do
  match ← peekBehindGap with
  | some '{' =>
    let _ ← (char '{').toReader
    let (known, fields) ← Json.parts '}' instructionField (none, #[])
    let form ← require known
    require (Instruction.ofRecord? form (.named fields.toList))
  | some '[' =>
    let _ ← (char '[').toReader
    if (← peekBehindGap) = some ']' then Reader.fail .unfit
    else
      let form ← form
      let items ← itemsBehind
      require (Instruction.ofRecord? form (.positional items.toList))
  | _ => mismatch
where
  /-- The items of an array behind its first one, and the closing bracket. -/
  itemsBehind : TextReader (Array Json) := do
    if (← peekBehindGap) = some ']' then
      let _ ← (char ']').toReader
      return #[]
    else
      let _ ← (char ',').toReader
      if (← peekBehindGap) = some ']' then Reader.fail .malformed else items part

/-- The instructions of a program. -/
def instructionList : TextReader (Array Instruction) := do
  match ← peekBehindGap with
  | some '[' =>
    let _ ← (char '[').toReader
    items instruction
  | _ => mismatch

/-- One field of a program: its instructions, or something that is passed over. -/
def programField (found : Option (Array Instruction)) :
    TextReader (Option (Array Instruction)) := do
  let name ← stringLiteral.toReader
  if name = "instructions" then
    if found.isSome then Reader.fail .unfit
    else
      colon
      return some (← instructionList)
  else
    colon
    skip
    return found

/-- A program. -/
def reader : TextReader Program := do
  match ← peekBehindGap with
  | some '{' =>
    let _ ← (char '{').toReader
    return ⟨← require (← Json.parts '}' programField none)⟩
  | some '[' =>
    let _ ← (char '[').toReader
    if (← peekBehindGap) = some ']' then Reader.fail .unfit
    else
      let instructions ← instructionList
      let _ ← peekBehindGap
      let _ ← (char ']').toReader
      return ⟨instructions⟩
  | _ => mismatch

/-- The program that a text stands for. Nothing but a gap may stand behind it. -/
def restore (text : String) : Except ReadError Program :=
  match reader.run text.toList with
  | (.error error, _) => .error error
  | (.ok program, rest) => if rest.all isGap then .ok program else .error .malformed

end Program

end SubsetC
