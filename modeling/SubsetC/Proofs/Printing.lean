import SubsetC.Proofs.Format
import SubsetC.Proofs.Grammar.Recognition
import SubsetC.Proofs.Machine.Counting
import SubsetC.Proofs.Token.RoundTrip
import SubsetC.Run

/-!
# Texts are printed as they are

Every text can be the whole output of a program. Two layers are written over it: percent signs are
doubled for the format, and what cannot stand in a string literal is escaped. Each layer goes from
character to character, and what one writes for a character is read back whatever stands behind it.
-/

namespace SubsetC

open Segment

/-- The character as the body of a string literal has it. -/
def Escape.written : Char → List Char
  | '\\' => ['\\', '\\']
  | '"' => ['\\', '"']
  | '\n' => ['\\', 'n']
  | c => [c]

/-- The body of a string literal that is a format for the text itself. -/
def verbatim (text : String) : String :=
  String.ofList (text.toList.flatMap fun c => (Format.written c).flatMap Escape.written)

/-- The source that prints the text. -/
def printing (text : String) : String :=
  "printf(\"" ++ verbatim text ++ "\");"

namespace Escape

theorem decode_written (c : Char) (rest : List Char) :
    decode (written c ++ rest) = c :: decode rest := by
  unfold written
  split
  · rfl
  · rfl
  · rfl
  · rename_i c backslash _ _
    rw [List.singleton_append, decode]
    · intro same
      exact absurd same backslash
    · intro d more same
      exact absurd same backslash

theorem decode_flatMap (text : List Char) : decode (text.flatMap written) = text := by
  induction text with
  | nil => rfl
  | cons c text ih => rw [List.flatMap_cons, decode_written, ih]

/-- Escaped characters can stand in a string literal. -/
theorem isStringBody_flatMap (text : List Char) : IsStringBody (text.flatMap written) := by
  induction text with
  | nil => exact .nil
  | cons c text ih =>
      rw [List.flatMap_cons]
      unfold written
      split
      · exact .escaped (by decide) ih
      · exact .escaped (by decide) ih
      · exact .escaped (by decide) ih
      · rename_i c backslash quote newline
        exact .plain quote backslash newline ih

end Escape

theorem parse_verbatim (text : String) :
    Format.parse (Escape.string (verbatim text)) = .ok ⟨text, none, ""⟩ := by
  have escaped : Escape.string (verbatim text) =
      String.ofList (text.toList.flatMap Format.written) := by
    rw [Escape.string, verbatim, String.toList_ofList, ← List.flatMap_assoc,
      Escape.decode_flatMap]
  rw [escaped, Format.parse, String.toList_ofList, Format.upToConversion_flatMap]
  change Except.ok (Format.mk (String.ofList text.toList) none "") = _
  rw [String.ofList_toList]

namespace Segment

/-- A segment that ends before the rest of a source. -/
theorem segments_of_scan {first : Char} {more after : List Char} {role : Role}
    (scanned : scan first (more ++ after) = (role, more.length)) :
    segments (first :: (more ++ after)) = ⟨role, first :: more⟩ :: segments after := by
  rw [segments_cons, scanned]
  simp

end Segment

theorem segments_printing (text : String) :
    segments (printing text).toList =
      [⟨.token (.keyword .printf), "printf".toList⟩, ⟨.token (.symbol .leftParen), ['(']⟩,
        ⟨.token (.string (verbatim text)), '"' :: ((verbatim text).toList ++ ['"'])⟩,
        ⟨.token (.symbol .rightParen), [')']⟩, ⟨.token (.symbol .semicolon), [';']⟩] := by
  have source : (printing text).toList = 'p' :: (['r', 'i', 'n', 't', 'f'] ++
      '(' :: ([] ++ '"' :: (((verbatim text).toList ++ ['"']) ++ [')', ';']))) := by
    simp [printing]
  have isBody : IsStringBody (verbatim text).toList := by
    rw [verbatim, String.toList_ofList, ← List.flatMap_assoc]
    exact Escape.isStringBody_flatMap _
  have name (after : List Char) : scan 'p' (['r', 'i', 'n', 't', 'f'] ++ '(' :: after) =
      (.token (.keyword .printf), 5) := by
    rw [scan_nameStart _ (by decide)]
    rfl
  have bracket (after : List Char) : scan '(' ([] ++ after) = (.token (.symbol .leftParen), 0) :=
    rfl
  have found : stringLength? (((verbatim text).toList ++ ['"']) ++ [')', ';']) =
      some (verbatim text).toList.length := by
    rw [List.append_assoc]
    exact stringLength?_append isBody _
  have literal : scan '"' (((verbatim text).toList ++ ['"']) ++ [')', ';']) =
      (.token (.string (verbatim text)), ((verbatim text).toList ++ ['"']).length) := by
    rw [scan_quotationMark found]
    simp
  rw [source, segments_of_scan (name _), segments_of_scan (bracket _), segments_of_scan literal]
  rfl

/-- The tokens of the source, with no errors between them. -/
theorem ofSource_printing (text : String) :
    ∃ opening bracket literal closing semicolon : Span, ∃ stop : Position,
      TokenStream.ofSource (printing text) =
        ⟨[⟨[], ⟨.keyword .printf, opening⟩⟩, ⟨[], ⟨.symbol .leftParen, bracket⟩⟩,
          ⟨[], ⟨.string (verbatim text), literal⟩⟩, ⟨[], ⟨.symbol .rightParen, closing⟩⟩,
          ⟨[], ⟨.symbol .semicolon, semicolon⟩⟩], [], stop⟩ := by
  rw [TokenStream.ofSource, segments_printing]
  exact ⟨_, _, _, _, _, _, rfl⟩

theorem reads_printing (text : String) :
    ∃ (span : Span) (last : Cursor),
      Reads (printing text) .empty [.print (verbatim text) none span] last ∧
        last.session = .empty := by
  rcases ofSource_printing text with ⟨opening, _, _, _, semicolon, stop, stream⟩
  have wanted : ((Cursor.start (printing text) .empty).kind != .endOfInput) = true := by
    rw [Cursor.start, stream]
    rfl
  have ran : (Productions.within maxNesting).statement.run (.start (printing text) .empty) =
      (.ok (.print (verbatim text) none (opening.upTo semicolon.stop)),
        ⟨⟨[], [], stop⟩, semicolon.stop, 0, .empty⟩) := by
    rw [Cursor.start, stream]
    rfl
  exact ⟨_, _, .again wanted ran (.stop rfl), rfl⟩

theorem parse_printing (text : String) :
    ∃ whole span : Span, parse (printing text) .empty =
      ((⟨[.print (verbatim text) none span], whole⟩, none), .empty) := by
  rcases reads_printing text with ⟨span, last, reads, session⟩
  have collected : readAll (printing text) .empty =
      (([.print (verbatim text) none span], none), last) := Reader.collect_of_repeats reads
  have statements : (parse (printing text) .empty).1.1.statements =
      [.print (verbatim text) none span] := congrArg (fun outcome => outcome.1.1) collected
  have tree : (parse (printing text) .empty).1.1 =
      ⟨[.print (verbatim text) none span], (parse (printing text) .empty).1.1.span⟩ := by
    rw [← statements]
  have unreported : (parse (printing text) .empty).2 = .empty := by
    rw [session_parse, collected]
    exact session
  exact ⟨_, span, Prod.ext (Prod.ext tree (parse_of_reads reads)) unreported⟩

/-- The source is compiled to the output of the text, and nothing is reported. -/
theorem compile_printing (text : String) :
    ∃ tree : Tree, compile (printing text) =
      (.ok ⟨tree, ⟨(Lowering.printText text).toArray⟩⟩, .empty) := by
  rcases parse_printing text with ⟨whole, span, parsed⟩
  have prints : Lowering.print (verbatim text) none span.line =
      pure (Lowering.printText text) := by
    unfold Lowering.print
    rw [parse_verbatim]
  have code : (Lowering.statements [.print (verbatim text) none span]).run ⟨.empty, none⟩ =
      (Lowering.printText text ++ [], ⟨.empty, none⟩) := by
    rw [Lowering.statements, Lowering.statement, prints]
    rfl
  have lowered : Tree.lower ⟨[.print (verbatim text) none span], whole⟩ .empty =
      (⟨(Lowering.printText text).toArray⟩, .empty) := by
    rw [Tree.lower, code, List.append_nil]
    simp
  refine ⟨⟨[.print (verbatim text) none span], whole⟩, ?_⟩
  simp only [compile, parsed, lowered]

/-- Whatever the text is, the source that prints it runs without a problem, and all that it does is
to print the text in one piece. Only a machine that may execute no instruction at all cannot. -/
theorem run_printing {text : String} (inhabited : text ≠ "") {config : Config}
    (able : config.stepLimit ≠ some 0) (rounds : Nat) (console : Console) :
    ∃ start, run (rounds + 2) (printing text) config console = (.ok start, console.emit text) ∧
      start.machine.state = .halted := by
  rcases compile_printing text with ⟨tree, compiled⟩
  rw [Lowering.printText, if_neg inhabited] at compiled
  let program : Program := ⟨#[.printText text]⟩
  let machine : Machine := ⟨program, ⟨.empty⟩, config, .empty, 0, .running, 0⟩
  have prepared : prepare (printing text) config = (.ok ⟨⟨tree, program⟩, machine⟩, #[]) := by
    rw [prepare, compiled]
    rfl
  have unlimited : machine.reachedLimit? = none := by
    apply Option.filter_eq_none_iff.mpr
    intro limit limited reached
    have zero : limit = 0 := UInt64.le_zero_iff.mp (of_decide_eq_true reached)
    exact able (zero ▸ limited)
  have printed : machine.step console =
      ({ machine.proceed with steps := 1 }, console.emit text) :=
    Machine.step_of_ok ⟨rfl, Nat.zero_lt_one, unlimited⟩ rfl rfl
  have ended : ({ machine.proceed with steps := 1 } : Machine).step (console.emit text) =
      ({ machine.proceed with steps := 1, state := .halted }, console.emit text) := rfl
  have ran : machine.runFor (rounds + 2) console =
      ({ machine.proceed with steps := 1, state := .halted }, console.emit text) := by
    rw [Machine.runFor_succ, printed, Machine.runFor_succ, ended, Machine.runFor_of_stopped]
    simp
  refine ⟨⟨⟨tree, program⟩, { machine.proceed with steps := 1, state := .halted }⟩, ?_, rfl⟩
  rw [run, prepared]
  change (Except.ok (Run.mk ⟨tree, program⟩ (machine.runFor (rounds + 2) console).1),
    (machine.runFor (rounds + 2) console).2) = _
  rw [ran]

theorem run_printing_marks :
    "100% /* \"é\" \n\\" ≠ "" ∧
    printing "100% /* \"é\" \n\\" = "printf(\"100%% /* \\\"é\\\" \\n\\\\\");" ∧
    ∃ start, run 2 (printing "100% /* \"é\" \n\\") ⟨false, none⟩ (.ofAnswers []) =
        (.ok start, ⟨[], #[], #["100% /* \"é\" \n\\"], #[]⟩) ∧
      start.machine.state = .halted :=
  ⟨by decide, by decide, run_printing (by decide) (by decide) 0 (.ofAnswers [])⟩

end SubsetC
