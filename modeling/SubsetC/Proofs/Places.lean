import SubsetC.Compilation
import SubsetC.Proofs.Grammar.Places
import SubsetC.Proofs.Lowering.Places
import SubsetC.Proofs.Token.RoundTrip

/-!
# Places decide nothing in a compilation

How a source is laid out decides on places, and on lexical problems if there are characters that
belong to nothing. Everything else that a compilation comes to follows from the kinds of the tokens:
`compile_layouts` puts the parser and the lowering together.
-/

namespace SubsetC

/-- What a compilation comes to without places: the statements and their code, or the error and the
statements before it. -/
def bareOutcome : Except CompileError Compilation →
    Except (ParseError × List Stmt) (List Stmt × Program)
  | .ok compilation => .ok (statementsBare compilation.tree.statements, compilation.program)
  | .error failure => .error (failure.error.bare, statementsBare failure.complete.statements)

/-- Two compilations differ in nothing but places, and in the problems of other phases than the
semantic one. -/
structure CompiledAlike (first second : Except CompileError Compilation × Session) : Prop where
  outcome : bareOutcome first.1 = bareOutcome second.1
  session : first.2.Alike second.2

/-- The parser gives the same trees to lower or the same error. -/
theorem compiledAlike_of_kinds {source layout : String}
    (same : (TokenStream.ofSource source).kinds = (TokenStream.ofSource layout).kinds) :
    CompiledAlike (compile source) (compile layout) := by
  rcases parse_alike .empty same with ⟨statements, failures, alike⟩
  unfold compile
  generalize parse source .empty = parsed at statements failures alike
  generalize parse layout .empty = parsed' at statements failures alike
  rcases parsed with ⟨⟨tree, failure⟩, session⟩
  rcases parsed' with ⟨⟨tree', failure'⟩, session'⟩
  cases failure with
  | none =>
      cases failure' with
      | some error' => cases failures
      | none =>
          rcases Tree.lower_alike statements alike with ⟨program, lowered⟩
          exact ⟨congrArg Except.ok (Prod.ext statements program), lowered⟩
  | some error =>
      cases failure' with
      | none => cases failures
      | some error' =>
          exact ⟨congrArg Except.error (Prod.ext (Option.some.inj failures) statements), alike⟩

/-- Sources with tokens of the same kinds come to the same, places left out. So does the text that
is rendered from the tokens of a source. -/
theorem compile_layouts (source : String) :
    (∀ layout : String, (lex layout).1.map Token.kind = (lex source).1.map Token.kind →
      CompiledAlike (compile layout) (compile source)) ∧
    CompiledAlike (compile (Token.render (lex source).1)) (compile source) := by
  constructor
  · intro layout same
    change (TokenStream.ofSource layout).tokens.map Token.kind =
      (TokenStream.ofSource source).tokens.map Token.kind at same
    rw [TokenStream.kinds_tokens, TokenStream.kinds_tokens] at same
    exact compiledAlike_of_kinds (List.append_cancel_right same)
  · exact compiledAlike_of_kinds (TokenStream.kinds_ofSource_joined
      (fun _ mem => TokenStream.written_of_mem_ofSource mem) (Token.toList_render_lex source))

/-- A source on one line. -/
def oneLine : String :=
  "int a = 1 + 2; if (a) \x7b printf(\"%d\", b); \x7d"

/-- The same tokens on more lines, with a comment and with a character that belongs to nothing. -/
def moreLines : String :=
  "int a = // three\n  1 + 2;\n\n$ if (a)\n\x7b\n  printf(\"%d\", b);\n\x7d\n"

theorem compile_layouts_lines :
    (lex moreLines).1.map Token.kind = (lex oneLine).1.map Token.kind ∧
      (compile moreLines).2.diagnostics ≠ (compile oneLine).2.diagnostics ∧
      CompiledAlike (compile moreLines) (compile oneLine) := by
  have same : (lex moreLines).1.map Token.kind = (lex oneLine).1.map Token.kind := by
    decide +kernel
  exact ⟨same, by decide +kernel, (compile_layouts oneLine).1 moreLines same⟩

end SubsetC
