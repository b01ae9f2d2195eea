import SubsetC.Proofs.Grammar.Declarations
import SubsetC.Proofs.Grammar.Recognition

/-!
# Declared before use

The parser checks names while it reads, in five productions. `parse_declarations` says that this
comes to one walk through the tree that is read: a use is reported just if its name was not declared
before and no earlier mention declares it, and at the end each name has the type of its last
declaration.
-/

namespace SubsetC

theorem lex_start (source : String) (session : Session) :
    (lex source).1 =
      (Cursor.start source session).tokens ++ [(TokenStream.ofSource source).endToken] := rfl

/-- What a source mentions is what its tree does. -/
theorem mentioned_parse {source : String} {session : Session}
    (accepted : (parse source session).1.2 = none) :
    ∃ last, (Cursor.start source session).Mentioned (parse source session).1.1.mentions last ∧
      (parse source session).2 = last.session := by
  rcases reads_of_parse accepted with ⟨last, reads, same⟩
  have tells := (Productions.tell_within maxNesting).statement
  refine ⟨last, ?_, same⟩
  rw [Tree.mentions, Tree.whole, Stmt.mentions_block]
  exact tells.mentioned_of_repeats reads

/-- The uses of names that are declared neither at first nor by an earlier declaration are reported,
each of them once and in the order of the source. A declaration counts from behind the value that
the variable starts with, in whatever block it stands; the name of a function is not declared. At
the end each name has the type of its last declaration, or else the one that it had at first. -/
theorem parse_declarations {source : String} {session : Session}
    (accepted : (parse source session).1.2 = none) :
    (∃ mentions : List (Mention Identifier),
      mentions.map (.map Identifier.name) = (parse source session).1.1.mentions ∧
      ((mentions.filterMap Mention.used?).map Identifier.token).Sublist (lex source).1 ∧
      (parse source session).2.semantic =
        session.semantic ++ (session.scope.undeclared mentions).map Identifier.undeclaredReport ∧
      ∀ used, used ∈ session.scope.undeclared mentions ↔
        ∃ earlier later, mentions = earlier ++ .use used :: later ∧
          session.symbols.get? used.name = none ∧
          ∀ type, Mention.declare type used.name ∉ earlier.map (.map Identifier.name)) ∧
    ∀ name, (parse source session).2.symbols.get? name =
      ((parse source session).1.1.mentions.filterMap (Mention.typeOf? name)).getLast?.or
        (session.symbols.get? name) := by
  rcases mentioned_parse accepted with ⟨last, ⟨mentions, same, mentioned⟩, ends⟩
  have keeps := Cursor.reportLexical_keeps session (TokenStream.ofSource source).current.errors
  have scope : (Cursor.start source session).session.scope = session.scope := keeps.1
  have semantic : (Cursor.start source session).session.semantic = session.semantic := keeps.2
  rw [ends]
  constructor
  · refine ⟨mentions, same, ?_, ?_, fun used => session.scope.mem_undeclared_iff⟩
    · rw [lex_start source session]
      apply List.Sublist.trans (List.sublist_append_left _ last.tokens)
      exact mentioned.inOrder.trans (List.sublist_append_left _ _)
    · rw [mentioned.reports, scope, semantic]
  · intro name
    have types := congrFun mentioned.scope name
    rw [same, scope, Scope.after_apply] at types
    exact types

/-- A function whose body declares a variable that starts with itself. -/
def selfSum : String :=
  "int f() \x7b int a = a + b; \x7d c = (a); f = 1;"

/-- The same in a session in which one of the names has been declared. -/
theorem parse_declarations_selfSum :
    let session := Session.empty.declare "b" .char
    (parse selfSum session).1.2 = none ∧
    (∃ mentions : List (Mention Identifier),
      mentions.map (Mention.map Identifier.name) =
        [.use "a", .use "b", .declare .int "a", .use "c", .use "a", .use "f"] ∧
      (parse selfSum session).2.semantic =
        (session.scope.undeclared mentions).map Identifier.undeclaredReport) ∧
    (parse selfSum session).2.semantic.map Diagnostic.message =
      ["Undeclared variable 'a'", "Undeclared variable 'c'", "Undeclared variable 'f'"] ∧
    (parse selfSum session).2.symbols.get? "a" = some .int ∧
    (parse selfSum session).2.symbols.get? "b" = some .char := by
  intro session
  have accepted : (parse selfSum session).1.2 = none := by decide +kernel
  have walk : (parse selfSum session).1.1.mentions =
      [.use "a", .use "b", .declare .int "a", .use "c", .use "a", .use "f"] := by decide +kernel
  rcases parse_declarations accepted with ⟨⟨mentions, same, -, reports, -⟩, types⟩
  refine ⟨accepted, ⟨mentions, by rw [same, walk], reports⟩, by decide +kernel, ?_, ?_⟩
  · rw [types, walk]
    rfl
  · rw [types, walk]
    rfl

end SubsetC
