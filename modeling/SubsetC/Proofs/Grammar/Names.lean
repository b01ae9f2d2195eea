import SubsetC.Proofs.Grammar.Recognition
import SubsetC.Proofs.Token.Scanning
import SubsetC.Proofs.Tree.Parts

/-!
# Names in trees

The variables of a tree are identifiers of its source, so they are spelled as identifiers are.
-/

namespace SubsetC

open Segment

theorem Expr.vars_bare (expr : Expr) : expr.bare.vars = expr.vars := by
  induction expr with
  | literal value span => rfl
  | var name span => rfl
  | binary op left right span ihLeft ihRight =>
      rw [bare, vars, vars, ihLeft, ihRight]
  | unary op operand span ih => exact ih

/-- The places in a statement are not told by its variables. -/
theorem Stmt.vars_bare (stmt : Stmt) : stmt.bare.vars = stmt.vars := by
  induction stmt using nestedInduction with
  | function type name body span ih =>
      rw [bare, vars_function, vars_function]
      exact ih
  | blockNil span => rfl
  | blockCons first rest span ihFirst ihRest =>
      rw [bare, blockBare, statementsBare, vars_block_cons, vars_block_cons, ihFirst]
      exact congrArg _ ihRest
  | declare type name span => rfl
  | define type target value span =>
      rw [bare, vars_define, vars_define, value.vars_bare]
      rfl
  | assign target value span =>
      rw [bare, vars_assign, vars_assign, value.vars_bare]
      rfl
  | ifThen condition body span ih =>
      rw [bare, vars_ifThen, vars_ifThen, condition.vars_bare]
      exact congrArg _ ih
  | ifElse condition body otherwise span ihBody ihOtherwise =>
      rw [bare, vars_ifElse, vars_ifElse, condition.vars_bare]
      exact congrArg₂ (condition.vars ++ · ++ ·) ihBody ihOtherwise
  | loop condition body span ih =>
      rw [bare, vars_loop, vars_loop, condition.vars_bare]
      exact congrArg _ ih
  | print format argument span => cases argument <;> rfl
  | scan format target span => rfl
  | leave value span =>
      cases value with
      | none => rfl
      | some value => simp [bare, value.vars_bare]

namespace Grammar

variable {name : String}

mutual

theorem Phrase.identifier_mem_tokens {level : Nat} (phrase : Phrase level)
    (used : name ∈ phrase.tree.vars) : .identifier name ∈ phrase.tokens := by
  match phrase with
  | .integer value => cases used
  | .character body => cases used
  | .var source =>
      cases List.mem_singleton.mp used
      exact .head _
  | .parentheses inner =>
      have inside := inner.identifier_mem_tokens used
      simp [Phrase.tokens, inside]
  | .signed op operand => exact .tail _ (operand.identifier_mem_tokens used)
  | .row first rest =>
      rw [Phrase.tokens, List.mem_append]
      rcases rest.identifier_mem_tokens first.tree used with left | right
      · exact .inl (first.identifier_mem_tokens left)
      · exact .inr right

theorem Links.identifier_mem_tokens {level : Nat} (links : Links level) (left : Expr)
    (used : name ∈ (links.tree left).vars) :
    name ∈ left.vars ∨ .identifier name ∈ links.tokens := by
  match links with
  | .nil => exact .inl used
  | .cons op fits operand rest =>
      rw [Links.tokens, List.mem_cons, List.mem_append]
      rcases rest.identifier_mem_tokens _ used with inside | behind
      · rcases List.mem_append.mp inside with before | right
        · exact .inl before
        · exact .inr (.inr (.inl (operand.identifier_mem_tokens right)))
      · exact .inr (.inr (.inr behind))

end

theorem identifier_mem_testTokens {condition : Phrase 6} (used : name ∈ condition.tree.vars) :
    .identifier name ∈ testTokens condition := by
  simp [testTokens, condition.identifier_mem_tokens used]

theorem mem_blockTokens {inside : List Token.Kind} {kind : Token.Kind} (mem : kind ∈ inside) :
    kind ∈ blockTokens inside := by
  simp [blockTokens, mem]

theorem identifier_mem_conditional {condition : Phrase 6} {body : List Stmt}
    {otherwise : Option (Block Stmt)} {bodyTokens otherTokens : List Token.Kind}
    (used : name ∈ (conditionalTree condition.tree body otherwise).vars)
    (inBody : name ∈ (Stmt.block ⟨body, default⟩).vars → .identifier name ∈ bodyTokens)
    (inOther : ∀ block ∈ otherwise, name ∈ (Stmt.block block).vars →
      .identifier name ∈ otherTokens) :
    .identifier name ∈ testTokens condition ++ (blockTokens bodyTokens ++ otherTokens) := by
  rw [List.mem_append, List.mem_append]
  cases otherwise with
  | none =>
      rw [conditionalTree, Stmt.vars_ifThen, List.mem_append] at used
      rcases used with test | inside
      · exact .inl (identifier_mem_testTokens test)
      · exact .inr (.inl (mem_blockTokens (inBody inside)))
  | some block =>
      rw [conditionalTree, Stmt.vars_ifElse, List.mem_append, List.mem_append] at used
      rcases used with (test | inside) | behind
      · exact .inl (identifier_mem_testTokens test)
      · exact .inr (.inl (mem_blockTokens (inBody inside)))
      · exact .inr (.inr (inOther block rfl behind))

mutual

/-- The variables of a statement are identifiers in it. -/
theorem Sentence.identifier_mem_tokens (sentence : Sentence) (used : name ∈ sentence.tree.vars) :
    .identifier name ∈ sentence.tokens := by
  match sentence with
  | .declare type target =>
      cases List.mem_singleton.mp used
      exact .tail _ (.head _)
  | .define type target value =>
      rw [Sentence.tree, Stmt.vars_define, List.mem_cons] at used
      rcases used with rfl | read
      · exact .tail _ (.head _)
      · simp [Sentence.tokens, value.identifier_mem_tokens read]
  | .function type target body =>
      rw [Sentence.tree, Stmt.vars_function] at used
      simp [Sentence.tokens, mem_blockTokens (body.identifier_mem_tokens used)]
  | .assign target value =>
      rw [Sentence.tree, Stmt.vars_assign, List.mem_cons] at used
      rcases used with rfl | read
      · exact .head _
      · simp [Sentence.tokens, value.identifier_mem_tokens read]
  | .conditional condition body otherwise =>
      exact .tail _ (identifier_mem_conditional used body.identifier_mem_tokens
        otherwise.identifier_mem_tokens)
  | .loop condition body =>
      rw [Sentence.tree, Stmt.vars_loop, List.mem_append] at used
      rw [Sentence.tokens, List.mem_cons, List.mem_append]
      rcases used with test | inside
      · exact .inr (.inl (identifier_mem_testTokens test))
      · exact .inr (.inr (mem_blockTokens (body.identifier_mem_tokens inside)))
  | .print format none => cases used
  | .print format (some argument) =>
      cases List.mem_singleton.mp used
      simp [Sentence.tokens, argumentTokens]
  | .scan format target =>
      cases List.mem_singleton.mp used
      simp [Sentence.tokens]
  | .leave none => cases used
  | .leave (some value) =>
      have read : name ∈ value.tree.vars := by simpa [Sentence.tree] using used
      simp [Sentence.tokens, valueTokens, value.identifier_mem_tokens read]
  | .block body => exact mem_blockTokens (body.identifier_mem_tokens used)

theorem Alternative.identifier_mem_tokens (alternative : Alternative) (block : Block Stmt)
    (known : block ∈ alternative.tree?) (used : name ∈ (Stmt.block block).vars) :
    .identifier name ∈ alternative.tokens := by
  match alternative with
  | .none => cases known
  | .block body =>
      cases known
      exact .tail _ (mem_blockTokens (body.identifier_mem_tokens used))
  | .conditional condition body otherwise =>
      cases known
      rw [Stmt.vars_block_cons, List.mem_append] at used
      rcases used with whole | none
      · exact .tail _ (.tail _ (identifier_mem_conditional whole body.identifier_mem_tokens
          otherwise.identifier_mem_tokens))
      · cases none

theorem Sequence.identifier_mem_tokens (sequence : Sequence)
    (used : name ∈ (Stmt.block ⟨sequence.trees, default⟩).vars) :
    .identifier name ∈ sequence.tokens := by
  match sequence with
  | .nil => cases used
  | .cons first rest =>
      rw [Sequence.trees, Stmt.vars_block_cons, List.mem_append] at used
      rw [Sequence.tokens, List.mem_append]
      exact used.imp first.identifier_mem_tokens rest.identifier_mem_tokens

end

theorem identifier_mem_programTokens {program : List Sentence}
    (used : name ∈ (Stmt.block ⟨program.map Sentence.tree, default⟩).vars) :
    .identifier name ∈ programTokens program := by
  induction program with
  | nil => cases used
  | cons first rest ih =>
      rw [List.map_cons, Stmt.vars_block_cons, List.mem_append] at used
      rw [programTokens, List.flatMap_cons, List.mem_append]
      exact used.imp first.identifier_mem_tokens ih

end Grammar

/-- The variables of a source that is read to its end are spelled as names are. -/
theorem isName_of_mem_vars {source : String} {session : Session} {name : String}
    (accepted : (parse source session).1.2 = none)
    (used : name ∈ (parse source session).1.1.vars) : IsName name.toList := by
  rcases exists_program accepted with ⟨program, derives, -, denotes, -⟩
  have same : (Stmt.block ⟨program.map Grammar.Sentence.tree, default⟩).vars =
      (parse source session).1.1.vars := by
    rw [← denotes]
    exact Stmt.vars_bare (parse source session).1.1.whole
  rw [Grammar.Derives, lex, TokenStream.kinds_tokens] at derives
  have token : .identifier name ∈ (TokenStream.ofSource source).kinds := by
    rw [List.append_cancel_right derives]
    exact Grammar.identifier_mem_programTokens (same ▸ used)
  exact (TokenStream.written_of_mem_ofSource token).1

end SubsetC
