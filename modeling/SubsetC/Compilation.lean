import SubsetC.Code.Lowering
import SubsetC.Tree.Parser

/-!
# Compilations

A source is read and, if it has a tree, lowered to code. Lexical and semantic problems are reported;
a syntax error is the one thing that leaves a source without code.
-/

namespace SubsetC

/-- A tree and its code. -/
structure Compilation where
  tree : Tree
  program : Program
  deriving Repr, Inhabited

/-- A source without code: its syntax error, and the statements before it. -/
structure CompileError where
  error : ParseError
  complete : Tree
  deriving Repr, Inhabited

/-- Compiles a source by itself. The session holds its declarations and all that was reported. -/
def compile (source : String) : Except CompileError Compilation × Session :=
  match parse source .empty with
  | ((tree, some error), session) => (.error ⟨error, tree⟩, session)
  | ((tree, none), session) =>
    let (program, session) := tree.lower session
    (.ok ⟨tree, program⟩, session)

end SubsetC
