import SubsetC.Proofs.Grammar.Progress
import SubsetC.Proofs.Tree.Height

/-!
# How high trees grow

A tree grows by what the parser counts as nesting and by the rows in it, which are not counted. On
each level an expression adds at most six rows of operators, one for each level of operators, and a
conditional statement adds the conditions that hang on it. So the limit on nesting bounds the height
of a tree by its longest row (`height_parse`), also where reading stops at an error. The inductions
are on the derivation, with a bound for the nesting and a bound for the rows of the tree.
-/

namespace SubsetC

namespace Grammar

/-! ## Expressions -/

/-- The number of operators. -/
def Links.length {level : Nat} : Links level → Nat
  | .nil => 0
  | .cons _ _ _ rest => rest.length + 1

/-- Operators behind one another are in a row with those to the left of them. -/
theorem Links.leftward_tree {level : Nat} (links : Links level) (left : Expr) :
    (links.tree left).leftward = left.leftward + links.length := by
  match links with
  | .nil => rfl
  | .cons op fits operand rest =>
      rw [Links.tree, rest.leftward_tree, Expr.leftward, Links.length]
      omega

/-- The rows of what stands to the left are rows of the whole. -/
theorem Links.row_le {level : Nat} (links : Links level) (left : Expr) :
    left.row ≤ (links.tree left).row := by
  match links with
  | .nil => exact Nat.le_refl _
  | .cons op fits operand rest =>
      have whole := rest.row_le (.binary op left operand.tree default)
      rw [Expr.row] at whole
      rw [Links.tree]
      omega

/-- The operators themselves are a row of the whole. -/
theorem Links.length_le {level : Nat} (links : Links level) (left : Expr) :
    links.length ≤ (links.tree left).row := by
  have row := (links.tree left).leftward_le_row
  rw [links.leftward_tree] at row
  omega

mutual

/-- On each level of nesting an expression goes down six rows at most. -/
theorem Phrase.height_tree {level : Nat} (phrase : Phrase level) {row nesting : Nat}
    (short : phrase.tree.row ≤ row) (fits : phrase.nesting ≤ nesting) :
    phrase.tree.height ≤ nesting * (6 * row + 1) + level * row + 1 := by
  match phrase with
  | .integer value => exact Nat.le_add_left _ _
  | .character body => exact Nat.le_add_left _ _
  | .var name => exact Nat.le_add_left _ _
  | .parentheses inner =>
      obtain ⟨nesting, rfl⟩ := Nat.exists_eq_add_one_of_ne_zero (Nat.ne_zero_of_lt fits)
      have inside := inner.height_tree short (Nat.le_of_succ_le_succ fits)
      rw [Nat.succ_mul]
      simp only [Phrase.tree]
      omega
  | .signed op operand =>
      obtain ⟨nesting, rfl⟩ := Nat.exists_eq_add_one_of_ne_zero (Nat.ne_zero_of_lt fits)
      have inside := operand.height_tree short (Nat.le_of_succ_le_succ fits)
      rw [Nat.succ_mul]
      simp only [Phrase.tree, Expr.height]
      omega
  | @Phrase.row level first rest =>
      rcases Nat.max_le.mp fits with ⟨firstFits, restFits⟩
      have left := first.height_tree (Nat.le_trans (rest.row_le first.tree) short) firstFits
      have whole := rest.height_tree first.tree short restFits
      have length := Nat.le_trans (rest.length_le first.tree) short
      rw [Nat.succ_mul level row]
      simp only [Phrase.tree]
      omega

/-- A row of operators is as high as its operands and its length allow. -/
theorem Links.height_tree {level : Nat} (links : Links level) (left : Expr) {row nesting : Nat}
    (short : (links.tree left).row ≤ row) (fits : links.nesting ≤ nesting) :
    (links.tree left).height ≤
      max left.height (nesting * (6 * row + 1) + level * row + 1) + links.length := by
  match links with
  | .nil => exact Nat.le_max_left _ _
  | .cons op opFits operand rest =>
      rcases Nat.max_le.mp fits with ⟨operandFits, restFits⟩
      have rows := Nat.le_trans (rest.row_le (.binary op left operand.tree default)) short
      have whole := rest.height_tree (.binary op left operand.tree default) short restFits
      have right := operand.height_tree (Nat.max_le.mp (Nat.max_le.mp rows).2).2 operandFits
      simp only [Expr.height] at whole
      simp only [Links.tree, Links.length]
      omega

end

/-- What an expression adds to the height of a statement. -/
theorem Phrase.height_tree_le (phrase : Phrase 6) {row nesting : Nat}
    (short : phrase.tree.row ≤ row) (fits : phrase.nesting ≤ nesting) :
    phrase.tree.height ≤ nesting * (8 * row + 2) + 6 * row + 1 := by
  have height := phrase.height_tree short fits
  have wider : nesting * (6 * row + 1) ≤ nesting * (8 * row + 2) :=
    Nat.mul_le_mul_left nesting (by omega)
  omega

/-! ## Statements -/

/-- The number of conditions right after `else`. -/
def Alternative.arms : Alternative → Nat
  | .none | .block _ => 0
  | .conditional _ _ otherwise => otherwise.arms + 1

/-- The row of a conditional statement reaches behind its conditions. -/
theorem Alternative.arms_le (alternative : Alternative) :
    ∀ block ∈ alternative.tree?, alternative.arms ≤ blockHanging block := by
  match alternative with
  | .none => simp [Alternative.tree?]
  | .block body => simp [Alternative.arms]
  | .conditional condition body .none =>
      simp [Alternative.tree?, Alternative.arms, conditionalTree, blockHanging, statementsHanging,
        Stmt.hanging]
  | .conditional condition body (.block other) =>
      simp [Alternative.tree?, Alternative.arms, conditionalTree, blockHanging, statementsHanging,
        Stmt.hanging]
  | .conditional condition body (.conditional condition' body' otherwise) =>
      have behind := (Alternative.conditional condition' body' otherwise).arms_le _ rfl
      simpa [Alternative.tree?, Alternative.arms, conditionalTree, blockHanging, statementsHanging,
        Stmt.hanging] using behind

/-- A conditional statement is one higher than its parts. -/
theorem height_conditionalTree {condition : Expr} {body : List Stmt}
    {otherwise : Option (Block Stmt)} {bound : Nat} (test : condition.height ≤ bound)
    (branch : statementsHeight body + 1 ≤ bound)
    (behind : ∀ block ∈ otherwise, blockHeight block ≤ bound) :
    (conditionalTree condition body otherwise).height ≤ bound + 1 := by
  cases otherwise with
  | none =>
      simp only [conditionalTree, Stmt.height, blockHeight]
      omega
  | some block =>
      have other := behind block rfl
      simp only [conditionalTree, Stmt.height, blockHeight]
      omega

/-- The rows of a conditional statement. -/
theorem row_conditionalTree {condition : Expr} {body : List Stmt}
    {otherwise : Option (Block Stmt)} {row : Nat}
    (short : (conditionalTree condition body otherwise).row ≤ row) :
    condition.row ≤ row ∧ statementsRow body ≤ row ∧
      ∀ block ∈ otherwise, blockHanging block ≤ row ∧ blockRow block ≤ row := by
  cases otherwise with
  | none =>
      simp only [conditionalTree, Stmt.row, blockRow] at short
      exact ⟨by omega, by omega, by simp⟩
  | some block =>
      simp only [conditionalTree, Stmt.row, blockRow] at short
      refine ⟨by omega, by omega, ?_⟩
      rintro block ⟨⟩
      exact ⟨by omega, by omega⟩

mutual

/-- On each level of nesting a statement goes down one row of conditions, and then into an
expression or a block. -/
theorem Sentence.height_tree (sentence : Sentence) {row nesting : Nat}
    (short : sentence.tree.row ≤ row) (fits : sentence.nesting ≤ nesting) :
    sentence.tree.height ≤ (nesting + 1) * (8 * row + 2) := by
  rw [Nat.succ_mul]
  match sentence with
  | .declare type name =>
      simp only [Sentence.tree, Stmt.height]
      omega
  | .define type name value =>
      have inside := value.height_tree_le short fits
      simp only [Sentence.tree, Stmt.height]
      omega
  | .function type name body =>
      have inside := body.height_trees short fits
      simp only [Sentence.tree, Stmt.height, blockHeight]
      omega
  | .assign target value =>
      have inside := value.height_tree_le short fits
      simp only [Sentence.tree, Stmt.height]
      omega
  | .conditional condition body otherwise =>
      rcases row_conditionalTree short with ⟨testRow, bodyRow, otherRow⟩
      rcases Nat.max_le.mp fits with ⟨branchFits, otherFits⟩
      rcases Nat.max_le.mp branchFits with ⟨testFits, bodyFits⟩
      have test := condition.height_tree_le testRow testFits
      have branch := body.height_trees bodyRow bodyFits
      have whole := @height_conditionalTree condition.tree body.trees otherwise.tree?
        (nesting * (8 * row + 2) + 8 * row + 1) (by omega) (by omega) (by
          intro block mem
          have arms := otherwise.arms_le block mem
          have behind := otherwise.height_tree? block mem (otherRow block mem).2 otherFits
          have hanging := (otherRow block mem).1
          omega)
      exact whole
  | .loop condition body =>
      rcases Nat.max_le.mp short with ⟨testRow, bodyRow⟩
      rcases Nat.max_le.mp fits with ⟨testFits, bodyFits⟩
      have test := condition.height_tree_le testRow testFits
      have inside := body.height_trees bodyRow bodyFits
      simp only [Sentence.tree, Stmt.height, blockHeight]
      omega
  | .print format argument =>
      simp only [Sentence.tree, Stmt.height]
      omega
  | .scan format target =>
      simp only [Sentence.tree, Stmt.height]
      omega
  | .leave none =>
      simp only [Sentence.tree, Option.map_none, Stmt.height]
      omega
  | .leave (some value) =>
      have inside := value.height_tree_le short fits
      simp only [Sentence.tree, Option.map_some, Stmt.height]
      omega
  | .block body =>
      have inside := body.height_trees short fits
      simp only [Sentence.tree, Stmt.height, blockHeight]
      omega

/-- Each condition right after `else` adds a block and a statement. -/
theorem Alternative.height_tree? (alternative : Alternative) (block : Block Stmt)
    (mem : block ∈ alternative.tree?) {row nesting : Nat} (short : blockRow block ≤ row)
    (fits : alternative.nesting ≤ nesting) :
    blockHeight block ≤ nesting * (8 * row + 2) + 6 * row + 1 + 2 * alternative.arms := by
  match alternative with
  | .none => cases mem
  | .block body =>
      cases mem
      have inside := body.height_trees short fits
      simp only [blockHeight, Alternative.arms]
      omega
  | .conditional condition body otherwise =>
      cases mem
      simp only [blockRow, statementsRow, Nat.max_zero] at short
      rcases row_conditionalTree short with ⟨testRow, bodyRow, otherRow⟩
      rcases Nat.max_le.mp fits with ⟨branchFits, otherFits⟩
      rcases Nat.max_le.mp branchFits with ⟨testFits, bodyFits⟩
      have test := condition.height_tree_le testRow testFits
      have branch := body.height_trees bodyRow bodyFits
      have whole := @height_conditionalTree condition.tree body.trees otherwise.tree?
        (nesting * (8 * row + 2) + 6 * row + 1 + 2 * otherwise.arms) (by omega) (by omega) (by
          intro block mem
          exact otherwise.height_tree? block mem (otherRow block mem).2 otherFits)
      simp only [blockHeight, statementsHeight, Nat.max_zero, Alternative.arms]
      omega

/-- Each level that nests in the statements adds a bounded height. -/
theorem Sequence.height_trees (sequence : Sequence) {row nesting : Nat}
    (short : statementsRow sequence.trees ≤ row) (fits : sequence.nesting ≤ nesting) :
    statementsHeight sequence.trees ≤ nesting * (8 * row + 2) := by
  match sequence with
  | .nil => exact Nat.zero_le _
  | .cons first rest =>
      rcases Nat.max_le.mp fits with ⟨firstFits, restFits⟩
      rcases Nat.max_le.mp short with ⟨firstRow, restRow⟩
      have others := rest.height_trees restRow restFits
      obtain ⟨nesting, rfl⟩ := Nat.exists_eq_add_one_of_ne_zero (Nat.ne_zero_of_lt firstFits)
      have here := first.height_tree firstRow (Nat.le_of_succ_le_succ firstFits)
      exact Nat.max_le.mpr ⟨here, others⟩

end

/-- A whole program uses up all levels at most. -/
theorem height_program {program : List Sentence} (fits : Fits program) {row : Nat}
    (short : statementsRow (program.map Sentence.tree) ≤ row) :
    statementsHeight (program.map Sentence.tree) ≤ (maxNesting + 1) * (8 * row + 2) := by
  induction program with
  | nil => exact Nat.zero_le _
  | cons sentence others ih =>
      rw [Fits, List.forall_mem_cons] at fits
      rcases Nat.max_le.mp short with ⟨here, behind⟩
      exact Nat.max_le.mpr ⟨sentence.height_tree here fits.1, ih fits.2 behind⟩

end Grammar

open Grammar

/-- The limit on nesting bounds the height of a tree by its longest row, also the height of a tree
that is cut short by an error. -/
theorem height_parse (source : String) (session : Session) :
    (parse source session).1.1.height ≤
      (maxNesting + 1) * (8 * (parse source session).1.1.row + 2) + 1 := by
  rcases exists_point source session with ⟨program, point, took, fits, denotes, ends⟩
  have height := @height_program program fits (parse source session).1.1.row (by
    rw [← denotes, statementsRow_bare]
    exact Nat.le_refl _)
  rw [← denotes, statementsHeight_bare] at height
  exact Nat.succ_le_succ height

end SubsetC
