import SubsetC.Proofs.Reader
import SubsetC.Tree.Parser

/-!
# Conditional statements as a loop

`Productions.ifFrom` calls itself for each condition right after `else`. `ifLoop` reads the same
conditions in a loop and puts the statements that hang on one another together at the end, from the
last one on; `ifStatement_eq` says that the two are the same. What is proved of conditional
statements is proved of the loop, whose rounds are apart from each other.
-/

namespace SubsetC.Productions

open TokenStep Production

/-- The blocks that stand for a row of conditions, each in the one before it. -/
def elseIfs (stop : Nat) (arms : List (Span × Expr × Block Stmt))
    (otherwise : Option (Block Stmt)) : Option (Block Stmt) :=
  arms.foldr
    (fun (opening, condition, body) otherwise =>
      some ⟨[conditional opening condition body otherwise stop], opening.upTo stop⟩)
    otherwise

/-- The branch behind the last condition of a row. -/
def lastBranch (block : TokenStep (Block Stmt)) : Production (Option (Block Stmt)) :=
  Reader.choose fun cursor =>
    if cursor.kind = .keyword .elseWord then do
      let _ ← (keyword .elseWord).toReader
      return some (← block.toReader)
    else pure none

/-- The statement goes from its first token to the end of its row. -/
theorem span_conditional (opening : Span) (condition : Expr) (body : Block Stmt)
    (otherwise : Option (Block Stmt)) (stop : Nat) :
    (conditional opening condition body otherwise stop).span = opening.upTo stop := by
  cases otherwise <;> rfl

/-- A reserved word that is next is taken. -/
theorem run_keyword {word : Keyword} {cursor : Cursor} (here : cursor.kind = .keyword word) :
    (keyword word).run cursor = (.ok cursor.token.span, cursor.advance) := by
  rcases cursor with ⟨⟨ahead, trailing, stop⟩, previousStop, depth, session⟩
  cases ahead with
  | nil => cases here
  | cons lexeme rest =>
      have same : lexeme.token.kind = .keyword word := here
      simp [keyword, expect, accept, Step.map, Reader.bind, Reader.done, same, Cursor.token,
        TokenStream.current]

section

variable (expression : TokenStep Expr) (block : TokenStep (Block Stmt))

/-- A conditional statement, of which the conditions right after `else` are read in a loop. -/
def ifLoop : TokenStep Stmt :=
  (keyword .ifWord).andThen fun opening => do
    let first ← condition expression
    let body ← block.toReader
    let arms ← Reader.many isElseIf elseIf
    let otherwise ← lastBranch block
    let stop ← Reader.inspect Cursor.previousStop
    return conditional opening first body (elseIfs stop arms otherwise) stop
where
  /-- The next two tokens start one more condition. -/
  isElseIf (cursor : Cursor) : Bool :=
    (cursor.stream.ahead.take 2).map (fun lexeme => lexeme.token.kind)
      == [.keyword .elseWord, .keyword .ifWord]
  /-- One more condition, with its branch and the place of its first token. -/
  elseIf : TokenStep (Span × Expr × Block Stmt) :=
    (keyword .elseWord).andThen fun _ => do
      let opening ← (keyword .ifWord).toReader
      let condition ← condition expression
      return (opening, condition, ← block.toReader)

/-- What stands behind the first branch. -/
def ifTail : Production (Option (Block Stmt)) := do
  let arms ← Reader.many ifLoop.isElseIf (ifLoop.elseIf expression block)
  let otherwise ← lastBranch block
  return elseIfs (← Reader.inspect Cursor.previousStop) arms otherwise

/-- The two tokens are looked at one behind the other in `ifFrom`. -/
theorem isElseIf_iff (cursor : Cursor) : ifLoop.isElseIf cursor = true ↔
    cursor.kind = .keyword .elseWord ∧ cursor.advance.kind = .keyword .ifWord := by
  rcases cursor with ⟨⟨ahead, trailing, stop⟩, previousStop, depth, session⟩
  match ahead with
  | [] => simp [ifLoop.isElseIf, Cursor.kind, Cursor.token, TokenStream.current,
      TokenStream.endToken]
  | [lexeme] => simp [ifLoop.isElseIf, Cursor.kind, Cursor.token, Cursor.advance,
      TokenStream.current, TokenStream.advance, TokenStream.endToken]
  | first :: second :: rest => simp [ifLoop.isElseIf, Cursor.kind, Cursor.token, Cursor.advance,
      TokenStream.current, TokenStream.advance]

/-- What a conditional statement is made of: its head, and the rest of the row. -/
theorem run_ifLoop (cursor : Cursor) :
    (ifLoop expression block).run cursor =
      match (ifHead expression block).run cursor with
      | (.error error, behind) => (.error error, behind)
      | (.ok (opening, condition, body), behind) =>
        match (ifTail expression block).run behind with
        | (.error error, last) => (.error error, last)
        | (.ok otherwise, last) =>
          (.ok (conditional opening condition body otherwise last.previousStop), last) := by
  simp only [ifLoop, ifHead, ifTail, Step.run_andThen, Reader.run_bind, Reader.run_pure]
  cases (keyword .ifWord).run cursor with
  | mk outcome first =>
    cases outcome with
    | error error => rfl
    | ok opening =>
      dsimp only
      cases (condition expression).run first with
      | mk outcome second =>
        cases outcome with
        | error error => rfl
        | ok condition =>
          dsimp only
          cases block.run second with
          | mk outcome third =>
            cases outcome with
            | error error => rfl
            | ok body =>
              dsimp only
              cases (Reader.many ifLoop.isElseIf (ifLoop.elseIf expression block)).run third with
              | mk outcome fourth =>
                cases outcome with
                | error error => rfl
                | ok arms =>
                  dsimp only
                  cases (lastBranch block).run fourth with
                  | mk outcome fifth => cases outcome <;> rfl

/-- One more condition in the row is a head behind `else`. -/
theorem run_elseIf {cursor : Cursor} (here : cursor.kind = .keyword .elseWord) :
    (ifLoop.elseIf expression block).run cursor =
      (ifHead expression block).run cursor.advance := by
  rw [ifLoop.elseIf, Step.run_andThen, run_keyword here]
  rfl

/-- Where another condition follows, the row goes on behind it in a block of its own. -/
theorem run_ifTail_of_elseIf {cursor : Cursor} (wanted : ifLoop.isElseIf cursor = true) :
    (ifTail expression block).run cursor =
      match (ifHead expression block).run cursor.advance with
      | (.error error, behind) => (.error error, behind)
      | (.ok (opening, condition, body), behind) =>
        match (ifTail expression block).run behind with
        | (.error error, last) => (.error error, last)
        | (.ok otherwise, last) =>
          (.ok (some ⟨[conditional opening condition body otherwise last.previousStop],
            opening.upTo last.previousStop⟩), last) := by
  rw [ifTail, Reader.run_many_bind, if_pos wanted,
    run_elseIf expression block ((isElseIf_iff cursor).mp wanted).1]
  cases (ifHead expression block).run cursor.advance with
  | mk outcome behind =>
    cases outcome with
    | error error => rfl
    | ok arm =>
      dsimp only
      simp only [Reader.run_bind, Reader.run_pure]
      cases (Reader.many ifLoop.isElseIf (ifLoop.elseIf expression block)).run behind with
      | mk outcome fourth =>
        cases outcome with
        | error error => rfl
        | ok arms =>
          dsimp only
          cases (lastBranch block).run fourth with
          | mk outcome fifth => cases outcome <;> rfl

/-- Where none follows, only a last branch is left. -/
theorem run_ifTail_of_not {cursor : Cursor} (unwanted : ¬ifLoop.isElseIf cursor = true) :
    (ifTail expression block).run cursor = (lastBranch block).run cursor := by
  rw [ifTail, Reader.run_many_bind, if_neg unwanted, Reader.run_bind]
  cases (lastBranch block).run cursor with
  | mk outcome last => cases outcome <;> rfl

/-- A last branch is a block behind `else`. -/
theorem run_lastBranch (cursor : Cursor) :
    (lastBranch block).run cursor =
      if cursor.kind = .keyword .elseWord then (block.map some).run cursor.advance
      else (.ok none, cursor) := by
  rw [lastBranch, Reader.run_choose]
  split
  · rename_i here
    rw [Reader.run_bind, run_keyword here]
    rfl
  · rfl

/-- The calls of `ifFrom` in each other do what the rounds of the loop do. -/
theorem ifFrom_eq (cursor : Cursor) :
    ifFrom expression block cursor = (ifLoop expression block).run cursor := by
  rw [ifFrom, run_ifLoop]
  split
  · rename_i error behind headRan
    rw [headRan]
  · rename_i opening condition body behind headRan
    have less := Nat.lt_of_le_of_lt behind.remaining_advance_le
      ((ifHead expression block).remaining_lt headRan)
    rw [headRan]
    dsimp only
    by_cases wanted : ifLoop.isElseIf behind = true
    · rcases (isElseIf_iff behind).mp wanted with ⟨elseNext, ifNext⟩
      rw [run_ifTail_of_elseIf expression block wanted, if_pos elseNext, if_pos ifNext,
        ifFrom_eq behind.advance, run_ifLoop]
      cases (ifHead expression block).run behind.advance with
      | mk outcome behind' =>
        cases outcome with
        | error error => rfl
        | ok arm =>
          dsimp only
          cases (ifTail expression block).run behind' with
          | mk outcome last =>
            cases outcome with
            | error error => rfl
            | ok rest => simp [Except.map, span_conditional]
    · rw [run_ifTail_of_not expression block wanted, run_lastBranch]
      split
      · rename_i elseNext
        rw [if_neg fun ifNext => wanted ((isElseIf_iff behind).mpr ⟨elseNext, ifNext⟩)]
        cases (block.map some).run behind.advance with
        | mk outcome last => cases outcome <;> rfl
      · rfl
termination_by Source.remaining cursor
decreasing_by exact less

/-- A conditional statement may be read either way. -/
theorem ifStatement_eq : ifStatement expression block = ifLoop expression block :=
  Step.ext_run fun cursor => ifFrom_eq expression block cursor

end

end SubsetC.Productions
