/-!
# Readers

A reader takes input from the front of a state and never gives any back. That is part of its type,
so a loop over readers ends without a bound being passed along: `Reader.iterate` repeats steps, and
a step is a reader that takes at least one item whenever it succeeds. A reader returns the state it
has reached also when it fails, so what it did on the way is not lost.
-/

namespace SubsetC

/-- A state from which input is read: how many items are left in it. -/
class Source (σ : Type) where
  remaining : σ → Nat

instance : Source (List Char) where
  remaining := List.length

/-- A computation that takes input from a state and never gives any back. -/
structure Reader (σ : Type) [Source σ] (ε α : Type) where
  /-- The outcome, and the state that has been reached. -/
  run : σ → Except ε α × σ
  remaining_le : ∀ state, Source.remaining (run state).2 ≤ Source.remaining state

/-- A reader that takes at least one item whenever it succeeds. -/
structure Step (σ : Type) [Source σ] (ε α : Type) extends Reader σ ε α where
  remaining_lt : ∀ {state outcome state'}, run state = (.ok outcome, state') →
    Source.remaining state' < Source.remaining state

namespace Reader

variable {σ ε α β : Type} [Source σ]

/-- Takes nothing and succeeds. -/
def done (value : α) : Reader σ ε α where
  run state := (.ok value, state)
  remaining_le _ := Nat.le_refl _

/-- Takes nothing and fails. -/
def fail (error : ε) : Reader σ ε α where
  run state := (.error error, state)
  remaining_le _ := Nat.le_refl _

/-- What a function of the state says, with nothing taken. -/
def inspect (view : σ → α) : Reader σ ε α where
  run state := (.ok (view state), state)
  remaining_le _ := Nat.le_refl _

/-- The reader that the state calls for. -/
def choose (reader : σ → Reader σ ε α) : Reader σ ε α where
  run state := (reader state).run state
  remaining_le state := (reader state).remaining_le state

/-- Runs `second` on what `first` has left. -/
def bind (first : Reader σ ε α) (second : α → Reader σ ε β) : Reader σ ε β where
  run state :=
    match first.run state with
    | (.ok value, state') => (second value).run state'
    | (.error error, state') => (.error error, state')
  remaining_le state := by
    have taken := first.remaining_le state
    split <;> rename_i equation <;> rw [equation] at taken
    · exact Nat.le_trans ((second _).remaining_le _) taken
    · exact taken

instance : Monad (Reader σ ε) where
  pure := done
  bind := bind

@[simp]
theorem run_pure (value : α) (state : σ) :
    (pure value : Reader σ ε α).run state = (.ok value, state) := rfl

theorem run_bind (first : Reader σ ε α) (second : α → Reader σ ε β) (state : σ) :
    (first >>= second).run state =
      match first.run state with
      | (.ok value, state') => (second value).run state'
      | (.error error, state') => (.error error, state') := rfl

/-- The loop of `iterate`. -/
def iterateFrom (next : α → σ → Option (Step σ ε α)) (value : α) (state : σ) : Except ε α × σ :=
  match next value state with
  | none => (.ok value, state)
  | some step =>
    match _equation : step.run state with
    | (.error error, state') => (.error error, state')
    | (.ok value', state') => iterateFrom next value' state'
termination_by Source.remaining state
decreasing_by exact step.remaining_lt _equation

theorem remaining_iterateFrom (next : α → σ → Option (Step σ ε α)) (value : α) (state : σ) :
    Source.remaining (iterateFrom next value state).2 ≤ Source.remaining state := by
  fun_induction iterateFrom next value state with
  | case1 => exact Nat.le_refl _
  | case2 _ state step _ _ _ equation =>
    have taken := step.remaining_le state
    rwa [equation] at taken
  | case3 _ _ step _ _ _ equation ih =>
    exact Nat.le_trans ih (Nat.le_of_lt (step.remaining_lt equation))

/-- Repeats the step that `next` names, until it names none. -/
def iterate (next : α → σ → Option (Step σ ε α)) (value : α) : Reader σ ε α where
  run := iterateFrom next value
  remaining_le := remaining_iterateFrom next value

/-- Repeats a step while the state wants one. The outcome is what the steps gave, with the error
that ended them if one failed. -/
def collect (wanted : σ → Bool) (step : Step σ ε α) (state : σ) : (List α × Option ε) × σ :=
  if wanted state then
    match _equation : step.run state with
    | (.error error, state') => (([], some error), state')
    | (.ok value, state') =>
      let ((values, failure), last) := collect wanted step state'
      ((value :: values, failure), last)
  else (([], none), state)
termination_by Source.remaining state
decreasing_by exact step.remaining_lt _equation

theorem remaining_collect (wanted : σ → Bool) (step : Step σ ε α) (state : σ) :
    Source.remaining (collect wanted step state).2 ≤ Source.remaining state := by
  fun_induction collect wanted step state with
  | case1 state _ _ _ equation =>
    have taken := step.remaining_le state
    rwa [equation] at taken
  | case2 _ _ _ _ equation _ _ _ found ih =>
    rw [found] at ih
    exact Nat.le_trans ih (Nat.le_of_lt (step.remaining_lt equation))
  | case3 => exact Nat.le_refl _

/-- Repeats a step while the state wants one, and fails if one fails. -/
def many (wanted : σ → Bool) (step : Step σ ε α) : Reader σ ε (List α) where
  run state :=
    match collect wanted step state with
    | ((values, none), state') => (.ok values, state')
    | ((_, some error), state') => (.error error, state')
  remaining_le state := by
    have taken := remaining_collect wanted step state
    split <;> rename_i equation <;> rwa [equation] at taken

end Reader

namespace Step

variable {σ ε α β : Type} [Source σ]

/-- Takes nothing and fails. -/
def fail (error : ε) : Step σ ε α where
  toReader := Reader.fail error
  remaining_lt equation := by simp [Reader.fail] at equation

/-- The step that the state calls for. -/
def choose (step : σ → Step σ ε α) : Step σ ε α where
  toReader := Reader.choose fun state => (step state).toReader
  remaining_lt {state _ _} equation := (step state).remaining_lt equation

/-- The same step with another outcome. -/
def map (f : α → β) (step : Step σ ε α) : Step σ ε β where
  toReader := step.toReader.bind fun value => Reader.done (f value)
  remaining_lt {state _ _} equation := by
    simp only [Reader.bind, Reader.done] at equation
    split at equation
    · rename_i step_equation
      simp only [Prod.mk.injEq, Except.ok.injEq] at equation
      obtain ⟨-, rfl⟩ := equation
      exact step.remaining_lt step_equation
    · simp at equation

/-- A step stays one when a reader goes before it. -/
def after (first : Reader σ ε α) (second : α → Step σ ε β) : Step σ ε β where
  toReader := first.bind fun value => (second value).toReader
  remaining_lt {state _ _} equation := by
    simp only [Reader.bind] at equation
    split at equation
    · rename_i value state' first_equation
      have taken := first.remaining_le state
      rw [first_equation] at taken
      exact Nat.lt_of_lt_of_le ((second value).remaining_lt equation) taken
    · simp at equation

/-- A step stays one when a reader follows it. -/
def andThen (first : Step σ ε α) (second : α → Reader σ ε β) : Step σ ε β where
  toReader := first.toReader.bind second
  remaining_lt {state _ _} equation := by
    simp only [Reader.bind] at equation
    split at equation
    · rename_i value state' first_equation
      have left := (second value).remaining_le state'
      rw [equation] at left
      exact Nat.lt_of_le_of_lt left (first.remaining_lt first_equation)
    · simp at equation

end Step

end SubsetC
