import SubsetC.Reader

/-!
# What readers succeed with

A reader made of others succeeds just if these do, one behind the other. The lemmas are
equivalences, so that they take a run apart in one direction and put one together in the other.
-/

namespace SubsetC

variable {σ ε α β : Type} [Source σ]

namespace Reader

/-- Nothing is taken by what is given at once. -/
theorem run_pure_eq_ok {value outcome : α} {state last : σ} :
    (pure value : Reader σ ε α).run state = (.ok outcome, last) ↔
      value = outcome ∧ state = last := by
  rw [run_pure, Prod.mk.injEq, Except.ok.injEq]

/-- Two readers succeed if the second one does where the first one has stopped. -/
theorem run_bind_eq_ok {first : Reader σ ε α} {second : α → Reader σ ε β} {state last : σ}
    {outcome : β} :
    (first >>= second).run state = (.ok outcome, last) ↔
      ∃ value middle, first.run state = (.ok value, middle) ∧
        (second value).run middle = (.ok outcome, last) := by
  rw [run_bind]
  constructor
  · intro ran
    split at ran
    · rename_i value middle early
      exact ⟨value, middle, early, ran⟩
    · cases ran
  · rintro ⟨value, middle, early, late⟩
    rw [early]
    exact late

/-- Once the first of two readers has succeeded, the second one is left. -/
theorem run_bind_of_ok {first : Reader σ ε α} {second : α → Reader σ ε β} {state middle : σ}
    {value : α} (ran : first.run state = (.ok value, middle)) :
    (first >>= second).run state = (second value).run middle := by
  rw [run_bind, ran]

theorem run_bind_pure (reader : Reader σ ε α) (state : σ) :
    (reader >>= pure).run state = reader.run state := by
  rw [run_bind]
  split
  · rename_i value last ran
    rw [ran, run_pure]
  · rename_i error last ran
    rw [ran]

theorem run_inspect_eq_ok {view : σ → α} {state last : σ} {outcome : α} :
    (inspect view : Reader σ ε α).run state = (.ok outcome, last) ↔
      view state = outcome ∧ state = last := by
  rw [inspect, Prod.mk.injEq, Except.ok.injEq]

theorem run_choose {reader : σ → Reader σ ε α} (state : σ) :
    (choose reader).run state = (reader state).run state := rfl

/-- No step is named, so the loop is over. -/
theorem run_iterate_of_none {next : α → σ → Option (Step σ ε α)} {value : α} {state : σ}
    (unwanted : next value state = none) :
    (iterate next value).run state = (.ok value, state) := by
  change iterateFrom next value state = _
  rw [iterateFrom, unwanted]

/-- A step that succeeds is one round. -/
theorem run_iterate_of_some {next : α → σ → Option (Step σ ε α)} {value value' : α}
    {state middle : σ} {step : Step σ ε α} (wanted : next value state = some step)
    (ran : step.run state = (.ok value', middle)) :
    (iterate next value).run state = (iterate next value').run middle := by
  change iterateFrom next value state = iterateFrom next value' middle
  rw [iterateFrom, wanted]
  simp only
  split
  · rename_i error last failed
    rw [ran] at failed
    cases failed
  · rename_i outcome last succeeded
    rw [ran] at succeeded
    cases succeeded
    rfl

/-- A step that fails ends the loop with its error. -/
theorem run_iterate_of_error {next : α → σ → Option (Step σ ε α)} {value : α}
    {state middle : σ} {step : Step σ ε α} {error : ε} (wanted : next value state = some step)
    (failed : step.run state = (.error error, middle)) :
    (iterate next value).run state = (.error error, middle) := by
  change iterateFrom next value state = _
  rw [iterateFrom, wanted]
  simp only
  split
  · rename_i error' last failed'
    rw [failed] at failed'
    cases failed'
    rfl
  · rename_i outcome last succeeded
    rw [failed] at succeeded
    cases succeeded

/-- The step succeeds as often as it is wanted, with these outcomes. -/
inductive Repeats (wanted : σ → Bool) (step : Step σ ε α) : σ → List α → σ → Prop where
  | stop {state : σ} (unwanted : wanted state = false) : Repeats wanted step state [] state
  | again {state middle last : σ} {value : α} {values : List α} (isWanted : wanted state = true)
      (ran : step.run state = (.ok value, middle))
      (others : Repeats wanted step middle values last) :
      Repeats wanted step state (value :: values) last

/-- At the end no more steps are wanted. -/
theorem Repeats.unwanted {wanted : σ → Bool} {step : Step σ ε α} {state last : σ}
    {values : List α} (repeats : Repeats wanted step state values last) : wanted last = false := by
  induction repeats with
  | stop unwanted => exact unwanted
  | again isWanted ran others ih => exact ih

/-- What has been collected without an error are the outcomes of the rounds. -/
theorem repeats_of_collect {wanted : σ → Bool} {step : Step σ ε α} {state last : σ}
    {values : List α} (ran : collect wanted step state = ((values, none), last)) :
    Repeats wanted step state values last := by
  fun_induction collect wanted step state generalizing values with
  | case1 state isWanted error middle failed => cases ran
  | case2 state isWanted value middle succeeded values' failure last' found ih =>
      cases ran
      exact .again isWanted succeeded (ih found)
  | case3 state unwanted =>
      cases ran
      exact .stop (Bool.eq_false_iff.mpr unwanted)

theorem collect_of_repeats {wanted : σ → Bool} {step : Step σ ε α} {state last : σ}
    {values : List α} (repeats : Repeats wanted step state values last) :
    collect wanted step state = ((values, none), last) := by
  induction repeats with
  | stop unwanted =>
      rw [collect, if_neg (by rw [unwanted]; exact Bool.false_ne_true)]
  | again isWanted ran others ih =>
      rw [collect, if_pos isWanted]
      split
      · rename_i error middle failed
        rw [ran] at failed
        cases failed
      · rename_i value middle succeeded
        rw [ran] at succeeded
        cases succeeded
        rw [ih]

theorem collect_of_unwanted {wanted : σ → Bool} {step : Step σ ε α} {state : σ}
    (unwanted : wanted state = false) : collect wanted step state = (([], none), state) :=
  collect_of_repeats (.stop unwanted)

/-- The first round fails, and nothing is collected. -/
theorem collect_of_error {wanted : σ → Bool} {step : Step σ ε α} {state middle : σ} {error : ε}
    (isWanted : wanted state = true) (failed : step.run state = (.error error, middle)) :
    collect wanted step state = (([], some error), middle) := by
  rw [collect, if_pos isWanted]
  split
  · rename_i error' last failed'
    rw [failed] at failed'
    cases failed'
    rfl
  · rename_i outcome last succeeded
    rw [failed] at succeeded
    cases succeeded

/-- The first round succeeds, and the others follow. -/
theorem collect_of_ok {wanted : σ → Bool} {step : Step σ ε α} {state middle : σ} {value : α}
    (isWanted : wanted state = true) (ran : step.run state = (.ok value, middle)) :
    collect wanted step state =
      ((value :: (collect wanted step middle).1.1, (collect wanted step middle).1.2),
        (collect wanted step middle).2) := by
  rw [collect, if_pos isWanted]
  split
  · rename_i error last failed
    rw [ran] at failed
    cases failed
  · rename_i value' last succeeded
    rw [ran] at succeeded
    cases succeeded
    rfl

/-- Rounds succeed as a whole if each of them does. -/
theorem run_many_eq_ok {wanted : σ → Bool} {step : Step σ ε α} {state last : σ}
    {values : List α} :
    (many wanted step).run state = (.ok values, last) ↔ Repeats wanted step state values last := by
  simp only [many]
  constructor
  · intro ran
    split at ran
    · rename_i found middle collected
      cases ran
      exact repeats_of_collect collected
    · cases ran
  · intro repeats
    rw [collect_of_repeats repeats]

/-- A loop before another reader, unfolded once. -/
theorem run_many_bind {wanted : σ → Bool} {step : Step σ ε α} {second : List α → Reader σ ε β}
    (state : σ) : (many wanted step >>= second).run state =
      if wanted state then
        match step.run state with
        | (.ok value, middle) =>
            (many wanted step >>= fun values => second (value :: values)).run middle
        | (.error error, middle) => (.error error, middle)
      else (second []).run state := by
  split
  · rename_i isWanted
    cases ran : step.run state with
    | mk outcome middle =>
        cases outcome with
        | ok value =>
            simp only [run_bind, many, collect_of_ok isWanted ran]
            generalize collect wanted step middle = collected
            rcases collected with ⟨⟨values, failure⟩, last⟩
            cases failure <;> rfl
        | error error => simp only [run_bind, many, collect_of_error isWanted ran]
  · rename_i unwanted
    simp only [run_bind, many, collect_of_unwanted (Bool.eq_false_iff.mpr unwanted)]

/-- The step is wanted and succeeds as often as there are outcomes. -/
inductive Rounds (wanted : σ → Bool) (step : Step σ ε α) : σ → List α → σ → Prop where
  | nil {state : σ} : Rounds wanted step state [] state
  | cons {state middle last : σ} {value : α} {values : List α} (isWanted : wanted state = true)
      (ran : step.run state = (.ok value, middle))
      (others : Rounds wanted step middle values last) :
      Rounds wanted step state (value :: values) last

/-- No more rounds follow: the step is not wanted, or it fails. -/
def Halts (wanted : σ → Bool) (step : Step σ ε α) (state last : σ) : Option ε → Prop
  | none => wanted state = false ∧ last = state
  | some error => wanted state = true ∧ step.run state = (.error error, last)

/-- What the rounds gave before the repeating halts is kept. -/
theorem rounds_of_collect {wanted : σ → Bool} {step : Step σ ε α} {state last : σ}
    {values : List α} {failure : Option ε}
    (ran : collect wanted step state = ((values, failure), last)) :
    ∃ middle, Rounds wanted step state values middle ∧ Halts wanted step middle last failure := by
  fun_induction collect wanted step state generalizing values failure with
  | case1 state isWanted error middle failed =>
      cases ran
      exact ⟨state, .nil, isWanted, failed⟩
  | case2 state isWanted value middle succeeded values' failure' last' found ih =>
      cases ran
      rcases ih found with ⟨stop, rounds, ends⟩
      exact ⟨stop, .cons isWanted succeeded rounds, ends⟩
  | case3 state unwanted =>
      cases ran
      exact ⟨last, .nil, Bool.eq_false_iff.mpr unwanted, rfl⟩

end Reader

namespace Step

/-- Steps that run alike are the same. -/
theorem ext_run {first second : Step σ ε α} (alike : ∀ state, first.run state = second.run state) :
    first = second := by
  rcases first with ⟨⟨run, _⟩, _⟩
  rcases second with ⟨⟨run', _⟩, _⟩
  obtain rfl : run = run' := funext alike
  rfl

theorem run_choose {step : σ → Step σ ε α} (state : σ) :
    (choose step).run state = (step state).run state := rfl

theorem run_andThen (first : Step σ ε α) (second : α → Reader σ ε β) (state : σ) :
    (first.andThen second).run state =
      match first.run state with
      | (.ok value, state') => (second value).run state'
      | (.error error, state') => (.error error, state') := rfl

/-- A step and a reader behind it, as for two readers. -/
theorem run_andThen_eq_ok {first : Step σ ε α} {second : α → Reader σ ε β} {state last : σ}
    {outcome : β} :
    (first.andThen second).run state = (.ok outcome, last) ↔
      ∃ value middle, first.run state = (.ok value, middle) ∧
        (second value).run middle = (.ok outcome, last) :=
  Reader.run_bind_eq_ok

theorem run_andThen_of_ok {first : Step σ ε α} {second : α → Reader σ ε β} {state middle : σ}
    {value : α} (ran : first.run state = (.ok value, middle)) :
    (first.andThen second).run state = (second value).run middle :=
  Reader.run_bind_of_ok ran

/-- A changed outcome comes of an outcome. -/
theorem run_map_eq_ok {f : α → β} {step : Step σ ε α} {state last : σ} {outcome : β} :
    (step.map f).run state = (.ok outcome, last) ↔
      ∃ value, step.run state = (.ok value, last) ∧ f value = outcome := by
  change (step.toReader >>= fun value => pure (f value)).run state = _ ↔ _
  rw [Reader.run_bind_eq_ok]
  constructor
  · rintro ⟨value, middle, early, late⟩
    rcases Reader.run_pure_eq_ok.mp late with ⟨rfl, rfl⟩
    exact ⟨value, early, rfl⟩
  · rintro ⟨value, early, rfl⟩
    exact ⟨value, last, early, rfl⟩

end Step

end SubsetC
