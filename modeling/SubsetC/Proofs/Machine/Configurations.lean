import SubsetC.Proofs.Machine.Counting

/-!
# Machines under another configuration

A machine looks at its step limit before it executes an instruction, and at its strictness where it
divides by zero. `step_withConfig` says that a round depends on nothing else of its configuration,
and `runFor_withConfig` says the same of a run.
-/

namespace SubsetC.Machine

variable {machine : Machine} {console : Console}

/-- The machine with another configuration. -/
def withConfig (machine : Machine) (config : Config) : Machine :=
  { machine with config }

/-- The next round divides by zero, in the instruction at the index. -/
def DividesByZero (machine : Machine) (index : Nat) : Prop :=
  machine.Executes ∧ machine.counter = index ∧ ∃ target left right,
    machine.program.instructions[index]? = some (.binary target .div left right) ∧
      (right.value machine.store).toInt64 = 0

/-- The machine would do the same in its next round. -/
structure Agrees (machine : Machine) (config : Config) : Prop where
  limit : machine.state = .running → machine.counter < machine.program.size →
    (machine.withConfig config).reachedLimit? = machine.reachedLimit?
  strict : config.strict = machine.config.strict ∨ ∀ index, ¬machine.DividesByZero index

theorem load_withConfig {program : Program} {config : Config}
    (loaded : load program config = .ok machine) (config' : Config) :
    load program config' = .ok (machine.withConfig config') := by
  unfold load at loaded ⊢
  split at loaded
  · cases loaded
  · cases loaded
    rfl

theorem jump_withConfig (machine : Machine) (config : Config) (label : String) :
    (machine.withConfig config).jump label = (machine.jump label).map (·.withConfig config) := by
  simp only [jump, withConfig]
  cases machine.labels.place? label <;> rfl

theorem execute_withConfig {instruction : Instruction} (config : Config)
    (agrees : config.strict = machine.config.strict ∨ ∀ target left right,
      instruction = .binary target .div left right → (right.value machine.store).toInt64 ≠ 0)
    (console : Console) :
    (machine.withConfig config).execute console instruction =
      ((machine.execute console instruction).1.map (·.withConfig config),
        (machine.execute console instruction).2) := by
  cases instruction with
  | binary target op left right =>
      have sameStore : (machine.withConfig config).store = machine.store := rfl
      simp only [execute, sameStore]
      cases applied : op.apply (left.value machine.store) (right.value machine.store) with
      | some value => rfl
      | none =>
          rcases (op.apply_eq_none_iff _ _).mp applied with ⟨rfl, zero⟩
          rcases agrees with same | other
          · change (if config.strict = true then _ else _) = _
            rw [same]
            cases machine.config.strict <;> rfl
          · exact absurd zero (other target left right rfl)
  | jumpUnless condition label =>
      simp only [execute]
      change (if (condition.value machine.store).isTruthy = true then _ else _) = _
      split
      · rfl
      · rw [jump_withConfig]
  | jump label =>
      simp only [execute]
      rw [jump_withConfig]
  | assign target source => rfl
  | label name => rfl
  | printText text => rfl
  | print conversion source => rfl
  | scan conversion target => rfl

/-- A round of two machines that differ in their configurations only. -/
theorem step_withConfig {config : Config} (agrees : machine.Agrees config) (console : Console) :
    (machine.withConfig config).step console =
      ((machine.step console).1.withConfig config, (machine.step console).2) := by
  by_cases running : machine.state = .running
  · have running' : (machine.withConfig config).state = .running := running
    cases here : machine.program.instructions[machine.counter]? with
    | none =>
        have here' : (machine.withConfig config).program.instructions[
          (machine.withConfig config).counter]? = none := here
        simp only [step, running, running', here, here']
        rfl
    | some instruction =>
        have here' : (machine.withConfig config).program.instructions[
          (machine.withConfig config).counter]? = some instruction := here
        rcases Array.getElem?_eq_some_iff.mp here with ⟨small, -⟩
        have limit := agrees.limit running small
        cases reached : machine.reachedLimit? with
        | some bound =>
            rw [reached] at limit
            simp only [step, running, running', here, here', reached, limit]
            rfl
        | none =>
            rw [reached] at limit
            have executes : machine.Executes := ⟨running, small, reached⟩
            have executes' : (machine.withConfig config).Executes := ⟨running, small, limit⟩
            have spares : config.strict = machine.config.strict ∨ ∀ target left right,
                instruction = .binary target .div left right →
                  (right.value machine.store).toInt64 ≠ 0 := by
              refine agrees.strict.imp_right ?_
              intro spares target left right divides zero
              exact spares _ ⟨executes, rfl, target, left, right, by rw [here, divides], zero⟩
            rcases executed : machine.execute console instruction with ⟨fault | next, console'⟩
            · have executed' := execute_withConfig config spares console
              rw [executed] at executed'
              rw [step_of_error executes here executed, step_of_error executes' here' executed']
              rfl
            · have executed' := execute_withConfig config spares console
              rw [executed] at executed'
              rw [step_of_ok executes here executed, step_of_ok executes' here' executed']
              rfl
  · have stopped : (machine.withConfig config).state ≠ .running := running
    rw [step_of_stopped running, step_of_stopped stopped]

theorem executes_withConfig {config : Config} (agrees : machine.Agrees config) :
    (machine.withConfig config).Executes ↔ machine.Executes := by
  constructor
  · rintro ⟨running, small, unlimited⟩
    exact ⟨running, small, (agrees.limit running small).symm.trans unlimited⟩
  · rintro ⟨running, small, unlimited⟩
    exact ⟨running, small, (agrees.limit running small).trans unlimited⟩

section Run

variable {config : Config} {rounds : Nat}

/-- Machines that agree in each of the rounds do the same in all of them together. -/
theorem runFor_withConfig
    (agrees : ∀ earlier < rounds, (machine.runFor earlier console).1.Agrees config) :
    (machine.withConfig config).runFor rounds console =
      ((machine.runFor rounds console).1.withConfig config, (machine.runFor rounds console).2) := by
  induction rounds with
  | zero => rfl
  | succ rounds ih =>
      have before := ih fun earlier small => agrees earlier (Nat.lt_succ_of_lt small)
      rw [runFor_succ_last, runFor_succ_last, before]
      exact step_withConfig (agrees rounds (Nat.lt_succ_self rounds)) _

theorem executedIn_withConfig
    (agrees : ∀ earlier < rounds, (machine.runFor earlier console).1.Agrees config) :
    (machine.withConfig config).executedIn rounds console = machine.executedIn rounds console := by
  induction rounds with
  | zero => rfl
  | succ rounds ih =>
      have earlier : ∀ earlier < rounds, (machine.runFor earlier console).1.Agrees config :=
        fun earlier small => agrees earlier (Nat.lt_succ_of_lt small)
      rw [executedIn_succ_last, executedIn_succ_last, ih earlier, runFor_withConfig earlier]
      simp only [executes_withConfig (agrees rounds (Nat.lt_succ_self rounds))]

/-- The whole run is the same where the machines agree in each of its rounds. -/
theorem EndsAfter.withConfig {count : Nat} {last : Machine} {console' : Console}
    (ran : machine.runFor rounds console = (last, console')) (stopped : last.state ≠ .running)
    (executed : machine.executedIn rounds console = count)
    (agrees : ∀ earlier < rounds, (machine.runFor earlier console).1.Agrees config) :
    (machine.withConfig config).EndsAfter console count (last.withConfig config) console' := by
  refine ⟨rounds, ?_, stopped, ?_⟩
  · rw [runFor_withConfig agrees, ran]
  · rw [executedIn_withConfig agrees, executed]

end Run

end SubsetC.Machine
