import SubsetC.Proofs.Machine.Configurations

/-!
# Runs with a step limit

A step limit cuts a run and changes nothing else. `stepLimit_cuts` compares a machine that has a
limit with one that has none: if the run ends within the limit, the two do the same; if not, the
first one faults where the second one has executed as many instructions as the limit allows.
-/

namespace SubsetC.Machine

variable {machine free : Machine} {console : Console} {program : Program} {strict : Bool}
  {limit : UInt64}

/-- A machine without a limit agrees with one that has a limit, unless it goes on executing
instructions at that limit. -/
theorem agrees_limit (loaded : load program ⟨strict, none⟩ = .ok free) {rounds : Nat}
    (below : (free.runFor rounds console).1.Executes → rounds < limit.toNat) :
    (free.runFor rounds console).1.Agrees ⟨strict, some limit⟩ := by
  have config : (free.runFor rounds console).1.config = ⟨strict, none⟩ :=
    (config_runFor rounds free console).trans (config_load loaded)
  constructor
  · intro running small
    have unlimited : (free.runFor rounds console).1.reachedLimit? = none := by
      simp [reachedLimit?, config]
    have within : rounds < limit.toNat := below ⟨running, small, unlimited⟩
    have steps : (free.runFor rounds console).1.steps.toNat = rounds := by
      have all := executedIn_of_running rounds running
      rw [toNat_steps_runFor (steps_load loaded), all]
      rw [all]
      have := limit.toNat_lt
      omega
    rw [unlimited]
    simp only [reachedLimit?, withConfig, Option.filter_some, UInt64.le_iff_toNat_le]
    rw [if_neg (by simp; omega)]
  · left
    rw [config]

/-- What is executed after so many rounds has been counted. -/
theorem lt_of_executes {count rounds : Nat} {last : Machine} {console' : Console}
    (ends : machine.EndsAfter console count last console')
    (executes : (machine.runFor rounds console).1.Executes) : rounds < count := by
  have all := executedIn_of_running rounds executes.1
  have bound := executedIn_le_of_endsAfter ends (rounds + 1)
  rw [executedIn_succ_last, if_pos executes, all] at bound
  omega

/-- A run that takes more instructions than the limit allows still executes some there. -/
theorem executes_of_lt {rounds : Nat}
    (more : ∀ count last console', machine.EndsAfter console count last console' →
      rounds < count) :
    (machine.runFor rounds console).1.Executes := by
  apply Classical.byContradiction
  intro idle
  have few := executedIn_le rounds machine console
  by_cases running : (machine.runFor rounds console).1.state = .running
  · rcases step_of_not_executes running idle with ⟨state, stopped, stops⟩
    have ran := (runFor_succ_last rounds machine console).trans (stops _)
    have long := more _ _ _ ⟨rounds + 1, ran, stopped, rfl⟩
    rw [executedIn_succ_last, if_neg idle] at long
    omega
  · have long := more _ _ _ ⟨rounds, rfl, running, rfl⟩
    omega

theorem reachedLimit?_eq_some (limited : machine.config.stepLimit = some limit)
    (reached : limit ≤ machine.steps) : machine.reachedLimit? = some limit := by
  simp [reachedLimit?, limited, Option.filter_some, reached]

/-- At its limit, a machine that has an instruction to execute faults. -/
theorem step_of_limit (stops : machine.reachedLimit? = some limit)
    (running : machine.state = .running) (small : machine.counter < machine.program.size)
    (console : Console) :
    machine.step console =
      ({ machine with state := .faulted (.stepLimitExceeded limit) }, console) := by
  have here := Array.getElem?_eq_getElem small
  simp only [step, running, here, stops]

/-- A run that stays within the limit is the same with it. -/
theorem endsAfter_within (loaded : load program ⟨strict, none⟩ = .ok free) {count : Nat}
    {last : Machine} {console' : Console} (ends : free.EndsAfter console count last console')
    (few : count ≤ limit.toNat) :
    (free.withConfig ⟨strict, some limit⟩).EndsAfter console count
        (last.withConfig ⟨strict, some limit⟩) console' ∧
      last.steps.toNat = count := by
  rcases id ends with ⟨rounds, ran, stopped, executed⟩
  constructor
  · apply EndsAfter.withConfig ran stopped executed
    intro earlier _
    apply agrees_limit loaded
    intro executes
    have counted := lt_of_executes ends executes
    omega
  · have small := limit.toNat_lt
    have steps : (free.runFor rounds console).1.steps.toNat = free.executedIn rounds console := by
      apply toNat_steps_runFor (steps_load loaded)
      omega
    rw [ran] at steps
    exact steps.trans executed

/-- A run that goes on at the limit is cut there. -/
theorem endsAfter_beyond (loaded : load program ⟨strict, none⟩ = .ok free)
    (executes : (free.runFor limit.toNat console).1.Executes) :
    free.executedIn limit.toNat console = limit.toNat ∧
      (free.runFor limit.toNat console).1.steps = limit ∧
      (free.withConfig ⟨strict, some limit⟩).EndsAfter console limit.toNat
        { (free.runFor limit.toNat console).1.withConfig ⟨strict, some limit⟩ with
          state := .faulted (.stepLimitExceeded limit) }
        (free.runFor limit.toNat console).2 := by
  have all : free.executedIn limit.toNat console = limit.toNat :=
    executedIn_of_running limit.toNat executes.1
  have steps : (free.runFor limit.toNat console).1.steps = limit := by
    rw [steps_runFor, steps_load loaded, all, UInt64.zero_add, UInt64.ofNat_toNat]
  have agrees : ∀ earlier < limit.toNat,
      (free.runFor earlier console).1.Agrees ⟨strict, some limit⟩ :=
    fun earlier small => agrees_limit loaded fun _ => small
  have ran := runFor_withConfig agrees
  have reached : limit ≤ (free.runFor limit.toNat console).1.steps := by
    rw [steps]
    exact UInt64.le_refl limit
  have stops : ((free.runFor limit.toNat console).1.withConfig
      ⟨strict, some limit⟩).reachedLimit? = some limit := reachedLimit?_eq_some rfl reached
  refine ⟨all, steps, limit.toNat + 1, ?_, by simp, ?_⟩
  · rw [runFor_succ_last, ran]
    exact step_of_limit stops executes.1 executes.2.1 _
  · rw [executedIn_succ_last, executedIn_withConfig agrees, all, ran, if_neg]
    · rfl
    · intro goesOn
      rw [goesOn.2.2] at stops
      cases stops

/-- A run within the limit is the same with the limit, and the machine has counted right. Where it
is longer, the machine with the limit faults at the limit, and everything else is as it was in the
run without a limit after so many instructions. At no point more instructions have been executed
than the limit allows, so that the counter of the machine never starts over. -/
theorem stepLimit_cuts (loaded : load program ⟨strict, none⟩ = .ok free) (limit : UInt64)
    (console : Console) :
    ∃ bounded, load program ⟨strict, some limit⟩ = .ok bounded ∧
      (∀ count last console', free.EndsAfter console count last console' → count ≤ limit.toNat →
        bounded.EndsAfter console count (last.withConfig ⟨strict, some limit⟩) console' ∧
          last.steps.toNat = count) ∧
      ((∀ count last console', free.EndsAfter console count last console' → limit.toNat < count) →
        ∃ cut console', free.runFor limit.toNat console = (cut, console') ∧
          free.executedIn limit.toNat console = limit.toNat ∧ cut.steps = limit ∧
          bounded.EndsAfter console limit.toNat
            { cut.withConfig ⟨strict, some limit⟩ with
              state := .faulted (.stepLimitExceeded limit) } console') ∧
      ∀ rounds, bounded.executedIn rounds console ≤ limit.toNat ∧
        (bounded.runFor rounds console).1.steps.toNat = bounded.executedIn rounds console := by
  have loads := load_withConfig loaded ⟨strict, some limit⟩
  have bound : ∀ rounds,
      (free.withConfig ⟨strict, some limit⟩).executedIn rounds console ≤ limit.toNat := by
    intro rounds
    by_cases short : ∃ count last console',
        free.EndsAfter console count last console' ∧ count ≤ limit.toNat
    · rcases short with ⟨count, last, console', ends, few⟩
      have same := (endsAfter_within loaded ends few).1
      exact Nat.le_trans (executedIn_le_of_endsAfter same rounds) few
    · have executes : (free.runFor limit.toNat console).1.Executes := by
        apply executes_of_lt
        intro count last console' ends
        apply Nat.lt_of_not_le
        intro few
        exact short ⟨count, last, console', ends, few⟩
      exact executedIn_le_of_endsAfter (endsAfter_beyond loaded executes).2.2 rounds
  refine ⟨_, loads, ?_, ?_, ?_⟩
  · intro count last console' ends few
    exact endsAfter_within loaded ends few
  · intro long
    exact ⟨_, _, rfl, endsAfter_beyond loaded (executes_of_lt long)⟩
  · intro rounds
    refine ⟨bound rounds, ?_⟩
    apply toNat_steps_runFor (steps_load loads)
    have := bound rounds
    have := limit.toNat_lt
    omega

/-- Counts a number that is read down to zero. -/
def descent : Program where
  instructions :=
    #[.scan .decimal "n", .label "L1", .jumpUnless (.name "n") "L2", .print .decimal "n",
      .binary "n" .sub (.name "n") (.literal (.int 1)), .jump "L1", .label "L2"]

/-- From one on, this takes nine instructions. A limit of nine does not matter, and a limit of eight
cuts the run before the last instruction. -/
theorem stepLimit_cuts_descent :
    (∃ bounded last console', load descent ⟨true, some 9⟩ = .ok bounded ∧
      bounded.EndsAfter (.ofAnswers ["1"]) 9 last console' ∧ last.state = .halted) ∧
    ∃ bounded last console', load descent ⟨true, some 8⟩ = .ok bounded ∧
      bounded.EndsAfter (.ofAnswers ["1"]) 8 last console' ∧
      last.state = .faulted (.stepLimitExceeded 8) ∧ console'.output = #["1"] := by
  have loaded : load descent ⟨true, none⟩ = .ok _ := rfl
  constructor
  · rcases stepLimit_cuts loaded 9 (.ofAnswers ["1"]) with ⟨bounded, loads, within, -⟩
    have ends := within 9 _ _ ⟨10, rfl, by decide +kernel, by decide +kernel⟩ (by decide)
    exact ⟨bounded, _, _, loads, ends.1, by decide +kernel⟩
  · rcases stepLimit_cuts loaded 8 (.ofAnswers ["1"]) with ⟨bounded, loads, -, beyond, -⟩
    have cut := beyond <| by
      intro count last console' ends
      apply lt_of_executes ends
      decide +kernel
    rcases cut with ⟨cut, console', ran, -, -, ends⟩
    have output : console'.output = #["1"] := by
      rw [← show _ = console' from congrArg Prod.snd ran]
      decide +kernel
    exact ⟨bounded, _, console', loads, ends, rfl, output⟩

end SubsetC.Machine
