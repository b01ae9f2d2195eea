import SubsetC.CommandLine.Command
import SubsetC.CommandLine.World
import SubsetC.Proofs.Machine.Counting

/-!
# Running a machine in a world

On the command line, a machine is given one answer at a time, and what it prints goes out at once.
`exists_after_goOn` says that this comes to the same as a run with all lines of the standard input
at hand: a console that is kept beside the world `Matches` it in every round. Standard error holds
more than the console, since the log of a round comes between two requests: these are the `remarks`
of the run.
-/

namespace SubsetC

namespace Console

/-- The console after it has said what another one says, with these answers left. -/
def andThen (console said : Console) (answers : List String) : Console where
  answers
  prompts := console.prompts ++ said.prompts
  output := console.output ++ said.output
  diagnostics := console.diagnostics ++ said.diagnostics

end Console

namespace Machine

variable {machine : Machine}

/-- As many of the answers as the instruction asks for. -/
def offer (prompt? : Option String) (answers : List String) : List String :=
  answers.take prompt?.toList.length

/-- An instruction sees no answer but the one that it asks for. -/
theorem execute_offer (machine : Machine) (console : Console) (instruction : Instruction) :
    machine.execute console instruction =
      ((machine.execute (.ofAnswers (offer instruction.prompt? console.answers)) instruction).1,
        console.andThen
          (machine.execute (.ofAnswers (offer instruction.prompt? console.answers)) instruction).2
          (console.answers.drop instruction.prompt?.toList.length)) := by
  rcases console with ⟨answers, prompts, output, diagnostics⟩
  cases instruction with
  | binary target op left right =>
      simp only [execute]
      split
      · simp [Console.andThen, Console.ofAnswers, Instruction.prompt?]
      · split <;> simp [Console.andThen, Console.ofAnswers, Console.report, Instruction.prompt?]
  | jumpUnless condition label =>
      simp only [execute]
      split <;> simp [Console.andThen, Console.ofAnswers, Instruction.prompt?]
  | scan conversion target =>
      rcases answers with _ | ⟨answer, answers⟩
      · rcases read : conversion.read target none with ⟨value, _ | problem⟩ <;>
          simp [execute, offer, Console.request, Console.andThen, Console.ofAnswers,
            Console.report, Instruction.prompt?, read]
      · rcases read : conversion.read target (some answer) with ⟨value, _ | problem⟩ <;>
          simp [execute, offer, Console.request, Console.andThen, Console.ofAnswers,
            Console.report, Instruction.prompt?, read]
  | _ => simp [execute, Console.andThen, Console.ofAnswers, Console.emit, Instruction.prompt?]

/-- A machine that executes nothing asks for nothing. -/
theorem prompt?_of_not_executes (idle : ¬machine.Executes) : machine.prompt? = none := by
  unfold prompt?
  split
  · rename_i running unlimited
    cases here : machine.program.instructions[machine.counter]? with
    | none => rfl
    | some instruction =>
        rcases Array.getElem?_eq_some_iff.mp here with ⟨small, -⟩
        exact absurd ⟨running, small, unlimited⟩ idle
  · rfl

/-- A round sees no answer but the one that it asks for. -/
theorem step_offer (machine : Machine) (console : Console) :
    machine.step console =
      ((machine.step (.ofAnswers (offer machine.prompt? console.answers))).1,
        console.andThen (machine.step (.ofAnswers (offer machine.prompt? console.answers))).2
          (console.answers.drop machine.prompt?.toList.length)) := by
  have idle : console = console.andThen (.ofAnswers []) console.answers := by
    simp [Console.andThen, Console.ofAnswers]
  by_cases executes : machine.Executes
  · rcases executes.exists_instruction with ⟨instruction, here⟩
    have asks : machine.prompt? = instruction.prompt? := by
      simp [prompt?, executes.1, executes.2.2, here]
    rw [asks]
    have same := execute_offer machine console instruction
    rcases executed : machine.execute
      (.ofAnswers (offer instruction.prompt? console.answers)) instruction with
      ⟨fault | next, console'⟩
    · rw [executed] at same
      rw [step_of_error executes here executed, step_of_error executes here same]
    · rw [executed] at same
      rw [step_of_ok executes here executed, step_of_ok executes here same]
  · simp only [prompt?_of_not_executes executes, Option.toList_none, List.length_nil,
      List.drop_zero, offer, List.take_zero]
    by_cases running : machine.state = .running
    · rcases step_of_not_executes running executes with ⟨state, -, stops⟩
      simp only [stops]
      exact Prod.ext rfl idle
    · simp only [step_of_stopped running]
      exact Prod.ext rfl idle

end Machine

namespace CommandLine

/-- What problems come to in the log. -/
def LogLevel.events (level : LogLevel) (found : Diagnostics) : List Note :=
  (found.toList.filter fun problem => level.admits problem.severity).map .event

@[simp]
theorem LogLevel.events_empty (level : LogLevel) : level.events #[] = [] := rfl

@[simp]
theorem LogLevel.join_said_events (level : LogLevel) (found : Diagnostics) :
    String.join ((level.events found).map Note.said) = "" := by
  rw [events, List.map_map]
  induction found.toList.filter fun problem => level.admits problem.severity with
  | nil => rfl
  | cons problem others ih => simpa [Note.said] using ih

namespace World

/-- What an action comes to in the world. -/
def after {α : Type} (world : World) (action : StateM World α) : α × World :=
  action.run world

variable {α β : Type} (world : World)

@[simp]
theorem after_map (f : α → β) (action : StateM World α) :
    world.after (f <$> action) = (f (world.after action).1, (world.after action).2) := rfl

/-- A line takes something off the input. -/
theorem length_splitLine_lt {input : List Char} (more : input ≠ []) :
    (splitLine input).2.length < input.length := by
  fun_induction splitLine input with
  | case1 => exact absurd rfl more
  | case2 text => simp
  | case3 c text other line rest split ih =>
      rw [split] at ih
      rcases text with _ | ⟨next, text⟩
      · cases split
        simp
      · have shorter := ih (by simp)
        simp only [List.length_cons] at shorter ⊢
        omega

/-- A line without the end of line. -/
def answerOf (line : List Char) : String :=
  String.ofList (line.reverse.dropWhile fun c => c == '\n' || c == '\r').reverse

/-- The lines of a text, each as an answer. -/
def answersIn (input : List Char) : List String :=
  if input = [] then [] else answerOf (splitLine input).1 :: answersIn (splitLine input).2
termination_by input.length
decreasing_by exact length_splitLine_lt ‹_›

end World

/-- What a run puts on standard error: in each round what is asked for, and then the log. -/
def remarks (level : LogLevel) :
    (rounds : Nat) → Machine → (answers : List String) → List Note
  | 0, _, _ => []
  | rounds + 1, machine, answers =>
    if machine.state = .running then
      let (next, said) := machine.step (.ofAnswers answers)
      machine.prompt?.toList.map .text ++ level.events said.diagnostics ++
        remarks level rounds next said.answers
    else []

/-- The console has the answers that are left in the world, and it has said what has been done there
since the start. What has been noted since then is on standard error. -/
structure Matches (start : World) (earlier : Diagnostics) (noted : List Note) (world : World)
    (found : Diagnostics) (console : Console) : Prop where
  files : world.files = start.files
  level : world.level = start.level
  answers : World.answersIn world.input = console.answers
  output : world.output = start.output ++ console.text
  notes : world.notes = start.notes ++ noted
  said : String.join (noted.map Note.said) = String.join console.prompts.toList
  found : found = earlier ++ console.diagnostics

namespace Matches

open Machine

variable {start world : World} {earlier found : Diagnostics} {noted : List Note} {console : Console}

theorem ofAnswers (start : World) (earlier : Diagnostics) :
    Matches start earlier [] start earlier (.ofAnswers (World.answersIn start.input)) where
  files := rfl
  level := rfl
  answers := rfl
  output := by simp [Console.ofAnswers, Console.text]
  notes := by simp
  said := rfl
  found := by simp [Console.ofAnswers]

/-- A round of the machine in the world, with a console beside it. -/
theorem round (holds : Matches start earlier noted world found console) {machine : Machine}
    {input : List Char}
    (left : World.answersIn input = console.answers.drop machine.prompt?.toList.length) :
    let said := (machine.step (.ofAnswers (Machine.offer machine.prompt? console.answers))).2
    let added := machine.prompt?.toList.map .text ++ start.level.events said.diagnostics
    Matches start earlier (noted ++ added)
      { world with
        input
        output := world.output ++ said.text
        notes := world.notes ++ machine.prompt?.toList.map .text ++
          world.level.events said.diagnostics }
      (found ++ said.diagnostics) (machine.step console).2 := by
  intro said added
  have step := machine.step_offer console
  have asked : machine.prompt?.toList.map (Note.said ∘ Note.text) = machine.prompt?.toList := by
    cases machine.prompt? <;> rfl
  constructor
  · exact holds.files
  · exact holds.level
  · rw [step]
    exact left
  · rw [step]
    simp [holds.output, Console.andThen, Console.text, String.append_assoc, said]
  · simp [holds.notes, holds.level, added, List.append_assoc]
  · rw [prompts_step]
    simp [added, holds.said, asked]
  · rw [step]
    simp [holds.found, Console.andThen, said]

end Matches

/-- What a command makes of the state that its machine ends in. -/
def verdict : Machine.State → Except Failure Unit
  | .faulted fault => .error (.stopped fault)
  | _ => .ok ()

end CommandLine

end SubsetC
