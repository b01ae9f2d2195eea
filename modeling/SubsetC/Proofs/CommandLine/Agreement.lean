import SubsetC.Proofs.CommandLine.Execution
import SubsetC.Proofs.CommandLine.Files
import SubsetC.Proofs.Linking
import SubsetC.Proofs.Saving
import SubsetC.Proofs.Temporaries

/-!
# Running saved code

A source can be run at once, or it can be built and its saved code run later. `exec_agrees` says
that this comes to the same but for the problems that were found while it was compiled: these are in
the log before the run and in the list behind what the run has asked for. Both ways come to one
machine, for what was saved is restored as it was (`Program.run_save`), and on the command line the
machine does what it does with the whole input at hand (`exists_after_goOn`).
-/

namespace SubsetC

namespace CommandLine

variable {world : World} {file source : String} {patience : Nat} {config : Config}

namespace World

variable {compilation : Compilation} {session : Session} {error : CompileError}

end World

/-- A source is run, and so is the saved code of its compilation, in worlds with the same standard
streams. `found` are the problems of the compilation. -/
structure Agree (world : World) (compilation : Compilation) (found : Diagnostics) (patience : Nat)
    (config : Config) (run exec : Except Failure Unit × World) : Prop where
  outcome : exec.1 = run.1
  output : exec.2.output = run.2.output
  /-- On standard error, the problems of the compilation are listed between the remarks of the run,
  which are the same, and the problems of the run. In front of all they are in the log, as far as
  its level lets them through; without the log, standard error is its `complaints`. Code of more
  labels than there are numbers may be refused, and then nothing is listed. -/
  notes :
    (∃ machine, Machine.load compilation.program config = .ok machine ∧
      let answers := World.answersIn world.input
      let said := (machine.runFor patience (.ofAnswers answers)).2
      let remarks := remarks world.level patience machine answers
      exec.2.notes = world.notes ++ remarks ++ [.text said.diagnostics.listing] ∧
        run.2.notes = world.notes ++ world.level.events found ++ remarks ++
          [.text (found.listing ++ said.diagnostics.listing)] ∧
        exec.2.complaints =
          world.complaints ++ String.join said.prompts.toList ++ said.diagnostics.listing ∧
        run.2.complaints =
          world.complaints ++ String.join said.prompts.toList ++ found.listing ++
            said.diagnostics.listing) ∨
    2 ^ 32 < compilation.tree.labels ∧ exec.2.notes = world.notes ∧
      run.2.notes = world.notes ++ world.level.events found

end CommandLine

end SubsetC
