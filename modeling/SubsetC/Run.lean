import SubsetC.Compilation
import SubsetC.Machine

/-!
# Runs

Running a source is compiling it, loading its code into a machine and letting the machine go on for
a number of rounds. A source that cannot be compiled does nothing on the console but report.
-/

namespace SubsetC

/-- Why a source cannot be run. -/
inductive RunError where
  | compile (error : CompileError)
  | load (fault : Fault)
  deriving Repr, Inhabited

/-- A compiled source, and the machine that its code has been loaded into. -/
structure Run where
  compilation : Compilation
  machine : Machine
  deriving Repr, Inhabited

/-- Compiles a source and loads its code, and says what was reported on the way. -/
def prepare (source : String) (config : Config) : Except RunError Run × Diagnostics :=
  match compile source with
  | (.error error, session) => (.error (.compile error), session.diagnostics)
  | (.ok compilation, session) =>
    match Machine.load compilation.program config with
    | .error fault => (.error (.load fault), session.diagnostics)
    | .ok machine => (.ok ⟨compilation, machine⟩, session.diagnostics)

/-- Runs a source for as many rounds as given, or fewer if its machine stops. -/
def run (rounds : Nat) (source : String) (config : Config) (console : Console) :
    Except RunError Run × Console :=
  let (outcome, diagnostics) := prepare source config
  let console := diagnostics.foldl Console.report console
  match outcome with
  | .error error => (.error error, console)
  | .ok start =>
    let (machine, console) := start.machine.runFor rounds console
    (.ok { start with machine }, console)

end SubsetC
