import SubsetC.CommandLine.Command

/-!
# The program

The command line on the real system. The exit code is 1 if a command fails, and 2 if the arguments
are refused.
-/

namespace SubsetC.CommandLine

/-- What an error of the system says about a file. The number of an error has either sign. -/
def refusal : IO.Error → Refusal
  | .noFileOrDirectory _ _ _ => .notFound
  | .inappropriateType _ number _ =>
    if min number (0 - number) = 21 then .isFolder else .notFolder
  | .permissionDenied _ _ _ => .other "Permission denied (os error 13)"
  | .invalidArgument _ number reason =>
    if min number (0 - number) = 36 then .nameTooLong else .other reason
  | error => .other (toString error)

/-- The outcome of an action that the system may refuse. -/
def attempt {α : Type} (action : IO α) : IO (Except Refusal α) := do
  match ← action.toBaseIO with
  | .ok value => return .ok value
  | .error error => return .error (refusal error)

/-- Writes to standard error at once. -/
def toStderr (text : String) : IO Unit := do
  let stderr ← IO.getStderr
  stderr.putStr text
  stderr.flush

/-- A problem as a line of the log. -/
def logLine (problem : Diagnostic) : String :=
  let place := match problem.line with
    | none => "None"
    | some line => s!"Some({line.toNat})"
  let level := match problem.severity with
    | .info => " INFO"
    | .warning => " WARN"
    | .error => "ERROR"
  s!"{level} {problem.message} phase={problem.phase.spelling} line={place}\n"

/-- The real system, with a level for the log. -/
abbrev System := ReaderT LogLevel IO

instance : Host System where
  readFile file := attempt (IO.FS.readFile file)
  writeFile file text := attempt (IO.FS.writeFile file text)
  readLine := do
    let line ← (← IO.getStdin).getLine
    return if line = "" then none else some line
  print text := do
    let stdout ← IO.getStdout
    stdout.putStr text
    stdout.flush
  complain text := toStderr text
  log problem := do
    if (← read).admits problem.severity then toStderr (logLine problem)

/-- The level of the log for an invocation. -/
def Invocation.level (environment : Option String) : Invocation → LogLevel
  | .version => .off
  | .task _ level => .ofSettings environment level

end SubsetC.CommandLine

open SubsetC.CommandLine in
def main (arguments : List String) : IO UInt32 := do
  let environment ← IO.getEnv "CMINI_MAX_STEPS"
  match Invocation.ofArguments? environment arguments with
  | none =>
    IO.eprintln "The arguments were not understood."
    return 2
  | some invocation =>
    let level := invocation.level (← IO.getEnv "RUST_LOG")
    match ← (invocation.perform patience : System _).run level with
    | .ok () => return 0
    | .error failure =>
      IO.eprintln s!"Error: {failure.message}"
      return 1
