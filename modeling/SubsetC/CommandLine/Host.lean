import SubsetC.Diagnostic

/-!
# Hosts

What the command line needs from its surroundings, for any monad. Commands are written over a host,
so the same ones run on the real system and on a `World`, where their effects can be reasoned about.

Whatever is reported is also an event of the log, which is on standard error among all else that is
written there. A host has a level, which says what of this is let through. Levels finer than
`LogLevel.warning` would let through more than reported problems; they are left out here, and so are
the times in the lines of the log.
-/

namespace SubsetC.CommandLine

/-- Which problems are let through to the log. -/
inductive LogLevel where
  | off
  | error
  | warning
  deriving DecidableEq, Repr, Inhabited

namespace LogLevel

/-- The level lets a problem through. -/
def admits : LogLevel → Severity → Bool
  | error, .error | warning, .error | warning, .warning => true
  | off, _ | error, _ | warning, .info => false

/-- The level of a setting. Whatever is finer than `warning` is taken for it. -/
def ofSetting : String → LogLevel
  | "off" => off
  | "error" => error
  | _ => warning

/-- The level that the environment and the arguments ask for. The environment comes first. -/
def ofSettings (environment argument : Option String) : LogLevel :=
  ((environment <|> argument).map ofSetting).getD warning

end LogLevel

/-- Why a file cannot be read or written. -/
inductive Refusal where
  /-- There is no such file, or no such folder on the way to it. -/
  | notFound
  /-- The name leads on from something that is no folder. -/
  | notFolder
  /-- The name is that of a folder. -/
  | isFolder
  /-- A part of the name is longer than the name of a file may be. -/
  | nameTooLong
  | other (reason : String)
  deriving DecidableEq, Repr, Inhabited

/-- The refusal in words, with the number that it has on the system. -/
def Refusal.message : Refusal → String
  | notFound => "No such file or directory (os error 2)"
  | notFolder => "Not a directory (os error 20)"
  | isFolder => "Is a directory (os error 21)"
  | nameTooLong => "File name too long (os error 36)"
  | other reason => reason

/-- Access to files and to the three standard streams. -/
class Host (m : Type → Type) where
  /-- The text of a file, or the reason why it cannot be read. -/
  readFile : String → m (Except Refusal String)
  /-- Writes a file, or says why that is not possible. -/
  writeFile : String → String → m (Except Refusal Unit)
  /-- The next line of standard input with the end of line behind it; none at the end. -/
  readLine : m (Option String)
  /-- Writes to standard output. -/
  print : String → m Unit
  /-- Writes to standard error. -/
  complain : String → m Unit
  /-- Adds a reported problem to the log, if the level lets it through. -/
  log : Diagnostic → m Unit

end SubsetC.CommandLine
