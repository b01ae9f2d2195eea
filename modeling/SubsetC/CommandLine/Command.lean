import SubsetC.Code.Saved
import SubsetC.CommandLine.Host
import SubsetC.CommandLine.Invocation
import SubsetC.Run
import SubsetC.Text.Blank
import SubsetC.Token.Listing
import SubsetC.Tree.Outline

/-!
# Commands

What the commands do, over any host. A program that runs prints its output as it goes and has its
requests answered by lines of standard input; problems are listed on standard error once it has
stopped. They are also added to the log: those of a compilation when it is done, since nothing else
is written to standard error meanwhile, and those of a run in the round in which they are met. A
conversation takes its lines as they come; what a terminal does with them while they are typed is
left out. `patience` bounds the rounds of a run and the lines of a conversation, both of which may
have no end otherwise.
-/

namespace SubsetC.CommandLine

/-- Why a command fails. -/
inductive Failure where
  | unreadable (file : String) (refusal : Refusal)
  | unwritable (file : String) (refusal : Refusal)
  /-- The source has a syntax error. -/
  | badSource (error : ParseError)
  /-- The source or the saved code cannot be run. -/
  | notRun (error : RunError)
  /-- Errors have been reported. -/
  | problems (count : Nat)
  /-- The file holds no saved code. -/
  | notSaved (error : Json.ReadError)
  /-- The run has ended in a fault. -/
  | stopped (fault : Fault)
  deriving Repr, Inhabited

/-- The failure in words. -/
def Failure.message : Failure → String
  | unreadable file refusal => s!"Failed to read {file}: {refusal.message}"
  | unwritable file refusal => s!"Failed to write {file}: {refusal.message}"
  | badSource error => s!"Syntax error: {error.message}"
  | notRun (.compile error) => s!"Compilation failed: {error.error.message}"
  | notRun (.load fault) => s!"Failed to load program: {fault.message}"
  | problems count => s!"Found {count} error(s)"
  | notSaved error => s!"Invalid IR file: {error.message}"
  | stopped fault => s!"Execution stopped: {fault.message}"

/-- More rounds of a run, and more lines of a conversation, than anybody will wait for. -/
def patience : Nat := 1 <<< 62

/-- The version of the program. -/
def versionNumber : String := "0.1.0"

variable {m : Type → Type} [Monad m] [Host m]

/-- Adds problems to the log, in their order. -/
def logAll (found : Diagnostics) : m Unit :=
  found.toList.forM Host.log

/-- A line of standard input as an answer, without the end of line. -/
def readAnswer : m (Option String) := do
  let line ← Host.readLine
  return line.map fun line =>
    String.ofList (line.toList.reverse.dropWhile fun c => c == '\n' || c == '\r').reverse

/-- Lets a machine go on for a number of rounds, or fewer if it stops. To the problems found so far
are added those of the run. -/
def goOn : (rounds : Nat) → Machine → Diagnostics → m (Machine × Diagnostics)
  | 0, machine, found => return (machine, found)
  | rounds + 1, machine, found => do
    if machine.state = .running then
      let answers ← match machine.prompt? with
        | none => pure []
        | some prompt => do
          Host.complain prompt
          pure (← readAnswer).toList
      let (machine, console) := machine.step (.ofAnswers answers)
      if console.output.size > 0 then Host.print console.text
      logAll console.diagnostics
      goOn rounds machine (found ++ console.diagnostics)
    else return (machine, found)

/-- Compiles a source and runs it. The problems of the run are listed behind those of the
compilation. -/
def runSource (patience : Nat) (source : String) (config : Config) : m (Except Failure Unit) := do
  let (outcome, found) := prepare source config
  logAll found
  match outcome with
  | .error (.load fault) => return .error (.notRun (.load fault))
  | .error error => do
    Host.complain found.listing
    return .error (.notRun error)
  | .ok start =>
    let (machine, found) ← goOn patience start.machine found
    Host.complain found.listing
    if let .faulted fault := machine.state then return .error (.stopped fault)
    return .ok ()

/-- Runs code by itself. -/
def execute (patience : Nat) (program : Program) (config : Config) : m (Except Failure Unit) := do
  match Machine.load program config with
  | .error fault => return .error (.notRun (.load fault))
  | .ok machine =>
    let (machine, found) ← goOn patience machine #[]
    Host.complain found.listing
    match machine.state with
    | .faulted fault => return .error (.stopped fault)
    | _ => return .ok ()

/-- Runs saved code. -/
def runSaved (patience : Nat) (text : String) (config : Config) : m (Except Failure Unit) := do
  match Program.restore text with
  | .error error => return .error (.notSaved error)
  | .ok program => execute patience program config

/-- Saves code to a file. -/
def saveTo (file : String) (program : Program) : m (Except Failure Unit) := do
  match ← Host.writeFile file program.save with
  | .error refusal => return .error (.unwritable file refusal)
  | .ok () => do
    Host.print s!"Wrote {program.size} instructions to {file}\n"
    return .ok ()

/-- Shows declared variables with their types. -/
def listSymbols (symbols : Table DataType) : String :=
  String.join (symbols.entries.map fun (name, type) => s!"  {name} : {type.spelling}\n")

/-- Compiles a source and produces what is asked for. Errors that have been reported make the
command fail only at its end. -/
def buildSource (source : String) (options : BuildOptions) : m (Except Failure Unit) := do
  if options.showTokens then
    Host.print ("=== Tokens ===\n" ++ Token.dump (lex source).1)
  let (outcome, session) := compile source
  logAll session.diagnostics
  Host.complain (Diagnostics.listing session.diagnostics)
  match outcome with
  | .error error => return .error (.badSource error.error)
  | .ok compilation => do
    if options.showTree then
      Host.print ("=== AST ===\n" ++ compilation.tree.outline.render ++ "\n")
      Host.print ("=== Symbols ===\n" ++ listSymbols session.symbols)
    if options.showCode then
      Host.print ("=== IR ===\n" ++ compilation.program.listing)
    let saved ← match options.output with
      | none => pure (.ok ())
      | some file => saveTo file compilation.program
    match saved with
    | .error failure => return .error failure
    | .ok () =>
      if session.diagnostics.hasErrors then
        return .error (.problems session.diagnostics.errors.size)
      else return .ok ()

/-- Lexical errors, one a line. -/
def listErrors (errors : List LexicalError) : String :=
  String.join (errors.map fun error => s!"  {error.message}\n")

/-- Shows the tokens of a source. -/
def showTokens (source : String) : m (Except Failure Unit) := do
  let (tokens, errors) := lex source
  Host.print (Token.listing source tokens)
  unless errors.isEmpty do
    Host.complain ("\nLexer errors:\n" ++ listErrors errors)
  return .ok ()

/-- Shows the tree of a source, or of the statements before its syntax error. -/
def showTree (source : String) : m (Except Failure Unit) := do
  let ((tree, failure), session) := parse source .empty
  logAll session.diagnostics
  Host.print (tree.outline.render ++ "\n")
  Host.complain (Diagnostics.listing session.diagnostics)
  match failure with
  | none => return .ok ()
  | some error => return .error (.badSource error)

/-- Runs one line after another, each as a source of its own, until the end of the input or a word
of parting. A program that asks for input gets the lines behind its own. -/
def talk (patience : Nat) (config : Config) : (lines : Nat) → m Unit
  | 0 => return ()
  | lines + 1 => do
    Host.print "> "
    match ← Host.readLine with
    | none => return ()
    | some line =>
      let source := String.ofList (Blank.trim line.toList)
      if source = "exit" ∨ source = "quit" then return ()
      else if source = "" then talk patience config lines
      else do
        match ← runSource patience source config with
        | .ok () => pure ()
        | .error failure => Host.complain (failure.message ++ "\n")
        Host.print "\n"
        talk patience config lines

/-- Does something with the text of a file. -/
def withFile (file : String) (action : String → m (Except Failure Unit)) :
    m (Except Failure Unit) := do
  match ← Host.readFile file with
  | .error refusal => return .error (.unreadable file refusal)
  | .ok text => action text

/-- Performs a command. -/
def Command.perform (patience : Nat) : Command → m (Except Failure Unit)
  | .run file config => withFile file fun source => runSource patience source config
  | .build file options => withFile file fun source => buildSource source options
  | .tokenize file => withFile file showTokens
  | .parse file => withFile file showTree
  | .exec file config => withFile file fun text => runSaved patience text config
  | .converse config => do
    Host.print s!"cmini REPL v{versionNumber}\n"
    Host.print "Each line is its own program. Type 'exit' to quit.\n\n"
    talk patience config patience
    Host.print "Goodbye!\n"
    return .ok ()

/-- Performs what has been asked for. -/
def Invocation.perform (patience : Nat) : Invocation → m (Except Failure Unit)
  | .version => do
    Host.print s!"cminic {versionNumber}\n"
    return .ok ()
  | .task command _ => command.perform patience

end SubsetC.CommandLine
