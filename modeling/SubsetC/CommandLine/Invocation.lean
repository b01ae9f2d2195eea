import SubsetC.Machine

/-!
# Invocations

What a list of command-line arguments asks for. Arguments that ask for nothing known are refused as
a whole, so `Invocation.ofArguments?` has no partial results.
-/

namespace SubsetC.CommandLine

/-- What compiling a file is to produce. -/
structure BuildOptions where
  /-- The file that the code is saved to. -/
  output : Option String
  showTokens : Bool
  showTree : Bool
  showCode : Bool
  deriving DecidableEq, Repr, Inhabited

/-- A task for the program. -/
inductive Command where
  /-- Compiles a source file and runs it. -/
  | run (file : String) (config : Config)
  /-- Compiles a source file. -/
  | build (file : String) (options : BuildOptions)
  /-- Shows the tokens of a source file. -/
  | tokenize (file : String)
  /-- Shows the tree of a source file. -/
  | parse (file : String)
  /-- Runs saved code. -/
  | exec (file : String) (config : Config)
  /-- Runs every line of the input as a source. -/
  | converse (config : Config)
  deriving DecidableEq, Repr, Inhabited

/-- What the arguments ask for. -/
inductive Invocation where
  | version
  /-- A command, with the level of the log if one is named. -/
  | task (command : Command) (level : Option String)
  deriving DecidableEq, Repr, Inhabited

/-- The part that an argument plays by its form. -/
inductive Argument where
  /-- Two hyphens: no option comes after them. -/
  | endOfOptions
  /-- An option with a name, and the value written behind an equals sign. -/
  | long (name : String) (value : Option String)
  /-- An option with a letter, and what is written behind it. -/
  | short (letter : Char) (rest : List Char)
  /-- Everything else. A single hyphen is a plain argument. -/
  | plain (text : String)
  deriving DecidableEq, Repr, Inhabited

namespace Argument

/-- The name of a long option, and its value. -/
def ofLong (text : List Char) : Argument :=
  let name := String.ofList (text.takeWhile (· ≠ '='))
  match text.dropWhile (· ≠ '=') with
  | [] => long name none
  | _ :: value => long name (some (String.ofList value))

/-- The part that an argument plays. -/
def ofString (text : String) : Argument :=
  match text.toList with
  | ['-', '-'] => endOfOptions
  | '-' :: '-' :: rest => ofLong rest
  | '-' :: letter :: rest => short letter rest
  | _ => plain text

end Argument

/-- An option of a command. -/
structure OptionForm where
  name : String
  letter : Option Char
  takesValue : Bool
  deriving DecidableEq, Repr, Inhabited

/-- The arguments of a command by their parts. -/
structure Settings where
  /-- The options, with their values; an option without one has the empty text. -/
  options : List (String × String)
  operands : List String
  deriving DecidableEq, Repr, Inhabited

namespace Settings

/-- The value of an option. -/
def value? (settings : Settings) (name : String) : Option String :=
  settings.options.lookup name

/-- The option is there. -/
def has (settings : Settings) (name : String) : Bool :=
  (settings.value? name).isSome

/-- One more option in front. No option is given twice. -/
def addOption (name value : String) (settings : Settings) : Option Settings :=
  if settings.has name then none
  else some { settings with options := (name, value) :: settings.options }

/-- One more operand in front. -/
def addOperand (text : String) (settings : Settings) : Settings :=
  { settings with operands := text :: settings.operands }

/-- The form of the option that an argument gives, and the value written in the same argument. -/
def option? (forms : List OptionForm) : Argument → Option (OptionForm × Option String)
  | .long name value => (forms.find? fun form => form.name == name).map (·, value)
  | .short letter rest =>
    let value := match rest with
      | [] => none
      | '=' :: value => some (String.ofList value)
      | value => some (String.ofList value)
    (forms.find? fun form => form.letter == some letter).map (·, value)
  | _ => none

/-- Sorts arguments into options of these forms and operands. The value of an option that is not
written in the same argument is the next one, unless that looks like an option too. -/
def ofArguments? (forms : List OptionForm) : List String → Option Settings
  | [] => some ⟨[], []⟩
  | argument :: rest =>
    match Argument.ofString argument with
    | .endOfOptions => some ⟨[], rest⟩
    | .plain text => (ofArguments? forms rest).map (addOperand text)
    | found =>
      match option? forms found with
      | none => none
      | some (⟨name, _, true⟩, some value) => (ofArguments? forms rest).bind (addOption name value)
      | some (⟨name, _, false⟩, none) => (ofArguments? forms rest).bind (addOption name "")
      | some (⟨_, _, false⟩, some _) => none
      | some (⟨name, _, true⟩, none) =>
        match rest with
        | [] => none
        | next :: rest =>
          match Argument.ofString next with
          | .plain value => (ofArguments? forms rest).bind (addOption name value)
          | _ => none

/-- The only operand, which names a file. -/
def file? (settings : Settings) : Option String :=
  match settings.operands with
  | [file] => if file = "" then none else some file
  | _ => none

end Settings

/-- The option for the level of the log, which every command takes. -/
def logLevel : OptionForm := ⟨"log-level", none, true⟩

/-- The options that say how code is run. -/
def runForms : List OptionForm :=
  [⟨"strict", none, false⟩, ⟨"max-steps", none, true⟩]

/-- The options that say what is produced. -/
def buildForms : List OptionForm :=
  [⟨"output", some 'o', true⟩, ⟨"emit-tokens", none, false⟩, ⟨"emit-ast", none, false⟩,
    ⟨"emit-ir", none, false⟩]

/-- How code is to be run, where the environment may hold a step limit. The option counts before the
environment. -/
def config? (environment : Option String) (settings : Settings) : Option Config :=
  match settings.value? "max-steps" <|> environment with
  | none => some ⟨settings.has "strict", none⟩
  | some text =>
    (Decimal.uint64? text.toList).map fun limit => ⟨settings.has "strict", some limit⟩

/-- What is to be produced. -/
def buildOptions? (settings : Settings) : Option BuildOptions :=
  if settings.value? "output" = some "" then none
  else some
    { output := settings.value? "output"
      showTokens := settings.has "emit-tokens"
      showTree := settings.has "emit-ast"
      showCode := settings.has "emit-ir" }

namespace Command

/-- The options of a command. -/
def forms? : (name : String) → Option (List OptionForm)
  | "run" | "exec" | "repl" => some runForms
  | "build" => some buildForms
  | "tokenize" | "parse" => some []
  | _ => none

/-- The command of a name with its settings. -/
def ofSettings? (environment : Option String) (name : String) (settings : Settings) :
    Option Command := do
  match name with
  | "run" => return .run (← settings.file?) (← config? environment settings)
  | "build" => return .build (← settings.file?) (← buildOptions? settings)
  | "tokenize" => return .tokenize (← settings.file?)
  | "parse" => return .parse (← settings.file?)
  | "exec" => return .exec (← settings.file?) (← config? environment settings)
  | "repl" =>
    if settings.operands = [] then return .converse (← config? environment settings) else none
  | _ => none

end Command

namespace Invocation

/-- The command of a name with its arguments. A level that is named among them counts before one
that has been named earlier. -/
def ofCommand? (environment : Option String) (level : Option String) (name : String)
    (arguments : List String) : Option Invocation := do
  let settings ← Settings.ofArguments? (logLevel :: (← Command.forms? name)) arguments
  let command ← Command.ofSettings? environment name settings
  return task command (settings.value? "log-level" <|> level)

/-- What the arguments ask for, where the level of the log may have been named before them. The
version is shown as soon as it is asked for. -/
def ofArgumentsAfter? (environment : Option String) :
    (level : Option String) → List String → Option Invocation
  | _, [] => none
  | level, argument :: rest =>
    match Argument.ofString argument with
    | .plain name => ofCommand? environment level name rest
    | .short 'V' _ => some version
    | .long "version" none => some version
    | .long "log-level" (some named) =>
      if level.isSome then none else ofArgumentsAfter? environment (some named) rest
    | .long "log-level" none =>
      match rest with
      | [] => none
      | next :: rest =>
        match Argument.ofString next with
        | .plain named =>
          if level.isSome then none else ofArgumentsAfter? environment (some named) rest
        | _ => none
    | _ => none

/-- What the arguments ask for; none if they are refused. -/
def ofArguments? (environment : Option String) (arguments : List String) : Option Invocation :=
  ofArgumentsAfter? environment none arguments

end Invocation

end SubsetC.CommandLine
