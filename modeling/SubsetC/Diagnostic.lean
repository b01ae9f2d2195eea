/-!
# Diagnostics

Problems that are reported and do not by themselves end anything.
-/

namespace SubsetC

/-- How serious a problem is. -/
inductive Severity where
  | info
  | warning
  | error
  deriving DecidableEq, Repr, Inhabited

/-- The severity as written in a report. -/
def Severity.spelling : Severity → String
  | info => "info"
  | warning => "warning"
  | error => "error"

/-- The part of the work that met a problem. -/
inductive Phase where
  | lexical
  | syntactic
  | semantic
  | runtime
  deriving DecidableEq, Repr, Inhabited

/-- The phase as written in a report. -/
def Phase.spelling : Phase → String
  | lexical => "Lexical"
  | syntactic => "Syntax"
  | semantic => "Semantic"
  | runtime => "Runtime"

/-- A problem that has been reported. -/
structure Diagnostic where
  severity : Severity
  phase : Phase
  message : String
  line : Option UInt32
  deriving DecidableEq, Repr, Inhabited

namespace Diagnostic

/-- An error that has a place in the source. -/
def error (phase : Phase) (message : String) (line : UInt32) : Diagnostic :=
  ⟨.error, phase, message, some line⟩

/-- What goes wrong in a run is made good with a default, so it is only a warning. -/
def runtime (message : String) : Diagnostic :=
  ⟨.warning, .runtime, message, none⟩

/-- The problem as one line of text. -/
def describe (diagnostic : Diagnostic) : String :=
  let text := s!"{diagnostic.phase.spelling} {diagnostic.severity.spelling}: {diagnostic.message}"
  match diagnostic.line with
  | none => text
  | some line => s!"{text} (line {line.toNat})"

end Diagnostic

/-- Problems in the order in which they were reported. -/
abbrev Diagnostics := Array Diagnostic

namespace Diagnostics

/-- The problems that are errors. -/
def errors (diagnostics : Diagnostics) : Diagnostics :=
  diagnostics.filter fun diagnostic => diagnostic.severity = .error

/-- Some problem is an error. -/
def hasErrors (diagnostics : Diagnostics) : Bool :=
  diagnostics.any fun diagnostic => diagnostic.severity = .error

/-- The problems, one a line. -/
def listing (diagnostics : Diagnostics) : String :=
  String.join (diagnostics.toList.map fun diagnostic => diagnostic.describe ++ "\n")

/-- The problems of one phase. -/
def inPhase (diagnostics : Diagnostics) (phase : Phase) : Diagnostics :=
  diagnostics.filter fun diagnostic => diagnostic.phase = phase

end Diagnostics

end SubsetC
