import SubsetC.Diagnostic
import SubsetC.Table
import SubsetC.Text.Decimal
import SubsetC.Tree

/-!
# Sessions

What is known while a source is compiled: the declared variables, how many names have been generated
and what has been reported. The two counters are 32 bits wide and start over when they run out.
-/

namespace SubsetC

/-- The state of a compilation. -/
structure Session where
  /-- The declared variables and their types. -/
  symbols : Table DataType
  /-- The number of temporaries that have been named. -/
  temporaries : UInt32
  /-- The number of labels that have been named. -/
  labels : UInt32
  /-- What has been reported. -/
  diagnostics : Diagnostics
  deriving DecidableEq, Inhabited

namespace Session

/-- Nothing has been declared, named or reported. -/
def empty : Session :=
  ⟨.empty, 0, 0, #[]⟩

/-- The name of the temporary with this number. -/
def temporaryName (number : UInt32) : String :=
  String.ofList ('t' :: Decimal.digits number.toNat)

/-- The name of the label with this number. -/
def labelName (number : UInt32) : String :=
  String.ofList ('L' :: Decimal.digits number.toNat)

/-- The next temporary. -/
def freshTemporary (session : Session) : String × Session :=
  let number := session.temporaries + 1
  (temporaryName number, { session with temporaries := number })

/-- The next label. -/
def freshLabel (session : Session) : String × Session :=
  let number := session.labels + 1
  (labelName number, { session with labels := number })

/-- Adds a problem to those that have been reported. On the command line it is an event of the log
as well, which `CommandLine.logAll` adds. -/
def report (session : Session) (diagnostic : Diagnostic) : Session :=
  { session with diagnostics := session.diagnostics.push diagnostic }

/-- Declares a variable, or gives it another type. -/
def declare (session : Session) (name : String) (type : DataType) : Session :=
  { session with symbols := session.symbols.set name type }

/-- The reported problems, and the session without them. -/
def takeDiagnostics (session : Session) : Diagnostics × Session :=
  (session.diagnostics, { session with diagnostics := #[] })

end Session

end SubsetC
