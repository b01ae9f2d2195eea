import SubsetC.Diagnostic

/-!
# Consoles

What a running program sees of the outside: texts that will be given to its requests, and what it
has said so far.
-/

namespace SubsetC

/-- The input that a run is given, and all that it does outside. -/
structure Console where
  /-- The answers that have not been asked for. -/
  answers : List String
  /-- The requests for answers, in order. -/
  prompts : Array String
  /-- The printed texts, in order. -/
  output : Array String
  /-- The reported problems, in order. -/
  diagnostics : Diagnostics
  deriving DecidableEq, Repr, Inhabited

namespace Console

/-- A console that will give these answers. -/
def ofAnswers (answers : List String) : Console :=
  ⟨answers, #[], #[], #[]⟩

/-- Prints a text. -/
def emit (console : Console) (text : String) : Console :=
  { console with output := console.output.push text }

/-- Asks for an answer. There is none once all have been given. -/
def request (console : Console) (prompt : String) : Option String × Console :=
  let prompts := console.prompts.push prompt
  match console.answers with
  | [] => (none, { console with prompts })
  | answer :: answers => (some answer, { console with prompts, answers })

/-- Reports a problem. -/
def report (console : Console) (diagnostic : Diagnostic) : Console :=
  { console with diagnostics := console.diagnostics.push diagnostic }

theorem prompts_request (console : Console) (prompt : String) :
    (console.request prompt).2.prompts = console.prompts.push prompt := by
  obtain ⟨answers, prompts, output, diagnostics⟩ := console
  cases answers <;> rfl

theorem prompts_report (console : Console) (found : List Diagnostic) :
    (found.foldl report console).prompts = console.prompts := by
  induction found generalizing console with
  | nil => rfl
  | cons first rest ih => exact ih _

/-- All that has been printed. -/
def text (console : Console) : String :=
  String.join console.output.toList

end Console

end SubsetC
