import SubsetC.Session

/-!
# Sessions that differ in places

Two layouts of the same tokens report different lexical problems, and the others on different lines.
`Session.Alike` is what remains: the same declarations, the same numbers of names and the same
messages of semantic problems.
-/

namespace SubsetC.Session

/-- A report comes behind what the phase has reported before. -/
theorem inPhase_report (session : Session) (diagnostic : Diagnostic) (phase : Phase) :
    ((session.report diagnostic).diagnostics.inPhase phase).toList =
      (session.diagnostics.inPhase phase).toList ++
        if diagnostic.phase = phase then [diagnostic] else [] := by
  by_cases same : diagnostic.phase = phase
  · simp [report, Diagnostics.inPhase, same]
  · simp [report, Diagnostics.inPhase, same]

/-- The messages of the semantic problems, in the order in which they were reported. -/
def semanticMessages (session : Session) : List String :=
  (session.diagnostics.inPhase .semantic).toList.map Diagnostic.message

/-- The sessions differ only in places and in the problems of other phases. -/
structure Alike (first second : Session) : Prop where
  symbols : first.symbols = second.symbols
  temporaries : first.temporaries = second.temporaries
  labels : first.labels = second.labels
  messages : first.semanticMessages = second.semanticMessages

section Messages

variable (session : Session) (message : String) (line : UInt32)

theorem semanticMessages_report_semantic :
    (session.report (.error .semantic message line)).semanticMessages =
      session.semanticMessages ++ [message] := by
  simp [semanticMessages, report, Diagnostics.inPhase, Diagnostic.error]

theorem semanticMessages_report_other {phase : Phase} (other : phase ≠ .semantic) :
    (session.report (.error phase message line)).semanticMessages = session.semanticMessages := by
  simp [semanticMessages, report, Diagnostics.inPhase, Diagnostic.error, other]

end Messages

namespace Alike

variable {first second third : Session}

theorem refl (session : Session) : session.Alike session :=
  ⟨rfl, rfl, rfl, rfl⟩

theorem symm (alike : first.Alike second) : second.Alike first :=
  ⟨alike.symbols.symm, alike.temporaries.symm, alike.labels.symm, alike.messages.symm⟩

theorem trans (early : first.Alike second) (late : second.Alike third) : first.Alike third where
  symbols := early.symbols.trans late.symbols
  temporaries := early.temporaries.trans late.temporaries
  labels := early.labels.trans late.labels
  messages := early.messages.trans late.messages

/-- The same semantic problem may be reported on two lines. -/
theorem report (alike : first.Alike second) (message : String) (line line' : UInt32) :
    (first.report (.error .semantic message line)).Alike
      (second.report (.error .semantic message line')) where
  symbols := alike.symbols
  temporaries := alike.temporaries
  labels := alike.labels
  messages := by
    rw [semanticMessages_report_semantic, semanticMessages_report_semantic, alike.messages]

/-- A problem of another phase makes no difference. -/
theorem report_other (session : Session) {phase : Phase} (other : phase ≠ .semantic)
    (message : String) (line : UInt32) :
    (session.report (.error phase message line)).Alike session :=
  ⟨rfl, rfl, rfl, semanticMessages_report_other session message line other⟩

theorem declare (alike : first.Alike second) (name : String) (type : DataType) :
    (first.declare name type).Alike (second.declare name type) where
  symbols := congrArg (·.set name type) alike.symbols
  temporaries := alike.temporaries
  labels := alike.labels
  messages := alike.messages

theorem freshTemporary (alike : first.Alike second) :
    first.freshTemporary.1 = second.freshTemporary.1 ∧
      first.freshTemporary.2.Alike second.freshTemporary.2 := by
  have number : first.temporaries + 1 = second.temporaries + 1 := by rw [alike.temporaries]
  exact ⟨congrArg temporaryName number, alike.symbols, number, alike.labels, alike.messages⟩

theorem freshLabel (alike : first.Alike second) :
    first.freshLabel.1 = second.freshLabel.1 ∧
      first.freshLabel.2.Alike second.freshLabel.2 := by
  have number : first.labels + 1 = second.labels + 1 := by rw [alike.labels]
  exact ⟨congrArg labelName number, alike.symbols, alike.temporaries, number, alike.messages⟩

end Alike

end SubsetC.Session
