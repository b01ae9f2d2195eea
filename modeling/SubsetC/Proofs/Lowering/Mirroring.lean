import Mathlib.Data.List.Forall2
import SubsetC.Proofs.Machine.Points
import SubsetC.Proofs.Names
import SubsetC.Proofs.Tree.Meaning

/-!
# Points that mirror scenes

A point of a run mirrors a scene if both have done the same and their variables have the same
values. What the point stores under the name of a temporary does not matter. Whatever a scene is
changed to by an assignment, a warning, a printed text or a request is mirrored once the machine has
done the same; `Mirrors.setTemporary` says that temporaries may be stored to.
-/

namespace SubsetC

open Session

/-- The diagnostic tells of the warning. One of a division names an operator of the program. -/
inductive Reports (program : Program) : Warning → Diagnostic → Prop where
  | divisionByZero {index : Nat} {target : String} {op : BinaryOp} {left right : Operand}
      (here : program.instructions[index]? = some (.binary target op left right)) :
      Reports program .divisionByZero (Point.divisionReport (.binary target op left right) index)
  | answer (problem : Diagnostic) : Reports program (.answer problem) problem

/-- The store and the console show the scene. -/
structure Mirrors (program : Program) (scene : Scene) (store : Table Value) (console : Console) :
    Prop where
  store : ∀ name, ¬IsTemporary name → store.get? name = scene.store.get? name
  answers : console.answers = scene.answers
  prompts : console.prompts.toList = scene.prompts
  output : console.output.toList = scene.output
  warnings : List.Forall₂ (Reports program) scene.warnings console.diagnostics.toList

namespace Console

theorem fst_request (console : Console) (prompt : String) :
    (console.request prompt).1 = console.answers.head? := by
  rcases console with ⟨answers, prompts, output, diagnostics⟩
  cases answers <;> rfl

theorem answers_request (console : Console) (prompt : String) :
    (console.request prompt).2.answers = console.answers.tail := by
  rcases console with ⟨answers, prompts, output, diagnostics⟩
  cases answers <;> rfl

theorem output_request (console : Console) (prompt : String) :
    (console.request prompt).2.output = console.output := by
  rcases console with ⟨answers, prompts, output, diagnostics⟩
  cases answers <;> rfl

theorem diagnostics_request (console : Console) (prompt : String) :
    (console.request prompt).2.diagnostics = console.diagnostics := by
  rcases console with ⟨answers, prompts, output, diagnostics⟩
  cases answers <;> rfl

end Console

namespace Mirrors

variable {program : Program} {scene : Scene} {store : Table Value} {console : Console}

/-- Before the first instruction nothing has been done. -/
theorem start (answers : List String) :
    Mirrors program (.start answers) .empty (.ofAnswers answers) :=
  ⟨fun _ _ => rfl, rfl, rfl, rfl, .nil⟩

/-- A variable reads the same in the scene and in the store. -/
theorem read (mirrors : Mirrors program scene store console) {name : String}
    (lasting : ¬IsTemporary name) : Operand.value (.name name) store = scene.read name := by
  simp only [Operand.value, Scene.read, mirrors.store name lasting]

/-- A variable that is set in both is the same in both. -/
theorem assign (mirrors : Mirrors program scene store console) (name : String) (value : Value) :
    Mirrors program (scene.assign name value) (store.set name value) console where
  store := by
    intro other lasting
    simp only [Scene.assign, Table.get?_set, mirrors.store other lasting]
  answers := mirrors.answers
  prompts := mirrors.prompts
  output := mirrors.output
  warnings := mirrors.warnings

/-- Temporaries are not in the scene. -/
theorem setTemporary (mirrors : Mirrors program scene store console) {name : String}
    (temporary : IsTemporary name) (value : Value) :
    Mirrors program scene (store.set name value) console where
  store := by
    intro other lasting
    have different : name ≠ other := by
      rintro rfl
      exact lasting temporary
    rw [Table.get?_set, if_neg different, mirrors.store other lasting]
  answers := mirrors.answers
  prompts := mirrors.prompts
  output := mirrors.output
  warnings := mirrors.warnings

/-- A warning is one more in both. -/
theorem warn (mirrors : Mirrors program scene store console) {warning : Warning}
    {diagnostic : Diagnostic} (reports : Reports program warning diagnostic) :
    Mirrors program (scene.warn warning) store (console.report diagnostic) where
  store := mirrors.store
  answers := mirrors.answers
  prompts := mirrors.prompts
  output := mirrors.output
  warnings := by
    simp only [Scene.warn, Console.report, Array.toList_push]
    exact List.rel_append mirrors.warnings (.cons reports .nil)

theorem emit (mirrors : Mirrors program scene store console) (text : String) :
    Mirrors program (scene.emit text) store (console.emit text) where
  store := mirrors.store
  answers := mirrors.answers
  prompts := mirrors.prompts
  output := by simp only [Scene.emit, Console.emit, Array.toList_push, mirrors.output]
  warnings := mirrors.warnings

/-- A request takes the next answer of both, if there is one. -/
theorem request (mirrors : Mirrors program scene store console) (conversion : Conversion)
    (target : String) :
    let (answer, asked) := console.request (conversion.prompt target)
    let (value, problem) := conversion.read target answer
    Mirrors program (scene.request conversion target) (store.set target value)
      (problem.toList.foldl Console.report asked) := by
  have answered : (console.request (conversion.prompt target)).1 = scene.answers.head? := by
    rw [Console.fst_request, mirrors.answers]
  rcases read : conversion.read target scene.answers.head? with ⟨value, problem⟩
  have asked : Mirrors program
      ⟨scene.store.set target value, scene.answers.tail,
        scene.prompts ++ [conversion.prompt target], scene.output, scene.warnings⟩
      (store.set target value) (console.request (conversion.prompt target)).2 := by
    refine ⟨(mirrors.assign target value).store, ?_, ?_, ?_, ?_⟩
    · rw [Console.answers_request, mirrors.answers]
    · rw [Console.prompts_request, Array.toList_push, mirrors.prompts]
    · rw [Console.output_request, mirrors.output]
    · rw [Console.diagnostics_request]
      exact mirrors.warnings
  simp only [answered, read, Scene.request]
  cases problem with
  | none => simpa using asked
  | some problem => exact asked.warn (.answer problem)

end Mirrors

end SubsetC
