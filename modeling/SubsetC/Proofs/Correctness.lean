import SubsetC.Proofs.Lowering.Loading
import SubsetC.Proofs.Lowering.Simulation

/-!
# Compiled programs are correct

`Tree.lower_correct` says that a lowered tree loads, that its machine halts if and only if the tree
runs, and that both have then done the same. A tree must not name a temporary, and the counters of
temporaries and labels must not start over.
-/

namespace SubsetC

open Lowering Session

namespace Machine

/-- The machine halts, with this store and this console. -/
def Halts (machine : Machine) (console : Console) (store : Table Value) (last : Console) : Prop :=
  ∃ rounds machine', machine.runFor rounds console = (machine', last) ∧
    machine'.state = .halted ∧ machine'.store = store

/-- However many rounds a run is given, it can end in one way only. -/
theorem runFor_unique {machine early late : Machine} {console last last' : Console}
    {first second : Nat} (ran : machine.runFor first console = (early, last))
    (stopped : early.state ≠ .running) (ran' : machine.runFor second console = (late, last'))
    (stopped' : late.state ≠ .running) : (early, last) = (late, last') := by
  rcases Nat.le_total first second with fewer | fewer
  · rcases Nat.exists_eq_add_of_le fewer with ⟨more, rfl⟩
    rw [runFor_add, ran, runFor_of_stopped stopped] at ran'
    exact ran'
  · rcases Nat.exists_eq_add_of_le fewer with ⟨more, rfl⟩
    rw [runFor_add, ran', runFor_of_stopped stopped'] at ran
    exact ran.symm

theorem halts_unique {machine : Machine} {console last last' : Console}
    {store store' : Table Value} (halts : machine.Halts console store last)
    (halts' : machine.Halts console store' last') : store' = store ∧ last' = last := by
  rcases halts with ⟨first, machine', ran, halted, rfl⟩
  rcases halts' with ⟨second, machine'', ran', halted', rfl⟩
  cases runFor_unique ran (by simp [halted]) ran' (by simp [halted'])
  exact ⟨rfl, rfl⟩

end Machine

namespace Tree

variable {tree : Tree} {session : Session} {labels : LabelTable} {answers : List String}

/-- The point before the first instruction. -/
def startPoint (answers : List String) : Point :=
  ⟨0, .empty, .ofAnswers answers⟩

/-- All statements of a tree are embedded in the lowered program. Returns lead behind their code. -/
theorem exists_embedded (fresh : ∀ name ∈ tree.vars, ¬IsTemporary name)
    (room : session.temporaries.toNat + tree.temporaries < 2 ^ 32)
    (fits : labels.Fits (tree.lower session).1) :
    ∃ code after,
      Embedded (tree.lower session).1 labels code.length 0 ⟨session, none⟩ tree.whole code after ∧
      Flows (tree.lower session).1 labels code.length (tree.lower session).1.size := by
  rcases tree.exists_emits session with ⟨code, after, emits, program, -⟩
  have held : (tree.lower session).1.Holds 0 (code ++ after.exit.toList.map .label) :=
    Program.holds_of_drop program
  have size : (tree.lower session).1.size = code.length + after.exit.toList.length := by
    rw [Program.size, ← Array.length_toList, program, List.length_append, List.length_map]
  rw [Program.holds_append, Nat.zero_add] at held
  refine ⟨code, after, ⟨emits, fresh, room, held.1, ?_⟩, ?_⟩
  · intro label known
    have exitHeld := held.2
    rw [known] at exitHeld
    exact fits _ _ exitHeld.1
  · rw [size]
    cases known : after.exit with
    | none =>
        intro scene point shows
        exact ⟨0, .refl shows⟩
    | some label =>
        have exitHeld := held.2
        rw [known] at exitHeld
        exact flows_label exitHeld.1

/-- Where the tree runs, the machine halts with the same done. -/
theorem halts_of_runs (fresh : ∀ name ∈ tree.vars, ¬IsTemporary name)
    (room : session.temporaries.toNat + tree.temporaries < 2 ^ 32)
    (fits : labels.Fits (tree.lower session).1) {scene : Scene}
    (runs : tree.Runs (.start answers) scene) :
    ∃ store console, ((startPoint answers).machine (tree.lower session).1 labels 0).Halts
        (.ofAnswers answers) store console ∧
      Mirrors (tree.lower session).1 scene store console := by
  rcases exists_embedded fresh room fits with ⟨code, after, embedded, ends⟩
  rcases runs with ⟨outcome, runs⟩
  have shows : Shows (tree.lower session).1 0 (.start answers) (startPoint answers) :=
    ⟨rfl, .start answers⟩
  rcases leads_of_runs fits runs embedded shows with ⟨rounds, leads⟩
  have behind : outcome.place (0 + code.length) code.length = code.length := by
    cases outcome with
    | finished => exact Nat.zero_add _
    | left => rfl
  rw [behind] at leads
  rcases leads with ⟨middle, reached, shows⟩
  rcases ends scene middle shows with ⟨more, last, reached', counter, mirrors⟩
  rcases (reached.trans reached') 0 with ⟨steps, arrived⟩
  refine ⟨last.store, last.console, ⟨rounds + more + 1,
    { last.machine (tree.lower session).1 labels steps with state := .halted }, ?_, rfl, rfl⟩,
    mirrors⟩
  change Machine.runFor _ _ (startPoint answers).console = _
  rw [Machine.runFor_add, arrived, Point.runFor_one_of_end (Nat.le_of_eq counter.symm)]

/-- Where the machine halts, the tree runs. -/
theorem runs_of_halts (fresh : ∀ name ∈ tree.vars, ¬IsTemporary name)
    (room : session.temporaries.toNat + tree.temporaries < 2 ^ 32)
    (fits : labels.Fits (tree.lower session).1) {store : Table Value} {console : Console}
    (halts : ((startPoint answers).machine (tree.lower session).1 labels 0).Halts
      (.ofAnswers answers) store console) : ∃ scene, tree.Runs (.start answers) scene := by
  rcases halts with ⟨rounds, machine, ran, halted, -⟩
  rcases exists_embedded fresh room fits with ⟨code, after, embedded, -⟩
  have shows : Shows (tree.lower session).1 0 (.start answers) (startPoint answers) :=
    ⟨rfl, .start answers⟩
  have haltsIn : Point.HaltsIn (tree.lower session).1 labels rounds (startPoint answers) := by
    refine ⟨0, ?_⟩
    change (Machine.runFor rounds _ (Console.ofAnswers answers)).1.state = _
    rw [ran]
    exact halted
  rcases runs_of_haltsIn fits (Nat.lt_succ_self rounds) embedded shows haltsIn with
    ⟨outcome, scene, runs⟩
  exact ⟨scene, outcome, runs⟩

/-- A lowered tree loads. Its machine halts if and only if the tree runs; if so, both have given the
same output, made the same requests, left the same answers and given the same warnings, and all
variables of the source have the same values. -/
theorem lower_correct (tree : Tree) (session : Session) (answers : List String)
    (fresh : ∀ name ∈ tree.vars, ¬IsTemporary name)
    (temporaries : session.temporaries.toNat + tree.temporaries < 2 ^ 32)
    (labels : session.labels.toNat + tree.labels < 2 ^ 32) :
    ∃ machine, Machine.load (tree.lower session).1 ⟨false, none⟩ = .ok machine ∧
      ((∃ store console, machine.Halts (.ofAnswers answers) store console) ↔
        ∃ scene, tree.Runs (.start answers) scene) ∧
      ∀ store console scene, machine.Halts (.ofAnswers answers) store console →
        tree.Runs (.start answers) scene → Mirrors (tree.lower session).1 scene store console := by
  rcases tree.ofProgram_lower session labels with ⟨table, built, fits⟩
  refine ⟨(startPoint answers).machine (tree.lower session).1 table 0, ?_, ⟨?_, ?_⟩, ?_⟩
  · simp only [Machine.load, built]
    rfl
  · rintro ⟨store, console, halts⟩
    exact runs_of_halts fresh temporaries fits halts
  · rintro ⟨scene, runs⟩
    rcases halts_of_runs fresh temporaries fits runs with ⟨store, console, halts, -⟩
    exact ⟨store, console, halts⟩
  · intro store console scene halts runs
    rcases halts_of_runs fresh temporaries fits runs with ⟨store', console', halts', mirrors⟩
    rcases Machine.halts_unique halts' halts with ⟨rfl, rfl⟩
    exact mirrors

/-- Reads a number and counts it down to zero. -/
def countdown : Tree where
  statements :=
    [.scan "%d" ⟨"n", default⟩ default,
      .loop (.var "n" default)
        ⟨[.assign ⟨"n", default⟩ (.binary .sub (.var "n" default) (.literal (.int 1) default)
          default) default], default⟩ default,
      .leave (some (.unary .not (.var "n" default) default)) default]
  span := default

/-- The scene after the number three has been counted down. -/
def countedDown : Scene where
  store := Table.empty.set "n" (.int 0)
  answers := []
  prompts := ["Enter a value for 'n' (%d): "]
  output := []
  warnings := []

/-- The loop is entered three times, and the return ends the program. -/
theorem runs_countdown : countdown.Runs (.start ["3"]) countedDown := by
  refine ⟨.left, .blockCons (.scan ..) (@Stmt.Runs.blockCons _ _ _ _ countedDown _ _ ?_ ?_)⟩
  · refine .loopTrue (by decide +kernel) (.blockCons (.assign ..) (.blockNil ..)) ?_
    refine .loopTrue (by decide +kernel) (.blockCons (.assign ..) (.blockNil ..)) ?_
    refine .loopTrue (by decide +kernel) (.blockCons (.assign ..) (.blockNil ..)) ?_
    exact .loopFalse (by decide +kernel)
  · exact .blockLeft (.leaveSome ..)

/-- The machine of the countdown halts, and shows the scene that the tree comes to. -/
theorem lower_correct_countdown :
    ∃ machine store console,
      Machine.load (countdown.lower .empty).1 ⟨false, none⟩ = .ok machine ∧
      machine.Halts (.ofAnswers ["3"]) store console ∧
      countdown.Runs (.start ["3"]) countedDown ∧
      Mirrors (countdown.lower .empty).1 countedDown store console := by
  rcases lower_correct countdown .empty ["3"] (by decide) (by decide) (by decide) with
    ⟨machine, loaded, halts_iff, mirrors⟩
  rcases halts_iff.mpr ⟨_, runs_countdown⟩ with ⟨store, console, halts⟩
  exact ⟨machine, store, console, loaded, halts, runs_countdown,
    mirrors store console _ halts runs_countdown⟩

end Tree

end SubsetC
