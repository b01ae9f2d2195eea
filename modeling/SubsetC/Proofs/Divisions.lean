import Mathlib.Data.Nat.Find
import SubsetC.Proofs.Correctness
import SubsetC.Proofs.Machine.Strictness

/-!
# Reports of divisions by zero

A lenient machine reports a division by zero where it makes one good, and nothing else that it
reports reads like that. So its console tells what a strict machine does: `halts_strict_iff` says
that the strict machine halts if and only if the lenient one does and tells of no division.
-/

namespace SubsetC

/-- The report is one of a division by zero. -/
def Diagnostic.TellsDivision (diagnostic : Diagnostic) : Prop :=
  "division by zero".toList <+: diagnostic.message.toList

theorem Point.tellsDivision_divisionReport (instruction : Instruction) (index : Nat) :
    (divisionReport instruction index).TellsDivision := by
  simp only [divisionReport, Diagnostic.TellsDivision, Diagnostic.runtime, String.toList_append]
  exact ⟨_, rfl⟩

theorem Diagnostic.not_tellsDivision {message : String} {first : Char} {rest : List Char}
    (starts : message.toList = first :: rest) (other : first ≠ 'd') :
    ¬(runtime message).TellsDivision := by
  rintro ⟨behind, same⟩
  rw [runtime, starts] at same
  exact other (List.cons.inj same).1.symm

/-- A problem with an answer is told in other words. -/
theorem Conversion.not_tellsDivision {conversion : Conversion} {target : String}
    {answer : Option String} {problem : Diagnostic}
    (found : (conversion.read target answer).2 = some problem) : ¬problem.TellsDivision := by
  have missing : ¬(read.missing target).TellsDivision := by
    apply Diagnostic.not_tellsDivision
    · simp only [String.toList_append]
      rfl
    · decide
  cases conversion with
  | decimal =>
      cases answer with
      | none =>
          cases found
          exact missing
      | some text =>
          simp only [read] at found
          split at found
          · cases found
          · cases found
            apply Diagnostic.not_tellsDivision
            · simp only [String.toList_append]
              rfl
            · decide
  | character | string =>
      cases answer with
      | none =>
          cases found
          exact missing
      | some text => cases found

namespace Console

theorem diagnostics_report (console : Console) (found : List Diagnostic) :
    (found.foldl report console).diagnostics.toList = console.diagnostics.toList ++ found := by
  induction found generalizing console with
  | nil => exact (List.append_nil _).symm
  | cons first rest ih =>
      rw [List.foldl_cons, ih]
      simp [report]

/-- What has been reported on the way from one console to the other tells of a division by zero if
and only if there was one. -/
def Tells (first last : Console) (divides : Prop) : Prop :=
  ∃ found : List Diagnostic, last.diagnostics.toList = first.diagnostics.toList ++ found ∧
    ((∃ report ∈ found, report.TellsDivision) ↔ divides)

variable {first middle last : Console} {divides divides' : Prop}

/-- Where nothing is reported, nothing may have been divided by zero. -/
theorem tells_of_eq (same : last.diagnostics = first.diagnostics) (whole : ¬divides) :
    first.Tells last divides := by
  refine ⟨[], by rw [same, List.append_nil], ?_⟩
  constructor
  · rintro ⟨report, ⟨⟩, -⟩
  · exact fun divides => absurd divides whole

theorem Tells.trans (early : first.Tells middle divides) (late : middle.Tells last divides') :
    first.Tells last (divides ∨ divides') := by
  rcases early with ⟨found, reports, tells⟩
  rcases late with ⟨more, reports', tells'⟩
  refine ⟨found ++ more, by rw [reports', reports, List.append_assoc], ?_⟩
  simp only [List.mem_append, or_and_right, exists_or, tells, tells']

end Console

namespace Machine

variable {machine lenient : Machine} {console : Console} {program : Program}

theorem execute_tells (lenient : machine.config.strict = false) (console : Console)
    (instruction : Instruction) :
    console.Tells (machine.execute console instruction).2 (∃ target left right,
      instruction = .binary target .div left right ∧
        (right.value machine.store).toInt64 = 0) := by
  cases instruction with
  | binary target op left right =>
      cases applied : op.apply (left.value machine.store) (right.value machine.store) with
      | some value =>
          apply Console.tells_of_eq
          · simp only [execute, applied]
          · rintro ⟨target', left', right', ⟨⟩, zero⟩
            rw [(BinaryOp.apply_eq_none_iff _ _ _).mpr ⟨rfl, zero⟩] at applied
            cases applied
      | none =>
          rcases (op.apply_eq_none_iff _ _).mp applied with ⟨rfl, zero⟩
          refine ⟨[Point.divisionReport (.binary target .div left right) machine.counter], ?_, ?_⟩
          · simp only [execute, applied, lenient]
            exact Array.toList_push
          · constructor
            · intro _
              exact ⟨target, left, right, rfl, zero⟩
            · intro _
              exact ⟨_, List.mem_singleton_self _, Point.tellsDivision_divisionReport _ _⟩
  | scan conversion target =>
      rcases asked : console.request (conversion.prompt target) with ⟨answer, console'⟩
      have before : console'.diagnostics = console.diagnostics := by
        rw [← console.diagnostics_request (conversion.prompt target), asked]
      refine ⟨(conversion.read target answer).2.toList, ?_, ?_⟩
      · simp only [execute, asked]
        rw [Console.diagnostics_report, before]
      · constructor
        · rintro ⟨report, found, tells⟩
          exact absurd tells (Conversion.not_tellsDivision (Option.mem_toList.mp found))
        · rintro ⟨target', left, right, ⟨⟩, -⟩
  | jumpUnless condition label =>
      apply Console.tells_of_eq
      · simp only [execute]
        split <;> rfl
      · rintro ⟨target, left, right, ⟨⟩, -⟩
  | _ =>
      apply Console.tells_of_eq rfl
      rintro ⟨target, left, right, ⟨⟩, -⟩

/-- What a lenient machine reports in a round tells whether it divides by zero. -/
theorem step_tells (lenient : machine.config.strict = false) (console : Console) :
    console.Tells (machine.step console).2 (∃ index, machine.DividesByZero index) := by
  by_cases executes : machine.Executes
  · rcases executes.exists_instruction with ⟨instruction, here⟩
    have same : (machine.step console).2 = (machine.execute console instruction).2 := by
      rcases executed : machine.execute console instruction with ⟨fault | next, console'⟩
      · rw [step_of_error executes here executed]
      · rw [step_of_ok executes here executed]
    rcases execute_tells lenient console instruction with ⟨found, reports, tells⟩
    refine ⟨found, by rw [same, reports], tells.trans ?_⟩
    constructor
    · rintro ⟨target, left, right, rfl, zero⟩
      exact ⟨_, executes, rfl, target, left, right, here, zero⟩
    · rintro ⟨index, -, rfl, target, left, right, there, zero⟩
      rw [here, Option.some.injEq] at there
      exact ⟨target, left, right, there, zero⟩
  · apply Console.tells_of_eq
    · by_cases running : machine.state = .running
      · rcases step_of_not_executes running executes with ⟨state, -, stops⟩
        rw [stops]
      · rw [step_of_stopped running]
    · rintro ⟨index, executes', -⟩
      exact executes executes'

/-- What a lenient machine reports in a run tells whether it divides by zero. -/
theorem runFor_tells (lenient : machine.config.strict = false) (rounds : Nat)
    (console : Console) :
    console.Tells (machine.runFor rounds console).2 (∃ earlier < rounds, ∃ index,
      (machine.runFor earlier console).1.DividesByZero index) := by
  induction rounds with
  | zero =>
      apply Console.tells_of_eq rfl
      rintro ⟨earlier, none, -⟩
      exact Nat.not_lt_zero earlier none
  | succ rounds ih =>
      have lenient' : (machine.runFor rounds console).1.config.strict = false := by
        rw [config_runFor, lenient]
      have both := ih.trans (step_tells lenient' (machine.runFor rounds console).2)
      rw [← runFor_succ_last] at both
      simpa only [Nat.lt_succ_iff_lt_or_eq, or_and_right, exists_or, exists_eq_left] using both

/-- What a lenient machine has reported when it halts tells whether it has divided by zero. -/
theorem Halts.tells_iff (lenient : machine.config.strict = false) {answers : List String}
    {store : Table Value} {last : Console}
    (halts : machine.Halts (.ofAnswers answers) store last) :
    (∃ report ∈ last.diagnostics.toList, report.TellsDivision) ↔ ∃ rounds index,
      (machine.runFor rounds (.ofAnswers answers)).1.DividesByZero index := by
  rcases halts with ⟨rounds, machine', ran, halted, -⟩
  rcases runFor_tells lenient rounds (.ofAnswers answers) with ⟨found, reports, tells⟩
  rw [ran] at reports
  rw [reports, show (Console.ofAnswers answers).diagnostics.toList ++ found = found from rfl, tells]
  constructor
  · rintro ⟨earlier, -, index, divides⟩
    exact ⟨earlier, index, divides⟩
  · rintro ⟨earlier, index, divides⟩
    refine ⟨earlier, ?_, index, divides⟩
    apply Nat.lt_of_not_le
    intro later
    rcases Nat.exists_eq_add_of_le later with ⟨more, rfl⟩
    have running := divides.1.1
    rw [runFor_add, ran, runFor_of_stopped (by simp [halted]), halted] at running
    cases running

/-- A strict machine does not halt where the lenient one divides by zero. -/
theorem not_halts_of_divides (loaded : load program ⟨false, none⟩ = .ok lenient)
    {rounds index : Nat} {store : Table Value} {last : Console}
    (divides : (lenient.runFor rounds console).1.DividesByZero index) :
    ¬(lenient.withConfig ⟨true, none⟩).Halts console store last := by
  classical
  rintro ⟨enough, machine', ran, halted, -⟩
  have dividing : ∃ rounds index, (lenient.runFor rounds console).1.DividesByZero index :=
    ⟨rounds, index, divides⟩
  rcases Nat.find_spec dividing with ⟨index, divides⟩
  have before : (lenient.withConfig ⟨true, none⟩).runFor (Nat.find dividing) console = _ :=
    runFor_withConfig fun earlier small =>
      agrees_strict loaded fun index divides => Nat.find_min dividing small ⟨index, divides⟩
  have faulted := runFor_succ_last (Nat.find dividing) (lenient.withConfig ⟨true, none⟩) console
  rw [before, step_of_divides rfl (dividesByZero_strict loaded divides)] at faulted
  have same := runFor_unique faulted (by simp) ran (by simp [halted])
  rcases Prod.mk.inj same with ⟨rfl, -⟩
  cases halted

/-- A strict machine without a limit halts where the lenient one does and tells of no division. -/
theorem halts_strict_iff (loaded : load program ⟨false, none⟩ = .ok lenient)
    {answers : List String} {store : Table Value} {last : Console} :
    (lenient.withConfig ⟨true, none⟩).Halts (.ofAnswers answers) store last ↔
      lenient.Halts (.ofAnswers answers) store last ∧
        ¬∃ report ∈ last.diagnostics.toList, report.TellsDivision := by
  have isLenient : lenient.config.strict = false := by rw [config_load loaded]
  have same (spares : ∀ rounds index,
      ¬(lenient.runFor rounds (.ofAnswers answers)).1.DividesByZero index) (rounds : Nat) :
      (lenient.withConfig ⟨true, none⟩).runFor rounds (.ofAnswers answers) =
        ((lenient.runFor rounds (.ofAnswers answers)).1.withConfig ⟨true, none⟩,
          (lenient.runFor rounds (.ofAnswers answers)).2) :=
    runFor_withConfig fun earlier _ => agrees_strict loaded (spares earlier)
  constructor
  · intro halts
    have spares : ∀ rounds index,
        ¬(lenient.runFor rounds (.ofAnswers answers)).1.DividesByZero index :=
      fun _ _ divides => not_halts_of_divides loaded divides halts
    have halts' : lenient.Halts (.ofAnswers answers) store last := by
      rcases halts with ⟨rounds, machine', ran, halted, stored⟩
      rw [same spares rounds, Prod.mk.injEq] at ran
      rcases ran with ⟨rfl, rfl⟩
      exact ⟨rounds, _, rfl, halted, stored⟩
    refine ⟨halts', ?_⟩
    rw [halts'.tells_iff isLenient]
    rintro ⟨rounds, index, divides⟩
    exact spares rounds index divides
  · rintro ⟨halts, silent⟩
    rw [halts.tells_iff isLenient] at silent
    rcases halts with ⟨rounds, machine', ran, halted, stored⟩
    refine ⟨rounds, machine'.withConfig ⟨true, none⟩, ?_, halted, stored⟩
    rw [same (fun rounds index divides => silent ⟨rounds, index, divides⟩), ran]

/-- Where a machine halts if another one does and tells of a division if that one does, the same
holds of them as strict machines. -/
theorem exists_halts_strict {machine' : Machine} {program' : Program} {answers : List String}
    (loaded : load program ⟨false, none⟩ = .ok machine)
    (loaded' : load program' ⟨false, none⟩ = .ok machine')
    (onward : (∃ store last, machine.Halts (.ofAnswers answers) store last) →
      ∃ store' last', machine'.Halts (.ofAnswers answers) store' last')
    (tells : ∀ store last store' last', machine.Halts (.ofAnswers answers) store last →
      machine'.Halts (.ofAnswers answers) store' last' →
        (∃ report ∈ last'.diagnostics.toList, report.TellsDivision) →
          ∃ report ∈ last.diagnostics.toList, report.TellsDivision) :
    (∃ store last, (machine.withConfig ⟨true, none⟩).Halts (.ofAnswers answers) store last) →
      ∃ store' last',
        (machine'.withConfig ⟨true, none⟩).Halts (.ofAnswers answers) store' last' := by
  rintro ⟨store, last, halts⟩
  rcases (halts_strict_iff loaded).mp halts with ⟨halts, silent⟩
  rcases onward ⟨store, last, halts⟩ with ⟨store', last', halts'⟩
  exact ⟨store', last', (halts_strict_iff loaded').mpr
    ⟨halts', fun told => silent (tells _ _ _ _ halts halts' told)⟩⟩

end Machine

/-- Whether a warning is told as a division by zero does not depend on the program. -/
theorem Reports.tellsDivision_iff {program program' : Program} {warning : Warning}
    {report report' : Diagnostic} (reports : Reports program warning report)
    (reports' : Reports program' warning report') :
    report.TellsDivision ↔ report'.TellsDivision := by
  cases reports with
  | divisionByZero here =>
      cases reports' with
      | divisionByZero here' =>
          exact iff_of_true (Point.tellsDivision_divisionReport _ _)
            (Point.tellsDivision_divisionReport _ _)
  | answer problem =>
      cases reports'
      rfl

/-- Consoles that show one scene tell of the same divisions. -/
theorem Mirrors.tells_iff {program program' : Program} {scene : Scene}
    {store store' : Table Value} {console console' : Console}
    (mirrors : Mirrors program scene store console)
    (mirrors' : Mirrors program' scene store' console') :
    (∃ report ∈ console.diagnostics.toList, report.TellsDivision) ↔
      ∃ report ∈ console'.diagnostics.toList, report.TellsDivision := by
  have told := mirrors.warnings
  have told' := mirrors'.warnings
  generalize scene.warnings = warnings at told told'
  generalize console.diagnostics.toList = found at told
  generalize console'.diagnostics.toList = found' at told'
  induction told generalizing found' with
  | nil =>
      cases told'
      rfl
  | cons reports others ih =>
      cases told' with
      | cons reports' others' =>
          simp only [List.exists_mem_cons_iff, reports.tellsDivision_iff reports', ih _ others']

end SubsetC
