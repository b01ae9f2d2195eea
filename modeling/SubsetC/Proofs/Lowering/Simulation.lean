import SubsetC.Proofs.Lowering.Layout

/-!
# Programs do what trees mean

Where a tree runs, the machine follows: `leads_of_runs` goes by the rules of `Stmt.Runs` and ends at
the end of the statement's code or at the label of returns. Where the machine halts, the tree runs:
`runs_of_haltsIn` is an induction on the rounds that are left, and in it one on the code, for a loop
comes to its own start again and only the rounds get fewer.
-/

namespace SubsetC

open Instruction Lowering Session

/-- Where a program goes on: at the end of the statement, or where returns lead to. -/
def Outcome.place (finish exit : Nat) : Outcome → Nat
  | finished => finish
  | left => exit

variable {program : Program} {labels : LabelTable} {exit place : Nat} {before after : State}
  {code : List Instruction} {stmt : Stmt} {scene scene' : Scene} {point : Point}

/-- What comes behind the end of a statement is not reached by a return. -/
theorem Leads.finish {rounds finish next : Nat} {outcome : Outcome}
    (leads : Leads program labels rounds point (outcome.place finish exit) scene)
    (flows : Flows program labels finish next) :
    ∃ rounds, Leads program labels rounds point (outcome.place next exit) scene := by
  cases outcome with
  | finished =>
      rcases leads with ⟨middle, reached, shows⟩
      rcases flows scene middle shows with ⟨late, last, reached', shows'⟩
      exact ⟨rounds + late, last, reached.trans reached', shows'⟩
  | left => exact ⟨rounds, leads⟩

namespace Embedded

section Leaves

variable {span : Span}

/-- An output statement prints what stands before the value, the value and what stands behind it. -/
theorem leads_print {format : String} {argument : Option Identifier}
    (embedded : Embedded program labels exit place before (.print format argument span) code after)
    (shows : Shows program place scene point) :
    ∃ rounds, Leads program labels rounds point (place + code.length)
      (scene.print format argument) := by
  rcases embedded with ⟨emits, fresh, -, held, -⟩
  rw [Stmt.vars_print] at fresh
  cases emits with
  | print state format argument span =>
      revert held
      unfold Lowering.print Scene.print
      split
      · rename_i error parsed
        intro held
        simp only [parsed]
        exact ⟨0, .refl shows⟩
      · rename_i text behind parsed
        intro held
        simp only [parsed]
        exact ⟨_, leads_printText held shows⟩
      · rename_i text conversion behind source parsed
        intro held
        simp only [parsed]
        change program.Holds place (Lowering.printText text ++ [.print conversion source.name] ++
          Lowering.printText behind) at held
        rw [Program.holds_append, Program.holds_append, Program.holds_cons, List.length_append,
          List.length_singleton, ← Nat.add_assoc] at held
        rcases held with ⟨⟨textHeld, here, -⟩, behindHeld⟩
        have lasting : ¬IsTemporary source.name := fresh source.name (List.mem_singleton_self _)
        have leads : Leads program labels _ point _ _ :=
          ((leads_printText textHeld shows).trans fun _ => leads_value here lasting).trans
            fun _ => leads_printText behindHeld
        have ends : place + (Lowering.printText text).length + 1 +
            (Lowering.printText behind).length = place + (Lowering.printText text ++
              [Instruction.print conversion source.name] ++ Lowering.printText behind).length := by
          simp only [List.length_append, List.length_singleton, Nat.add_assoc]
        rw [ends, Scene.read_emitText] at leads
        exact ⟨_, leads⟩
      · rename_i text conversion behind parsed
        intro held
        simp only [parsed]
        exact ⟨0, .refl shows⟩
      · rename_i text behind source parsed
        intro held
        simp only [parsed]
        exact ⟨0, .refl shows⟩

theorem leads_scan {format : String} {target : Identifier}
    (embedded : Embedded program labels exit place before (.scan format target span) code after)
    (shows : Shows program place scene point) :
    ∃ rounds, Leads program labels rounds point (place + code.length)
      (scene.scan format target) := by
  rcases embedded with ⟨emits, -, -, held, -⟩
  cases emits with
  | scan state format target span =>
      revert held
      unfold Lowering.scan Scene.scan
      split
      · rename_i error parsed
        intro held
        simp only [parsed]
        exact ⟨0, .refl shows⟩
      · rename_i text conversion behind parsed
        intro held
        simp only [parsed]
        rcases shows with ⟨rfl, mirrors⟩
        exact ⟨1, _, Point.reaches_scan held.1, rfl, mirrors.request conversion target.name⟩
      · rename_i text behind parsed
        intro held
        simp only [parsed]
        exact ⟨0, .refl shows⟩

/-- A return without a value leads to the label of returns. -/
theorem leads_leaveNone
    (embedded : Embedded program labels exit place before (.leave none span) code after)
    (shows : Shows program place scene point) :
    ∃ rounds, Leads program labels rounds point exit scene := by
  rcases embedded with ⟨emits, -, -, held, exits⟩
  cases emits with
  | leaveNone state span => exact flows_jump held.1 (exits _ (exit_exitLabel _)) scene point shows

/-- A return leads to the label of returns once its value has been computed. -/
theorem leads_leaveSome {value : Expr}
    (embedded : Embedded program labels exit place before (.leave (some value) span) code after)
    (shows : Shows program place scene point) :
    ∃ rounds, Leads program labels rounds point exit (value.evaluate scene).2 := by
  rcases embedded with ⟨emits, fresh, room, held, exits⟩
  have valueFresh : ∀ name ∈ value.vars, ¬IsTemporary name := by
    simpa using fresh
  have valueRoom : before.session.temporaries.toNat + value.operators < 2 ^ 32 := by
    simpa using room
  cases emits with
  | leaveSome computes =>
      rw [Program.holds_append, Program.holds_cons] at held
      rcases held with ⟨valueHeld, here, -⟩
      have computed : Leads program labels _ point _ _ :=
        leads_computed computes valueFresh valueRoom valueHeld shows
      rcases computed with ⟨middle, reached, shows'⟩
      rcases flows_jump here (exits _ (exit_exitLabel _)) _ _ shows' with
        ⟨rounds, last, reached', shows''⟩
      exact ⟨_, last, reached.trans reached', shows''⟩

end Leaves

end Embedded

/-- Where a statement runs, the machine follows. -/
theorem leads_of_runs (fits : labels.Fits program) {outcome : Outcome}
    (runs : stmt.Runs scene outcome scene')
    (embedded : Embedded program labels exit place before stmt code after)
    (shows : Shows program place scene point) :
    ∃ rounds, Leads program labels rounds point (outcome.place (place + code.length) exit)
      scene' := by
  induction runs generalizing place before code after point with
  | function bodyRuns ih => exact ih embedded.function shows
  | blockNil span scene =>
      rcases embedded with ⟨emits, -, -, -, -⟩
      cases emits with
      | blockNil => exact ⟨0, .refl shows⟩
  | blockCons firstRuns restRuns ihFirst ihRest =>
      rcases embedded.cons with ⟨middle, firstCode, restCode, rfl, first, rest⟩
      rw [List.length_append, ← Nat.add_assoc]
      rcases ihFirst first shows with ⟨early, between, reached, shows'⟩
      rcases ihRest rest shows' with ⟨late, last, reached', shows''⟩
      exact ⟨early + late, last, reached.trans reached', shows''⟩
  | blockLeft firstRuns ihFirst =>
      rcases embedded.cons with ⟨middle, firstCode, restCode, rfl, first, rest⟩
      rcases ihFirst first shows with ⟨rounds, leads⟩
      exact ⟨rounds, leads⟩
  | declare type name span scene =>
      rcases embedded with ⟨emits, -, -, -, -⟩
      cases emits with
      | declare => exact ⟨0, .refl shows⟩
  | define type target value span scene =>
      rcases embedded with ⟨emits, fresh, room, held, -⟩
      rw [Stmt.vars_define, List.forall_mem_cons] at fresh
      cases emits with
      | define computes =>
          rw [List.length_append, List.length_singleton]
          exact ⟨_, leads_assign computes fresh.2 room held shows⟩
  | assign target value span scene =>
      rcases embedded with ⟨emits, fresh, room, held, -⟩
      rw [Stmt.vars_assign, List.forall_mem_cons] at fresh
      cases emits with
      | assign computes =>
          rw [List.length_append, List.length_singleton]
          exact ⟨_, leads_assign computes fresh.2 room held shows⟩
  | ifThenTrue holds bodyRuns ih =>
      rcases embedded.ifThen fits with ⟨start, tested, bodyCode, bodyEmbedded, branches, finishes⟩
      rcases branches.true holds shows with ⟨early, -, between, reached, shows'⟩
      rcases ih bodyEmbedded shows' with ⟨late, last, reached', shows''⟩
      exact Leads.finish ⟨last, reached.trans reached', shows''⟩ finishes
  | ifThenFalse fails =>
      rcases embedded.ifThen fits with ⟨start, tested, bodyCode, bodyEmbedded, branches, finishes⟩
      rcases branches.false fails shows with ⟨rounds, -, leads⟩
      exact ⟨rounds, leads⟩
  | ifElseTrue holds bodyRuns ih =>
      rcases embedded.ifElse fits with
        ⟨start, tested, bodyCode, middle, other, otherCode, bodyEmbedded, -, branches, finishes, -⟩
      rcases branches.true holds shows with ⟨early, -, between, reached, shows'⟩
      rcases ih bodyEmbedded shows' with ⟨late, last, reached', shows''⟩
      exact Leads.finish ⟨last, reached.trans reached', shows''⟩ finishes
  | ifElseFalse fails otherwiseRuns ih =>
      rcases embedded.ifElse fits with
        ⟨start, tested, bodyCode, middle, other, otherCode, -, otherEmbedded, branches, -, finishes⟩
      rcases branches.false fails shows with ⟨early, -, between, reached, shows'⟩
      rcases ih otherEmbedded shows' with ⟨late, last, reached', shows''⟩
      exact Leads.finish ⟨last, reached.trans reached', shows''⟩ finishes
  | loopTrue holds bodyRuns againRuns ihBody ihAgain =>
      rcases embedded.loop fits with ⟨start, tested, bodyCode, bodyEmbedded, branches, again⟩
      rcases branches.true holds shows with ⟨early, -, first, reached, shows'⟩
      rcases ihBody bodyEmbedded shows' with ⟨inner, second, around, shows''⟩
      rcases again _ second shows'' with ⟨back, third, returned, shown⟩
      rcases ihAgain embedded shown with ⟨late, last, reached', ends⟩
      exact ⟨_, last, ((reached.trans around).trans returned).trans reached', ends⟩
  | loopLeft holds bodyRuns ih =>
      rcases embedded.loop fits with ⟨start, tested, bodyCode, bodyEmbedded, branches, again⟩
      rcases branches.true holds shows with ⟨early, -, between, reached, shows'⟩
      rcases ih bodyEmbedded shows' with ⟨late, last, reached', shows''⟩
      exact ⟨early + late, last, reached.trans reached', shows''⟩
  | loopFalse fails =>
      rcases embedded.loop fits with ⟨start, tested, bodyCode, bodyEmbedded, branches, again⟩
      rcases branches.false fails shows with ⟨rounds, -, leads⟩
      exact ⟨rounds, leads⟩
  | print format argument span scene => exact embedded.leads_print shows
  | scan format target span scene => exact embedded.leads_scan shows
  | leaveNone span scene => exact embedded.leads_leaveNone shows
  | leaveSome value span scene => exact embedded.leads_leaveSome shows

theorem haltsIn_of_leads {early rounds : Nat}
    (leads : Leads program labels early point place scene)
    (halts : Point.HaltsIn program labels rounds point) :
    ∃ last, Shows program place scene last ∧
      early < rounds ∧ Point.HaltsIn program labels (rounds - early) last := by
  rcases leads with ⟨last, reached, shows⟩
  exact ⟨last, shows, Point.haltsIn_of_reaches reached halts⟩

/-- Where the machine halts, the statement runs. -/
theorem runs_of_haltsIn (fits : labels.Fits program) {limit rounds : Nat} (fewer : rounds < limit)
    (embedded : Embedded program labels exit place before stmt code after)
    (shows : Shows program place scene point) (halts : Point.HaltsIn program labels rounds point) :
    ∃ outcome scene', stmt.Runs scene outcome scene' := by
  -- Parts of a statement are smaller. Only a loop that goes around comes back to itself, with fewer
  -- rounds left.
  induction limit generalizing rounds place before stmt code after scene point with
  | zero => omega
  | succ limit ihLimit =>
      induction stmt using Stmt.nestedInduction generalizing rounds place before code after scene
        point with
      | function type name body span ih =>
          rcases ih fewer embedded.function shows halts with ⟨outcome, scene', runs⟩
          exact ⟨outcome, scene', .function runs⟩
      | blockNil span => exact ⟨.finished, scene, .blockNil span scene⟩
      | blockCons first rest span ihFirst ihRest =>
          rcases embedded.cons with
            ⟨middle, firstCode, restCode, rfl, firstEmbedded, restEmbedded⟩
          rcases ihFirst fewer firstEmbedded shows halts with ⟨outcome, scene', firstRuns⟩
          cases outcome with
          | finished =>
              rcases leads_of_runs fits firstRuns firstEmbedded shows with ⟨early, leads⟩
              rcases haltsIn_of_leads leads halts with ⟨between, shows', -, later⟩
              rcases ihRest (by omega) restEmbedded shows' later with ⟨outcome, last, restRuns⟩
              exact ⟨outcome, last, .blockCons firstRuns restRuns⟩
          | left => exact ⟨.left, scene', .blockLeft firstRuns⟩
      | declare type name span => exact ⟨.finished, scene, .declare type name span scene⟩
      | define type target value span =>
          exact ⟨.finished, _, .define type target value span scene⟩
      | assign target value span => exact ⟨.finished, _, .assign target value span scene⟩
      | ifThen condition body span ih =>
          rcases embedded.ifThen fits with
            ⟨start, tested, bodyCode, bodyEmbedded, branches, -⟩
          cases holds : (condition.evaluate scene).1.isTruthy with
          | false => exact ⟨.finished, _, .ifThenFalse holds⟩
          | true =>
              rcases branches.true holds shows with ⟨early, -, leads⟩
              rcases haltsIn_of_leads leads halts with ⟨between, shows', -, later⟩
              rcases ih (by omega) bodyEmbedded shows' later with ⟨outcome, last, bodyRuns⟩
              exact ⟨outcome, last, .ifThenTrue holds bodyRuns⟩
      | ifElse condition body otherwise span ihBody ihOtherwise =>
          rcases embedded.ifElse fits with ⟨start, tested, bodyCode, middle, other, otherCode,
            bodyEmbedded, otherEmbedded, branches, -, -⟩
          cases holds : (condition.evaluate scene).1.isTruthy with
          | false =>
              rcases branches.false holds shows with ⟨early, -, leads⟩
              rcases haltsIn_of_leads leads halts with ⟨between, shows', -, later⟩
              rcases ihOtherwise (by omega) otherEmbedded shows' later with
                ⟨outcome, last, otherwiseRuns⟩
              exact ⟨outcome, last, .ifElseFalse holds otherwiseRuns⟩
          | true =>
              rcases branches.true holds shows with ⟨early, -, leads⟩
              rcases haltsIn_of_leads leads halts with ⟨between, shows', -, later⟩
              rcases ihBody (by omega) bodyEmbedded shows' later with ⟨outcome, last, bodyRuns⟩
              exact ⟨outcome, last, .ifElseTrue holds bodyRuns⟩
      | loop condition body span ih =>
          rcases embedded.loop fits with ⟨start, tested, bodyCode, bodyEmbedded, branches, again⟩
          cases holds : (condition.evaluate scene).1.isTruthy with
          | false => exact ⟨.finished, _, .loopFalse holds⟩
          | true =>
              rcases branches.true holds shows with ⟨early, positive, leads⟩
              rcases haltsIn_of_leads leads halts with ⟨between, shows', sooner, later⟩
              rcases ih (by omega) bodyEmbedded shows' later with ⟨outcome, scene', bodyRuns⟩
              cases outcome with
              | left => exact ⟨.left, scene', .loopLeft holds bodyRuns⟩
              | finished =>
                  rcases leads_of_runs fits bodyRuns bodyEmbedded shows' with ⟨inner, around⟩
                  rcases haltsIn_of_leads around later with ⟨second, shows'', sooner', latest⟩
                  rcases again scene' second shows'' with ⟨back, returned⟩
                  rcases haltsIn_of_leads returned latest with ⟨third, shown, sooner'', left⟩
                  -- The same statement once more, but the test has taken a round.
                  rcases ihLimit (by omega) embedded shown left with ⟨outcome, last, againRuns⟩
                  exact ⟨outcome, last, .loopTrue holds bodyRuns againRuns⟩
      | print format argument span =>
          exact ⟨.finished, _, .print format argument span scene⟩
      | scan format target span => exact ⟨.finished, _, .scan format target span scene⟩
      | leave value span =>
          cases value with
          | none => exact ⟨.left, scene, .leaveNone span scene⟩
          | some value => exact ⟨.left, _, .leaveSome value span scene⟩

end SubsetC
