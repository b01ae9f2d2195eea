import Mathlib.Order.Bounds.Basic
import SubsetC.Proofs.Machine.Labels

/-!
# Label tables are exact

The table of a program has the labels of the program and nothing else, each at the place that a
search for it finds. `define_cases` says how far code can be entered: to its end, or to the first
instruction that defines a label again. `undefined?_eq_some` says the same of the jumps. A program
has no table for one of these two reasons, and the first of them goes before the second.
-/

namespace SubsetC

open Instruction

namespace Instruction

/-- The instruction defines the label. -/
def defines (label : String) (instruction : Instruction) : Bool :=
  instruction.label? == some label

/-- The label that is defined at the index has been defined before. -/
def Repeats (code : List Instruction) (index : Nat) : Prop :=
  ∃ label, code[index]? = some (.label label) ∧
    ∃ earlier < index, code[earlier]? = some (.label label)

/-- The jump at the index leads to a label that is not defined. -/
def Strays (code : List Instruction) (index : Nat) : Prop :=
  ∃ instruction label, code[index]? = some instruction ∧ instruction.jumpTarget? = some label ∧
    label ∉ labelsOf code

theorem defines_iff {label : String} {instruction : Instruction} :
    instruction.defines label ↔ instruction = .label label := by
  cases instruction <;> simp [defines, label?]

/-- A search finds the first definition. -/
theorem isLeast_of_findIdx? {code : List Instruction} {label : String} {index : Nat}
    (found : code.findIdx? (defines label) = some index) :
    IsLeast {index | code[index]? = some (.label label)} index := by
  rcases List.findIdx?_eq_some_iff_getElem.mp found with ⟨inside, here, before⟩
  constructor
  · rw [Set.mem_ofPred_eq, List.getElem?_eq_getElem inside, defines_iff.mp here]
  · intro other there
    by_contra earlier
    rcases List.getElem?_eq_some_iff.mp there with ⟨small, same⟩
    exact before other (by omega) (defines_iff.mpr same)

theorem findIdx?_eq_none {code : List Instruction} {label : String} :
    code.findIdx? (defines label) = none ↔ label ∉ labelsOf code := by
  simp only [List.findIdx?_eq_none_iff, ← Bool.not_eq_true, defines_iff, mem_labelsOf]
  constructor
  · intro absent present
    exact absent _ present rfl
  · rintro absent instruction present rfl
    exact absent present

/-- Labels are distinct if none of them is defined again. -/
theorem nodup_labelsOf_iff {code : List Instruction} :
    (labelsOf code).Nodup ↔ ∀ index, ¬Repeats code index := by
  rw [List.Nodup, labelsOf, List.pairwise_filterMap, List.pairwise_iff_getElem]
  constructor
  · rintro distinct late ⟨label, there, early, before, here⟩
    rcases List.getElem?_eq_some_iff.mp here with ⟨small, first⟩
    rcases List.getElem?_eq_some_iff.mp there with ⟨small', second⟩
    exact distinct early late small small' before label (by simp [first, label?]) label
      (by simp [second, label?]) rfl
  · rintro single early late small small' before label first _ second rfl
    have here := eq_label_of_label? first
    have there := eq_label_of_label? second
    exact single late ⟨label, by simp [small', there], early, before, by simp [small, here]⟩

theorem repeats_take {code : List Instruction} {count index : Nat} :
    Repeats (code.take count) index ↔ index < count ∧ Repeats code index := by
  simp only [Repeats, List.getElem?_take]
  grind

end Instruction

namespace LabelTable

/-- The labels of the code have been entered, each of them once. -/
structure Enters (places : Table Nat) (code : List Instruction) : Prop where
  found : ∀ label, places.get? label = code.findIdx? (defines label)
  size : places.size = (labelsOf code).length
  distinct : (labelsOf code).Nodup

theorem size_set {places : Table Nat} {label : String} (index : Nat)
    (free : places.get? label = none) : (places.set label index).size = places.size + 1 := by
  rcases places with ⟨entries⟩
  simp only [Table.get?, Table.set, Table.size] at free ⊢
  induction entries with
  | nil => simp [Table.put]
  | cons entry entries ih =>
      rcases entry with ⟨key, value⟩
      by_cases same : key = label
      · simp [Table.find?, same] at free
      · simp only [Table.find?, same, if_false] at free
        simp [Table.put, same, ih free]

namespace Enters

variable {places : Table Nat} {code : List Instruction} {instruction : Instruction} {label : String}

theorem empty : Enters .empty [] :=
  ⟨fun _ => rfl, rfl, List.nodup_nil⟩

theorem skip (enters : Enters places code) (plain : instruction.label? = none) :
    Enters places (code ++ [instruction]) where
  found := by simp [enters.found, List.findIdx?_append, defines, plain]
  size := by simp [enters.size, plain]
  distinct := by simpa [plain] using enters.distinct

/-- A label that has no place yet gets the next one. -/
theorem set (enters : Enters places code) (defined : instruction.label? = some label)
    (free : places.get? label = none) :
    Enters (places.set label code.length) (code ++ [instruction]) where
  found := by
    intro other
    rw [Table.get?_set, enters.found, List.findIdx?_append]
    by_cases same : label = other
    · subst same
      rw [enters.found] at free
      simp [free, List.findIdx?_cons, defines, defined]
    · simp [List.findIdx?_cons, defines, defined, same]
  size := by simp [size_set _ free, enters.size, defined]
  distinct := by
    rw [enters.found, findIdx?_eq_none] at free
    rw [labelsOf_append, List.nodup_append]
    refine ⟨enters.distinct, by simp [defined], ?_⟩
    rintro early present late last rfl
    simp only [labelsOf_cons, defined, Option.toList_some, labelsOf_nil, List.append_nil,
      List.mem_singleton] at last
    exact free (last ▸ present)

end Enters

/-- Code is entered behind other code to its end, or up to the first label that has a place. -/
theorem define_cases {places : Table Nat} {early : List Instruction} (late : List Instruction)
    (enters : Enters places early) :
    (∃ places', define places early.length late = .ok places' ∧
      Enters places' (early ++ late)) ∨
    ∃ label first second,
      define places early.length late = .error (.duplicateLabel label first second) ∧
        (early ++ late)[second]? = some (.label label) ∧
        IsLeast {index | Repeats (early ++ late) index} second ∧
        IsLeast {index | (early ++ late)[index]? = some (.label label)} first := by
  induction late generalizing places early with
  | nil =>
      rw [List.append_nil]
      exact .inl ⟨places, rfl, enters⟩
  | cons instruction late ih =>
      have next : early ++ instruction :: late = (early ++ [instruction]) ++ late := by simp
      have index : early.length + 1 = (early ++ [instruction]).length := by simp
      rw [next]
      cases defined : instruction.label? with
      | none =>
          simp only [define, defined]
          rw [index]
          exact ih (enters.skip defined)
      | some label =>
          simp only [define, defined]
          cases known : places.get? label with
          | none =>
              rw [index]
              exact ih (enters.set defined known)
          | some first =>
              right
              rw [enters.found] at known
              have least := isLeast_of_findIdx? known
              rcases List.getElem?_eq_some_iff.mp least.1 with ⟨before, -⟩
              have same : instruction = .label label := eq_label_of_label? defined
              have here : ((early ++ [instruction]) ++ late)[early.length]? =
                  some (.label label) := by
                simp [same]
              have within {index : Nat} (small : index < early.length) :
                  ((early ++ [instruction]) ++ late)[index]? = early[index]? := by
                simp [List.getElem?_append, small]
              refine ⟨label, first, early.length, rfl, here, ⟨?_, ?_⟩, ?_, ?_⟩
              · exact ⟨label, here, first, before, (within before).trans least.1⟩
              · intro other repeated
                by_contra earlier
                have distinct : (labelsOf early).Nodup := enters.distinct
                have start : early = ((early ++ [instruction]) ++ late).take early.length := by
                  simp
                rw [start, nodup_labelsOf_iff] at distinct
                exact distinct other (repeats_take.mpr ⟨by omega, repeated⟩)
              · exact (within before).trans least.1
              · intro other there
                by_contra earlier
                rw [Set.mem_ofPred_eq, within (by omega)] at there
                exact earlier (least.2 there)

/-- The fault is that of the first jump to a label without a place. -/
theorem undefined?_eq_some {code : List Instruction} {places : Table Nat} {start : Nat}
    {fault : Fault} (lost : undefined? places start code = some fault) :
    ∃ label offset instruction, fault = .undefinedLabel label (start + offset) ∧
      code[offset]? = some instruction ∧ instruction.jumpTarget? = some label ∧
      places.contains label = false ∧
      ∀ earlier < offset, ∀ other target, code[earlier]? = some other →
        other.jumpTarget? = some target → places.contains target = true := by
  induction code generalizing start with
  | nil => cases lost
  | cons first rest ih =>
      -- Either the fault is here, or the first instruction leads somewhere and it is further on.
      by_cases leads : ∀ target, first.jumpTarget? = some target → places.contains target = true
      · have later : undefined? places (start + 1) rest = some fault := by
          cases jumps : first.jumpTarget? with
          | none => simpa [undefined?, jumps] using lost
          | some target => simpa [undefined?, jumps, leads target jumps] using lost
        rcases ih later with ⟨label, offset, instruction, rfl, here, jumps, absent, before⟩
        refine ⟨label, offset + 1, instruction, by simp; omega, by simpa using here, jumps, absent,
          ?_⟩
        intro earlier small other target there jumps'
        cases earlier with
        | zero =>
            simp only [List.getElem?_cons_zero, Option.some.injEq] at there
            exact leads target (there ▸ jumps')
        | succ earlier => exact before earlier (by omega) other target (by simpa using there) jumps'
      · push Not at leads
        rcases leads with ⟨target, jumps, absent⟩
        simp only [Bool.not_eq_true] at absent
        simp only [undefined?, jumps, absent, Bool.false_eq_true, if_false,
          Option.some.injEq] at lost
        refine ⟨target, 0, first, lost.symm, rfl, jumps, absent, ?_⟩
        intro earlier small
        exact absurd small (Nat.not_lt_zero earlier)

theorem labelIndex?_eq (program : Program) (label : String) :
    program.labelIndex? label = program.instructions.toList.findIdx? (defines label) := by
  rw [← List.findIdx?_toArray, Array.toArray_toList]
  rfl

/-- Labels that have been entered have places, and no others. -/
theorem Enters.contains_iff {places : Table Nat} {code : List Instruction}
    (enters : Enters places code) {label : String} :
    places.contains label = true ↔ label ∈ labelsOf code := by
  rw [Table.contains, enters.found, Option.isSome_iff_ne_none, ne_eq, findIdx?_eq_none, not_not]

/-- What comes of a program: its table, or what is wrong with its labels. -/
inductive Verdict (program : Program) : Except Fault LabelTable → Prop
  | built {places : Table Nat} (enters : Enters places program.instructions.toList)
      (closed : ∀ label ∈ targetsOf program.instructions.toList,
        label ∈ labelsOf program.instructions.toList) :
      Verdict program (.ok ⟨places⟩)
  | repeated {label : String} {first second : Nat}
      (here : program.instructions.toList[second]? = some (.label label))
      (again : IsLeast {index | Repeats program.instructions.toList index} second)
      (origin : IsLeast {index | program.instructions.toList[index]? = some (.label label)} first) :
      Verdict program (.error (.duplicateLabel label first second))
  | strayed {label : String} {index : Nat} {instruction : Instruction}
      (distinct : (labelsOf program.instructions.toList).Nodup)
      (here : program.instructions.toList[index]? = some instruction)
      (jumps : instruction.jumpTarget? = some label)
      (stray : IsLeast {index | Strays program.instructions.toList index} index) :
      Verdict program (.error (.undefinedLabel label index))

theorem verdict_ofProgram (program : Program) : Verdict program (ofProgram program) := by
  unfold ofProgram
  rcases define_cases program.instructions.toList Enters.empty with
    ⟨places, entered, enters⟩ | ⟨label, first, second, entered, here, again, origin⟩
  · rw [List.length_nil] at entered
    rw [List.nil_append] at enters
    simp only [entered]
    cases lost : undefined? places 0 program.instructions.toList with
    | none =>
        apply Verdict.built enters
        intro label jumped
        exact enters.contains_iff.mp (contains_of_undefined? lost label jumped)
    | some fault =>
        rcases undefined?_eq_some lost with
          ⟨label, index, instruction, rfl, here, jumps, absent, before⟩
        have missing : label ∉ labelsOf program.instructions.toList := by
          simp [← enters.contains_iff, absent]
        simp only [Nat.zero_add]
        refine .strayed enters.distinct here jumps ⟨⟨_, _, here, jumps, missing⟩, ?_⟩
        rintro other ⟨instruction, target, there, jumps, lost⟩
        by_contra earlier
        have contained := before other (by omega) instruction target there jumps
        exact lost (enters.contains_iff.mp contained)
  · rw [List.length_nil] at entered
    rw [List.nil_append] at here again origin
    simp only [entered]
    exact .repeated here again origin

/-- A program has a table just if its labels are distinct and its jumps lead to them. The table has
each label, at the place of its definition. If a label is defined twice, the fault is the first
definition of a label that has been defined before, wherever the jumps lead; if none is, the fault
is the first jump to a label that is not defined. -/
theorem ofProgram_exact (program : Program) :
    let code := program.instructions.toList
    ((∃ table, ofProgram program = .ok table) ↔
      (labelsOf code).Nodup ∧ ∀ label ∈ targetsOf code, label ∈ labelsOf code) ∧
    (∀ table, ofProgram program = .ok table →
      table.size = (labelsOf code).length ∧
        ∀ label, table.place? label = program.labelIndex? label) ∧
    (¬(labelsOf code).Nodup → ∃ label first second,
      ofProgram program = .error (.duplicateLabel label first second) ∧
        code[second]? = some (.label label) ∧ IsLeast {index | Repeats code index} second ∧
        IsLeast {index | code[index]? = some (.label label)} first) ∧
    ((labelsOf code).Nodup → (¬∀ label ∈ targetsOf code, label ∈ labelsOf code) →
      ∃ label index instruction, ofProgram program = .error (.undefinedLabel label index) ∧
        code[index]? = some instruction ∧ instruction.jumpTarget? = some label ∧
        IsLeast {index | Strays code index} index) := by
  intro code
  have verdict := verdict_ofProgram program
  generalize ofProgram program = outcome at verdict ⊢
  cases verdict with
  | built enters closed =>
      refine ⟨⟨fun _ => ⟨enters.distinct, closed⟩, fun _ => ⟨_, rfl⟩⟩, ?_, ?_, ?_⟩
      · rintro table ⟨⟩
        refine ⟨enters.size, ?_⟩
        intro label
        rw [labelIndex?_eq]
        exact enters.found label
      · intro repeated
        exact absurd enters.distinct repeated
      · intro _ lost
        exact absurd closed lost
  | repeated here again origin =>
      have repeated : ¬(labelsOf code).Nodup := by
        rw [nodup_labelsOf_iff]
        exact fun single => single _ again.1
      refine ⟨⟨nofun, fun linked => absurd linked.1 repeated⟩, nofun, ?_, ?_⟩
      · intro _
        exact ⟨_, _, _, rfl, here, again, origin⟩
      · intro distinct
        exact absurd distinct repeated
  | strayed distinct here jumps stray =>
      have lost : ¬∀ label ∈ targetsOf code, label ∈ labelsOf code := by
        intro closed
        rcases stray.1 with ⟨instruction, target, there, jumps', missing⟩
        exact missing (closed target
          (List.mem_filterMap.mpr ⟨instruction, List.mem_of_getElem? there, jumps'⟩))
      refine ⟨⟨nofun, fun linked => absurd linked.2 lost⟩, nofun, ?_, ?_⟩
      · intro repeated
        exact absurd distinct repeated
      · intro _ _
        exact ⟨_, _, _, rfl, here, jumps, stray⟩

/-- A loop, a label that is defined twice behind a jump that leads nowhere, and jumps of which the
last two lead nowhere. -/
theorem ofProgram_exact_faults :
    let loop : Program := ⟨#[.label "L1", .jumpUnless (.name "x") "L2", .jump "L1", .label "L2"]⟩
    let again : Program := ⟨#[.jump "L9", .label "L1", .label "L2", .jump "L2", .label "L1"]⟩
    let astray : Program := ⟨#[.label "L1", .jump "L1", .jump "L2", .jump "L3"]⟩
    (∃ table, ofProgram loop = .ok table ∧ table.size = 2 ∧ table.place? "L2" = some 3) ∧
    (ofProgram again = .error (.duplicateLabel "L1" 1 4) ∧
      IsLeast {index | Repeats again.instructions.toList index} 4) ∧
    ofProgram astray = .error (.undefinedLabel "L2" 2) ∧
      IsLeast {index | Strays astray.instructions.toList index} 2 := by
  intro loop again astray
  refine ⟨?_, ?_, ?_⟩
  · rcases (ofProgram_exact loop).1.mpr (by decide) with ⟨table, built⟩
    rcases (ofProgram_exact loop).2.1 table built with ⟨size, places⟩
    exact ⟨table, built, size, (places "L2").trans (by decide +kernel)⟩
  · rcases (ofProgram_exact again).2.2.1 (by decide) with
      ⟨label, first, second, failed, -, least, -⟩
    have found : ofProgram again = .error (.duplicateLabel "L1" 1 4) := by decide
    cases found.symm.trans failed
    exact ⟨found, least⟩
  · rcases (ofProgram_exact astray).2.2.2 (by decide) (by decide) with
      ⟨label, index, instruction, failed, -, -, least⟩
    have found : ofProgram astray = .error (.undefinedLabel "L2" 2) := by decide
    cases found.symm.trans failed
    exact ⟨found, least⟩

end LabelTable

end SubsetC
