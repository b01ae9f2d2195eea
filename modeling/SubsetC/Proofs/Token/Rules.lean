import Mathlib.Data.List.TakeWhile
import SubsetC.Proofs.Token.RoundTrip

/-!
# The rules of the scanner

`Segment.Matches` is the table of rules: which texts are tokens, and which may stand between tokens.
At each place of a source the scanner takes the longest text that a rule matches, and a single
character where no rule matches anything. `IsNext` says so without the scanner, `isNext_scan` that
the scanner does it, and `IsNext.unique` that nothing else would. So a source is cut into segments
in one way only, and so is each part of it that starts and ends between two segments.
-/

namespace SubsetC.Segment

/-- The rules: what a text is. -/
inductive Matches : Role → List Char → Prop where
  | space {text : List Char} (nonempty : text ≠ []) (spaces : ∀ c ∈ text, isSpace c = true) :
      Matches .skipped text
  | newline : Matches .skipped ['\n']
  | lineComment {text : List Char} (sameLine : '\n' ∉ text) :
      Matches .skipped ('/' :: '/' :: text)
  | directive {text : List Char} (sameLine : '\n' ∉ text) : Matches .skipped ('#' :: text)
  | blockComment {body : List Char} (inside : ¬['*', '/'] <:+: body) :
      Matches .skipped ('/' :: '*' :: (body ++ ['*', '/']))
  | unterminated {body : List Char} (inside : ¬['*', '/'] <:+: body) :
      Matches .unterminated ('/' :: '*' :: body)
  | numeral {digits : List Char} {value : Int64} (nonempty : digits ≠ [])
      (isDigit : ∀ c ∈ digits, c.isDigit = true) (same : value.toInt = Decimal.value digits) :
      Matches (.token (.integer value)) digits
  | oversized {digits : List Char} (nonempty : digits ≠ [])
      (isDigit : ∀ c ∈ digits, c.isDigit = true)
      (large : Int64.maxValue.toInt < Decimal.value digits) : Matches .oversized digits
  | spelled {kind : Token.Kind} (written : kind.Written) (other : ∀ value, kind ≠ .integer value) :
      Matches (.token kind) kind.spelling.toList

/-- What the segment is if `after` stands behind it: the longest text that a rule matches, or a
character at which no rule matches anything. -/
inductive IsNext : Segment → (after : List Char) → Prop where
  | longest {role : Role} {text after : List Char} (rule : Matches role text)
      (greatest : ∀ role' text', Matches role' text' → text' <+: text ++ after →
        text'.length ≤ text.length) : IsNext ⟨role, text⟩ after
  | illegal {c : Char} {after : List Char}
      (nothing : ∀ role text, Matches role text → ¬text <+: c :: after) :
      IsNext ⟨.illegal c, [c]⟩ after

theorem scan?_spelling (mark : Symbol) {first : Char} {rest : List Char}
    (spelling : first :: rest = mark.spelling.toList) (more : List Char) :
    ∃ found, Symbol.scan? first (rest ++ more) = some found ∧ rest.length ≤ found.2 := by
  cases mark <;>
    simp only [Symbol.spelling, String.reduceToList, List.cons.injEq] at spelling <;>
    rcases spelling with ⟨rfl, rfl⟩ <;> unfold Symbol.scan? <;> split <;> simp_all

section Comments

theorem commentLength?_append {body : List Char} (inside : ¬['*', '/'] <:+: body)
    (rest : List Char) : commentLength? (body ++ '*' :: '/' :: rest) = some (body.length + 2) := by
  induction body with
  | nil => rfl
  | cons c body ih =>
      have others : ¬['*', '/'] <:+: body := fun within => inside (List.infix_cons within)
      rw [List.cons_append, commentLength?]
      · simp [ih others]
      · -- The end of the comment would start in the body.
        rintro text rfl same
        cases body with
        | nil => simp at same
        | cons d body =>
            simp only [List.cons_append, List.cons.injEq] at same
            apply inside
            rw [same.1]
            exact ⟨[], body, rfl⟩

theorem le_of_commentLength? {body rest : List Char} {length : Nat}
    (inside : ¬['*', '/'] <:+: body) (found : commentLength? (body ++ rest) = some length) :
    body.length ≤ length := by
  induction body generalizing length with
  | nil => simp
  | cons c body ih =>
      have others : ¬['*', '/'] <:+: body := fun within => inside (List.infix_cons within)
      rw [List.cons_append] at found
      unfold commentLength? at found
      split at found
      · cases found
      · rename_i text same
        simp only [List.cons.injEq] at same
        rcases same with ⟨rfl, same⟩
        cases body with
        | nil =>
            cases found
            simp
        | cons d body =>
            simp only [List.cons_append, List.cons.injEq] at same
            refine absurd ?_ inside
            rw [same.1]
            exact ⟨[], body, rfl⟩
      · rename_i same
        cases same
        rcases Option.map_eq_some_iff.mp found with ⟨length', found', rfl⟩
        simpa using ih others found'

theorem exists_body {text : List Char} {length : Nat} (found : commentLength? text = some length) :
    ∃ body, text.take length = body ++ ['*', '/'] ∧ ¬['*', '/'] <:+: body := by
  fun_induction commentLength? text generalizing length with
  | case1 => cases found
  | case2 text =>
      cases found
      exact ⟨[], by simp⟩
  | case3 c text other ih =>
      rcases Option.map_eq_some_iff.mp found with ⟨length', found', rfl⟩
      rcases ih found' with ⟨body, same, inside⟩
      refine ⟨c :: body, by simp [same], ?_⟩
      intro within
      rcases List.infix_cons_iff.mp within with start | within
      · -- Then the slash would stand right behind `c`, and the comment would end there.
        rcases start with ⟨more, start⟩
        simp only [List.cons_append, List.nil_append, List.cons.injEq] at start
        rw [← start.2] at same
        cases text with
        | nil => simp at same
        | cons d text =>
            cases length' with
            | zero => simp at same
            | succ length' =>
                simp only [List.take_succ_cons, List.cons_append, List.cons.injEq] at same
                exact other text start.1.symm (by rw [same.1])
      · exact inside within

theorem not_infix_of_commentLength? {text : List Char} (none : commentLength? text = none) :
    ¬['*', '/'] <:+: text := by
  fun_induction commentLength? text with
  | case1 => simp
  | case2 text => cases none
  | case3 c text other ih =>
      intro within
      rcases List.infix_cons_iff.mp within with start | within
      · rcases start with ⟨more, start⟩
        simp only [List.cons_append, List.nil_append, List.cons.injEq] at start
        exact other more start.1.symm start.2.symm
      · exact ih (Option.map_eq_none_iff.mp none) within

end Comments

section Scan

theorem scan_space {first : Char} (rest : List Char) (space : isSpace first = true) :
    scan first rest = (.skipped, (rest.takeWhile isSpace).length) := by
  simp [scan, space]

theorem scan_newline (rest : List Char) : scan '\n' rest = (.skipped, 0) := rfl

theorem scan_slash (rest : List Char) :
    scan '/' ('/' :: rest) = (.skipped, (('/' :: rest).takeWhile (· ≠ '\n')).length) := rfl

theorem scan_hash (rest : List Char) :
    scan '#' rest = (.skipped, (rest.takeWhile (· ≠ '\n')).length) := rfl

theorem scan_slashStar (rest : List Char) :
    scan '/' ('*' :: rest) =
      match commentLength? rest with
      | some length => (.skipped, length + 1)
      | none => (.unterminated, rest.length + 1) := rfl

/-- The scanner looks for a symbol only where nothing else starts. -/
theorem scan_mark {first : Char} {rest : List Char} {found : Symbol × Nat}
    (plain : isSpace first = false ∧ first ≠ '\n' ∧ first ≠ '#' ∧ first ≠ '/' ∧
      first.isDigit = false ∧ isNameStart first = false ∧ first ≠ '\'' ∧ first ≠ '"')
    (same : Symbol.scan? first rest = some found) :
    scan first rest = (.token (.symbol found.1), found.2) := by
  simp [scan, plain, same]

/-- A slash is a token if it starts no comment. -/
theorem scan_slash_ne_illegal (rest : List Char) (c : Char) :
    (scan '/' rest).1 ≠ .illegal c := by
  have noSpace : isSpace '/' = false := rfl
  have noNameStart : isNameStart '/' = false := by decide
  cases rest with
  | nil => simp [scan, noSpace, noNameStart, Symbol.scan?]
  | cons d rest =>
      by_cases slash : d = '/'
      · simp [slash, scan_slash]
      · by_cases star : d = '*'
        · rw [star, scan_slashStar]
          split <;> simp
        · simp [scan, noSpace, noNameStart, slash, star, Symbol.scan?]

end Scan

theorem length_le_takeWhile {holds : Char → Bool} {text : List Char}
    (all : ∀ c ∈ text, holds c = true) (more : List Char) :
    text.length ≤ ((text ++ more).takeWhile holds).length := by
  simp [List.takeWhile_append_of_pos all]

/-- A text of a rule starts with some character. -/
theorem Matches.exists_cons {role : Role} {text : List Char} (rule : Matches role text) :
    ∃ first rest, text = first :: rest := by
  cases rule with
  | space nonempty spaces => exact List.exists_cons_of_ne_nil nonempty
  | numeral nonempty isDigit same => exact List.exists_cons_of_ne_nil nonempty
  | oversized nonempty isDigit large => exact List.exists_cons_of_ne_nil nonempty
  | spelled written other =>
      rcases rescans_of_written written with ⟨first, rest, rescans⟩
      exact ⟨first, rest, rescans.spelling⟩
  | _ => exact ⟨_, _, rfl⟩

/-- The scanner finds something and goes at least as far as `rest`. -/
def Reaches (first : Char) (rest more : List Char) : Prop :=
  (∀ c, (scan first (rest ++ more)).1 ≠ .illegal c) ∧
    rest.length ≤ (scan first (rest ++ more)).2

theorem reaches_digits {first : Char} {rest : List Char}
    (isDigit : ∀ c ∈ first :: rest, c.isDigit = true) (more : List Char) :
    Reaches first rest more := by
  rw [List.forall_mem_cons] at isDigit
  rw [Reaches, scan_digit _ isDigit.1]
  constructor
  · intro c
    simp only [numeral]
    split <;> simp
  · exact length_le_takeWhile isDigit.2 more

theorem reaches_name {first : Char} {rest : List Char} (isName : IsName (first :: rest))
    (more : List Char) : Reaches first rest more := by
  rw [Reaches, scan_nameStart _ isName.1]
  exact ⟨by simp, length_le_takeWhile isName.2 more⟩

theorem isName_keyword (word : Keyword) : IsName word.spelling.toList := by
  cases word <;> simp [Keyword.spelling, IsName] <;> decide

theorem reaches_symbol {mark : Symbol} {first : Char} {rest : List Char}
    (spelling : first :: rest = mark.spelling.toList) (more : List Char) :
    Reaches first rest more := by
  by_cases slash : mark = .slash
  · rw [slash] at spelling
    simp only [Symbol.spelling, String.reduceToList, List.cons.injEq] at spelling
    rcases spelling with ⟨rfl, rfl⟩
    exact ⟨scan_slash_ne_illegal _, Nat.zero_le _⟩
  · have plain : isSpace first = false ∧ first ≠ '\n' ∧ first ≠ '#' ∧ first ≠ '/' ∧
        first.isDigit = false ∧ isNameStart first = false ∧ first ≠ '\'' ∧ first ≠ '"' := by
      cases mark with
      | slash => exact absurd rfl slash
      | _ =>
          simp only [Symbol.spelling, String.reduceToList, List.cons.injEq] at spelling
          rw [spelling.1]
          decide
    rcases scan?_spelling mark spelling more with ⟨found, same, reaches⟩
    rw [Reaches, scan_mark plain same]
    exact ⟨by simp, reaches⟩

/-- Where a rule matches, the scanner finds something and goes at least as far. -/
theorem Matches.reaches {role : Role} {first : Char} {rest : List Char}
    (rule : Matches role (first :: rest)) (more : List Char) : Reaches first rest more := by
  generalize whole : first :: rest = text at rule
  cases rule with
  | space nonempty spaces =>
      rw [← whole, List.forall_mem_cons] at spaces
      rw [Reaches, scan_space _ spaces.1]
      exact ⟨by simp, length_le_takeWhile spaces.2 more⟩
  | newline =>
      cases whole
      simp [Reaches, scan_newline]
  | @lineComment text sameLine =>
      cases whole
      have inLine : ∀ c ∈ '/' :: text, decide (c ≠ '\n') = true := by
        simp only [List.mem_cons, decide_eq_true_eq]
        rintro c (rfl | mem) same
        · cases same
        · exact sameLine (same ▸ mem)
      exact ⟨by simp [scan_slash], length_le_takeWhile inLine more⟩
  | directive sameLine =>
      cases whole
      have inLine : ∀ c ∈ rest, decide (c ≠ '\n') = true := by
        simp only [decide_eq_true_eq]
        rintro c mem rfl
        exact sameLine mem
      exact ⟨by simp [scan_hash], length_le_takeWhile inLine more⟩
  | @blockComment body inside =>
      cases whole
      have found := commentLength?_append inside more
      simp [Reaches, scan_slashStar, found]
  | @unterminated body inside =>
      cases whole
      rw [Reaches, List.cons_append, scan_slashStar]
      cases found : commentLength? (body ++ more) with
      | none => simp
      | some length => simpa using le_of_commentLength? inside found
  | numeral nonempty isDigit same => exact reaches_digits (whole ▸ isDigit) more
  | oversized nonempty isDigit large => exact reaches_digits (whole ▸ isDigit) more
  | @spelled kind written other =>
      cases kind with
      | integer value => exact absurd rfl (other value)
      | character body =>
          have spelling : (Token.Kind.character body).spelling.toList =
              '\'' :: (body.toList ++ ['\'']) := by
            simp [Token.Kind.spelling]
          rw [spelling] at whole
          cases whole
          have found := characterLength?_append written more
          rw [Reaches, List.append_assoc, List.singleton_append, scan_apostrophe found]
          simp
      | string body =>
          have spelling : (Token.Kind.string body).spelling.toList =
              '"' :: (body.toList ++ ['"']) := by
            simp [Token.Kind.spelling]
          rw [spelling] at whole
          cases whole
          have found := stringLength?_append written more
          rw [Reaches, List.append_assoc, List.singleton_append, scan_quotationMark found]
          simp
      | identifier name => exact reaches_name (whole ▸ written.1) more
      | keyword word => exact reaches_name (whole ▸ isName_keyword word) more
      | symbol mark => exact reaches_symbol whole more
      | endOfInput => exact written.elim

theorem matches_numeral {digits : List Char} (nonempty : digits ≠ [])
    (isDigit : ∀ c ∈ digits, c.isDigit = true) : Matches (numeral digits) digits := by
  rw [numeral, Decimal.int64?_of_isDigit nonempty isDigit]
  split
  · rename_i value found
    exact .numeral nonempty isDigit (Decimal.toInt_of_int64OfInt? found)
  · rename_i none
    apply Matches.oversized nonempty isDigit
    simp only [Decimal.int64OfInt?, ite_eq_right_iff, reduceCtorEq, imp_false] at none
    have least : Int64.minValue.toInt ≤ 0 := by decide
    omega

theorem matches_word {name : String} (isName : IsName name.toList) :
    Matches (.token (word name)) name.toList := by
  have written := written_word isName
  unfold word at written ⊢
  split
  · rename_i keyword found
    have spelling : keyword.spelling = name := by
      simpa using List.find?_some found
    rw [← spelling]
    exact @Matches.spelled (.keyword keyword) trivial (by simp)
  · rename_i reserved
    exact @Matches.spelled (.identifier name) ⟨isName, reserved⟩ (by simp)

theorem take_takeWhile (holds : Char → Bool) (text : List Char) :
    text.take (text.takeWhile holds).length = text.takeWhile holds :=
  (List.prefix_iff_eq_take.mp (List.takeWhile_prefix holds)).symm

theorem forall_mem_takeWhile {holds : Char → Bool} {first : Char} (here : holds first = true)
    (rest : List Char) : ∀ c ∈ first :: rest.takeWhile holds, holds c = true := by
  rw [List.forall_mem_cons]
  exact ⟨here, List.all_eq_true.mp List.all_takeWhile⟩

theorem newline_not_mem_takeWhile (text : List Char) : '\n' ∉ text.takeWhile (· ≠ '\n') := by
  intro mem
  have other := List.all_eq_true.mp List.all_takeWhile _ mem
  simp at other

theorem matches_lineComment {first : Char} {rest : List Char}
    (opens : first = '#' ∨ first = '/' ∧ rest.head? = some '/') :
    Matches .skipped (first :: rest.takeWhile (· ≠ '\n')) := by
  rcases opens with rfl | ⟨rfl, next⟩
  · exact .directive (newline_not_mem_takeWhile rest)
  · rcases List.head?_eq_some_iff.mp next with ⟨text, rfl⟩
    rw [List.takeWhile_cons_of_pos (by decide)]
    exact .lineComment (newline_not_mem_takeWhile text)

/-- A symbol that is found is spelled out where it is found. -/
theorem spelling_of_scan? {first : Char} {rest : List Char} {mark : Symbol} {length : Nat}
    (found : Symbol.scan? first rest = some (mark, length)) :
    mark.spelling.toList = first :: rest.take length ∧ length ≤ rest.length := by
  unfold Symbol.scan? at found
  split at found <;> cases found <;> simp [Symbol.spelling]

theorem matches_symbol {first : Char} {rest : List Char} {mark : Symbol} {length : Nat}
    (found : Symbol.scan? first rest = some (mark, length)) :
    Matches (.token (.symbol mark)) (first :: rest.take length) := by
  rw [← (spelling_of_scan? found).1]
  exact @Matches.spelled (.symbol mark) trivial (by simp)

theorem take_characterLength? {text : List Char} {length : Nat}
    (found : characterLength? text = some length) :
    text.take (length + 1) = text.take length ++ ['\''] := by
  unfold characterLength? at found
  split at found
  · split at found <;> cases found
    rfl
  · split at found <;> cases found
    rfl
  · cases found

theorem take_stringLength? {text : List Char} {length : Nat}
    (found : stringLength? text = some length) :
    text.take (length + 1) = text.take length ++ ['"'] := by
  fun_induction stringLength? text generalizing length with
  | case1 | case3 | case5 => cases found
  | case2 text =>
      cases found
      rfl
  | case4 c text sameLine ih | case6 c text quote escape plain ih =>
      rcases Option.map_eq_some_iff.mp found with ⟨length', found', rfl⟩
      simp [ih found']

theorem matches_character {text : List Char} {length : Nat}
    (found : characterLength? text = some length) :
    Matches (.token (.character (String.ofList (text.take length))))
      ('\'' :: text.take (length + 1)) := by
  have isBody : IsCharacterBody (String.ofList (text.take length)).toList := by
    simpa using isCharacterBody_take found
  have rule := @Matches.spelled (.character _) isBody (by simp)
  simpa [Token.Kind.spelling, take_characterLength? found] using rule

theorem matches_string {text : List Char} {length : Nat}
    (found : stringLength? text = some length) :
    Matches (.token (.string (String.ofList (text.take length))))
      ('"' :: text.take (length + 1)) := by
  have isBody : IsStringBody (String.ofList (text.take length)).toList := by
    simpa using isStringBody_take found
  have rule := @Matches.spelled (.string _) isBody (by simp)
  simpa [Token.Kind.spelling, take_stringLength? found] using rule

/-- What the scanner finds is a text of a rule, or a single character. -/
theorem matches_of_scan (first : Char) (rest : List Char) :
    Matches (scan first rest).1 (first :: rest.take (scan first rest).2) ∨
      scan first rest = (.illegal first, 0) := by
  unfold scan
  split
  · rename_i space
    left
    simp only [take_takeWhile]
    exact .space (List.cons_ne_nil _ _) (forall_mem_takeWhile space rest)
  split
  · rename_i newline
    left
    simp only [newline]
    exact .newline
  split
  · rename_i opens
    left
    simp only [take_takeWhile]
    exact matches_lineComment opens
  split
  · rename_i opens
    left
    rcases opens with ⟨rfl, next⟩
    rcases List.head?_eq_some_iff.mp next with ⟨text, rfl⟩
    split
    · rename_i length found
      rw [List.tail_cons] at found
      rcases exists_body found with ⟨body, same, inside⟩
      simp only [List.take_succ_cons, same]
      exact .blockComment inside
    · rename_i none
      simp only [List.take_length]
      exact .unterminated (not_infix_of_commentLength? none)
  split
  · rename_i digit
    left
    simp only [take_takeWhile]
    exact matches_numeral (List.cons_ne_nil _ _) (forall_mem_takeWhile digit rest)
  split
  · rename_i start
    left
    simp only [take_takeWhile]
    have isName : IsName (String.ofList (first :: rest.takeWhile isNameRest)).toList := by
      rw [String.toList_ofList]
      exact ⟨start, List.all_eq_true.mp List.all_takeWhile⟩
    simpa using matches_word isName
  split
  · rename_i quote
    split
    · rename_i length found
      left
      rw [quote]
      exact matches_character found
    · exact .inr rfl
  split
  · rename_i quote
    split
    · rename_i length found
      left
      rw [quote]
      exact matches_string found
    · exact .inr rfl
  · split
    · rename_i mark length found
      exact .inl (matches_symbol found)
    · exact .inr rfl

theorem commentLength?_eq_none {text : List Char} (inside : ¬['*', '/'] <:+: text) :
    commentLength? text = none := by
  cases found : commentLength? text with
  | none => rfl
  | some length =>
      rcases exists_body found with ⟨body, same, -⟩
      refine absurd ?_ inside
      have ends : ['*', '/'] <:+: text.take length := same ▸ List.infix_append' body ['*', '/'] []
      exact ends.trans (List.take_prefix length text).isInfix

theorem numeral_eq_oversized {digits : List Char} (nonempty : digits ≠ [])
    (isDigit : ∀ c ∈ digits, c.isDigit = true)
    (large : Int64.maxValue.toInt < Decimal.value digits) : numeral digits = .oversized := by
  have tooLarge : ¬(Int64.minValue.toInt ≤ (Decimal.value digits : Int) ∧
      (Decimal.value digits : Int) ≤ Int64.maxValue.toInt) := by omega
  rw [numeral, Decimal.int64?_of_isDigit nonempty isDigit, Decimal.int64OfInt?, if_neg tooLarge]

/-- A text of a rule by itself is found to be what the rule says. -/
theorem Matches.scan_eq {role : Role} {first : Char} {rest : List Char}
    (rule : Matches role (first :: rest)) : (scan first rest).1 = role := by
  generalize whole : first :: rest = text at rule
  cases rule with
  | space nonempty spaces =>
      rw [← whole, List.forall_mem_cons] at spaces
      rw [scan_space _ spaces.1]
  | newline | lineComment sameLine | directive sameLine =>
      cases whole
      rfl
  | blockComment inside =>
      cases whole
      rw [scan_slashStar, commentLength?_append inside]
  | unterminated inside =>
      cases whole
      rw [scan_slashStar, commentLength?_eq_none inside]
  | @numeral _ value nonempty isDigit same =>
      have read : Decimal.int64? text = some value := by
        rw [Decimal.int64?_of_isDigit nonempty isDigit, ← same, Decimal.int64OfInt?_toInt]
      rw [← whole, List.forall_mem_cons] at isDigit
      rw [scan_digit _ isDigit.1, List.takeWhile_eq_self_iff.mpr isDigit.2, whole, Segment.numeral,
        read]
  | oversized nonempty isDigit large =>
      have digits := isDigit
      rw [← whole, List.forall_mem_cons] at digits
      rw [scan_digit _ digits.1, List.takeWhile_eq_self_iff.mpr digits.2, whole,
        numeral_eq_oversized nonempty isDigit large]
  | spelled written other =>
      rcases rescans_of_written written with ⟨first', rest', rescans⟩
      rw [rescans.spelling] at whole
      cases whole
      simpa using congrArg Prod.fst (rescans.scan [] (.inl rfl))

namespace IsNext

variable {segment segment' : Segment} {after after' : List Char}

theorem exists_cons (next : segment.IsNext after) :
    ∃ first rest, segment.text = first :: rest := by
  cases next with
  | longest rule greatest => exact rule.exists_cons
  | illegal nothing => exact ⟨_, _, rfl⟩

/-- What comes first in a text is determined by the text. -/
theorem unique (next : segment.IsNext after) (next' : segment'.IsNext after')
    (same : segment.text ++ after = segment'.text ++ after') :
    segment = segment' ∧ after = after' := by
  cases next with
  | @longest role text _ rule greatest =>
      have front : text <+: segment'.text ++ after' := same ▸ List.prefix_append text after
      cases next' with
      | @longest role' text' _ rule' greatest' =>
          have front' : text' <+: text ++ after := same ▸ List.prefix_append text' after'
          have lengths : text.length = text'.length :=
            Nat.le_antisymm (greatest' _ _ rule front) (greatest _ _ rule' front')
          rcases List.append_inj same lengths with ⟨rfl, behind⟩
          rcases rule.exists_cons with ⟨first, rest, rfl⟩
          rw [← rule.scan_eq, ← rule'.scan_eq]
          exact ⟨rfl, behind⟩
      | illegal nothing => exact absurd front (nothing _ _ rule)
  | @illegal c _ nothing =>
      cases next' with
      | @longest role' text' _ rule' greatest' =>
          refine absurd ?_ (nothing _ _ rule')
          change [c] ++ after = _ at same
          rw [← List.singleton_append, same]
          exact List.prefix_append text' after'
      | illegal nothing' =>
          cases same
          exact ⟨rfl, rfl⟩

/-- The end of the text behind it makes no difference. -/
theorem of_append {more : List Char} (next : segment.IsNext (after ++ more)) :
    segment.IsNext after := by
  cases next with
  | @longest role text _ rule greatest =>
      apply longest rule
      intro role' text' rule' front
      apply greatest role' text' rule'
      rw [← List.append_assoc]
      exact front.trans (List.prefix_append _ more)
  | @illegal c _ nothing =>
      apply illegal
      intro role text rule front
      exact nothing role text rule (front.trans (List.prefix_append (c :: after) more))

end IsNext

section Digits

variable {d : Char} (digit : d.isDigit = true)

include digit

/-- A text that ends with a digit can go on with another one. -/
theorem Matches.exists_of_digit {role : Role} {text : List Char} {c : Char}
    (rule : Matches role text) (last : text.getLast? = some c) (isDigit : c.isDigit = true) :
    ∃ role', Matches role' (text ++ [d]) := by
  have clear := clear_of_holds isDigit (by decide)
  have clear' := clear_of_holds digit (by decide)
  have mem : c ∈ text := List.mem_of_getLast? last
  have ne {other : Char} (apart : other.isDigit = false) : c ≠ other := by
    rintro rfl
    simp [isDigit] at apart
  have numeral (all : ∀ c ∈ text, c.isDigit = true) : ∃ role', Matches role' (text ++ [d]) := by
    refine ⟨_, matches_numeral (by simp) ?_⟩
    simp only [List.forall_mem_append, List.forall_mem_singleton]
    exact ⟨all, digit⟩
  have name (isName : IsName text) : ∃ role', Matches role' (text ++ [d]) := by
    have isName' : IsName (String.ofList (text ++ [d])).toList := by
      cases text with
      | nil => exact isName.elim
      | cons first rest =>
          have rest' : isNameRest d = true := by simp [isNameRest, Char.isAlphanum, digit]
          simp only [String.toList_ofList, List.cons_append, IsName, List.forall_mem_append,
            List.forall_mem_singleton]
          exact ⟨isName.1, isName.2, rest'⟩
    exact ⟨_, by simpa using matches_word isName'⟩
  cases rule with
  | space nonempty spaces => simp [spaces c mem] at clear
  | newline => exact absurd last (by simpa using (ne (by decide)).symm)
  | lineComment sameLine =>
      exact ⟨_, .lineComment (by simpa using ⟨sameLine, clear'.2.1.symm⟩)⟩
  | directive sameLine => exact ⟨_, .directive (by simpa using ⟨sameLine, clear'.2.1.symm⟩)⟩
  | blockComment inside =>
      rw [← List.cons_append, ← List.cons_append, List.getLast?_append] at last
      exact absurd last (by simpa using (ne (by decide)).symm)
  | @unterminated body inside =>
      refine ⟨_, @Matches.unterminated (body ++ [d]) ?_⟩
      rw [List.infix_concat_iff]
      rintro (⟨front, same⟩ | within)
      · have slash := congrArg List.getLast? same
        simp at slash
        exact clear'.2.2.2 slash.symm
      · exact inside within
  | numeral nonempty all same => exact numeral all
  | oversized nonempty all large => exact numeral all
  | @spelled kind written other =>
      cases kind with
      | integer value => exact absurd rfl (other value)
      | character body =>
          have apart : c ≠ '\'' := ne (by decide)
          simp [Token.Kind.spelling, List.getLast?_cons, apart.symm] at last
      | string body =>
          have apart : c ≠ '"' := ne (by decide)
          simp [Token.Kind.spelling, List.getLast?_cons, apart.symm] at last
      | identifier word => exact name written.1
      | keyword word => exact name (isName_keyword word)
      | symbol mark =>
          -- No symbol ends with a digit.
          have apart : ∀ other ∈ mark.spelling.toList, other.isDigit = false := by
            cases mark <;> simp [Symbol.spelling]
          simp [apart c mem] at isDigit
      | endOfInput => exact written.elim

/-- No segment ends between two digits. -/
theorem IsNext.getLast_of_digit {segment : Segment} {after : List Char} {c : Char}
    (next : segment.IsNext (d :: after)) (last : segment.text.getLast? = some c) :
    c.isDigit = false := by
  rw [← Bool.not_eq_true]
  intro isDigit
  cases next with
  | @longest role text _ rule greatest =>
      rcases rule.exists_of_digit digit last isDigit with ⟨role', rule'⟩
      have short := greatest _ _ rule' ⟨after, by simp⟩
      simp only [List.length_append, List.length_singleton] at short
      omega
  | @illegal c' _ nothing =>
      have same : c' = c := by simpa using last
      have isDigit' : ∀ c ∈ [c'], c.isDigit = true := by simpa [same] using isDigit
      exact nothing _ _ (matches_numeral (by simp) isDigit') ⟨d :: after, rfl⟩

end Digits

/-- The scanner finds what comes first. -/
theorem isNext_scan (first : Char) (rest : List Char) :
    IsNext ⟨(scan first rest).1, first :: rest.take (scan first rest).2⟩
      (rest.drop (scan first rest).2) := by
  have reached {role : Role} {text : List Char} (rule : Matches role text)
      (front : text <+: first :: rest) :
      (∀ c, (scan first rest).1 ≠ .illegal c) ∧ text.length ≤ (scan first rest).2 + 1 ∧
        text.length ≤ rest.length + 1 := by
    rcases front with ⟨more, same⟩
    rcases rule.exists_cons with ⟨first', rest', rfl⟩
    rcases List.cons.inj same with ⟨rfl, rfl⟩
    rcases rule.reaches more with ⟨legal, far⟩
    exact ⟨legal, by simpa using far, by simp⟩
  rcases matches_of_scan first rest with rule | same
  · apply IsNext.longest rule
    intro role' text' rule' front
    rw [List.cons_append, List.take_append_drop] at front
    have far := (reached rule' front).2
    simp only [List.length_cons, List.length_take]
    omega
  · rw [same]
    apply IsNext.illegal
    intro role text rule front
    exact (reached rule front).1 first (congrArg Prod.fst same)

/-- Each segment comes first in the text that starts with it and ends with the last one. -/
def InTurn : List Segment → Prop
  | [] => True
  | segment :: rest => segment.IsNext (rest.flatMap text) ∧ InTurn rest

theorem inTurn_segments (source : List Char) : InTurn (segments source) := by
  match source with
  | [] => trivial
  | first :: rest =>
      rw [segments_cons]
      refine ⟨?_, inTurn_segments _⟩
      rw [flatMap_text_segments]
      exact isNext_scan first rest
termination_by source.length
decreasing_by
  simp only [List.length_drop, List.length_cons]
  omega

namespace InTurn

variable {cut cut' : List Segment}

/-- There is one way to cut a text. -/
theorem segments_eq (inTurn : InTurn cut) : segments (cut.flatMap text) = cut := by
  induction cut with
  | nil => rfl
  | cons segment cut ih =>
      rcases inTurn with ⟨next, others⟩
      rcases next.exists_cons with ⟨first, rest, same⟩
      have whole : (segment :: cut).flatMap text = first :: (rest ++ cut.flatMap text) := by
        simp [same]
      have found := isNext_scan first (rest ++ cut.flatMap text)
      have unique := next.unique found (by simp [same])
      rw [whole, segments_cons, ← unique.1, ← unique.2, ih others]

theorem of_append_left (inTurn : InTurn (cut ++ cut')) : InTurn cut := by
  induction cut with
  | nil => trivial
  | cons segment cut ih =>
      rcases inTurn with ⟨next, others⟩
      refine ⟨?_, ih others⟩
      change segment.IsNext ((cut ++ cut').flatMap text) at next
      rw [List.flatMap_append] at next
      exact next.of_append

theorem of_append_right (inTurn : InTurn (cut ++ cut')) : InTurn cut' := by
  induction cut with
  | nil => exact inTurn
  | cons segment cut ih => exact ih inTurn.2

theorem isNext {segment : Segment} (inTurn : InTurn (cut ++ segment :: cut')) :
    segment.IsNext (cut'.flatMap text) :=
  inTurn.of_append_right.1

end InTurn

end SubsetC.Segment
