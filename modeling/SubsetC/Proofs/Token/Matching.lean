import SubsetC.Proofs.Token.Gathering
import SubsetC.Token.Scanner

/-!
# Rules that are tried together

`Scanner.Rule.longest?` tries all rules and keeps the longest text. Which rules can match is decided
by the first character, except among words and among symbols; so the scanner takes what
`Segment.scan` finds, and of a block comment its opening.
-/

namespace SubsetC

namespace Segment

theorem IsCharacterBody.newline_not_mem {body : List Char} (isBody : IsCharacterBody body) :
    '\n' ∉ body := by
  cases isBody with
  | plain quote backslash sameLine => simpa using sameLine.symm
  | escaped sameLine => simpa using sameLine.symm

theorem IsStringBody.newline_not_mem {body : List Char} (isBody : IsStringBody body) :
    '\n' ∉ body := by
  induction isBody with
  | nil => exact List.not_mem_nil
  | plain quote backslash sameLine others ih => simpa [ih] using sameLine.symm
  | escaped sameLine others ih => simpa [ih] using sameLine.symm

theorem newline_not_mem_of_isName {name : List Char} (isName : IsName name) : '\n' ∉ name := by
  cases name with
  | nil => exact List.not_mem_nil
  | cons first rest =>
      intro mem
      rcases List.mem_cons.mp mem with rfl | others
      · exact absurd isName.1 (by decide)
      · exact absurd (isName.2 _ others) (by decide)

/-- A token is written on one line. -/
theorem newline_not_mem_spelling {kind : Token.Kind} (written : kind.Written)
    (other : ∀ value, kind ≠ .integer value) : '\n' ∉ kind.spelling.toList := by
  cases kind with
  | integer value => exact absurd rfl (other value)
  | character body => simpa [Token.Kind.spelling] using IsCharacterBody.newline_not_mem written
  | string body => simpa [Token.Kind.spelling] using IsStringBody.newline_not_mem written
  | identifier name => exact newline_not_mem_of_isName written.1
  | keyword word => exact newline_not_mem_of_isName (isName_keyword word)
  | symbol mark => cases mark <;> simp [Token.Kind.spelling, Symbol.spelling]
  | endOfInput => exact written.elim

/-- Line feeds stand by themselves and in block comments. -/
theorem Matches.newline_mem {role : Role} {text : List Char} (rule : Matches role text)
    (mem : '\n' ∈ text) : text = ['\n'] ∨ ['/', '*'] <+: text := by
  cases rule with
  | space nonempty spaces => exact absurd (spaces _ mem) (by decide)
  | newline => exact .inl rfl
  | lineComment sameLine => exact absurd mem (by simpa using sameLine)
  | directive sameLine => exact absurd mem (by simpa using sameLine)
  | blockComment inside => exact .inr (List.prefix_append ['/', '*'] _)
  | unterminated inside => exact .inr (List.prefix_append ['/', '*'] _)
  | numeral nonempty isDigit same => exact absurd (isDigit _ mem) (by decide)
  | oversized nonempty isDigit large => exact absurd (isDigit _ mem) (by decide)
  | spelled written other => exact absurd mem (newline_not_mem_spelling written other)

/-- No character that a rule matches is illegal. -/
theorem Matches.legal {role : Role} {text : List Char} (rule : Matches role text) (c : Char) :
    role ≠ .illegal c := by
  cases rule <;> simp

/-- What becomes a token is on one line. -/
theorem Matches.newline_not_mem {role : Role} {text : List Char} (rule : Matches role text)
    {kind : Token.Kind} (token : role.kind? = some kind) : '\n' ∉ text := by
  cases rule with
  | numeral nonempty isDigit same => exact fun mem => absurd (isDigit _ mem) (by decide)
  | oversized nonempty isDigit large => exact fun mem => absurd (isDigit _ mem) (by decide)
  | spelled written other => exact newline_not_mem_spelling written other
  | _ => cases token

end Segment

open Position (byteLength)
open Segment

namespace Scanner.Rule

theorem mem_all (rule : Rule) : rule ∈ all := by
  cases rule with
  | keyword word => cases word <;> decide
  | symbol mark => cases mark <;> decide
  | _ => decide

/-- Of two matches, one at most beats the other. -/
theorem not_beats {first second : Rule × Nat} (wins : beats first second = true) :
    ¬beats second first = true := by
  simp only [beats, Bool.or_eq_true, decide_eq_true_eq, Bool.and_eq_true, beq_iff_eq] at wins ⊢
  omega

/-- The rule that beats all others is the best one. -/
theorem best_eq_some {found : Rule × Nat} {candidates : List (Rule × Nat)}
    (mem : found ∈ candidates)
    (wins : ∀ other ∈ candidates, other = found ∨ beats found other = true) :
    best candidates = some found := by
  induction candidates with
  | nil => cases mem
  | cons candidate others ih =>
      rw [List.forall_mem_cons] at wins
      rcases List.mem_cons.mp mem with rfl | behind
      · unfold best
        split
        · rename_i other same
          rcases wins.2 other (mem_of_best same) with rfl | better
          · rw [ite_self]
          · rw [if_neg (not_beats better)]
        · rfl
      · rw [best, ih behind wins.2]
        rcases wins.1 with rfl | better
        · simp only [ite_self]
        · simp only [better, if_true]

/-- A rule is taken if each other one that matches is shorter, or as long and of lower priority. -/
theorem longest?_eq_some {rule : Rule} {length : Nat} {text : List Char}
    (here : rule.length? text = some length)
    (wins : ∀ other length', other.length? text = some length' →
      other = rule ∨ length' < length ∨ length' = length ∧ other.priority < rule.priority) :
    longest? text = some (rule, length) := by
  apply best_eq_some
  · exact List.mem_filterMap.mpr ⟨rule, mem_all rule, by rw [here]; rfl⟩
  · rintro ⟨other, length'⟩ mem
    rcases List.mem_filterMap.mp mem with ⟨other', -, found⟩
    rcases Option.map_eq_some_iff.mp found with ⟨length'', there, same⟩
    cases same
    rcases wins _ _ there with rfl | shorter | ⟨rfl, lower⟩
    · rw [here] at there
      cases there
      exact .inl rfl
    · exact .inr (by simp [beats, shorter])
    · exact .inr (by simp [beats, lower])

/-- Nothing is found if no rule matches. -/
theorem longest?_eq_none {text : List Char} (nothing : ∀ rule : Rule, rule.length? text = none) :
    longest? text = none := by
  have none :
      (all.filterMap fun rule => (rule.length? text).map fun length => (rule, length)) = [] :=
    List.filterMap_eq_nil_iff.mpr fun rule _ => by rw [nothing rule, Option.map_none]
  rw [longest?, none, best]

/-- A rule can match where this character comes first. -/
def opens (rule : Rule) (c : Char) : Bool :=
  match rule with
  | spaces => isSpace c
  | lineComment | blockComment => c == '/'
  | directive => c == '#'
  | integer => c.isDigit
  | character => c == '\''
  | string => c == '"'
  | keyword word => word.spelling.toList.head? == some c
  | symbol mark => mark.spelling.toList.head? == some c
  | identifier => isNameStart c
  | newline => c == '\n'

/-- A rule for a fixed text matches just where this text is. -/
theorem prefix_of_spellingLength? {spelling : String} {text : List Char} {length : Nat}
    (found : spellingLength? spelling text = some length) :
    spelling.toList <+: text ∧ spelling.toList.length = length := by
  unfold spellingLength? at found
  split at found
  · rename_i front
    cases found
    exact ⟨List.isPrefixOf_iff_prefix.mp front, rfl⟩
  · cases found

theorem runLength?_cons {test : Char → Bool} {first : Char} (rest : List Char) :
    runLength? test (first :: rest) =
      if test first then some ((rest.takeWhile test).length + 1) else none := by
  unfold runLength?
  rw [List.takeWhile_cons]
  cases test first <;> rfl

theorem head?_of_prefix {spelling rest : List Char} {first : Char} (nonempty : spelling ≠ [])
    (front : spelling <+: first :: rest) : spelling.head? = some first := by
  rcases List.exists_cons_of_ne_nil nonempty with ⟨first', rest', rfl⟩
  rw [(List.cons_prefix_cons.mp front).1, List.head?_cons]

/-- A rule matches only where its first character may stand. -/
theorem opens_of_length? {rule : Rule} {first : Char} {rest : List Char} {length : Nat}
    (found : rule.length? (first :: rest) = some length) : rule.opens first = true := by
  cases rule with
  | spaces | integer =>
      simp only [length?, runLength?_cons] at found
      split at found
      · assumption
      · cases found
  | keyword word =>
      have front := (prefix_of_spellingLength? found).1
      have nonempty : word.spelling.toList ≠ [] := by cases word <;> simp [Keyword.spelling]
      simp [opens, head?_of_prefix nonempty front]
  | symbol mark =>
      have front := (prefix_of_spellingLength? found).1
      have nonempty : mark.spelling.toList ≠ [] := by cases mark <;> simp [Symbol.spelling]
      simp [opens, head?_of_prefix nonempty front]
  | identifier =>
      simp only [length?] at found
      split at found
      · assumption
      · cases found
  | lineComment | directive | character | string | newline | blockComment =>
      unfold length? at found
      split at found <;> simp_all [opens]

/-- A character at which only one rule can match settles which rule it is. -/
theorem longest?_of_opens {rule : Rule} {first : Char} {rest : List Char} {length : Nat}
    (here : rule.length? (first :: rest) = some length)
    (alone : ∀ other : Rule, other.opens first = true → other = rule) :
    longest? (first :: rest) = some (rule, length) :=
  longest?_eq_some here fun _ _ there => .inl (alone _ (opens_of_length? there))

/-- Only one rule can match where this character comes first. -/
theorem eq_of_opens {rule other : Rule} {c : Char}
    (unique : all.all (fun other => !other.opens c || other == rule) = true)
    (opens : other.opens c = true) : other = rule := by
  simpa [opens] using List.all_eq_true.mp unique other (mem_all other)

theorem isNameStart_of_opens {word : Keyword} {c : Char} (opens : (keyword word).opens c = true) :
    isNameStart c = true := by
  cases word <;> simp only [Rule.opens, Keyword.spelling, beq_iff_eq] at opens <;>
    cases opens <;> decide

/-- The characters that symbols start with. -/
def marks : List Char :=
  all.filterMap fun rule => match rule with
    | symbol mark => mark.spelling.toList.head?
    | _ => none

theorem mem_marks_of_opens {mark : Symbol} {c : Char} (opens : (symbol mark).opens c = true) :
    c ∈ marks :=
  List.mem_filterMap.mpr ⟨_, mem_all (symbol mark), by simpa [Rule.opens] using opens⟩

/-- No symbol starts with a character that passes a test which the marks do not pass. -/
theorem not_opens_symbol {holds : Char → Bool} {c : Char} (here : holds c = true)
    (notThere : marks.any holds = false) (mark : Symbol) : ¬(symbol mark).opens c = true := by
  intro opens
  have other := List.any_eq_false.mp notThere c (mem_marks_of_opens opens)
  exact other here

section Opens

variable {first : Char} {rest : List Char} {rule : Rule}

theorem eq_spaces_of_opens (space : isSpace first = true) (opens : rule.opens first = true) :
    rule = spaces := by
  simp only [isSpace, Bool.or_eq_true, beq_iff_eq] at space
  rcases space with ((rfl | rfl) | rfl) | rfl <;> exact eq_of_opens (by decide) opens

theorem eq_integer_of_opens (digit : first.isDigit = true) (opens : rule.opens first = true) :
    rule = integer := by
  have clear := clear_of_holds digit (by decide)
  cases rule with
  | integer => rfl
  | spaces => simp [Rule.opens, clear] at opens
  | lineComment | blockComment | directive | newline =>
      simp [Rule.opens, clear] at opens
  | character | string =>
      simp only [Rule.opens, beq_iff_eq] at opens
      subst opens
      exact absurd digit (by decide)
  | keyword word =>
      exact absurd digit (by simp [isDigit_of_isNameStart (isNameStart_of_opens opens)])
  | identifier => exact absurd digit (by simp [isDigit_of_isNameStart opens])
  | symbol mark => exact absurd opens (not_opens_symbol digit (by decide) mark)

/-- Where a name starts, only words can match. -/
theorem word_of_opens (start : isNameStart first = true) (opens : rule.opens first = true) :
    rule = identifier ∨ ∃ word, rule = keyword word := by
  have clear := clear_of_holds start (by decide)
  cases rule with
  | identifier => exact .inl rfl
  | keyword word => exact .inr ⟨word, rfl⟩
  | spaces | lineComment | blockComment | directive | newline =>
      simp [Rule.opens, clear] at opens
  | integer => exact absurd opens (by simp [Rule.opens, isDigit_of_isNameStart start])
  | character | string =>
      simp only [Rule.opens, beq_iff_eq] at opens
      subst opens
      exact absurd start (by decide)
  | symbol mark => exact absurd opens (not_opens_symbol start (by decide) mark)

theorem slash_of_opens (opens : rule.opens '/' = true) :
    rule = symbol .slash ∨ rule = lineComment ∨ rule = blockComment := by
  have table : all.all (fun rule => !rule.opens '/' ||
      [symbol .slash, lineComment, blockComment].contains rule) = true := by decide
  simpa [opens] using List.all_eq_true.mp table rule (mem_all rule)

end Opens

section Longest

variable {first : Char} {rest : List Char}

/-- White space is matched up to its end. -/
theorem longest?_spaces (space : isSpace first = true) :
    longest? (first :: rest) = some (spaces, (rest.takeWhile isSpace).length + 1) := by
  apply longest?_of_opens
  · simp [length?, runLength?_cons, space]
  · exact fun _ opens => eq_spaces_of_opens space opens

/-- The end of a line is matched by itself. -/
theorem longest?_newline : longest? ('\n' :: rest) = some (newline, 1) :=
  longest?_of_opens rfl fun _ opens => eq_of_opens (by decide) opens

theorem longest?_directive :
    longest? ('#' :: rest) = some (directive, (rest.takeWhile (· ≠ '\n')).length + 1) :=
  longest?_of_opens rfl fun _ opens => eq_of_opens (by decide) opens

/-- Digits are matched up to their end. -/
theorem longest?_integer (digit : first.isDigit = true) :
    longest? (first :: rest) = some (integer, (rest.takeWhile Char.isDigit).length + 1) := by
  apply longest?_of_opens
  · simp [length?, runLength?_cons, digit]
  · exact fun _ opens => eq_integer_of_opens digit opens

theorem longest?_character {length : Nat} (body : characterLength? rest = some length) :
    longest? ('\'' :: rest) = some (character, length + 2) :=
  longest?_of_opens (by simp [length?, body]) fun _ opens => eq_of_opens (by decide) opens

/-- A text in quotes is matched up to the quote at its end. -/
theorem longest?_string {length : Nat} (body : stringLength? rest = some length) :
    longest? ('"' :: rest) = some (string, length + 2) :=
  longest?_of_opens (by simp [length?, body]) fun _ opens => eq_of_opens (by decide) opens

/-- Where a comment starts, its rule goes farther than that of the operator. -/
theorem longest?_slash {rule : Rule} {text : List Char} {length : Nat}
    (here : rule.length? ('/' :: text) = some length) (long : 1 < length)
    (comment : ∀ other length', other = lineComment ∨ other = blockComment →
      other.length? ('/' :: text) = some length' → other = rule) :
    longest? ('/' :: text) = some (rule, length) := by
  apply longest?_eq_some here
  intro other length' there
  rcases slash_of_opens (opens_of_length? there) with rfl | opening
  · have short := (prefix_of_spellingLength? there).2
    simp only [Symbol.spelling, String.reduceToList, List.length_singleton] at short
    exact .inr (.inl (by omega))
  · exact .inl (comment other length' opening there)

/-- A comment is longer than the symbol that it starts with. -/
theorem longest?_lineComment :
    longest? ('/' :: '/' :: rest) =
      some (lineComment, (rest.takeWhile (· ≠ '\n')).length + 2) := by
  apply longest?_slash rfl (by omega)
  rintro other length (rfl | rfl) there
  · rfl
  · cases there

theorem longest?_blockComment : longest? ('/' :: '*' :: rest) = some (blockComment, 2) := by
  apply longest?_slash rfl (by omega)
  rintro other length (rfl | rfl) there
  · cases there
  · rfl

theorem ofSpelling?_spelling (word : Keyword) : Keyword.ofSpelling? word.spelling = some word := by
  cases word <;> rfl

/-- A reserved word at the start of a text ends where the name does that stands there, or before;
in the first case it is the name. -/
theorem keyword_le_name {word : Keyword} {length : Nat}
    (found : (keyword word).length? (first :: rest) = some length) :
    length ≤ (rest.takeWhile isNameRest).length + 1 ∧
      (length = (rest.takeWhile isNameRest).length + 1 →
        Keyword.ofSpelling? (String.ofList (first :: rest.takeWhile isNameRest)) = some word) := by
  rcases prefix_of_spellingLength? found with ⟨front, rfl⟩
  have isName := isName_keyword word
  rcases front with ⟨more, same⟩
  cases spelling : word.spelling.toList with
  | nil =>
      rw [spelling] at isName
      exact isName.elim
  | cons first' rest' =>
      rw [spelling] at isName same
      rw [List.cons_append] at same
      rcases List.cons.inj same with ⟨rfl, rfl⟩
      have within := length_le_takeWhile isName.2 more
      refine ⟨by simpa using within, ?_⟩
      intro sameLength
      have whole : (rest' ++ more).takeWhile isNameRest = rest' := by
        have front : rest' <+: (rest' ++ more).takeWhile isNameRest := by
          rw [List.takeWhile_append_of_pos isName.2]
          exact List.prefix_append _ _
        exact (front.eq_of_length (by simpa using sameLength)).symm
      rw [whole, ← spelling, String.ofList_toList, ofSpelling?_spelling]

/-- Where a name starts, what matches is the name, something shorter, or the reserved word that the
name is. -/
theorem length?_of_nameStart {rule : Rule} {length : Nat} (start : isNameStart first = true)
    (found : rule.length? (first :: rest) = some length) :
    rule = identifier ∧ length = (rest.takeWhile isNameRest).length + 1 ∨
      length < (rest.takeWhile isNameRest).length + 1 ∨
      ∃ word, rule = keyword word ∧
        Keyword.ofSpelling? (String.ofList (first :: rest.takeWhile isNameRest)) = some word := by
  rcases word_of_opens start (opens_of_length? found) with rfl | ⟨word, rfl⟩
  · rw [length?, if_pos start, Option.some.injEq] at found
    exact .inl ⟨rfl, found.symm⟩
  · rcases keyword_le_name found with ⟨short, same⟩
    rcases Nat.lt_or_eq_of_le short with shorter | sameLength
    · exact .inr (.inl shorter)
    · exact .inr (.inr ⟨word, rfl, same sameLength⟩)

/-- A name is matched to its end, and a reserved word of the same length comes first. -/
theorem longest?_name (start : isNameStart first = true) :
    longest? (first :: rest) =
      some (match Keyword.ofSpelling? (String.ofList (first :: rest.takeWhile isNameRest)) with
        | some word => keyword word
        | none => identifier, (rest.takeWhile isNameRest).length + 1) := by
  split
  · rename_i word reserved
    have spelling : word.spelling.toList = first :: rest.takeWhile isNameRest := by
      have found := List.find?_some reserved
      rw [beq_iff_eq] at found
      rw [found, String.toList_ofList]
    have front : word.spelling.toList <+: first :: rest := by
      rw [spelling]
      exact (List.prefix_cons_inj _).mpr (List.takeWhile_prefix _)
    have here : (keyword word).length? (first :: rest) =
        some ((rest.takeWhile isNameRest).length + 1) := by
      simp only [length?, spellingLength?, List.isPrefixOf_iff_prefix.mpr front, if_true]
      rw [spelling, List.length_cons]
    apply longest?_eq_some here
    intro other length there
    rcases length?_of_nameStart start there with ⟨rfl, rfl⟩ | shorter | ⟨word', rfl, same⟩
    · exact .inr (.inr ⟨rfl, Nat.zero_lt_one⟩)
    · exact .inr (.inl shorter)
    · rw [same] at reserved
      cases reserved
      exact .inl rfl
  · rename_i free
    have here : identifier.length? (first :: rest) =
        some ((rest.takeWhile isNameRest).length + 1) := if_pos start
    apply longest?_eq_some here
    intro other length there
    rcases length?_of_nameStart start there with ⟨rfl, -⟩ | shorter | ⟨word', rfl, same⟩
    · exact .inl rfl
    · exact .inr (.inl shorter)
    · rw [same] at free
      cases free

theorem scan?_own (mark : Symbol) : ∃ first rest, mark.spelling.toList = first :: rest ∧
    Symbol.scan? first rest = some (mark, rest.length) := by
  cases mark <;> exact ⟨_, _, rfl, rfl⟩

/-- No two symbols are spelled alike. -/
theorem spelling_injective {mark mark' : Symbol} (same : mark.spelling = mark'.spelling) :
    mark = mark' := by
  rcases scan?_own mark with ⟨first, rest, spelling, own⟩
  rcases scan?_own mark' with ⟨first', rest', spelling', own'⟩
  rw [same, spelling'] at spelling
  cases spelling
  rw [own] at own'
  cases own'
  rfl

/-- Where a symbol stands, a symbol is found that is at least as long. -/
theorem exists_scan? {mark : Symbol} {length : Nat}
    (found : (symbol mark).length? (first :: rest) = some length) :
    ∃ mark' length', Symbol.scan? first rest = some (mark', length') ∧ length ≤ length' + 1 := by
  rcases prefix_of_spellingLength? found with ⟨front, rfl⟩
  rcases scan?_own mark with ⟨first', rest', spelling, -⟩
  rw [spelling] at front
  rcases front with ⟨more, same⟩
  rw [List.cons_append] at same
  rcases List.cons.inj same with ⟨rfl, rfl⟩
  rcases scan?_spelling mark spelling.symm more with ⟨⟨mark', length'⟩, found', reaches⟩
  refine ⟨mark', length', found', ?_⟩
  rw [spelling, List.length_cons]
  exact Nat.succ_le_succ reaches

/-- Of two symbols that start alike, the longer one is matched. -/
theorem longest?_symbol {mark : Symbol} {length : Nat}
    (found : Symbol.scan? first rest = some (mark, length))
    (others : ∀ rule length', rule.length? (first :: rest) = some length' →
      ∃ mark', rule = symbol mark') :
    longest? (first :: rest) = some (symbol mark, length + 1) := by
  rcases spelling_of_scan? found with ⟨spelling, within⟩
  have front : mark.spelling.toList <+: first :: rest := by
    rw [spelling]
    exact (List.prefix_cons_inj _).mpr (List.take_prefix _ _)
  have size : mark.spelling.toList.length = length + 1 := by
    rw [spelling, List.length_cons, List.length_take, Nat.min_eq_left within]
  have here : (symbol mark).length? (first :: rest) = some (length + 1) := by
    simp only [length?, spellingLength?, List.isPrefixOf_iff_prefix.mpr front, if_true, size]
  apply longest?_eq_some here
  intro other length' there
  rcases others other length' there with ⟨mark', rfl⟩
  rcases exists_scan? there with ⟨found', length'', same, short⟩
  rw [found] at same
  cases same
  rcases Nat.lt_or_eq_of_le short with shorter | sameLength
  · exact .inr (.inl shorter)
  · left
    rcases prefix_of_spellingLength? there with ⟨front', size'⟩
    have lengths : mark'.spelling.toList.length = mark.spelling.toList.length := by omega
    have whole := (List.prefix_of_prefix_length_le front' front (by omega)).eq_of_length lengths
    rw [spelling_injective (String.toList_inj.mp whole)]

/-- Where neither a word nor a numeral, a literal, a space or a comment starts, only symbols can
match. -/
theorem symbol_of_length? {rule : Rule} {length : Nat}
    (found : rule.length? (first :: rest) = some length) (newline : ¬first = '\n')
    (blockComment : ¬(first = '/' ∧ rest.head? = some '*')) (space : ¬isSpace first = true)
    (lineComment : ¬(first = '#' ∨ first = '/' ∧ rest.head? = some '/'))
    (digit : ¬first.isDigit = true) (name : ¬isNameStart first = true)
    (apostrophe : ¬first = '\'') (quotationMark : ¬first = '"') : ∃ mark, rule = symbol mark := by
  have opens := opens_of_length? found
  cases rule with
  | symbol mark => exact ⟨mark, rfl⟩
  | keyword word => exact absurd (isNameStart_of_opens opens) name
  | lineComment | blockComment =>
      unfold length? at found
      split at found <;> simp_all
  | _ => simp_all [Rule.opens]

end Longest

end Scanner.Rule

/-- What the scanner does with a segment. -/
def Segment.Role.action : Segment.Role → Scanner.Action
  | .token kind => .emit kind
  | .oversized => .fail .integerOutOfRange
  | .skipped => .skip
  | .unterminated => .fail .unterminatedComment
  | .illegal _ => .fail .illegal

namespace Scanner

open Rule

/-- The scanner behind a text that it has taken, with `rest` to come; every line feed of the text
is counted. -/
def past (scanner : Scanner) (text rest : List Char) : Scanner where
  before := scanner.before ++ scanner.slice
  slice := text
  remainder := rest
  line := scanner.line + (text.count '\n').toUInt32

/-- A segment that is neither a line feed nor a block comment has no line feed in it. -/
theorem newline_not_mem_of_scan {first : Char} {rest : List Char} (newline : first ≠ '\n')
    (comment : ¬(first = '/' ∧ rest.head? = some '*'))
    (legal : ∀ c, (scan first rest).1 ≠ .illegal c) :
    '\n' ∉ first :: rest.take (scan first rest).2 := by
  intro mem
  rcases matches_of_scan first rest with rule | illegal
  · rcases rule.newline_mem mem with whole | opens
    · exact newline (List.cons.inj whole).1
    · rcases opens with ⟨more, same⟩
      simp only [List.cons_append, List.nil_append, List.cons.injEq] at same
      apply comment
      refine ⟨same.1.symm, ?_⟩
      cases rest with
      | nil => simp at same
      | cons d rest =>
          cases length : (scan first (d :: rest)).2 with
          | zero => simp [length] at same
          | succ count =>
              simp only [length, List.take_succ_cons, List.cons.injEq] at same
              rw [List.head?_cons, same.2.1]
  · exact legal first (congrArg Prod.fst illegal)

section Turn

variable {giveUp : List Char → Nat} {scanner : Scanner} {first : Char} {rest : List Char}

theorem turn_of_longest? {rule : Rule} {length : Nat} (here : scanner.remainder = first :: rest)
    (found : longest? (first :: rest) = some (rule, length)) :
    scanner.turn giveUp = (scanner.take length).act rule := by
  simp only [turn, here, found]

/-- A text on one line moves no lines on. -/
theorem take_eq_past {length : Nat} (here : scanner.remainder = first :: rest)
    (sameLine : '\n' ∉ first :: rest.take length) :
    scanner.take (length + 1) = scanner.past (first :: rest.take length) (rest.drop length) := by
  simp [take, past, here, List.count_eq_zero.mpr sameLine]

/-- A turn within one line leaves the line as it is. -/
theorem turn_of_sameLine {rule : Rule} {length : Nat} {action : Action}
    (here : scanner.remainder = first :: rest)
    (sameLine : '\n' ∉ first :: rest.take length)
    (found : longest? (first :: rest) = some (rule, length + 1))
    (acts : ∀ scanner : Scanner, scanner.slice = first :: rest.take length →
      scanner.act rule = some (action, scanner)) :
    scanner.turn giveUp =
      some (action, scanner.past (first :: rest.take length) (rest.drop length)) := by
  rw [turn_of_longest? here found, acts (scanner.take (length + 1)) (by simp [take, here]),
    take_eq_past here sameLine]

/-- A comment has both of its ends. -/
theorem two_le_commentLength? {text : List Char} {length : Nat}
    (found : commentLength? text = some length) : 2 ≤ length := by
  fun_induction commentLength? text generalizing length with
  | case1 => cases found
  | case2 text =>
      cases found
      exact Nat.le_refl 2
  | case3 c text other ih =>
      rcases Option.map_eq_some_iff.mp found with ⟨length', found', rfl⟩
      exact Nat.le_succ_of_le (ih found')

/-- The end of a comment is found by its byte where it is found by its character. -/
theorem commentEnd?_eq (text : List Char) :
    commentEnd? text =
      (commentLength? text).map fun length => byteLength (text.take (length - 2)) := by
  fun_induction commentLength? text with
  | case1 => rfl
  | case2 text => rfl
  | case3 c text other ih =>
      have step : commentEnd? (c :: text) = (commentEnd? text).map (· + c.utf8Size) := by
        rw [commentEnd?]
        exact other
      rw [step, ih]
      cases found : commentLength? text with
      | none => rfl
      | some length =>
          rcases Nat.exists_eq_add_of_le' (two_le_commentLength? found) with ⟨more, rfl⟩
          change some (byteLength (text.take more) + c.utf8Size) =
            some (byteLength (c :: text.take more))
          rw [byteLength, Nat.add_comm]

theorem bump?_byteLength {more : List Char} (here : scanner.remainder = more ++ rest) :
    scanner.bump? (byteLength more) =
      some { scanner with slice := scanner.slice ++ more, remainder := rest } := by
  simp [bump?, here, Span.splitAtByte?_byteLength]

/-- A comment is taken up to its end, and the lines of its body are counted. -/
theorem blockComment_of_body {body : List Char} (inside : ¬['*', '/'] <:+: body)
    (here : scanner.remainder = body ++ ['*', '/'] ++ rest) :
    scanner.blockComment =
      some (.skip, ⟨scanner.before, scanner.slice ++ (body ++ ['*', '/']), rest,
        scanner.line + (body.count '\n').toUInt32⟩) := by
  have found : commentEnd? scanner.remainder = some (byteLength body) := by
    rw [commentEnd?_eq, here, List.append_assoc, List.cons_append, List.cons_append,
      List.nil_append, commentLength?_append inside]
    simp
  have cut : Span.splitAtByte? (byteLength body) scanner.remainder =
      some (body, ['*', '/'] ++ rest) := by
    rw [here, List.append_assoc, Span.splitAtByte?_byteLength]
  have bytes : byteLength body + 2 = byteLength (body ++ ['*', '/']) := by
    rw [Position.byteLength_append]
    rfl
  have counted : (scanner.countLines body).remainder = body ++ ['*', '/'] ++ rest := here
  simp only [blockComment, found, cut, bytes, bump?_byteLength counted, Option.bind_eq_bind,
    Option.bind_some]
  rfl

/-- A comment without an end takes all that is left. -/
theorem blockComment_of_unclosed (inside : ¬['*', '/'] <:+: scanner.remainder) :
    scanner.blockComment =
      some (.fail .unterminatedComment, ⟨scanner.before, scanner.slice ++ scanner.remainder, [],
        scanner.line + (scanner.remainder.count '\n').toUInt32⟩) := by
  have none : commentEnd? scanner.remainder = none := by
    rw [commentEnd?_eq, commentLength?_eq_none inside, Option.map_none]
  have counted : (scanner.countLines scanner.remainder).remainder = scanner.remainder ++ [] :=
    (List.append_nil _).symm
  simp only [blockComment, none, bump?_byteLength counted, Option.bind_eq_bind, Option.bind_some]
  rfl

/-- The rule matches the opening of a block comment only; its action takes the rest. -/
theorem turn_blockComment (here : scanner.remainder = '/' :: '*' :: rest) :
    scanner.turn giveUp = some ((scan '/' ('*' :: rest)).1.action,
      scanner.past ('/' :: ('*' :: rest).take (scan '/' ('*' :: rest)).2)
        (('*' :: rest).drop (scan '/' ('*' :: rest)).2)) := by
  have behind : (scanner.take 2).remainder = rest := by simp [take, here]
  rw [turn_of_longest? here longest?_blockComment, act, scan_slashStar]
  cases found : commentLength? rest with
  | none =>
      rw [blockComment_of_unclosed (behind.symm ▸ not_infix_of_commentLength? found)]
      simp [take, here, past, Role.action]
  | some length =>
      rcases exists_body found with ⟨body, same, inside⟩
      have whole : (scanner.take 2).remainder = body ++ ['*', '/'] ++ rest.drop length := by
        rw [behind, ← same, List.take_append_drop]
      rw [blockComment_of_body inside whole]
      simp [take, here, past, Role.action, same]

section Words

variable (scanner : Scanner)

theorem act_integer : scanner.act .integer = some ((numeral scanner.slice).action, scanner) := by
  simp only [act, integer, numeral]
  cases Decimal.int64? scanner.slice <;> rfl

theorem act_word (name : String) (slice : String.ofList scanner.slice = name) :
    scanner.act (match Keyword.ofSpelling? name with
      | some word => .keyword word
      | none => .identifier) = some (.emit (word name), scanner) := by
  unfold word
  cases Keyword.ofSpelling? name with
  | some word => rfl
  | none => rw [act, slice]

end Words

/-- Where a segment starts, the scanner takes it, and counts the line feeds that it has. -/
theorem turn_eq (here : scanner.remainder = first :: rest)
    (legal : ∀ c, (scan first rest).1 ≠ .illegal c) :
    scanner.turn giveUp = some ((scan first rest).1.action,
      scanner.past (first :: rest.take (scan first rest).2) (rest.drop (scan first rest).2)) := by
  by_cases newline : first = '\n'
  · subst newline
    rw [turn_of_longest? here longest?_newline, scan_newline]
    simp [act, take, past, here, Role.action]
  by_cases comment : first = '/' ∧ rest.head? = some '*'
  · rcases comment with ⟨rfl, opens⟩
    rcases List.head?_eq_some_iff.mp opens with ⟨text, rfl⟩
    exact turn_blockComment here
  have sameLine := newline_not_mem_of_scan newline comment legal
  revert legal sameLine
  unfold scan
  split
  · rename_i space
    intro _ sameLine
    exact turn_of_sameLine here sameLine (longest?_spaces space) fun _ _ => rfl
  split
  · rename_i opens
    intro _ sameLine
    rcases opens with rfl | ⟨rfl, opens⟩
    · exact turn_of_sameLine here sameLine longest?_directive fun _ _ => rfl
    · rcases List.head?_eq_some_iff.mp opens with ⟨text, rfl⟩
      exact turn_of_sameLine here sameLine longest?_lineComment fun _ _ => rfl
  split
  · rename_i digit
    intro _ sameLine
    apply turn_of_sameLine here sameLine (longest?_integer digit)
    intro scanner slice
    rw [act_integer, slice, take_takeWhile]
  split
  · rename_i start
    intro _ sameLine
    apply turn_of_sameLine here sameLine (longest?_name start)
    intro scanner slice
    rw [take_takeWhile] at slice
    exact act_word scanner _ (by rw [slice])
  split
  · rename_i quote
    subst quote
    split
    · rename_i length body
      intro _ sameLine
      apply turn_of_sameLine here sameLine (longest?_character body)
      intro scanner slice
      rw [act, Scanner.body, slice, take_characterLength? body]
      simp [Role.action]
    · intro legal
      exact absurd rfl (legal _)
  split
  · rename_i quote
    subst quote
    split
    · rename_i length body
      intro _ sameLine
      apply turn_of_sameLine here sameLine (longest?_string body)
      intro scanner slice
      rw [act, Scanner.body, slice, take_stringLength? body]
      simp [Role.action]
    · intro legal
      exact absurd rfl (legal _)
  split
  · rename_i mark length found
    intro _ sameLine
    refine turn_of_sameLine here sameLine (longest?_symbol found ?_) fun _ _ => rfl
    intro rule length' there
    apply symbol_of_length? there <;> assumption
  · intro legal
    exact absurd rfl (legal _)

end Turn

end Scanner

end SubsetC
