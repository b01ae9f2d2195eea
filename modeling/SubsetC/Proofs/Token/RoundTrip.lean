import SubsetC.Proofs.Token.Scanning

/-!
# Written tokens are scanned again

A token that a source can have is scanned from its spelling, if nothing or a space stands behind it.
A sequence of such tokens with a space between two of them is therefore cut into just these tokens
and spaces. Since the tokens of a source are of this kind, `Token.lex_render` holds for all sources.
-/

namespace SubsetC

namespace Segment

/-- Nothing, or a space, with which neither a name nor a numeral can go on. -/
def Apart (after : List Char) : Prop :=
  after = [] ∨ ∃ more, after = ' ' :: more

/-- What is taken ends where something else follows. -/
theorem takeWhile_append {holds : Char → Bool} (noSpace : holds ' ' = false)
    {rest after : List Char} (all : ∀ c ∈ rest, holds c = true) (apart : Apart after) :
    (rest ++ after).takeWhile holds = rest := by
  rw [List.takeWhile_append_of_pos all]
  rcases apart with rfl | ⟨more, rfl⟩
  · simp
  · simp [noSpace]

/-- The characters that spaces and comments start with. -/
def margins : List Char :=
  [' ', '\t', '\r', '\x0c', '\n', '#', '/']

theorem clear_of_holds {holds : Char → Bool} {c : Char} (here : holds c = true)
    (notThere : margins.any holds = false) :
    isSpace c = false ∧ c ≠ '\n' ∧ c ≠ '#' ∧ c ≠ '/' := by
  have different : ∀ other ∈ margins, c ≠ other := by
    intro other mem same
    apply List.any_eq_false.mp notThere other mem
    rw [← same, here]
  simp only [margins, List.forall_mem_cons] at different
  rcases different with ⟨space, tab, carriageReturn, formFeed, newline, hash, slash, -⟩
  refine ⟨?_, newline, hash, slash⟩
  simp [isSpace, space, tab, carriageReturn, formFeed]

/-- Digits start a numeral. -/
theorem scan_digit {first : Char} (rest : List Char) (digit : first.isDigit = true) :
    scan first rest =
      (numeral (first :: rest.takeWhile Char.isDigit), (rest.takeWhile Char.isDigit).length) := by
  have clear := clear_of_holds digit (by decide)
  simp [scan, clear, digit]

theorem isDigit_of_isNameStart {c : Char} (start : isNameStart c = true) : c.isDigit = false := by
  simp only [isNameStart, Bool.or_eq_true, beq_iff_eq] at start
  rcases start with letter | rfl
  · change (decide (c.val ≥ 65 ∧ c.val ≤ 90) ||
      decide (c.val ≥ 97) && decide (c.val ≤ 122)) = true at letter
    simp only [Bool.or_eq_true, Bool.and_eq_true, decide_eq_true_eq, ge_iff_le,
      UInt32.le_iff_toNat_le] at letter
    simp only [Char.isDigit, Bool.and_eq_false_iff, decide_eq_false_iff_not, ge_iff_le,
      UInt32.le_iff_toNat_le]
    change (65 ≤ c.toNat ∧ c.toNat ≤ 90) ∨ 97 ≤ c.toNat ∧ c.toNat ≤ 122 at letter
    change ¬48 ≤ c.toNat ∨ ¬c.toNat ≤ 57
    omega
  · decide

/-- Letters start a name or a reserved word. -/
theorem scan_nameStart {first : Char} (rest : List Char) (start : isNameStart first = true) :
    scan first rest =
      (.token (word (String.ofList (first :: rest.takeWhile isNameRest))),
        (rest.takeWhile isNameRest).length) := by
  have clear := clear_of_holds start (by decide)
  have noDigit := isDigit_of_isNameStart start
  simp [scan, clear, noDigit, start]

theorem scan_apostrophe {rest : List Char} {length : Nat}
    (body : characterLength? rest = some length) :
    scan '\'' rest = (.token (.character (String.ofList (rest.take length))), length + 1) := by
  have noSpace : isSpace '\'' = false := by decide
  have noDigit : Char.isDigit '\'' = false := by decide
  have noNameStart : isNameStart '\'' = false := by decide
  simp [scan, noSpace, noDigit, noNameStart, body]

theorem scan_quotationMark {rest : List Char} {length : Nat}
    (body : stringLength? rest = some length) :
    scan '"' rest = (.token (.string (String.ofList (rest.take length))), length + 1) := by
  have noSpace : isSpace '"' = false := by decide
  have noDigit : Char.isDigit '"' = false := by decide
  have noNameStart : isNameStart '"' = false := by decide
  simp [scan, noSpace, noDigit, noNameStart, body]

/-- The token is scanned from its spelling, whatever comes apart from it. -/
structure Rescans (kind : Token.Kind) (first : Char) (rest : List Char) : Prop where
  spelling : kind.spelling.toList = first :: rest
  notSpace : isSpace first = false
  scan : ∀ after, Apart after → Segment.scan first (rest ++ after) = (.token kind, rest.length)

/-- A written number is read back. -/
theorem rescans_integer {value : Int64} (positive : 0 ≤ value.toInt) :
    ∃ first rest, Rescans (.integer value) first rest := by
  rcases Int.eq_ofNat_of_zero_le positive with ⟨n, same⟩
  have isDigit : ∀ c ∈ Decimal.digits n, c.isDigit = true :=
    fun c mem => Decimal.isDigit_of_mem_digits mem
  have spelling : (Token.Kind.integer value).spelling.toList = Decimal.digits n := by
    simp [Token.Kind.spelling, Decimal.ofInt64, same, Decimal.ofInt]
  cases digits : Decimal.digits n with
  | nil => exact absurd digits (Decimal.digits_ne_nil n)
  | cons first rest =>
      rw [digits, List.forall_mem_cons] at isDigit
      refine ⟨first, rest, spelling.trans digits, ?_, ?_⟩
      · exact (clear_of_holds isDigit.1 (by decide)).1
      · intro after apart
        have read : Decimal.int64? (first :: rest) = some value := by
          rw [← digits]
          exact Decimal.int64?_digits same
        rw [scan_digit _ isDigit.1, takeWhile_append (by decide) isDigit.2 apart, numeral, read]

theorem rescans_character {body : String} (isBody : IsCharacterBody body.toList) :
    ∃ first rest, Rescans (.character body) first rest := by
  refine ⟨'\'', body.toList ++ ['\''], ?_, by decide, ?_⟩
  · simp [Token.Kind.spelling]
  · intro after apart
    have found : characterLength? (body.toList ++ ['\''] ++ after) = some body.toList.length := by
      rw [List.append_assoc]
      exact characterLength?_append isBody after
    rw [scan_apostrophe found]
    simp

/-- A written text is read back, as it was spelled. -/
theorem rescans_string {body : String} (isBody : IsStringBody body.toList) :
    ∃ first rest, Rescans (.string body) first rest := by
  refine ⟨'"', body.toList ++ ['"'], ?_, by decide, ?_⟩
  · simp [Token.Kind.spelling]
  · intro after apart
    have found : stringLength? (body.toList ++ ['"'] ++ after) = some body.toList.length := by
      rw [List.append_assoc]
      exact stringLength?_append isBody after
    rw [scan_quotationMark found]
    simp

/-- A name is scanned as the word that it is. -/
theorem rescans_word {name : String} (isName : IsName name.toList)
    (spelling : (word name).spelling = name) : ∃ first rest, Rescans (word name) first rest := by
  cases characters : name.toList with
  | nil =>
      rw [characters] at isName
      exact isName.elim
  | cons first rest =>
      rw [characters] at isName
      refine ⟨first, rest, ?_, ?_, ?_⟩
      · rw [spelling, characters]
      · exact (clear_of_holds isName.1 (by decide)).1
      · intro after apart
        rw [scan_nameStart _ isName.1, takeWhile_append (by decide) isName.2 apart, ← characters,
          String.ofList_toList]

/-- A symbol in front of a space is read back. -/
theorem rescans_symbol (mark : Symbol) : ∃ first rest, Rescans (.symbol mark) first rest := by
  cases mark <;>
    · refine ⟨_, _, rfl, rfl, ?_⟩
      rintro after (rfl | ⟨more, rfl⟩) <;> rfl

/-- Whatever can be written is read back. -/
theorem rescans_of_written {kind : Token.Kind} (written : kind.Written) :
    ∃ first rest, Rescans kind first rest := by
  cases kind with
  | integer value => exact rescans_integer written
  | character body => exact rescans_character written
  | string body => exact rescans_string written
  | identifier name =>
      have same : word name = .identifier name := by rw [word, written.2]
      rw [← same]
      exact rescans_word written.1 (congrArg Token.Kind.spelling same)
  | keyword reserved =>
      have same : word reserved.spelling = .keyword reserved := by cases reserved <;> decide
      rw [← same]
      apply rescans_word
      · cases reserved <;> simp [Keyword.spelling, IsName] <;> decide
      · rw [same]
        rfl
  | symbol mark => exact rescans_symbol mark
  | endOfInput => exact written.elim

section Text

variable {kind : Token.Kind} {first : Char} {rest : List Char}

theorem segments_spelling (rescans : Rescans kind first rest) {after : List Char}
    (apart : Apart after) :
    segments (kind.spelling.toList ++ after) =
      ⟨.token kind, kind.spelling.toList⟩ :: segments after := by
  rw [rescans.spelling, List.cons_append, segments_cons, rescans.scan after apart]
  simp

/-- The space before a token is a segment of its own. -/
theorem segments_space (rescans : Rescans kind first rest) (after : List Char) :
    segments (' ' :: (kind.spelling.toList ++ after)) =
      ⟨.skipped, [' ']⟩ :: segments (kind.spelling.toList ++ after) := by
  rw [rescans.spelling, List.cons_append, segments_cons]
  simp [scan, rescans.notSpace, show isSpace ' ' = true from rfl]

/-- A text that is put together from tokens, with spaces between them. -/
def joined (kinds : List Token.Kind) : List Char :=
  [' '].intercalate (kinds.map fun kind => kind.spelling.toList)

theorem joined_cons_cons (kind next : Token.Kind) (kinds : List Token.Kind) :
    joined (kind :: next :: kinds) = kind.spelling.toList ++ ' ' :: joined (next :: kinds) := by
  simp [joined, List.intercalate_cons_cons]

theorem exists_joined_cons (kind : Token.Kind) (kinds : List Token.Kind) :
    ∃ after, joined (kind :: kinds) = kind.spelling.toList ++ after := by
  cases kinds with
  | nil => exact ⟨[], by simp [joined]⟩
  | cons next kinds => exact ⟨' ' :: joined (next :: kinds), joined_cons_cons kind next kinds⟩

/-- The text is cut into its tokens and the spaces between them. -/
theorem roles_joined {kinds : List Token.Kind} (written : ∀ kind ∈ kinds, kind.Written) :
    (segments (joined kinds)).map role = (kinds.map Role.token).intersperse .skipped := by
  induction kinds with
  | nil => rfl
  | cons kind kinds ih =>
      rw [List.forall_mem_cons] at written
      rcases rescans_of_written written.1 with ⟨first, rest, rescans⟩
      cases kinds with
      | nil =>
          have single : segments (kind.spelling.toList ++ []) = _ :=
            segments_spelling rescans (.inl rfl)
          simpa [joined] using congrArg (List.map role) single
      | cons next kinds =>
          -- The space is a segment of its own because the next token starts with no space.
          rcases rescans_of_written (written.2 next (.head _)) with ⟨first', rest', rescans'⟩
          rcases exists_joined_cons next kinds with ⟨after, same⟩
          have others := ih written.2
          rw [joined_cons_cons, segments_spelling rescans (.inr ⟨_, rfl⟩)]
          rw [same] at others ⊢
          rw [segments_space rescans' after, List.map_cons, List.map_cons, others]
          rfl

theorem filterMap_intersperse (kinds : List Token.Kind) :
    ((kinds.map Role.token).intersperse .skipped).filterMap Role.kind? = kinds := by
  induction kinds with
  | nil => rfl
  | cons kind kinds ih =>
      cases kinds with
      | nil => rfl
      | cons next kinds => exact congrArg (kind :: ·) ih

theorem clean_of_mem_intersperse {kinds : List Token.Kind} {role : Role}
    (mem : role ∈ (kinds.map Role.token).intersperse .skipped) :
    role = .skipped ∨ ∃ kind, role = .token kind := by
  induction kinds with
  | nil => cases mem
  | cons kind kinds ih =>
      cases kinds with
      | nil => exact .inr ⟨kind, List.mem_singleton.mp mem⟩
      | cons next kinds =>
          rcases List.mem_cons.mp mem with rfl | mem
          · exact .inr ⟨kind, rfl⟩
          · rcases List.mem_cons.mp mem with rfl | mem
            · exact .inl rfl
            · exact ih mem

end Text

end Segment

namespace TokenStream

variable {source : String} {kinds : List Token.Kind}

/-- Tokens with spaces between them are read back. -/
theorem kinds_ofSource_joined (written : ∀ kind ∈ kinds, kind.Written)
    (text : source.toList = Segment.joined kinds) :
    (ofSource source).kinds = kinds := by
  have roles := congrArg (List.filterMap Segment.Role.kind?) (Segment.roles_joined written)
  rw [List.filterMap_map, Segment.filterMap_intersperse] at roles
  rw [kinds_ofSource, text]
  exact roles

/-- No errors are found in between. -/
theorem errors_ofSource_joined (written : ∀ kind ∈ kinds, kind.Written)
    (text : source.toList = Segment.joined kinds) : (ofSource source).errors = [] := by
  apply errors_ofSegments
  intro segment mem
  rw [text] at mem
  have role := List.mem_map_of_mem (f := Segment.role) mem
  rw [Segment.roles_joined written] at role
  exact Segment.clean_of_mem_intersperse role

end TokenStream

namespace Token

theorem toList_render (tokens : List Token) :
    (render tokens).toList =
      Segment.joined ((tokens.map Token.kind).filter (· ≠ .endOfInput)) := by
  simp only [render, Segment.joined, String.toList_intercalate, List.map_map]
  rfl

/-- The end of the source is the only token that is not written. -/
theorem toList_render_lex (source : String) :
    (render (lex source).1).toList =
      Segment.joined (TokenStream.ofSource source).kinds := by
  have kept : ∀ kind ∈ (TokenStream.ofSource source).kinds, kind ≠ .endOfInput := by
    intro kind mem same
    have written := TokenStream.written_of_mem_ofSource mem
    rw [same] at written
    exact written.elim
  rw [toList_render]
  change Segment.joined (((TokenStream.ofSource source).tokens.map Token.kind).filter _) = _
  rw [TokenStream.kinds_tokens, List.filter_append, List.filter_eq_self.mpr]
  · simp
  · simpa using kept

/-- The text that is rendered from the tokens of a source is lexed into these tokens again, without
an error. -/
theorem lex_render (source : String) :
    (lex (render (lex source).1)).2 = [] ∧
      (lex (render (lex source).1)).1.map Token.kind = (lex source).1.map Token.kind := by
  have text := toList_render_lex source
  have written : ∀ kind ∈ (TokenStream.ofSource source).kinds, kind.Written := by
    intro kind mem
    exact TokenStream.written_of_mem_ofSource mem
  constructor
  · exact TokenStream.errors_ofSource_joined written text
  · change (TokenStream.ofSource _).tokens.map Token.kind =
      (TokenStream.ofSource source).tokens.map Token.kind
    rw [TokenStream.kinds_tokens, TokenStream.kinds_tokens,
      TokenStream.kinds_ofSource_joined written text]

end Token

end SubsetC
