import SubsetC.Proofs.Text.Decimal
import SubsetC.Token.Segments

/-!
# What the scanner finds

`Token.Kind.Written` describes the tokens that a source can have, independently of the scanner:
which names are identifiers, and which texts are the bodies of literals. The kinds and errors of a
stream of tokens depend on nothing but what its segments are.
-/

namespace SubsetC

namespace Segment

/-- One character, or a backslash and one character, on one line. -/
inductive IsCharacterBody : List Char → Prop where
  | plain {c : Char} (quote : c ≠ '\'') (backslash : c ≠ '\\') (sameLine : c ≠ '\n') :
      IsCharacterBody [c]
  | escaped {c : Char} (sameLine : c ≠ '\n') : IsCharacterBody ['\\', c]

/-- Characters, and backslashes with one character each, on one line. -/
inductive IsStringBody : List Char → Prop where
  | nil : IsStringBody []
  | plain {c : Char} {body : List Char} (quote : c ≠ '"') (backslash : c ≠ '\\')
      (sameLine : c ≠ '\n') (others : IsStringBody body) : IsStringBody (c :: body)
  | escaped {c : Char} {body : List Char} (sameLine : c ≠ '\n') (others : IsStringBody body) :
      IsStringBody ('\\' :: c :: body)

/-- Letters, digits and underscores, of which the first is no digit. -/
def IsName : List Char → Prop
  | [] => False
  | first :: rest => isNameStart first = true ∧ ∀ c ∈ rest, isNameRest c = true

/-- What is found between apostrophes is the body of a character. -/
theorem isCharacterBody_take {text : List Char} {length : Nat}
    (found : characterLength? text = some length) : IsCharacterBody (text.take length) := by
  unfold characterLength? at found
  split at found
  · split at found
    · cases found
    · rename_i sameLine
      cases found
      exact .escaped sameLine
  · split at found
    · cases found
    · rename_i plain
      cases found
      simp only [not_or] at plain
      exact .plain plain.1 plain.2.1 plain.2.2
  · cases found

theorem characterLength?_append {body : List Char} (isBody : IsCharacterBody body)
    (rest : List Char) : characterLength? (body ++ '\'' :: rest) = some body.length := by
  cases isBody with
  | plain quote backslash sameLine => simp [characterLength?, quote, backslash, sameLine]
  | escaped sameLine => simp [characterLength?, sameLine]

/-- What is found between quotation marks is the body of a text. -/
theorem isStringBody_take {text : List Char} {length : Nat}
    (found : stringLength? text = some length) : IsStringBody (text.take length) := by
  fun_induction stringLength? text generalizing length with
  | case1 => cases found
  | case2 text =>
      cases found
      exact .nil
  | case3 text => cases found
  | case4 c text sameLine ih =>
      rcases Option.map_eq_some_iff.mp found with ⟨length', found', rfl⟩
      exact .escaped sameLine (ih found')
  | case5 c text quote escape other => cases found
  | case6 c text quote escape plain ih =>
      rcases Option.map_eq_some_iff.mp found with ⟨length', found', rfl⟩
      simp only [not_or] at plain
      exact .plain quote plain.1 plain.2 (ih found')

theorem stringLength?_append {body : List Char} (isBody : IsStringBody body) (rest : List Char) :
    stringLength? (body ++ '"' :: rest) = some body.length := by
  induction isBody with
  | nil => rfl
  | plain quote backslash sameLine others ih =>
      rw [List.cons_append, stringLength?]
      · simp [backslash, sameLine, ih]
      · exact quote
      · intro c text same
        exact absurd same backslash
  | escaped sameLine others ih => simp [stringLength?, sameLine, ih]

end Segment

open Segment

/-- A source can have such a token. -/
def Token.Kind.Written : Token.Kind → Prop
  | integer value => 0 ≤ value.toInt
  | character body => IsCharacterBody body.toList
  | string body => IsStringBody body.toList
  | identifier name => IsName name.toList ∧ Keyword.ofSpelling? name = none
  | keyword _ => True
  | symbol _ => True
  | endOfInput => False

namespace Segment

/-- A numeral within bounds can be written. -/
theorem written_of_numeral {digits : List Char} {kind : Token.Kind} (ne_nil : digits ≠ [])
    (isDigit : ∀ c ∈ digits, c.isDigit = true) (found : numeral digits = .token kind) :
    kind.Written := by
  rw [numeral, Decimal.int64?_of_isDigit ne_nil isDigit] at found
  split at found
  · rename_i value fits
    cases found
    change 0 ≤ value.toInt
    rw [Decimal.toInt_of_int64OfInt? fits]
    exact Int.natCast_nonneg _
  · cases found

theorem written_word {name : String} (isName : IsName name.toList) : (word name).Written := by
  unfold word
  split
  · trivial
  · rename_i reserved
    exact ⟨isName, reserved⟩

/-- What is scanned as a token can be written. -/
theorem written_of_scan {first : Char} {rest : List Char} {kind : Token.Kind}
    (found : (scan first rest).1 = .token kind) : kind.Written := by
  unfold scan at found
  split at found
  · cases found
  split at found
  · cases found
  split at found
  · cases found
  split at found
  · split at found <;> cases found
  split at found
  · rename_i digit
    apply written_of_numeral (List.cons_ne_nil _ _) _ found
    rw [List.forall_mem_cons]
    exact ⟨digit, List.all_eq_true.mp List.all_takeWhile⟩
  split at found
  · rename_i start
    cases found
    apply written_word
    rw [String.toList_ofList]
    exact ⟨start, List.all_eq_true.mp List.all_takeWhile⟩
  split at found
  · split at found
    · rename_i length body
      cases found
      change IsCharacterBody (String.ofList _).toList
      rw [String.toList_ofList]
      exact isCharacterBody_take body
    · cases found
  split at found
  · split at found
    · rename_i length body
      cases found
      change IsStringBody (String.ofList _).toList
      rw [String.toList_ofList]
      exact isStringBody_take body
    · cases found
  · split at found
    · cases found
      trivial
    · cases found

theorem length_drop_le {bound : Nat} {first : Char} {rest : List Char}
    (within : (first :: rest).length ≤ bound + 1) (count : Nat) :
    (rest.drop count).length ≤ bound := by
  rw [List.length_drop]
  rw [List.length_cons] at within
  omega

theorem segmentsWithin_cons {bound : Nat} {first : Char} {rest : List Char}
    (within : (first :: rest).length ≤ bound + 1) :
    segmentsWithin (bound + 1) (first :: rest) within =
      ⟨(scan first rest).1, first :: rest.take (scan first rest).2⟩ ::
        segmentsWithin bound (rest.drop (scan first rest).2) (length_drop_le within _) := rfl

/-- Any bound gives the same segments. -/
theorem segmentsWithin_eq {bound bound' : Nat} {source : List Char}
    (within : source.length ≤ bound) (within' : source.length ≤ bound') :
    segmentsWithin bound source within = segmentsWithin bound' source within' := by
  induction bound generalizing bound' source with
  | zero =>
      cases source with
      | nil => cases bound' <;> rfl
      | cons first rest => exact absurd within (Nat.not_succ_le_zero _)
  | succ bound ih =>
      cases source with
      | nil => cases bound' <;> rfl
      | cons first rest =>
          cases bound' with
          | zero => exact absurd within' (Nat.not_succ_le_zero _)
          | succ bound' =>
              rw [segmentsWithin_cons, segmentsWithin_cons]
              exact congrArg _ (ih _ _)

@[simp]
theorem segments_nil : segments [] = [] := rfl

/-- A text is its first segment and the segments of the rest. -/
theorem segments_cons (first : Char) (rest : List Char) :
    segments (first :: rest) =
      ⟨(scan first rest).1, first :: rest.take (scan first rest).2⟩ ::
        segments (rest.drop (scan first rest).2) := by
  have within : (first :: rest).length ≤ rest.length + 1 := Nat.le_refl _
  exact congrArg _ (segmentsWithin_eq (length_drop_le within _) (Nat.le_refl _))

/-- The token that a segment becomes. -/
def Role.kind? : Role → Option Token.Kind
  | .token kind => some kind
  | .oversized => some (.integer Int64.maxValue)
  | .skipped | .unterminated | .illegal _ => none

theorem written_of_kind? {first : Char} {rest : List Char} {kind : Token.Kind}
    (found : (scan first rest).1.kind? = some kind) : kind.Written := by
  cases role : (scan first rest).1 with
  | token kind' =>
      rw [role] at found
      cases found
      exact written_of_scan role
  | oversized =>
      rw [role] at found
      cases found
      change 0 ≤ Int64.maxValue.toInt
      decide
  | skipped =>
      rw [role] at found
      cases found
  | unterminated =>
      rw [role] at found
      cases found
  | illegal character =>
      rw [role] at found
      cases found

theorem written_of_mem_segments {source : List Char} {segment : Segment} {kind : Token.Kind}
    (mem : segment ∈ segments source) (found : segment.role.kind? = some kind) :
    kind.Written := by
  match source with
  | [] => cases mem
  | first :: rest =>
      rw [segments_cons, List.mem_cons] at mem
      rcases mem with rfl | others
      · exact written_of_kind? found
      · exact written_of_mem_segments others found
termination_by source.length
decreasing_by
  rw [List.length_drop, List.length_cons]
  omega

end Segment

namespace TokenStream

/-- What the tokens are, without the one that marks the end. -/
def kinds (stream : TokenStream) : List Token.Kind :=
  stream.ahead.map fun lexeme => lexeme.token.kind

theorem kinds_tokens (stream : TokenStream) :
    stream.tokens.map Token.kind = stream.kinds ++ [.endOfInput] := by
  simp [tokens, endToken, kinds]

theorem kinds_ofSegments (position : Position) (errors : List LexicalError)
    (segments : List Segment) :
    (ofSegments position errors segments).kinds =
      segments.filterMap fun segment => segment.role.kind? := by
  induction segments generalizing position errors with
  | nil => rfl
  | cons segment segments ih =>
      rcases segment with ⟨role, text⟩
      cases role with
      | token kind => exact congrArg (kind :: ·) (ih _ _)
      | oversized => exact congrArg (_ :: ·) (ih _ _)
      | skipped => exact ih _ _
      | unterminated => exact ih _ _
      | illegal character => exact ih _ _

/-- Tokens and skipped text are no errors. -/
theorem errors_ofSegments (position : Position) {segments : List Segment}
    (clean : ∀ segment ∈ segments, segment.role = .skipped ∨ ∃ kind, segment.role = .token kind) :
    (ofSegments position [] segments).errors = [] := by
  induction segments generalizing position with
  | nil => rfl
  | cons segment segments ih =>
      rcases segment with ⟨role, text⟩
      rw [List.forall_mem_cons] at clean
      rcases clean with ⟨rfl | ⟨kind, rfl⟩, others⟩
      · exact ih _ others
      · exact ih _ others

/-- The kinds of the tokens of a source are those that its segments become. -/
theorem kinds_ofSource (source : String) :
    (ofSource source).kinds =
      (Segment.segments source.toList).filterMap fun segment => segment.role.kind? :=
  kinds_ofSegments _ _ _

/-- All tokens of a source can be written. -/
theorem written_of_mem_ofSource {source : String} {kind : Token.Kind}
    (mem : kind ∈ (ofSource source).kinds) : kind.Written := by
  rw [kinds_ofSource, List.mem_filterMap] at mem
  rcases mem with ⟨segment, mem, found⟩
  exact Segment.written_of_mem_segments mem found

end TokenStream

end SubsetC
