import Mathlib.Order.Bounds.Basic
import SubsetC.Format

/-!
# What a format is

A text is a format just if it is spelled as one: with at most one conversion, and with every other
percent sign twice. Any other text is refused for the leftmost piece of it that is at fault, where a
percent sign and the character behind it are one piece. `reading_parse` says what every text begins
with and what comes of it, and the rest is read off it.
-/

namespace SubsetC

namespace Conversion

theorem ofLetter?_letter (conversion : Conversion) :
    ofLetter? conversion.letter = some conversion := by
  cases conversion <;> rfl

/-- A conversion is told by its letter. -/
theorem eq_letter_of_ofLetter? {letter : Char} {conversion : Conversion}
    (known : ofLetter? letter = some conversion) : letter = conversion.letter := by
  unfold ofLetter? at known
  split at known <;> cases known <;> rfl

end Conversion

namespace Format

/-- The character as a format has it. -/
def written : Char → List Char
  | '%' => ['%', '%']
  | c => [c]

/-- The characters of the format, with its conversion between two texts. -/
def spelled (format : Format) : List Char :=
  format.before.toList.flatMap written ++
    format.conversion.toList.flatMap (fun conversion => conversion.specifier.toList) ++
      format.after.toList.flatMap written

/-- Nothing stands behind a conversion that there is not. -/
def WellFormed (format : Format) : Prop :=
  format.conversion = none → format.after = ""

section Reading

theorem upToConversion_written (c : Char) (rest : List Char) :
    upToConversion (written c ++ rest) =
      (upToConversion rest).map fun (text, found) => (c :: text, found) := by
  unfold written
  split
  · rfl
  · rename_i percent
    rw [List.singleton_append, upToConversion]
    · intro same
      exact absurd same percent
    · intro more same
      exact absurd same percent
    · intro letter more same
      exact absurd same percent

theorem upToConversion_flatMap_append (text rest : List Char) :
    upToConversion (text.flatMap written ++ rest) =
      (upToConversion rest).map fun (more, found) => (text ++ more, found) := by
  induction text with
  | nil =>
      rw [List.flatMap_nil, List.nil_append]
      rcases upToConversion rest with error | ⟨more, found⟩ <;> rfl
  | cons c text ih =>
      rw [List.flatMap_cons, List.append_assoc, upToConversion_written, ih]
      rcases upToConversion rest with error | ⟨more, found⟩ <;> rfl

/-- What a text begins with that cannot be read. -/
inductive Breaks : List Char → FormatError → Prop
  | lone : Breaks ['%'] (.unsupported "%")
  | unsupported {letter : Char} (rest : List Char) (other : letter ≠ '%')
      (unknown : Conversion.ofLetter? letter = none) :
      Breaks ('%' :: letter :: rest) (.unsupported (String.ofList ['%', letter]))

variable (text : List Char)

/-- Written pieces are read back as they are. -/
theorem upToConversion_flatMap : upToConversion (text.flatMap written) = .ok (text, none) := by
  have whole := upToConversion_flatMap_append text []
  simpa [upToConversion, Except.map] using whole

theorem upToConversion_converts (conversion : Conversion) (rest : List Char) :
    upToConversion (text.flatMap written ++ '%' :: conversion.letter :: rest) =
      .ok (text, some (conversion, rest)) := by
  have here : upToConversion ('%' :: conversion.letter :: rest) =
      .ok ([], some (conversion, rest)) := by
    cases conversion <;> rfl
  simp [upToConversion_flatMap_append, here, Except.map]

/-- Where the text breaks, the error is found, whatever has been read before it. -/
theorem upToConversion_breaks {rest : List Char} {error : FormatError}
    (breaks : Breaks rest error) :
    upToConversion (text.flatMap written ++ rest) = .error error := by
  have here : upToConversion rest = .error error := by
    cases breaks with
    | lone => rfl
    | unsupported rest other unknown =>
        rw [upToConversion]
        · simp only [unknown]
        · exact other
  simp [upToConversion_flatMap_append, here, Except.map]

/-- Every text is a written one up to its end, to a conversion or to something that breaks it. -/
theorem exists_written (chars : List Char) :
    ∃ text rest : List Char, chars = text.flatMap written ++ rest ∧
      (rest = [] ∨ (∃ conversion more, rest = '%' :: Conversion.letter conversion :: more) ∨
        ∃ error, Breaks rest error) := by
  induction chars using upToConversion.induct with
  | case1 => exact ⟨[], [], rfl, .inl rfl⟩
  | case2 => exact ⟨[], ['%'], rfl, .inr (.inr ⟨_, .lone⟩)⟩
  | case3 rest ih =>
      rcases ih with ⟨text, more, rfl, stops⟩
      exact ⟨'%' :: text, more, rfl, stops⟩
  | case4 letter rest percent conversion known =>
      rw [Conversion.eq_letter_of_ofLetter? known]
      exact ⟨[], _, rfl, .inr (.inl ⟨conversion, rest, rfl⟩)⟩
  | case5 letter rest percent unknown =>
      exact ⟨[], _, rfl, .inr (.inr ⟨_, .unsupported rest percent unknown⟩)⟩
  | case6 c rest lone doubled pair ih =>
      rcases ih with ⟨text, more, rfl, stops⟩
      have plain : c ≠ '%' := by
        rintro rfl
        cases behind : text.flatMap written ++ more with
        | nil => exact lone rfl behind
        | cons letter late => exact pair letter late rfl behind
      refine ⟨c :: text, more, ?_, stops⟩
      rw [List.flatMap_cons, written]
      · rfl
      · exact plain

/-- What comes of a text: the format that it is spelled as, or why it is none. What has been read
before the fault is a format. -/
inductive Reading : List Char → Except FormatError Format → Prop
  | spelled {format : Format} (wellFormed : format.WellFormed) : Reading format.spelled (.ok format)
  | broken {format : Format} {rest : List Char} {error : FormatError}
      (wellFormed : format.WellFormed) (breaks : Breaks rest error) :
      Reading (format.spelled ++ rest) (.error error)
  | second {format : Format} {rest : List Char} (conversion : Conversion)
      (converts : format.conversion.isSome = true) :
      Reading (format.spelled ++ '%' :: conversion.letter :: rest) (.error .tooManyConversions)

theorem reading_parse (text : String) : Reading text.toList (parse text) := by
  have plain (before : List Char) : WellFormed ⟨String.ofList before, none, ""⟩ := fun _ => rfl
  unfold parse
  rcases exists_written text.toList with
    ⟨before, rest, chars, rfl | ⟨conversion, rest, rfl⟩ | ⟨error, breaks⟩⟩
  · have reading := Reading.spelled (plain before)
    rw [chars, List.append_nil, upToConversion_flatMap]
    change Reading _ (.ok ⟨String.ofList before, none, ""⟩)
    simpa [spelled] using reading
  · have middle (after rest : List Char) :
        before.flatMap written ++ '%' :: conversion.letter :: (after.flatMap written ++ rest) =
          spelled ⟨String.ofList before, some conversion, String.ofList after⟩ ++ rest := by
      simp [spelled, Conversion.specifier]
    rw [chars, upToConversion_converts]
    change Reading _ (upToConversion rest >>= _)
    rcases exists_written rest with
      ⟨after, rest, rfl, rfl | ⟨second, rest, rfl⟩ | ⟨error, breaks⟩⟩
    · rw [middle, List.append_nil, List.append_nil, upToConversion_flatMap]
      exact .spelled nofun
    · rw [middle, upToConversion_converts]
      exact .second second rfl
    · rw [middle, upToConversion_breaks after breaks]
      exact .broken nofun breaks
  · have reading := Reading.broken (plain before) breaks
    rw [chars, upToConversion_breaks before breaks]
    change Reading _ (.error error)
    simpa [spelled] using reading

/-- What is spelled as a format is read as this format. -/
theorem parse_spelled {text : String} {format : Format} (wellFormed : format.WellFormed)
    (same : text.toList = format.spelled) : parse text = .ok format := by
  rcases format with ⟨before, conversion, after⟩
  unfold parse
  cases conversion with
  | none =>
      have empty : after = "" := wellFormed rfl
      have chars : text.toList = before.toList.flatMap written := by
        simpa [spelled, empty] using same
      rw [chars, upToConversion_flatMap, empty]
      change Except.ok (Format.mk (String.ofList before.toList) none "") = _
      rw [String.ofList_toList]
  | some conversion =>
      have chars : text.toList =
          before.toList.flatMap written ++ '%' :: conversion.letter ::
            after.toList.flatMap written := by
        simpa [spelled, Conversion.specifier] using same
      rw [chars, upToConversion_converts]
      change upToConversion (after.toList.flatMap written) >>= _ = _
      rw [upToConversion_flatMap]
      change Except.ok (Format.mk (String.ofList before.toList) (some conversion)
        (String.ofList after.toList)) = _
      rw [String.ofList_toList, String.ofList_toList]

/-- A text is read just if it is spelled so. -/
theorem parse_eq_ok_iff {text : String} {format : Format} :
    parse text = .ok format ↔ format.WellFormed ∧ text.toList = format.spelled := by
  constructor
  · intro parsed
    have reading := reading_parse text
    rw [parsed] at reading
    generalize text.toList = chars at reading ⊢
    cases reading with
    | spelled wellFormed => exact ⟨wellFormed, rfl⟩
  · rintro ⟨wellFormed, same⟩
    exact parse_spelled wellFormed same

end Reading

/-- What a text is read as from left to right. -/
inductive Piece where
  /-- A character that is no percent sign. -/
  | plain (c : Char)
  /-- A percent sign with the character behind it. -/
  | pair (c : Char)
  /-- A percent sign at the end. -/
  | lone
  deriving DecidableEq, Repr

/-- The pieces of a text. -/
def pieces : List Char → List Piece
  | [] => []
  | ['%'] => [.lone]
  | '%' :: c :: rest => .pair c :: pieces rest
  | c :: rest => .plain c :: pieces rest

namespace Piece

/-- The piece is a conversion. -/
def converts : Piece → Bool
  | pair c => (Conversion.ofLetter? c).isSome
  | plain _ | lone => false

/-- What is wrong with a piece that stands behind others. -/
def fault? (earlier : List Piece) : Piece → Option FormatError
  | plain _ => none
  | pair '%' => none
  | pair c =>
    match Conversion.ofLetter? c with
    | none => some (.unsupported (String.ofList ['%', c]))
    | some _ => if earlier.any converts then some .tooManyConversions else none
  | lone => some (.unsupported "%")

/-- The piece that a written character is. -/
def ofWritten (c : Char) : Piece :=
  if c = '%' then pair c else plain c

end Piece

section Pieces

/-- Something is wrong with the piece at the index. -/
def Offends (pieces : List Piece) (index : Nat) : Prop :=
  ∃ piece, pieces[index]? = some piece ∧ (piece.fault? (pieces.take index)).isSome = true

/-- This is wrong with the leftmost piece with which something is wrong. -/
def FirstFault (pieces : List Piece) (error : FormatError) : Prop :=
  ∃ index piece, pieces[index]? = some piece ∧ piece.fault? (pieces.take index) = some error ∧
    IsLeast {index | Offends pieces index} index

theorem fault?_ofWritten (earlier : List Piece) (c : Char) :
    (Piece.ofWritten c).fault? earlier = none := by
  unfold Piece.ofWritten
  split
  · rename_i same
    rw [same]
    rfl
  · rfl

theorem converts_ofWritten (c : Char) : (Piece.ofWritten c).converts = false := by
  unfold Piece.ofWritten
  split
  · rename_i same
    rw [same]
    rfl
  · rfl

theorem fault?_letter (earlier : List Piece) (conversion : Conversion) :
    (Piece.pair conversion.letter).fault? earlier =
      if earlier.any Piece.converts then some .tooManyConversions else none := by
  cases conversion <;> rfl

theorem pieces_flatMap_append (text rest : List Char) :
    pieces (text.flatMap written ++ rest) = text.map Piece.ofWritten ++ pieces rest := by
  induction text with
  | nil => rfl
  | cons c text ih =>
      rw [List.flatMap_cons, List.append_assoc, List.map_cons, List.cons_append, ← ih]
      unfold written Piece.ofWritten
      split
      · rfl
      · rename_i percent
        rw [if_neg percent, List.singleton_append, pieces]
        · intro same
          exact absurd same percent
        · intro letter more same
          exact absurd same percent

/-- The pieces of the format as it is spelled. -/
def spelledPieces (format : Format) : List Piece :=
  format.before.toList.map Piece.ofWritten ++
    format.conversion.toList.map (fun conversion => .pair conversion.letter) ++
      format.after.toList.map Piece.ofWritten

/-- The pieces of a text that is spelled from pieces. -/
theorem pieces_spelled_append (format : Format) (rest : List Char) :
    pieces (format.spelled ++ rest) = format.spelledPieces ++ pieces rest := by
  have specified (rest : List Char) :
      pieces (format.conversion.toList.flatMap (fun conversion => conversion.specifier.toList) ++
        rest) = format.conversion.toList.map (fun conversion => .pair conversion.letter) ++
          pieces rest := by
    cases format.conversion with
    | none => rfl
    | some conversion => simp [Conversion.specifier, pieces]
  simp only [spelled, spelledPieces, List.append_assoc, pieces_flatMap_append, specified]

theorem any_converts_spelledPieces (format : Format) :
    format.spelledPieces.any Piece.converts = format.conversion.isSome := by
  have nowhere (text : List Char) : (text.map Piece.ofWritten).any Piece.converts = false := by
    simp [converts_ofWritten]
  cases known : format.conversion with
  | none => simp [spelledPieces, known, nowhere]
  | some conversion =>
      simp [spelledPieces, known, nowhere, Piece.converts, Conversion.ofLetter?_letter]

/-- Pieces with which nothing is wrong go on with others of this kind. -/
theorem not_offends_append {early late : List Piece} (sound : ∀ index, ¬Offends early index)
    (harmless : ∀ (offset : Nat) (piece : Piece), late[offset]? = some piece →
      piece.fault? (early ++ late.take offset) = none) (index : Nat) :
    ¬Offends (early ++ late) index := by
  rintro ⟨piece, here, faulty⟩
  by_cases inside : index < early.length
  · rw [List.getElem?_append_left inside] at here
    rw [List.take_append_of_le_length (by omega)] at faulty
    exact sound index ⟨piece, here, faulty⟩
  · rcases Nat.exists_eq_add_of_le (Nat.le_of_not_lt inside) with ⟨offset, rfl⟩
    rw [List.getElem?_append_right (by omega), Nat.add_sub_cancel_left] at here
    rw [List.take_length_add_append, harmless offset piece here] at faulty
    cases faulty

theorem not_offends_spelledPieces (format : Format) :
    ∀ index, ¬Offends format.spelledPieces index := by
  have harmless (text : List Char) (earlier : List Piece) (offset : Nat) (piece : Piece)
      (here : (text.map Piece.ofWritten)[offset]? = some piece) :
      piece.fault? earlier = none := by
    rw [List.getElem?_map, Option.map_eq_some_iff] at here
    rcases here with ⟨c, -, rfl⟩
    exact fault?_ofWritten earlier c
  have start (index : Nat) : ¬Offends [] index := by
    rintro ⟨piece, here, -⟩
    cases here
  apply not_offends_append
  · apply not_offends_append
    · exact not_offends_append start fun _ _ => harmless format.before.toList _ _ _
    · intro offset piece here
      rcases format with ⟨before, _ | conversion, after⟩
      · cases here
      · rcases offset with _ | offset
        · cases here
          simp [fault?_letter, converts_ofWritten]
        · cases here
  · exact fun _ _ => harmless format.after.toList _ _ _

theorem firstFault_append {early late : List Piece} {piece : Piece} {error : FormatError}
    (sound : ∀ index, ¬Offends early index) (faulty : piece.fault? early = some error) :
    FirstFault (early ++ piece :: late) error := by
  have here : (early ++ piece :: late)[early.length]? = some piece := by simp
  have before : (early ++ piece :: late).take early.length = early := by simp
  refine ⟨early.length, piece, here, by rw [before, faulty], ⟨piece, here, ?_⟩, ?_⟩
  · rw [before, faulty]
    rfl
  · rintro index ⟨other, there, faulty'⟩
    by_contra earlier
    rw [List.getElem?_append_left (by omega)] at there
    rw [List.take_append_of_le_length (by omega)] at faulty'
    exact sound index ⟨other, there, faulty'⟩

/-- There is one first fault. -/
theorem FirstFault.unique {pieces : List Piece} {error error' : FormatError}
    (first : FirstFault pieces error) (second : FirstFault pieces error') : error = error' := by
  rcases first with ⟨index, piece, here, faulty, least⟩
  rcases second with ⟨index', piece', here', faulty', least'⟩
  cases least.unique least'
  cases here.symm.trans here'
  exact Option.some.inj (faulty.symm.trans faulty')

theorem firstFault_of_breaks {format : Format} {rest : List Char} {error : FormatError}
    (breaks : Breaks rest error) : FirstFault (pieces (format.spelled ++ rest)) error := by
  rw [pieces_spelled_append]
  cases breaks with
  | lone => exact firstFault_append format.not_offends_spelledPieces rfl
  | unsupported rest other unknown =>
      apply firstFault_append format.not_offends_spelledPieces
      rw [Piece.fault?]
      · simp only [unknown]
      · exact other

/-- What reading stops at is the first fault. -/
theorem firstFault_of_reading {chars : List Char} {error : FormatError}
    (reading : Reading chars (.error error)) : FirstFault (pieces chars) error := by
  cases reading with
  | broken wellFormed breaks => exact firstFault_of_breaks breaks
  | @second format rest conversion converts =>
      rw [pieces_spelled_append]
      apply firstFault_append format.not_offends_spelledPieces
      have known := any_converts_spelledPieces format
      rw [converts] at known
      rw [fault?_letter, known, if_pos rfl]

end Pieces

/-- A text is a format just if it is spelled as one, and then as no other one. Any other text is
refused for what is wrong with the leftmost piece with which something is wrong. -/
theorem parse_exact (text : String) :
    (∀ format, parse text = .ok format ↔ format.WellFormed ∧ text.toList = format.spelled) ∧
    {format : Format | format.WellFormed ∧ text.toList = format.spelled}.Subsingleton ∧
    ((∃ error, parse text = .error error) ↔
      ¬∃ format : Format, format.WellFormed ∧ text.toList = format.spelled) ∧
    ∀ error, parse text = .error error ↔ FirstFault (pieces text.toList) error := by
  refine ⟨fun format => parse_eq_ok_iff, ?_, ?_, ?_⟩
  · intro format spells format' spells'
    exact Except.ok.inj ((parse_eq_ok_iff.mpr spells).symm.trans (parse_eq_ok_iff.mpr spells'))
  · simp only [← parse_eq_ok_iff]
    cases parse text with
    | ok format => simp
    | error error => simp
  · intro error
    have reading := reading_parse text
    constructor
    · intro failed
      rw [failed] at reading
      exact firstFault_of_reading reading
    · intro first
      cases parsed : parse text with
      | error error' =>
          rw [parsed] at reading
          rw [(firstFault_of_reading reading).unique first]
      | ok format =>
          rcases first with ⟨index, -, -, -, offends, -⟩
          have pieces := format.pieces_spelled_append []
          rw [List.append_nil, ← (parse_eq_ok_iff.mp parsed).2] at pieces
          rw [Set.mem_ofPred_eq, pieces, Format.pieces, List.append_nil] at offends
          exact absurd offends (format.not_offends_spelledPieces index)

/-- Percent signs count in pairs. -/
example : parse "%%%d%%%c" = .error .tooManyConversions ∧
    parse "%d%%d%" = .error (.unsupported "%") ∧
    parse "%%%d%%d" = .ok ⟨"%", some .decimal, "%d"⟩ := by decide

end Format

end SubsetC
