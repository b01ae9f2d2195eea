import Mathlib.Algebra.Group.Nat.Even
import Mathlib.Data.List.TakeWhile
import SubsetC.Proofs.Token.Scanning
import SubsetC.Text.Escape

/-!
# Escapes in literals

The bodies of character literals and of string literals are read by two functions with a table of
escapes each. The tables say the same (`meaningInCharacter_eq`), so `Escape.char` is the first
character of `Escape.string`, and all of it for the body of a character literal. The string that a
body stands for can be told piece by piece, as long as no piece ends between a backslash and the
character after it: where it does, `Escape.backslashes` is odd.
-/

namespace SubsetC

open Segment

namespace Escape

/-- How many backslashes a text ends in. -/
def backslashes (text : List Char) : Nat :=
  (text.reverse.takeWhile (· = '\\')).length

theorem backslashes_nil : backslashes [] = 0 := rfl

theorem backslashes_append (left right : List Char) :
    backslashes (left ++ right) =
      if right.all (· = '\\') then right.length + backslashes left else backslashes right := by
  have whole : (right.reverse.takeWhile (· = '\\')).length = right.reverse.length ↔
      right.all (· = '\\') = true := by
    have shorter := List.takeWhile_prefix (p := (· = '\\')) (l := right.reverse)
    constructor
    · intro sameLength
      simpa using List.takeWhile_eq_self_iff.mp (shorter.eq_of_length sameLength)
    · intro backslashes
      rw [List.takeWhile_eq_self_iff.mpr (by simpa using backslashes)]
  simp only [backslashes, List.reverse_append, List.takeWhile_append, whole]
  split <;> simp

/-- In front of a text, whole escapes do not change whether the text ends inside one. -/
theorem even_backslashes_append {left : List Char} (closed : Even (backslashes left))
    (right : List Char) : Even (backslashes (left ++ right)) ↔ Even (backslashes right) := by
  have alone := backslashes_append [] right
  rw [List.nil_append] at alone
  rw [backslashes_append, alone, backslashes_nil]
  split
  · simp [Nat.even_add, closed]
  · rfl

/-- Another character ends a row of backslashes. -/
theorem even_backslashes_cons {c : Char} (plain : c ≠ '\\') (rest : List Char) :
    Even (backslashes (c :: rest)) ↔ Even (backslashes rest) := by
  have closed : Even (backslashes [c]) := by simp [backslashes, plain]
  exact even_backslashes_append closed rest

/-- Two backslashes change nothing. -/
theorem even_backslashes_pair (c : Char) (rest : List Char) :
    Even (backslashes ('\\' :: c :: rest)) ↔ Even (backslashes rest) := by
  have closed : Even (backslashes ['\\', c]) := by
    by_cases backslash : c = '\\'
    · subst backslash
      exact ⟨1, rfl⟩
    · simp [backslashes, backslash]
  exact even_backslashes_append closed rest

theorem not_even_backslashes_singleton : ¬ Even (backslashes ['\\']) :=
  Nat.not_even_one

/-- A character that is no backslash stands for itself. -/
theorem decode_cons {c : Char} (plain : c ≠ '\\') (rest : List Char) :
    decode (c :: rest) = c :: decode rest := by
  rw [decode]
  · exact fun backslash _ => plain backslash
  · exact fun d rest backslash _ => plain backslash

/-- A text is read in steps of one character, or of a backslash and what it stands before. -/
@[elab_as_elim]
theorem induction {motive : List Char → Prop} (nil : motive []) (lone : motive ['\\'])
    (pair : ∀ c rest, motive rest → motive ('\\' :: c :: rest))
    (plain : ∀ c rest, c ≠ '\\' → motive rest → motive (c :: rest)) (text : List Char) :
    motive text := by
  fun_induction decode text with
  | case1 => exact nil
  | case2 => exact lone
  | case3 c rest ih => exact pair c rest ih
  | case4 c rest notLone notPair ih =>
      apply plain c rest _ ih
      rintro rfl
      cases rest with
      | nil => exact notLone rfl rfl
      | cons d rest => exact notPair d rest rfl rfl

/-- Escapes are decoded piece by piece, as long as no piece ends inside one. -/
theorem decode_append {left : List Char} (closed : Even (backslashes left)) (right : List Char) :
    decode (left ++ right) = decode left ++ decode right := by
  induction left using induction with
  | nil => rfl
  | lone => exact absurd closed not_even_backslashes_singleton
  | pair c rest ih =>
      have others := ih ((even_backslashes_pair c rest).mp closed)
      simp [decode, others]
  | plain c rest plain ih =>
      have others := ih ((even_backslashes_cons plain rest).mp closed)
      simp [decode_cons plain, others]

/-- A text that is cut behind whole escapes is decoded in parts. -/
theorem string_append {left : String} (closed : Even (backslashes left.toList)) (right : String) :
    string (left ++ right) = string left ++ string right := by
  simp [string, String.toList_append, decode_append closed, String.ofList_append]

/-- The table for characters and the one for strings have the same entries, and what is in neither
stands for itself in both. -/
theorem meaningInCharacter_eq (c : Char) : meaningInCharacter c = meaningInString c := by
  unfold meaningInCharacter meaningInString
  split <;> simp_all

/-- The string of some text begins with the character of that text. -/
theorem head?_string {body : String} (ne_empty : body ≠ "") :
    (string body).toList.head? = some (char body) := by
  rw [Ne, ← String.toList_eq_nil_iff] at ne_empty
  unfold char string
  rw [String.toList_ofList]
  cases same : body.toList using induction with
  | nil => exact absurd same ne_empty
  | lone => rfl
  | pair c rest => simp [decode, meaningInCharacter_eq]
  | plain c rest plain =>
      rw [decode_cons plain]
      split <;> simp_all

/-- The body of a character literal stands for one character. -/
theorem exists_decode_eq_singleton {body : List Char} (isBody : IsCharacterBody body) :
    ∃ c, decode body = [c] := by
  cases isBody with
  | plain quote backslash sameLine => exact ⟨_, decode_cons backslash _⟩
  | escaped sameLine => exact ⟨_, rfl⟩

/-- A text of one escape stands for one character. -/
theorem string_eq_singleton {body : String} (isBody : IsCharacterBody body.toList) :
    string body = String.singleton (char body) := by
  rcases exists_decode_eq_singleton isBody with ⟨c, decodes⟩
  have ne_empty : body ≠ "" := by
    rintro rfl
    cases decodes
  have first := head?_string ne_empty
  rw [string, decodes, String.toList_ofList, List.head?_cons, Option.some_inj] at first
  rw [string, decodes, first, String.singleton_eq_ofList]

end Escape

namespace Segment

/-- Between quotation marks, backslashes at the end come in pairs. -/
theorem IsStringBody.even_backslashes {body : List Char} (isBody : IsStringBody body) :
    Even (Escape.backslashes body) := by
  induction isBody with
  | nil => exact ⟨0, rfl⟩
  | plain quote backslash sameLine others ih =>
      exact (Escape.even_backslashes_cons backslash _).mpr ih
  | escaped sameLine others ih => exact (Escape.even_backslashes_pair _ _).mpr ih

/-- A part of a string literal's body that ends outside of an escape is a body itself. -/
theorem IsStringBody.of_append {left right : List Char} (isBody : IsStringBody (left ++ right))
    (closed : Even (Escape.backslashes left)) : IsStringBody left := by
  induction left using Escape.induction with
  | nil => exact .nil
  | lone => exact absurd closed Escape.not_even_backslashes_singleton
  | pair c rest ih =>
      cases isBody with
      | plain quote backslash sameLine others => exact absurd rfl backslash
      | escaped sameLine others =>
          exact .escaped sameLine (ih others ((Escape.even_backslashes_pair c rest).mp closed))
  | plain c rest plain ih =>
      rw [List.cons_append] at isBody
      generalize behind : rest ++ right = text at isBody ih
      cases isBody with
      | plain quote backslash sameLine others =>
          exact .plain quote plain sameLine
            (ih others ((Escape.even_backslashes_cons plain rest).mp closed))
      | escaped sameLine others => exact absurd rfl plain

end Segment

/-- Characters and strings are read alike. A character is the first one of the string that the same
text stands for, and NUL for no text; a character literal stands for one character in both ways. The
body of a string literal can be told in two parts wherever the first does not end inside an escape,
which is wherever it is a body itself. -/
theorem string_char_agree :
    (∀ body, (body = "" → Escape.char body = '\x00') ∧
      (body ≠ "" → (Escape.string body).toList.head? = some (Escape.char body))) ∧
    (∀ source body, .character body ∈ (TokenStream.ofSource source).kinds →
      Escape.string body = String.singleton (Escape.char body)) ∧
    (∀ source left right, .string (left ++ right) ∈ (TokenStream.ofSource source).kinds →
      (Even (Escape.backslashes left.toList) ↔ IsStringBody left.toList) ∧
      (Even (Escape.backslashes left.toList) →
        Escape.string (left ++ right) = Escape.string left ++ Escape.string right)) := by
  refine ⟨fun body => ⟨?_, Escape.head?_string⟩, ?_, ?_⟩
  · rintro rfl
    rfl
  · intro source body mem
    exact Escape.string_eq_singleton (TokenStream.written_of_mem_ofSource mem)
  · intro source left right mem
    have isBody : IsStringBody (left ++ right).toList := TokenStream.written_of_mem_ofSource mem
    rw [String.toList_append] at isBody
    exact ⟨⟨isBody.of_append, IsStringBody.even_backslashes⟩,
      fun closed => Escape.string_append closed right⟩

/-- An escape without a meaning of its own, a character literal, and a body cut behind an escaped
backslash. -/
theorem string_char_agree_backslash :
    (Escape.string "\\q").toList.head? = some (Escape.char "\\q") ∧
      Escape.string "\\n" = String.singleton '\n' ∧
      Escape.string "\\\\n" = Escape.string "\\\\" ++ Escape.string "n" := by
  rcases string_char_agree with ⟨whole, character, string⟩
  exact ⟨(whole "\\q").2 (by decide), character "'\\n'" _ (by decide +kernel),
    (string "\"\\\\n\"" "\\\\" "n" (by decide +kernel)).2 (by decide +kernel)⟩

end SubsetC
