import Mathlib.Tactic.IntervalCases
import SubsetC.Text.Escape
import SubsetC.Text.Quoted

/-!
# Reading quoted text

`Quoted.unescape` takes the first character back from a quoted text and leaves the others. So a
quoted text shows where it ends and what it stands for, whatever stands behind it. It has no
character in it that would not show, and in particular no line break.
-/

namespace SubsetC.Quoted

/-- The value of a hexadecimal digit. -/
def hexDigit (c : Char) : Nat :=
  if c.isDigit then c.toNat - '0'.toNat else c.toNat - 'a'.toNat + 10

/-- The number whose hexadecimal digits go on up to a brace, and what is behind it. -/
def hexadecimal : Nat → List Char → Nat × List Char
  | n, [] => (n, [])
  | n, '}' :: rest => (n, rest)
  | n, c :: rest => hexadecimal (16 * n + hexDigit c) rest

theorem hexadecimal_digitChar {digit : Nat} (small : digit < 16) (n : Nat) (rest : List Char) :
    hexadecimal n (digit.digitChar :: rest) = hexadecimal (16 * n + digit) rest := by
  interval_cases digit <;> rfl

/-- Hexadecimal digits are read back as the number. -/
theorem hexadecimal_toDigits (n : Nat) (rest : List Char) :
    hexadecimal 0 (Nat.toDigits 16 n ++ rest) = hexadecimal n rest := by
  induction n using Nat.strongRecOn generalizing rest with
  | ind n ih =>
      by_cases small : n < 16
      · rw [Nat.toDigits_of_lt_base small, List.singleton_append, hexadecimal_digitChar small]
        simp
      · rw [Nat.toDigits_of_base_le (by decide) (Nat.le_of_not_lt small), List.append_assoc,
          List.singleton_append, ih (n / 16) (by omega),
          hexadecimal_digitChar (Nat.mod_lt n (by decide)), Nat.div_add_mod]

theorem exists_of_mem_toDigits {n : Nat} {c : Char} (mem : c ∈ Nat.toDigits 16 n) :
    ∃ digit < 16, c = digit.digitChar := by
  induction n using Nat.strongRecOn with
  | ind n ih =>
      by_cases small : n < 16
      · rw [Nat.toDigits_of_lt_base small, List.mem_singleton] at mem
        exact ⟨n, small, mem⟩
      · rw [Nat.toDigits_of_base_le (by decide) (Nat.le_of_not_lt small), List.mem_append,
          List.mem_singleton] at mem
        rcases mem with front | last
        · exact ih (n / 16) (by omega) front
        · exact ⟨n % 16, Nat.mod_lt n (by decide), last⟩

/-- The first character that is quoted here, and the text behind it. -/
def unescape : List Char → Char × List Char
  | [] => ('\x00', [])
  | '\\' :: 'u' :: '{' :: rest =>
    let (code, rest) := hexadecimal 0 rest
    (Char.ofNat code, rest)
  | '\\' :: c :: rest => (Escape.meaningInString c, rest)
  | c :: rest => (c, rest)

theorem unescape_hexEscape (c : Char) (rest : List Char) :
    unescape (hexEscape c ++ rest) = (c, rest) := by
  have value : hexadecimal 0 (Nat.toDigits 16 c.toNat ++ '}' :: rest) = (c.toNat, rest) :=
    hexadecimal_toDigits c.toNat _
  simp [hexEscape, unescape, value]

/-- The character is a delimiter of quoted texts. -/
def IsDelimiter (c : Char) : Prop :=
  c = '\'' ∨ c = '"'

variable {delimiter : Char}

/-- An escaped character is read back. -/
theorem unescape_escape (delimits : IsDelimiter delimiter) (c : Char) (rest : List Char) :
    unescape (escape delimiter c ++ rest) = (c, rest) := by
  unfold escape
  split_ifs with nul tab cr lf quoted hidden
  · rw [nul]
    rfl
  · rw [tab]
    rfl
  · rw [cr]
    rfl
  · rw [lf]
    rfl
  · rcases quoted with rfl | rfl
    · rfl
    · rcases delimits with rfl | rfl <;> rfl
  · exact unescape_hexEscape c rest
  · have backslash : c ≠ '\\' := fun same => quoted (.inl same)
    rw [List.singleton_append, unescape]
    · intro rest same
      exact absurd same backslash
    · intro c' rest same
      exact absurd same backslash

/-- No escaped character starts with the quotation mark. -/
theorem escape_append_ne (delimits : IsDelimiter delimiter) (c : Char) (rest rest' : List Char) :
    escape delimiter c ++ rest ≠ delimiter :: rest' := by
  have backslash : '\\' ≠ delimiter := by rcases delimits with rfl | rfl <;> decide
  intro same
  unfold escape at same
  split_ifs at same with nul tab cr lf quoted hidden
  · exact backslash (List.cons.inj same).1
  · exact backslash (List.cons.inj same).1
  · exact backslash (List.cons.inj same).1
  · exact backslash (List.cons.inj same).1
  · exact backslash (List.cons.inj same).1
  · exact backslash (List.cons.inj same).1
  · exact quoted (.inr (List.cons.inj same).1)

/-- Quoted texts that agree up to what is behind them are the same. -/
theorem between_append_cancel (delimits : IsDelimiter delimiter) {text text' rest rest' : List Char}
    (same : between delimiter text ++ rest = between delimiter text' ++ rest') :
    text = text' ∧ rest = rest' := by
  simp only [between, List.cons_append, List.append_assoc, List.nil_append, List.cons.injEq,
    true_and] at same
  induction text generalizing text' with
  | nil =>
      cases text' with
      | nil => exact ⟨rfl, (List.cons.inj same).2⟩
      | cons c text' =>
          rw [List.flatMap_cons, List.append_assoc] at same
          exact (escape_append_ne delimits _ _ _ same.symm).elim
  | cons c text ih =>
      cases text' with
      | nil =>
          rw [List.flatMap_cons, List.append_assoc] at same
          exact (escape_append_ne delimits _ _ _ same).elim
      | cons c' text' =>
          rw [List.flatMap_cons, List.flatMap_cons, List.append_assoc, List.append_assoc] at same
          have read := congrArg unescape same
          rw [unescape_escape delimits, unescape_escape delimits, Prod.mk.injEq] at read
          rcases read with ⟨rfl, behind⟩
          rcases ih behind with ⟨rfl, rest⟩
          exact ⟨rfl, rest⟩

/-- A character in quotes ends at its own quotation mark. -/
theorem char_append_cancel {c c' : Char} {rest rest' : List Char}
    (same : (char c).toList ++ rest = (char c').toList ++ rest') : c = c' ∧ rest = rest' := by
  rw [char, char, String.toList_ofList, String.toList_ofList] at same
  rcases between_append_cancel (.inl rfl) same with ⟨texts, behind⟩
  exact ⟨List.singleton_inj.mp texts, behind⟩

/-- So does a text. -/
theorem string_append_cancel {text text' : String} {rest rest' : List Char}
    (same : (string text).toList ++ rest = (string text').toList ++ rest') :
    text = text' ∧ rest = rest' := by
  rw [string, string, String.toList_ofList, String.toList_ofList] at same
  rcases between_append_cancel (.inr rfl) same with ⟨texts, behind⟩
  exact ⟨String.toList_injective texts, behind⟩

/-- The character shows as itself, or as a space. -/
def IsShown (c : Char) : Prop :=
  Printable.isUnprintable c = false

instance (c : Char) : Decidable (IsShown c) :=
  inferInstanceAs (Decidable (_ = _))

/-- The character ends a line: a line feed, a tabulation down, a form feed, a carriage return, a
next line, a line separator or a paragraph separator. -/
def IsLineBreak (c : Char) : Prop :=
  c ∈ ['\n', '\x0b', '\x0c', '\r', '\x85', '\u2028', '\u2029']

theorem IsShown.not_isLineBreak {c : Char} (isShown : IsShown c) : ¬IsLineBreak c := by
  intro lineBreak
  simp only [IsLineBreak, List.mem_cons, List.not_mem_nil, or_false] at lineBreak
  revert isShown
  rcases lineBreak with rfl | rfl | rfl | rfl | rfl | rfl | rfl <;> decide +kernel

/-- Of a fixed text it is computed that all of it shows. -/
theorem isShown_of_all {text : List Char}
    (clear : text.all (fun c => !Printable.isUnprintable c) = true) : ∀ c ∈ text, IsShown c :=
  fun c mem => Bool.not_eq_eq_eq_not.mp (List.all_eq_true.mp clear c mem)

theorem IsDelimiter.isShown (delimits : IsDelimiter delimiter) : IsShown delimiter := by
  rcases delimits with rfl | rfl <;> decide +kernel

theorem isShown_digitChar {digit : Nat} (small : digit < 16) : IsShown digit.digitChar := by
  interval_cases digit <;> decide +kernel

theorem isShown_of_mem_pair {c escaped : Char} (mem : c ∈ ['\\', escaped])
    (isShown : IsShown escaped) : IsShown c := by
  rw [List.mem_cons, List.mem_singleton] at mem
  rcases mem with rfl | rfl
  · decide +kernel
  · exact isShown

theorem isShown_of_mem_hexEscape {c hidden : Char} (mem : c ∈ hexEscape hidden) : IsShown c := by
  rw [hexEscape, List.mem_append, List.mem_append, List.mem_singleton] at mem
  rcases mem with (front | digit) | rfl
  · exact isShown_of_all (by decide +kernel) c front
  · rcases exists_of_mem_toDigits digit with ⟨digit, small, rfl⟩
    exact isShown_digitChar small
  · decide +kernel

/-- Escaped characters can be seen on one line. -/
theorem isShown_of_mem_escape (delimits : IsDelimiter delimiter) {c c' : Char}
    (mem : c ∈ escape delimiter c') : IsShown c := by
  unfold escape at mem
  split_ifs at mem with nul tab cr lf quoted hidden
  · exact isShown_of_mem_pair mem (by decide +kernel)
  · exact isShown_of_mem_pair mem (by decide +kernel)
  · exact isShown_of_mem_pair mem (by decide +kernel)
  · exact isShown_of_mem_pair mem (by decide +kernel)
  · apply isShown_of_mem_pair mem
    rcases quoted with rfl | rfl
    · decide +kernel
    · exact delimits.isShown
  · exact isShown_of_mem_hexEscape mem
  · cases List.mem_singleton.mp mem
    rw [not_or] at hidden
    exact Bool.eq_false_of_not_eq_true hidden.2

/-- Everything in a quoted text shows. -/
theorem isShown_of_mem_between (delimits : IsDelimiter delimiter) {text : List Char} {c : Char}
    (mem : c ∈ between delimiter text) : IsShown c := by
  rw [between, List.cons_append, List.mem_cons, List.mem_append, List.mem_flatMap,
    List.mem_singleton] at mem
  rcases mem with rfl | ⟨c', -, escaped⟩ | rfl
  · exact delimits.isShown
  · exact isShown_of_mem_escape delimits escaped
  · exact delimits.isShown

end SubsetC.Quoted
