import SubsetC.Proofs.Json.Scalars

/-!
# Values of JSON

The reader of values, run on what `Json.prettyAt` writes. `run_parts` is the loop over the parts of
an array or an object, whatever the parts are, so programs and instructions are read by it as well.
`readsAs_value` says that every readable value is read from what is written for it.
-/

namespace SubsetC.Json

/-- The text starts with a character that neither belongs to a gap nor closes a bracket. -/
def Opens (text : List Char) : Prop :=
  ∃ c rest, text = c :: rest ∧ isGap c = false ∧ c ≠ ']' ∧ c ≠ '}'

/-- In front of a value there is no gap. -/
theorem dropWhile_isGap_of_opens {text : List Char} (opens : Opens text) (rest : List Char) :
    (text ++ rest).dropWhile isGap = text ++ rest := by
  rcases opens with ⟨c, more, rfl, visible, -⟩
  simp [visible]

/-- The reader takes the whole text for the value, whatever stands behind it. -/
structure ReadsAs {α : Type} (reader : TextReader α) (text : List Char) (value : α) : Prop where
  opens : Opens text
  run : ∀ {rest}, EndsNumber rest → reader.run (text ++ rest) = (.ok value, rest)

/-! ## Parts between brackets -/

/-- The parts of these texts are read one after the other. -/
inductive PartsRead {α : Type} (part : α → TextReader α) : α → List (List Char) → α → Prop
  | nil (found : α) : PartsRead part found [] found
  | cons {found middle last : α} {text : List Char} {texts : List (List Char)}
      (reads : ReadsAs (part found) text middle) (others : PartsRead part middle texts last) :
      PartsRead part found (text :: texts) last

/-- What stands behind a part: more parts, each behind a comma and a gap, and then the gap before
the rest. -/
def partsBehind (gap ending rest : List Char) : List (List Char) → List Char
  | [] => ending ++ rest
  | text :: texts => ',' :: (gap ++ (text ++ partsBehind gap ending rest texts))

/-- A bracket that closes an array or an object. -/
def IsClose (c : Char) : Prop := c = ']' ∨ c = '}'

section Parts

variable {α : Type} {part : α → TextReader α} {found last : α} {text gap ending rest : List Char}
  {texts : List (List Char)} {close : Char}

theorem IsClose.isGap_eq_false (isClose : IsClose close) : isGap close = false := by
  rcases isClose with rfl | rfl <;> rfl

theorem endsNumber_cons {c : Char} (other : c.isDigit = false ∧ c ≠ '.' ∧ c ≠ 'e' ∧ c ≠ 'E') :
    EndsNumber (c :: rest) := by
  intro found here
  cases here
  exact other

theorem endsNumber_of_isGap {c : Char} (gap : isGap c = true) : EndsNumber (c :: rest) := by
  simp only [isGap, Bool.or_eq_true, beq_iff_eq] at gap
  rcases gap with ((rfl | rfl) | rfl) | rfl <;> exact endsNumber_cons (by decide)

theorem endsNumber_partsBehind (isClose : IsClose close) (blank : ∀ c ∈ ending, isGap c = true) :
    EndsNumber (partsBehind gap ending (close :: rest) texts) := by
  cases texts with
  | nil =>
      cases ending with
      | nil => rcases isClose with rfl | rfl <;> exact endsNumber_cons (by decide)
      | cons c ending => exact endsNumber_of_isGap (blank c List.mem_cons_self)
  | cons text texts => exact endsNumber_cons (by decide)

theorem dropWhile_ending (isClose : IsClose close) (blank : ∀ c ∈ ending, isGap c = true) :
    (ending ++ close :: rest).dropWhile isGap = close :: rest := by
  rw [List.dropWhile_append_of_pos blank, List.dropWhile_cons_of_neg]
  simp [isClose.isGap_eq_false]

/-- One round of the loop over parts. -/
def nextPart (close : Char) (part : α → TextReader α) (found : α) (text : List Char) :
    Option (TextStep α) :=
  if text.head? = some close then none
  else some <| (char ',').andThen fun _ => do
    let _ ← peekBehindGap
    let found ← part found
    let _ ← peekBehindGap
    return found

variable (rest) in
/-- The loop starts behind a part and the gap after it. -/
theorem run_iterate_nextPart (isClose : IsClose close) (gapBlank : ∀ c ∈ gap, isGap c = true)
    (endingBlank : ∀ c ∈ ending, isGap c = true) (read : PartsRead part found texts last) :
    (Reader.iterate (nextPart close part) found).run
        ((partsBehind gap ending (close :: rest) texts).dropWhile isGap) =
      (.ok last, close :: rest) := by
  induction read with
  | nil found =>
      rw [partsBehind, dropWhile_ending isClose endingBlank]
      exact Reader.run_iterate_of_none (if_pos rfl)
  | @cons found middle last text texts reads others ih =>
      have comma : (',' :: (gap ++ (text ++ partsBehind gap ending (close :: rest)
          texts))).dropWhile isGap =
          ',' :: (gap ++ (text ++ partsBehind gap ending (close :: rest) texts)) := rfl
      have wanted : nextPart close part found
          (',' :: (gap ++ (text ++ partsBehind gap ending (close :: rest) texts))) = some _ :=
        if_neg (by rcases isClose with rfl | rfl <;> simp)
      rw [partsBehind, comma, Reader.run_iterate_of_some wanted, ih]
      -- One round: the comma, the gap behind it, the part, and the gap behind that.
      rw [Step.run_andThen_of_ok (run_char ',' _), Reader.run_bind_of_ok (run_peekBehindGap _),
        List.dropWhile_append_of_pos gapBlank, dropWhile_isGap_of_opens reads.opens,
        Reader.run_bind_of_ok (reads.run (endsNumber_partsBehind isClose endingBlank)),
        Reader.run_bind_of_ok (run_peekBehindGap _)]
      rfl

/-- Behind the last part there is the bracket. -/
theorem run_parts_nil (isClose : IsClose close) :
    (parts close part found).run (close :: rest) = (.ok found, rest) := by
  rw [parts, Reader.run_bind_of_ok (run_peekBehindGap_cons isClose.isGap_eq_false rest),
    if_pos rfl, Reader.run_bind_of_ok (Reader.run_pure _ _),
    Reader.run_bind_of_ok (run_char close _), Reader.run_pure]

/-- Each part is read, with what separates it from the next. -/
theorem run_parts_cons (isClose : IsClose close) (gapBlank : ∀ c ∈ gap, isGap c = true)
    (endingBlank : ∀ c ∈ ending, isGap c = true)
    (read : PartsRead part found (text :: texts) last) :
    (parts close part found).run
        (gap ++ (text ++ partsBehind gap ending (close :: rest) texts)) = (.ok last, rest) := by
  cases read with
  | @cons _ middle _ _ _ reads others =>
      have peeked : peekBehindGap.run
          (gap ++ (text ++ partsBehind gap ending (close :: rest) texts)) =
            (.ok text.head?, text ++ partsBehind gap ending (close :: rest) texts) := by
        rw [run_peekBehindGap, List.dropWhile_append_of_pos gapBlank,
          dropWhile_isGap_of_opens reads.opens]
        rcases reads.opens with ⟨c, more, rfl, -⟩
        rfl
      have other : text.head? ≠ some close := by
        rcases reads.opens with ⟨c, more, rfl, -, notBracket, notBrace⟩
        rcases isClose with rfl | rfl
        · simpa using notBracket
        · simpa using notBrace
      have looped := run_iterate_nextPart rest isClose gapBlank endingBlank others
      rw [parts, Reader.run_bind_of_ok peeked, if_neg other,
        Reader.run_bind_of_ok (reads.run (endsNumber_partsBehind isClose endingBlank)),
        Reader.run_bind_of_ok (run_peekBehindGap _)]
      refine (Reader.run_bind_of_ok looped).trans ?_
      rw [Reader.run_bind_of_ok (run_char close _), Reader.run_pure]

end Parts

/-! ## Written values -/

/-- The start of a line, which is a gap. -/
def lineGap (depth : Nat) : List Char :=
  (newLine depth).toList

theorem isGap_of_mem_lineGap {depth : Nat} : ∀ c ∈ lineGap depth, isGap c = true := by
  intro c mem
  simp only [lineGap, newLine, String.toList_ofList, List.mem_cons, List.mem_replicate] at mem
  rcases mem with rfl | ⟨-, rfl⟩ <;> rfl

/-- What stands behind an opening bracket: parts on lines of their own, and the closing bracket. -/
def enclosed (depth : Nat) (close : Char) (rest : List Char) : List (List Char) → List Char
  | [] => close :: rest
  | text :: texts =>
      lineGap (depth + 1) ++
        (text ++ partsBehind (lineGap (depth + 1)) (lineGap depth) (close :: rest) texts)

/-- Parts on lines of their own are read up to the closing bracket. -/
theorem run_parts {α : Type} {part : α → TextReader α} {found last : α} (depth : Nat)
    {close : Char} {texts : List (List Char)} (isClose : IsClose close)
    (read : PartsRead part found texts last) (rest : List Char) :
    (parts close part found).run (enclosed depth close rest texts) = (.ok last, rest) := by
  cases texts with
  | nil =>
      cases read
      exact run_parts_nil isClose
  | cons text texts =>
      exact run_parts_cons isClose isGap_of_mem_lineGap isGap_of_mem_lineGap read

/-- The text of a field. -/
def fieldText (depth : Nat) (field : String × Json) : List Char :=
  (quote field.1).toList ++ (':' :: ' ' :: (field.2.prettyAt depth).toList)

section Texts

variable (depth : Nat) (ending rest : List Char)

theorem fieldText_append (name : String) (value : Json) :
    fieldText depth (name, value) ++ rest =
      (quote name).toList ++ (':' :: ' ' :: ((value.prettyAt depth).toList ++ rest)) := by
  rw [fieldText, List.append_assoc, List.cons_append, List.cons_append]

/-- The items of an array stand on lines of their own. -/
theorem toList_prettyItems (item : Json) (items : List Json) :
    (prettyItems depth (item :: items)).toList ++ (ending ++ rest) =
      lineGap depth ++ ((item.prettyAt depth).toList ++
        partsBehind (lineGap depth) ending rest
          (items.map fun item => (item.prettyAt depth).toList)) := by
  induction items generalizing item with
  | nil => simp [prettyItems, partsBehind, lineGap]
  | cons next items ih =>
      simp [prettyItems, partsBehind, lineGap, ih]

/-- So do the fields of an object. -/
theorem toList_prettyFields (field : String × Json) (fields : List (String × Json)) :
    (prettyFields depth (field :: fields)).toList ++ (ending ++ rest) =
      lineGap depth ++ (fieldText depth field ++
        partsBehind (lineGap depth) ending rest (fields.map (fieldText depth))) := by
  induction fields generalizing field with
  | nil => simp [prettyFields, partsBehind, lineGap, fieldText]
  | cons next fields ih =>
      simp [prettyFields, partsBehind, lineGap, fieldText, ih]

theorem toList_array (items : List Json) :
    ((array items).prettyAt depth).toList ++ rest =
      '[' :: enclosed depth ']' rest
        (items.map fun item => (item.prettyAt (depth + 1)).toList) := by
  cases items with
  | nil => simp [prettyAt, atom, enclosed]
  | cons item items =>
      have inside := toList_prettyItems (depth + 1) (lineGap depth) (']' :: rest) item items
      simpa [prettyAt, enclosed, lineGap] using inside

theorem toList_object (fields : List (String × Json)) :
    ((object fields).prettyAt depth).toList ++ rest =
      '{' :: enclosed depth '}' rest (fields.map (fieldText (depth + 1))) := by
  cases fields with
  | nil => simp [prettyAt, atom, enclosed]
  | cons field fields =>
      have inside := toList_prettyFields (depth + 1) (lineGap depth) ('}' :: rest) field fields
      simpa [prettyAt, enclosed, lineGap] using inside

theorem opens_array (items : List Json) : Opens ((array items).prettyAt depth).toList := by
  rw [← List.append_nil (String.toList _), toList_array]
  exact ⟨'[', _, rfl, rfl, by decide, by decide⟩

theorem opens_object (fields : List (String × Json)) :
    Opens ((object fields).prettyAt depth).toList := by
  rw [← List.append_nil (String.toList _), toList_object]
  exact ⟨'{', _, rfl, rfl, by decide, by decide⟩

end Texts

/-! ## Reading values -/

/-- Parts that each add one item are read to all of these items. -/
theorem partsRead_push {α β γ : Type} (part : α → TextReader α) (state : Array γ → α)
    (item : β → γ) {text : β → List Char} {list : List β}
    (reads : ∀ b ∈ list, ∀ found,
      ReadsAs (part (state found)) (text b) (state (found.push (item b))))
    (found : Array γ) :
    PartsRead part (state found) (list.map text) (state (found ++ (list.map item).toArray)) := by
  induction list generalizing found with
  | nil =>
      rw [List.map_nil, List.map_nil, Array.append_empty]
      exact .nil (state found)
  | cons b list ih =>
      rw [List.forall_mem_cons] at reads
      have appended : found ++ ((b :: list).map item).toArray =
          found.push (item b) ++ (list.map item).toArray := by simp
      rw [List.map_cons, appended]
      exact .cons (reads.1 found) (ih reads.2 (found.push (item b)))

theorem run_colon (rest : List Char) : colon.run (':' :: rest) = (.ok (), rest) := by
  rw [colon, Reader.run_bind_of_ok (run_peekBehindGap_cons rfl rest), run_char]

theorem run_items {α β : Type} {item : TextReader α} (depth : Nat) {list : List β}
    {text : β → List Char} (value : β → α) (reads : ∀ b ∈ list, ReadsAs item (text b) (value b))
    (rest : List Char) :
    (items item).run (enclosed depth ']' rest (list.map text)) =
      (.ok (list.map value).toArray, rest) := by
  have pushed (b : β) (mem : b ∈ list) (found : Array α) :
      ReadsAs (do return found.push (← item)) (text b) (found.push (value b)) :=
    { opens := (reads b mem).opens
      run := fun ends => (Reader.run_bind_of_ok ((reads b mem).run ends)).trans rfl }
  have read := partsRead_push (fun found => do return found.push (← item)) id value pushed #[]
  rw [Array.empty_append] at read
  exact run_parts depth (.inl rfl) read rest

/-- What can be read again with `room` brackets left: numbers are integers of at most 64 bits. -/
inductive Readable : Nat → Json → Prop
  | null {room : Nat} : Readable room null
  | bool {room : Nat} (value : Bool) : Readable room (bool value)
  | integer {room : Nat} {value : Int} (small : value.natAbs < UInt64.size) :
      Readable room (integer value)
  | string {room : Nat} (text : String) : Readable room (string text)
  | array {room : Nat} {list : List Json} (parts : ∀ item ∈ list, Readable room item) :
      Readable (room + 1) (array list)
  | object {room : Nat} {fields : List (String × Json)}
      (parts : ∀ field ∈ fields, Readable room field.2) : Readable (room + 1) (object fields)

section Values

variable {inner : Option (TextReader Json)} {depth : Nat}

/-- Text that starts neither with a gap nor with a bracket is read as a value without parts. -/
theorem readsAs_valueOver_of_scalar {c : Char} {text : List Char} {json : Json}
    (visible : isGap c = false) (notBracket : c ≠ '[' ∧ c ≠ '{' ∧ c ≠ ']' ∧ c ≠ '}')
    (run : ∀ {rest}, EndsNumber rest → scalar.run (c :: text ++ rest) = (.ok json, rest)) :
    ReadsAs (valueOver inner) (c :: text) json where
  opens := ⟨c, text, rfl, visible, notBracket.2.2⟩
  run {rest} ends := by
    rw [valueOver, List.cons_append, Reader.run_bind_of_ok (run_peekBehindGap_cons visible _)]
    split
    · rename_i bracket
      exact absurd (Option.some.inj bracket) notBracket.1
    · rename_i bracket
      exact absurd (Option.some.inj bracket) notBracket.2.1
    · exact run ends

/-- A value that is written as a word. -/
theorem readsAs_word (first : Char) (rest : List Char) {json : Json}
    (visible : isGap first = false)
    (notBracket : first ≠ '[' ∧ first ≠ '{' ∧ first ≠ ']' ∧ first ≠ '}')
    (named : ∀ text, scalar.run (first :: text) =
      (scalarWith.named id first rest json).run (first :: text))
    (spelled : (json.prettyAt depth).toList = first :: rest) :
    ReadsAs (valueOver inner) (json.prettyAt depth).toList json := by
  rw [spelled]
  refine readsAs_valueOver_of_scalar visible notBracket fun _ => ?_
  rw [List.cons_append, named, scalarWith.named, Step.run_andThen_of_ok (run_char first _),
    Reader.run_bind_of_ok (run_word rest _)]
  rfl

theorem readsAs_null : ReadsAs (valueOver inner) (null.prettyAt depth).toList null :=
  readsAs_word 'n' ['u', 'l', 'l'] rfl (by decide) (fun _ => rfl) (by simp [prettyAt, atom])

theorem readsAs_bool (value : Bool) :
    ReadsAs (valueOver inner) ((bool value).prettyAt depth).toList (bool value) := by
  cases value with
  | false =>
      exact readsAs_word 'f' ['a', 'l', 's', 'e'] rfl (by decide) (fun _ => rfl)
        (by simp [prettyAt, atom])
  | true =>
      exact readsAs_word 't' ['r', 'u', 'e'] rfl (by decide) (fun _ => rfl)
        (by simp [prettyAt, atom])

theorem readsAs_integer {value : Int} (small : value.natAbs < UInt64.size) :
    ReadsAs (valueOver inner) ((integer value).prettyAt depth).toList (integer value) := by
  have spelled : ((integer value).prettyAt depth).toList = Decimal.ofInt value := by
    simp [prettyAt, atom]
  rcases exists_cons_ofInt value with ⟨c, text, same, starts⟩
  have read {rest : List Char} (ends : EndsNumber rest) :
      scalar.run (c :: text ++ rest) = (.ok (integer value), rest) := by
    rw [← run_number small ends, same]
    exact run_scalar_number starts _
  rw [spelled, same]
  exact readsAs_valueOver_of_scalar starts.isGap_eq_false
    ⟨starts.ne (by decide), starts.ne (by decide), starts.ne (by decide), starts.ne (by decide)⟩
    read

/-- A text is read back. -/
theorem readsAs_string (text : String) :
    ReadsAs (valueOver inner) ((string text).prettyAt depth).toList (string text) := by
  have spelled : ((string text).prettyAt depth).toList =
      '"' :: (text.toList.flatMap escape ++ ['"']) := by
    rw [← toList_quote]
    simp [prettyAt, atom]
  rw [spelled]
  refine readsAs_valueOver_of_scalar rfl (by decide) fun {rest} _ => ?_
  have read := run_stringLiteral text rest
  rw [toList_quote] at read
  change (stringLiteral.map Json.string).run _ = _
  exact Step.run_map_eq_ok.mpr ⟨text, read, rfl⟩

/-- An array is read back, item by item. -/
theorem readsAs_array {item : TextReader Json} {list : List Json}
    (reads : ∀ part ∈ list, ReadsAs item (part.prettyAt (depth + 1)).toList part) :
    ReadsAs (valueOver (some item)) ((array list).prettyAt depth).toList (array list) where
  opens := opens_array depth list
  run {rest} ends := by
    have read := run_items depth id reads rest
    rw [List.map_id] at read
    rw [toList_array, valueOver, Reader.run_bind_of_ok (run_peekBehindGap_cons rfl _)]
    refine (Reader.run_bind_of_ok (run_char '[' _)).trans ?_
    rw [Reader.run_bind_of_ok read]
    rfl

/-- A name and a colon are read before the space that the value stands behind. -/
theorem run_fieldName {α : Type} {field : String × Json} {rest : List Char}
    (next : String → TextReader α) :
    (stringLiteral.toReader >>= fun name => colon >>= fun _ => next name).run
        (fieldText depth field ++ rest) =
      (next field.1).run (' ' :: ((field.2.prettyAt depth).toList ++ rest)) := by
  rcases field with ⟨name, value⟩
  rw [fieldText_append, Reader.run_bind_of_ok (run_stringLiteral name _)]
  exact Reader.run_bind_of_ok (run_colon _)

theorem opens_fieldText (field : String × Json) : Opens (fieldText depth field) := by
  rw [fieldText, toList_quote]
  exact ⟨'"', _, rfl, rfl, by decide, by decide⟩

/-- Reads a field and adds it to those that have been found. -/
def pushField (item : TextReader Json) (found : Array (String × Json)) :
    TextReader (Array (String × Json)) := do
  let name ← stringLiteral.toReader
  colon
  return found.push (name, ← item)

/-- An object is read back, field by field. -/
theorem readsAs_object {item : TextReader Json} {fields : List (String × Json)}
    (space : ∀ text, item.run (' ' :: text) = item.run text)
    (reads : ∀ field ∈ fields, ReadsAs item (field.2.prettyAt (depth + 1)).toList field.2) :
    ReadsAs (valueOver (some item)) ((object fields).prettyAt depth).toList (object fields) where
  opens := opens_object depth fields
  run {rest} ends := by
    have pushed (field : String × Json) (mem : field ∈ fields) (found : Array (String × Json)) :
        ReadsAs (pushField item found) (fieldText (depth + 1) field) (found.push field) :=
      { opens := opens_fieldText field
        run := fun ends => by
          rw [pushField, run_fieldName fun name => do return found.push (name, ← item)]
          exact Reader.run_bind_of_ok ((space _).trans ((reads field mem).run ends)) }
    have read := run_parts depth (.inr rfl) (partsRead_push (pushField item) id id pushed #[]) rest
    rw [List.map_id, Array.empty_append] at read
    rw [toList_object, valueOver, Reader.run_bind_of_ok (run_peekBehindGap_cons rfl _)]
    refine (Reader.run_bind_of_ok (run_char '{' _)).trans ?_
    exact Reader.run_bind_of_ok read

end Values

theorem run_value_space (room : Nat) (text : List Char) :
    (value room).run (' ' :: text) = (value room).run text := by
  cases room with
  | zero => exact run_peekBehindGap_space _ _
  | succ room => exact run_peekBehindGap_space _ _

/-- A readable value is read from what is written for it. -/
theorem readsAs_value {room : Nat} {json : Json} (readable : Readable room json) (depth : Nat) :
    ReadsAs (value room) (json.prettyAt depth).toList json := by
  induction readable generalizing depth with
  | @null room => cases room <;> exact readsAs_null
  | @bool room value => cases room <;> exact readsAs_bool value
  | @integer room value small => cases room <;> exact readsAs_integer small
  | @string room text => cases room <;> exact readsAs_string text
  | array parts ih => exact readsAs_array fun item mem => ih item mem (depth + 1)
  | @object room fields parts ih =>
      exact readsAs_object (run_value_space room) fun field mem => ih field mem (depth + 1)

end SubsetC.Json
