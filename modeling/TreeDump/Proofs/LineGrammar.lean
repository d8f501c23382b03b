import Mathlib
import TreeDump.Proofs.Wire
import TreeDump.Proofs.Budget

/-!
The grammar of a line, and what reading a line answers for every text.

Owns: `Line.parse` accepts exactly the texts of the line grammar (`Grammar`) and
returns the line they spell; every other text is refused with its fault (`Fault`):
the empty text, a kind token that names no record, or the first field of the record
that is missing or does not spell a number of its word (`FirstFault`). Both together
are `Line.parse_spec`.

A number field is read the way an unsigned integer is read from text: an optional
`+`, then decimal digits, leading zeros allowed, below the word's bound (`Spells`).
The tokens of a line are the space-separated pieces of its body, the line without its
marker; the last field of a record (the path or the name) is the rest of the line,
spaces included, so reading it joins the remaining tokens again.

The proof goes through the tokens: cutting a body at its first spaces is taking its
first tokens and joining the rest (`splitFields_eq_tokens`), so the reader is told
through tokens (`Line.parse_eq`), and each number field is read exactly when it spells
a number (`readField_eq_ok_iff`, `readField_eq_error_iff`).
-/

namespace TreeDump.Wire

/-! ### The grammar -/

/-- `text` spells the value `n` of a word with `bound` values: an optional `+`, then
one or more decimal digits, leading zeros allowed. -/
def Spells (bound : Nat) (text : List Char) (n : Nat) : Prop :=
  ∃ digits : List Char, (text = digits ∨ text = '+' :: digits) ∧ digits ≠ [] ∧
    (∀ c ∈ digits, c.isDigit) ∧ Nat.ofDigitChars 10 digits 0 = n ∧ n < bound

/-- The text a marker puts before a record: its symbol and a space. -/
def markerText : Option Marker → List Char
  | some marker => [marker.symbol, ' ']
  | none => []

/-- The line grammar. A line is the text of its marker, then its record: a directory
`0 ID`, followed by ` PATH` unless the path is empty (an empty path may be written
too), or an entry `1 P F S D I NAME`. Each number is spelled for its word; the path and
the name are any text, spaces included. -/
def Grammar (text : List Char) : Line → Prop
  | ⟨marker, .directory id path⟩ =>
    ∃ idText, Spells idRange idText id ∧
      (text = markerText marker ++ '0' :: ' ' :: idText ∧ path = "" ∨
        text = markerText marker ++ '0' :: ' ' :: (idText ++ ' ' :: path.toList))
  | ⟨marker, .entry parent fid size dirId items name⟩ =>
    ∃ p f s d i, Spells idRange p parent ∧ Spells idRange f fid ∧ Spells sizeRange s size ∧
      Spells idRange d dirId ∧ Spells idRange i items ∧
      text = markerText marker ++ '1' :: ' ' :: (p ++ ' ' :: (f ++ ' ' :: (s ++ ' ' ::
        (d ++ ' ' :: (i ++ ' ' :: name.toList)))))

/-- The body of a line: the line without the marker it starts with. -/
def lineBody (text : List Char) : List Char :=
  text.drop (markerText (markerOf (String.ofList text))).length

/-- The kind of a line: the first space-separated token of its body. -/
def kindOf (text : List Char) : List Char := ((lineBody text).splitOn ' ').headD []

/-- The field texts of a line: the space-separated tokens of its body after the kind. -/
def fieldTexts (text : List Char) : List (List Char) := ((lineBody text).splitOn ' ').tail

/-- The number of values of a number field's word; the path, the name and the line
are not numbers. -/
def Field.bound? : Field → Option Nat
  | .id | .parent | .fid | .dirId | .items => some idRange
  | .size => some sizeRange
  | .name | .line => none

/-- A field text fits its field when it spells a number of the field's word; a name
takes any text. -/
def Field.Accepts (field : Field) (text : List Char) : Prop :=
  ∀ bound, field.bound? = some bound → ∃ n, Spells bound text n

/-- The fields of each kind of record, in the order they are read: a directory needs its
id (its path may be missing), an entry five numbers and then its name. -/
def recordFields : List Char → List Field
  | ['0'] => [.id]
  | ['1'] => [.parent, .fid, .size, .dirId, .items, .name]
  | _ => []

/-- `FirstFault fields texts err`: reading `fields` in order, one text each, the first
field whose text is missing or does not fit it fails the reading with `err`. -/
inductive FirstFault : List Field → List (List Char) → LineError → Prop
  | missing {field : Field} {fields : List Field} :
      FirstFault (field :: fields) [] (.missing field)
  | refused {field : Field} {fields : List Field} {text : List Char} {texts : List (List Char)} :
      ¬field.Accepts text →
        FirstFault (field :: fields) (text :: texts) (.invalid field (String.ofList text))
  | next {field : Field} {fields : List Field} {text : List Char} {texts : List (List Char)}
      {err : LineError} :
      field.Accepts text → FirstFault fields texts err →
        FirstFault (field :: fields) (text :: texts) err

/-- The fault the grammar finds in a text that is no line: the empty text; a kind token
that names no record; else the first field of the record that is missing or does not
fit. -/
def Fault (text : List Char) : LineError → Prop
  | .empty => text = []
  | .unknownKind kind => text ≠ [] ∧ kind.toList = kindOf text ∧ kind ≠ "0" ∧ kind ≠ "1"
  | .missing field =>
    text ≠ [] ∧ FirstFault (recordFields (kindOf text)) (fieldTexts text) (.missing field)
  | .invalid field value =>
    text ≠ [] ∧ FirstFault (recordFields (kindOf text)) (fieldTexts text) (.invalid field value)

/-! ### Number fields -/

theorem digitsValue_eq_some_iff {cs : List Char} {n : Nat} :
    digitsValue cs = some n ↔ cs ≠ [] ∧ (∀ c ∈ cs, c.isDigit) ∧ Nat.ofDigitChars 10 cs 0 = n := by
  unfold digitsValue
  rw [Nat.ofDigitChars_eq_foldl]
  by_cases valid : cs ≠ [] ∧ cs.all Char.isDigit = true
  · rw [if_pos valid]
    have digits := List.all_eq_true.mp valid.2
    simp only [Option.some.injEq]
    exact ⟨fun same => ⟨valid.1, digits, same⟩, fun h => h.2.2⟩
  · rw [if_neg valid]
    simp only [reduceCtorEq, false_iff]
    rintro ⟨nonempty, digits, -⟩
    exact valid ⟨nonempty, List.all_eq_true.mpr digits⟩

theorem readUnsigned_plus (bound : Nat) (rest : List Char) :
    readUnsigned bound (String.ofList ('+' :: rest)) =
      (digitsValue rest).bind fun n => if n < bound then some n else none := by
  unfold readUnsigned
  simp

theorem readUnsigned_of_ne_plus (bound : Nat) {text : List Char}
    (unsigned : ∀ rest, text ≠ '+' :: rest) :
    readUnsigned bound (String.ofList text) =
      (digitsValue text).bind fun n => if n < bound then some n else none := by
  unfold readUnsigned
  rw [String.toList_ofList]
  split
  · exact absurd rfl (unsigned _)
  · rfl

/-- A field is read as a number exactly when it spells one. -/
theorem readUnsigned_eq_some_iff {bound n : Nat} {text : List Char} :
    readUnsigned bound (String.ofList text) = some n ↔ Spells bound text n := by
  have noPlus : ∀ digits : List Char, (∀ c ∈ digits, c.isDigit) → ∀ rest, digits ≠ '+' :: rest := by
    rintro digits digits rest rfl
    exact absurd (digits '+' List.mem_cons_self) (by decide)
  -- the reader's digits are the field after its sign, and no other digits spell it
  obtain ⟨digits, read, shape, sole⟩ : ∃ digits,
      readUnsigned bound (String.ofList text) =
        (digitsValue digits).bind (fun n => if n < bound then some n else none) ∧
      (text = digits ∨ text = '+' :: digits) ∧
      ∀ other, (∀ c ∈ other, c.isDigit) → (text = other ∨ text = '+' :: other) → other = digits := by
    by_cases signed : ∃ rest, text = '+' :: rest
    · obtain ⟨rest, rfl⟩ := signed
      refine ⟨rest, readUnsigned_plus bound rest, .inr rfl, ?_⟩
      rintro other allDigits (same | same)
      · exact absurd same.symm (noPlus other allDigits rest)
      · exact (List.cons.inj same).2.symm
    · have unsigned : ∀ rest, text ≠ '+' :: rest := fun rest same => signed ⟨rest, same⟩
      refine ⟨text, readUnsigned_of_ne_plus bound unsigned, .inl rfl, ?_⟩
      rintro other allDigits (same | same)
      · exact same.symm
      · exact absurd same (unsigned other)
  rw [read, Option.bind_eq_some_iff]
  constructor
  · rintro ⟨value, valued, fits⟩
    obtain ⟨nonempty, allDigits, rfl⟩ := digitsValue_eq_some_iff.mp valued
    split at fits
    · cases fits
      exact ⟨digits, shape, nonempty, allDigits, rfl, ‹_›⟩
    · cases fits
  · rintro ⟨other, otherShape, nonempty, allDigits, rfl, fits⟩
    obtain rfl := sole other allDigits otherShape
    exact ⟨_, digitsValue_eq_some_iff.mpr ⟨nonempty, allDigits, rfl⟩, if_pos fits⟩

theorem space_not_mem_of_spells {bound n : Nat} {text : List Char} (spelled : Spells bound text n) :
    ' ' ∉ text := by
  obtain ⟨digits, (rfl | rfl), -, allDigits, -, -⟩ := spelled
  · intro member
    exact absurd (allDigits ' ' member) (by decide)
  · intro member
    rcases List.mem_cons.mp member with same | member
    · exact absurd same (by decide)
    · exact absurd (allDigits ' ' member) (by decide)

theorem readField_eq_ok_iff {bound n : Nat} {field : Field} {text? : Option (List Char)} :
    readField bound field text? = .ok n ↔ ∃ text, text? = some text ∧ Spells bound text n := by
  cases text? with
  | none => simp [readField]
  | some text =>
    simp only [readField, Option.some.injEq, exists_eq_left']
    rw [← readUnsigned_eq_some_iff]
    cases readUnsigned bound (String.ofList text) <;> simp

theorem readField_eq_error_iff {bound : Nat} {field : Field} {text? : Option (List Char)}
    {err : LineError} :
    readField bound field text? = .error err ↔
      text? = none ∧ err = .missing field ∨
        ∃ text, text? = some text ∧ (∀ n, ¬Spells bound text n) ∧
          err = .invalid field (String.ofList text) := by
  cases text? with
  | none => simp [readField, eq_comm]
  | some text =>
    simp only [readField, reduceCtorEq, false_and, Option.some.injEq, exists_eq_left', false_or]
    have unread : ∀ n, ¬Spells bound text n ↔ readUnsigned bound (String.ofList text) ≠ some n := by
      intro n
      rw [ne_eq, readUnsigned_eq_some_iff]
    simp only [unread]
    cases readUnsigned bound (String.ofList text) <;> simp [eq_comm]

theorem readField_of_spells {bound n : Nat} {field : Field} {text : List Char}
    (spelled : Spells bound text n) : readField bound field (some text) = .ok n :=
  readField_eq_ok_iff.mpr ⟨text, rfl, spelled⟩

theorem Field.accepts_iff {field : Field} {bound : Nat} (bounded : field.bound? = some bound)
    {text : List Char} : field.Accepts text ↔ ∃ n, Spells bound text n := by
  constructor
  · intro accepts
    exact accepts bound bounded
  · rintro spelled other same
    rw [bounded] at same
    cases same
    exact spelled

theorem Field.accepts_name (text : List Char) : Field.name.Accepts text := by
  intro bound named
  cases named

/-! ### Tokens -/

/-- What the reader cuts after a record's kind, told through the tokens after it: the
first `count` tokens, then the rest of the line as one piece. -/
def fieldPieces (count : Nat) (texts : List (List Char)) : List (List Char) :=
  texts.take count ++ if count < texts.length then [[' '].intercalate (texts.drop count)] else []

/-- A text with a space is cut at its first one. -/
theorem exists_first_space {cs : List Char} (spaced : ' ' ∈ cs) :
    ∃ word rest, ' ' ∉ word ∧ cs = word ++ ' ' :: rest := by
  induction cs with
  | nil => cases spaced
  | cons c cs ih =>
    by_cases space : c = ' '
    · exact ⟨[], cs, List.not_mem_nil, by simp [space]⟩
    · have inner : ' ' ∈ cs := (List.mem_cons.mp spaced).resolve_left (Ne.symm space)
      obtain ⟨word, rest, noSpace, rfl⟩ := ih inner
      exact ⟨c :: word, rest, by simp [Ne.symm space, noSpace], rfl⟩

/-- Cutting at the first spaces is taking the first tokens and joining the rest. -/
theorem splitFields_eq_tokens (count : Nat) (cs : List Char) :
    splitFields (count + 1) cs = fieldPieces count (cs.splitOn ' ') := by
  induction count generalizing cs with
  | zero =>
    have nonempty : 0 < (cs.splitOn ' ').length := List.length_pos_iff.mpr (List.splitOn_ne_nil _ _)
    simp [splitFields_one, fieldPieces, nonempty]
  | succ count ih =>
    by_cases spaced : ' ' ∈ cs
    · obtain ⟨word, rest, noSpace, rfl⟩ := exists_first_space spaced
      rw [splitFields_cons noSpace, ih, List.splitOn_append_cons_self_of_not_mem noSpace]
      simp [fieldPieces]
    · have alone : cs.dropWhile (· ≠ ' ') = [] := by
        rw [List.dropWhile_eq_nil_iff]
        intro c member
        simpa using fun same : c = ' ' => spaced (same ▸ member)
      simp only [splitFields, alone, List.splitOn_eq_singleton spaced, fieldPieces]
      simp

/-- The kind a reader cuts off is the first token. -/
theorem takeWhile_eq_headD (cs : List Char) :
    cs.takeWhile (· ≠ ' ') = (cs.splitOn ' ').headD [] := by
  by_cases spaced : ' ' ∈ cs
  · obtain ⟨word, rest, noSpace, rfl⟩ := exists_first_space spaced
    rw [List.splitOn_append_cons_self_of_not_mem noSpace, List.takeWhile_append_of_pos]
    · simp
    · intro c member
      simpa using fun same : c = ' ' => noSpace (same ▸ member)
  · rw [List.splitOn_eq_singleton spaced]
    show cs.takeWhile (· ≠ ' ') = cs
    rw [List.takeWhile_eq_self_iff]
    intro c member
    simpa using fun same : c = ' ' => spaced (same ▸ member)

theorem fieldPieces_succ_cons (count : Nat) (first : List Char) (texts : List (List Char)) :
    (fieldPieces (count + 1) (first :: texts)).drop 1 = fieldPieces count texts := by
  simp [fieldPieces]

theorem fieldPieces_getElem?_of_lt {count i : Nat} (texts : List (List Char)) (before : i < count) :
    (fieldPieces count texts)[i]? = texts[i]? := by
  unfold fieldPieces
  rcases lt_or_ge i texts.length with listed | beyond
  · rw [List.getElem?_append_left (by simp; omega), List.getElem?_take_of_lt before]
  · have whole : texts.take count = texts := List.take_of_length_le (by omega)
    have noRest : ¬count < texts.length := by omega
    rw [whole, List.getElem?_append_right beyond, List.getElem?_eq_none beyond, if_neg noRest]
    rfl

theorem fieldPieces_getElem?_self (count : Nat) (texts : List (List Char)) :
    (fieldPieces count texts)[count]? =
      if count < texts.length then some ([' '].intercalate (texts.drop count)) else none := by
  unfold fieldPieces
  split
  · next more =>
    have taken : (texts.take count).length = count := List.length_take_of_le (by omega)
    rw [List.getElem?_append_right (by omega), taken, Nat.sub_self]
    rfl
  · next noRest =>
    have whole : texts.take count = texts := List.take_of_length_le (by omega)
    rw [whole, List.getElem?_append_right (by omega), List.getElem?_nil]

/-! ### Markers and bodies -/

theorem Marker.ofSymbol?_eq_some_iff {c : Char} {marker : Marker} :
    Marker.ofSymbol? c = some marker ↔ c = marker.symbol := by
  constructor
  · intro read
    unfold Marker.ofSymbol? at read
    split at read <;> cases read <;> rfl
  · rintro rfl
    cases marker <;> rfl

theorem markerText_append_lineBody (text : List Char) :
    markerText (markerOf (String.ofList text)) ++ lineBody text = text := by
  unfold lineBody
  cases marked : markerOf (String.ofList text) with
  | none => rfl
  | some marker =>
    unfold markerOf at marked
    rw [String.toList_ofList] at marked
    split at marked
    · next c rest =>
      rw [Marker.ofSymbol?_eq_some_iff] at marked
      subst marked
      rfl
    · cases marked

/-- A record starts with a kind that is no marker symbol, so the marker of a line is the
one written before its record. -/
theorem markerOf_markerText (marker : Option Marker) {c : Char} (plain : Marker.ofSymbol? c = none)
    (rest : List Char) : markerOf (String.ofList (markerText marker ++ c :: rest)) = marker := by
  cases marker with
  | none =>
    unfold markerOf
    rw [String.toList_ofList]
    split
    · next first second after same =>
      simp only [markerText, List.nil_append, List.cons.injEq] at same
      rw [← same.1]
      exact plain
    · rfl
  | some marker =>
    unfold markerOf
    simp [markerText, Marker.ofSymbol?_eq_some_iff]

theorem lineBody_markerText (marker : Option Marker) {c : Char} (plain : Marker.ofSymbol? c = none)
    (rest : List Char) : lineBody (markerText marker ++ c :: rest) = c :: rest := by
  unfold lineBody
  rw [markerOf_markerText marker plain, List.drop_left]

theorem splitOn_lineBody (text : List Char) :
    (lineBody text).splitOn ' ' = kindOf text :: fieldTexts text := by
  obtain ⟨kind, more, split⟩ := List.exists_cons_of_ne_nil (List.splitOn_ne_nil ' ' (lineBody text))
  rw [kindOf, fieldTexts, split]
  rfl

/-- A line is its marker's text and the tokens of its body, joined by spaces. -/
theorem toList_eq_tokens (t : String) :
    t.toList = markerText (markerOf t) ++ [' '].intercalate (kindOf t.toList :: fieldTexts t.toList) := by
  rw [← splitOn_lineBody, List.intercalate_splitOn]
  conv_lhs => rw [← markerText_append_lineBody t.toList]
  rw [String.ofList_toList]

/-- The tokens of a record of kind `c` written after a marker. -/
theorem tokens_of_record (marker : Option Marker) {c : Char} (plain : Marker.ofSymbol? c = none)
    (notSpace : c ≠ ' ') (after : List Char) :
    kindOf (markerText marker ++ c :: ' ' :: after) = [c] ∧
      fieldTexts (markerText marker ++ c :: ' ' :: after) = after.splitOn ' ' := by
  have split : (lineBody (markerText marker ++ c :: ' ' :: after)).splitOn ' ' =
      [c] :: after.splitOn ' ' := by
    rw [lineBody_markerText marker plain, show c :: ' ' :: after = [c] ++ ' ' :: after from rfl,
      List.splitOn_append_cons_self_of_not_mem (by simpa using Ne.symm notSpace)]
  exact ⟨by rw [kindOf, split]; rfl, by rw [fieldTexts, split]; rfl⟩

/-- Reading a line, told through its tokens. -/
theorem Line.parse_eq (t : String) :
    Line.parse t = if t.toList = [] then .error .empty else
      match kindOf t.toList with
      | ['0'] => (readDirectory (fieldPieces 1 (fieldTexts t.toList))).map fun record =>
          ⟨markerOf t, record⟩
      | ['1'] => (readEntry (fieldPieces 5 (fieldTexts t.toList))).map fun record =>
          ⟨markerOf t, record⟩
      | kind => .error (.unknownKind (String.ofList kind)) := by
  have body : (if (markerOf t).isSome = true then t.toList.drop 2 else t.toList) =
      lineBody t.toList := by
    unfold lineBody
    rw [String.ofList_toList]
    cases markerOf t <;> rfl
  have pieces : ∀ count, (splitFields (count + 2) (lineBody t.toList)).drop 1 =
      fieldPieces count (fieldTexts t.toList) := by
    intro count
    obtain ⟨kind, more, split⟩ :=
      List.exists_cons_of_ne_nil (List.splitOn_ne_nil ' ' (lineBody t.toList))
    rw [splitFields_eq_tokens, split, fieldPieces_succ_cons, fieldTexts, split, List.tail_cons]
  unfold Line.parse
  simp only [String.isEmpty_iff, ← String.toList_eq_nil_iff]
  split
  · rfl
  · -- the reader's match and the statement's agree once unfolded
    -- `rewrite` leaves the two matches for `rfl` to compare, however the matchers are shared
    rewrite [body, takeWhile_eq_headD, ← kindOf, pieces, pieces]
    rfl

/-- A text that is a marker's text and then a record's kind is not empty, and its
marker is the one written. -/
theorem marked_of_shape {t : String} {marker : Option Marker} {c : Char} {rest : List Char}
    (plain : Marker.ofSymbol? c = none) (shape : t.toList = markerText marker ++ c :: rest) :
    t.toList ≠ [] ∧ markerOf t = marker := by
  refine ⟨by simp [shape], ?_⟩
  rw [← String.ofList_toList (s := t), shape, markerOf_markerText marker plain]

/-- A directory record written after a marker is read from the tokens after its kind. -/
theorem parse_directory_text {t : String} {marker : Option Marker} {after : List Char}
    (shape : t.toList = markerText marker ++ '0' :: ' ' :: after) :
    Line.parse t = (readDirectory (fieldPieces 1 (after.splitOn ' '))).map fun record =>
      ⟨marker, record⟩ := by
  obtain ⟨nonempty, marked⟩ := marked_of_shape rfl shape
  obtain ⟨kind, fields⟩ := tokens_of_record marker (c := '0') rfl (by decide) after
  have read := Line.parse_eq t
  rw [if_neg nonempty, marked, shape, kind, fields] at read
  exact read

/-- An entry record written after a marker is read from the tokens after its kind. -/
theorem parse_entry_text {t : String} {marker : Option Marker} {after : List Char}
    (shape : t.toList = markerText marker ++ '1' :: ' ' :: after) :
    Line.parse t = (readEntry (fieldPieces 5 (after.splitOn ' '))).map fun record =>
      ⟨marker, record⟩ := by
  obtain ⟨nonempty, marked⟩ := marked_of_shape rfl shape
  obtain ⟨kind, fields⟩ := tokens_of_record marker (c := '1') rfl (by decide) after
  have read := Line.parse_eq t
  rw [if_neg nonempty, marked, shape, kind, fields] at read
  exact read

/-! ### Records -/

theorem readDirectory_pieces (texts : List (List Char)) :
    readDirectory (fieldPieces 1 texts) = (readField idRange .id texts[0]? >>= fun id =>
      pure (.directory id (String.ofList ([' '].intercalate (texts.drop 1))))) := by
  have path : (fieldPieces 1 texts)[1]?.getD [] = [' '].intercalate (texts.drop 1) := by
    rw [fieldPieces_getElem?_self]
    split
    · rfl
    · rw [List.drop_eq_nil_of_le (by omega)]
      rfl
  unfold readDirectory
  rw [fieldPieces_getElem?_of_lt texts (by decide), path]

theorem readEntry_pieces (texts : List (List Char)) :
    readEntry (fieldPieces 5 texts) = (do
      let parent ← readField idRange .parent texts[0]?
      let fid ← readField idRange .fid texts[1]?
      let size ← readField sizeRange .size texts[2]?
      let dirId ← readField idRange .dirId texts[3]?
      let items ← readField idRange .items texts[4]?
      if 5 < texts.length then
        pure (.entry parent fid size dirId items (String.ofList ([' '].intercalate (texts.drop 5))))
      else Except.error (LineError.missing .name) : Except LineError Record) := by
  unfold readEntry
  rw [fieldPieces_getElem?_of_lt texts (by decide), fieldPieces_getElem?_of_lt texts (by decide),
    fieldPieces_getElem?_of_lt texts (by decide), fieldPieces_getElem?_of_lt texts (by decide),
    fieldPieces_getElem?_of_lt texts (by decide), fieldPieces_getElem?_self]
  by_cases more : 5 < texts.length
  · simp only [more, if_true]
  · simp only [more, if_false]

theorem readDirectory_pieces_eq_ok_iff {texts : List (List Char)} {record : Record} :
    readDirectory (fieldPieces 1 texts) = .ok record ↔
      ∃ idText rest id, texts = idText :: rest ∧ Spells idRange idText id ∧
        record = .directory id (String.ofList ([' '].intercalate rest)) := by
  rw [readDirectory_pieces]
  constructor
  · intro read
    obtain ⟨id, got, read⟩ := except_bind_eq_ok.mp read
    cases read
    obtain ⟨idText, found, spelled⟩ := readField_eq_ok_iff.mp got
    rcases texts with _ | ⟨first, rest⟩
    · cases found
    · rw [List.getElem?_cons_zero, Option.some.injEq] at found
      subst found
      exact ⟨first, rest, id, rfl, spelled, rfl⟩
  · rintro ⟨idText, rest, id, rfl, spelled, rfl⟩
    rw [List.getElem?_cons_zero, readField_of_spells spelled]
    rfl

theorem readEntry_pieces_eq_ok_iff {texts : List (List Char)} {record : Record} :
    readEntry (fieldPieces 5 texts) = .ok record ↔
      ∃ p f s d i name parent fid size dirId items,
        texts = p :: f :: s :: d :: i :: name ∧ name ≠ [] ∧
        Spells idRange p parent ∧ Spells idRange f fid ∧ Spells sizeRange s size ∧
        Spells idRange d dirId ∧ Spells idRange i items ∧
        record = .entry parent fid size dirId items (String.ofList ([' '].intercalate name)) := by
  rw [readEntry_pieces]
  constructor
  · intro read
    obtain ⟨parent, readParent, read⟩ := except_bind_eq_ok.mp read
    obtain ⟨fid, readFid, read⟩ := except_bind_eq_ok.mp read
    obtain ⟨size, readSize, read⟩ := except_bind_eq_ok.mp read
    obtain ⟨dirId, readDirId, read⟩ := except_bind_eq_ok.mp read
    obtain ⟨items, readItems, read⟩ := except_bind_eq_ok.mp read
    obtain ⟨p₀, foundP, spelledP⟩ := readField_eq_ok_iff.mp readParent
    obtain ⟨f₀, foundF, spelledF⟩ := readField_eq_ok_iff.mp readFid
    obtain ⟨s₀, foundS, spelledS⟩ := readField_eq_ok_iff.mp readSize
    obtain ⟨d₀, foundD, spelledD⟩ := readField_eq_ok_iff.mp readDirId
    obtain ⟨i₀, foundI, spelledI⟩ := readField_eq_ok_iff.mp readItems
    split at read
    · next more =>
      cases read
      rcases texts with _ | ⟨p, _ | ⟨f, _ | ⟨s, _ | ⟨d, _ | ⟨i, name⟩⟩⟩⟩⟩ <;>
        simp only [List.getElem?_cons_zero, List.getElem?_cons_succ, List.getElem?_nil,
          reduceCtorEq, Option.some.injEq] at foundP foundF foundS foundD foundI
      subst foundP foundF foundS foundD foundI
      have named : name ≠ [] := by
        rintro rfl
        simp at more
      exact ⟨p, f, s, d, i, name, parent, fid, size, dirId, items, rfl, named,
        spelledP, spelledF, spelledS, spelledD, spelledI, rfl⟩
    · cases read
  · rintro ⟨p, f, s, d, i, name, parent, fid, size, dirId, items, rfl, named,
      spelledP, spelledF, spelledS, spelledD, spelledI, rfl⟩
    have more : 5 < (p :: f :: s :: d :: i :: name).length := by
      have := List.length_pos_iff.mpr named
      simp only [List.length_cons]
      omega
    simp only [List.getElem?_cons_zero, List.getElem?_cons_succ, readField_of_spells spelledP,
      readField_of_spells spelledF, readField_of_spells spelledS, readField_of_spells spelledD,
      readField_of_spells spelledI, if_pos more, List.drop_succ_cons, List.drop_zero]
    rfl

/-! ### First faults -/

theorem not_firstFault_nil {texts : List (List Char)} {err : LineError} :
    ¬FirstFault [] texts err := by
  intro fault
  cases fault

theorem firstFault_cons_nil_iff {field : Field} {fields : List Field} {err : LineError} :
    FirstFault (field :: fields) [] err ↔ err = .missing field := by
  constructor
  · intro fault
    cases fault
    rfl
  · rintro rfl
    exact .missing

theorem firstFault_cons_cons_iff {field : Field} {fields : List Field} {text : List Char}
    {texts : List (List Char)} {err : LineError} :
    FirstFault (field :: fields) (text :: texts) err ↔
      ¬field.Accepts text ∧ err = .invalid field (String.ofList text) ∨
        field.Accepts text ∧ FirstFault fields texts err := by
  constructor
  · intro fault
    cases fault with
    | refused refused => exact .inl ⟨refused, rfl⟩
    | next accepted rest => exact .inr ⟨accepted, rest⟩
  · rintro (⟨refused, rfl⟩ | ⟨accepted, rest⟩)
    · exact .refused refused
    · exact .next accepted rest

/-- A first fault is a missing or a refused field. -/
theorem FirstFault.missing_or_invalid {fields : List Field} {texts : List (List Char)}
    {err : LineError} (fault : FirstFault fields texts err) :
    (∃ field, err = .missing field) ∨ ∃ field value, err = .invalid field value := by
  induction fault with
  | missing => exact .inl ⟨_, rfl⟩
  | refused => exact .inr ⟨_, _, rfl⟩
  | next _ _ ih => exact ih

/-- A number field without text stops the reading with its fault. -/
theorem readField_none_bind_eq_error_iff {α : Type} {bound : Nat} {field : Field}
    {rest : Nat → Except LineError α} {fields : List Field} {err : LineError} :
    (readField bound field none >>= rest) = .error err ↔ FirstFault (field :: fields) [] err := by
  rw [firstFault_cons_nil_iff]
  simp only [readField, bind, Except.bind, Except.error.injEq]
  exact eq_comm

/-- A number field read before the rest: the reading fails with the field's fault, or,
when the field fits, with the fault of the rest. -/
theorem readField_bind_eq_error_iff {α : Type} {bound : Nat} {field : Field}
    (bounded : field.bound? = some bound) {text : List Char} {rest : Nat → Except LineError α}
    {fields : List Field} {texts : List (List Char)} {err : LineError}
    (restFails : ∀ n, Spells bound text n → (rest n = .error err ↔ FirstFault fields texts err)) :
    (readField bound field (some text) >>= rest) = .error err ↔
      FirstFault (field :: fields) (text :: texts) err := by
  rw [firstFault_cons_cons_iff, Field.accepts_iff bounded]
  cases read : readField bound field (some text) with
  | error e =>
    obtain ⟨absent, -⟩ | ⟨other, found, unspelled, rfl⟩ := readField_eq_error_iff.mp read
    · cases absent
    · rw [Option.some.injEq] at found
      subst found
      have refused : ¬∃ n, Spells bound text n := fun ⟨n, spelled⟩ => unspelled n spelled
      simp only [bind, Except.bind, Except.error.injEq, refused, not_false_eq_true, true_and,
        false_and, or_false]
      exact eq_comm
  | ok n =>
    obtain ⟨other, found, spelled⟩ := readField_eq_ok_iff.mp read
    rw [Option.some.injEq] at found
    subst found
    have accepted : ∃ n, Spells bound text n := ⟨n, spelled⟩
    simp only [bind, Except.bind, accepted, not_true_eq_false, false_and, true_and, false_or]
    exact restFails n spelled

theorem readDirectory_pieces_eq_error_iff {texts : List (List Char)} {err : LineError} :
    readDirectory (fieldPieces 1 texts) = .error err ↔ FirstFault (recordFields ['0']) texts err := by
  rw [readDirectory_pieces]
  rcases texts with _ | ⟨text, texts⟩
  · exact readField_none_bind_eq_error_iff
  refine readField_bind_eq_error_iff rfl fun _ _ => ?_
  simp [not_firstFault_nil, pure, Except.pure]

theorem readEntry_pieces_eq_error_iff {texts : List (List Char)} {err : LineError} :
    readEntry (fieldPieces 5 texts) = .error err ↔ FirstFault (recordFields ['1']) texts err := by
  rw [readEntry_pieces]
  rcases texts with _ | ⟨parent, texts⟩
  · exact readField_none_bind_eq_error_iff
  refine readField_bind_eq_error_iff rfl fun _ _ => ?_
  rcases texts with _ | ⟨fid, texts⟩
  · exact readField_none_bind_eq_error_iff
  refine readField_bind_eq_error_iff rfl fun _ _ => ?_
  rcases texts with _ | ⟨size, texts⟩
  · exact readField_none_bind_eq_error_iff
  refine readField_bind_eq_error_iff rfl fun _ _ => ?_
  rcases texts with _ | ⟨dirId, texts⟩
  · exact readField_none_bind_eq_error_iff
  refine readField_bind_eq_error_iff rfl fun _ _ => ?_
  rcases texts with _ | ⟨items, texts⟩
  · exact readField_none_bind_eq_error_iff
  refine readField_bind_eq_error_iff rfl fun _ _ => ?_
  -- the name is the rest of the line: missing only when no token is left
  rcases texts with _ | ⟨name, texts⟩
  · simp [firstFault_cons_nil_iff, eq_comm]
  · simp [firstFault_cons_cons_iff, Field.accepts_name, not_firstFault_nil, pure, Except.pure]

/-! ### Reading a line -/

theorem grammar_of_parse {t : String} {line : Line} (read : Line.parse t = .ok line) :
    Grammar t.toList line := by
  have whole := toList_eq_tokens t
  rw [Line.parse_eq] at read
  split at read
  · cases read
  · split at read
    · next kind =>
      obtain ⟨record, readRecord, rfl⟩ := Scan.except_map_eq_ok read
      obtain ⟨idText, rest, id, fields, spelled, rfl⟩ := readDirectory_pieces_eq_ok_iff.mp readRecord
      rw [kind, fields] at whole
      refine ⟨idText, spelled, ?_⟩
      rcases rest with _ | ⟨first, rest⟩
      · exact .inl ⟨by simpa using whole, rfl⟩
      · exact .inr (by simpa using whole)
    · next kind =>
      obtain ⟨record, readRecord, rfl⟩ := Scan.except_map_eq_ok read
      obtain ⟨p, f, s, d, i, name, parent, fid, size, dirId, items, fields, named,
        spelledP, spelledF, spelledS, spelledD, spelledI, rfl⟩ :=
        readEntry_pieces_eq_ok_iff.mp readRecord
      rw [kind, fields] at whole
      refine ⟨p, f, s, d, i, spelledP, spelledF, spelledS, spelledD, spelledI, ?_⟩
      rcases name with _ | ⟨first, rest⟩
      · exact absurd rfl named
      · simpa using whole
    · cases read

theorem parse_of_grammar {t : String} {line : Line} (written : Grammar t.toList line) :
    Line.parse t = .ok line := by
  rcases line with ⟨marker, record⟩
  cases record with
  | directory id path =>
    obtain ⟨idText, spelled, written⟩ := written
    -- either way the record is `0`, a space, the id, and the path's tokens after it
    obtain ⟨after, shape, rest, cut, joined⟩ : ∃ after,
        t.toList = markerText marker ++ '0' :: ' ' :: after ∧
        ∃ rest, after.splitOn ' ' = idText :: rest ∧ [' '].intercalate rest = path.toList := by
      rcases written with ⟨same, rfl⟩ | same
      · exact ⟨idText, same, [], List.splitOn_eq_singleton (space_not_mem_of_spells spelled), rfl⟩
      · exact ⟨_, same, path.toList.splitOn ' ',
          List.splitOn_append_cons_self_of_not_mem (space_not_mem_of_spells spelled) _,
          List.intercalate_splitOn ' '⟩
    have readRecord := readDirectory_pieces_eq_ok_iff.mpr
      ⟨idText, rest, id, rfl, spelled, by rw [joined, String.ofList_toList]⟩
    rw [parse_directory_text shape, cut, readRecord]
    rfl
  | entry parent fid size dirId items name =>
    obtain ⟨p, f, s, d, i, spelledP, spelledF, spelledS, spelledD, spelledI, shape⟩ := written
    have cut : (p ++ ' ' :: (f ++ ' ' :: (s ++ ' ' :: (d ++ ' ' :: (i ++ ' ' :: name.toList))))).splitOn ' ' =
        p :: f :: s :: d :: i :: name.toList.splitOn ' ' := by
      rw [List.splitOn_append_cons_self_of_not_mem (space_not_mem_of_spells spelledP),
        List.splitOn_append_cons_self_of_not_mem (space_not_mem_of_spells spelledF),
        List.splitOn_append_cons_self_of_not_mem (space_not_mem_of_spells spelledS),
        List.splitOn_append_cons_self_of_not_mem (space_not_mem_of_spells spelledD),
        List.splitOn_append_cons_self_of_not_mem (space_not_mem_of_spells spelledI)]
    have readRecord := readEntry_pieces_eq_ok_iff.mpr
      ⟨p, f, s, d, i, name.toList.splitOn ' ', parent, fid, size, dirId, items, rfl,
        List.splitOn_ne_nil _ _, spelledP, spelledF, spelledS, spelledD, spelledI,
        by rw [List.intercalate_splitOn, String.ofList_toList]⟩
    rw [parse_entry_text shape, cut, readRecord]
    rfl

theorem except_map_eq_error_iff {ε α β : Type} {f : α → β} {x : Except ε α} {e : ε} :
    x.map f = .error e ↔ x = .error e := by
  cases x <;> simp [Except.map]

/-- Past a record's kind, the fault of a line is the first fault of its fields. -/
theorem fault_iff_firstFault {text : List Char} (nonempty : text ≠ [])
    (known : kindOf text = ['0'] ∨ kindOf text = ['1']) {err : LineError} :
    Fault text err ↔ FirstFault (recordFields (kindOf text)) (fieldTexts text) err := by
  have noKindFault : ∀ err, FirstFault (recordFields (kindOf text)) (fieldTexts text) err →
      err ≠ .empty ∧ ∀ kind, err ≠ .unknownKind kind := by
    intro err fault
    rcases fault.missing_or_invalid with ⟨field, rfl⟩ | ⟨field, value, rfl⟩ <;>
      exact ⟨fun same => LineError.noConfusion same, fun _ same => LineError.noConfusion same⟩
  cases err with
  | empty =>
    exact ⟨fun empty => absurd empty nonempty, fun fault => absurd rfl (noKindFault _ fault).1⟩
  | unknownKind kind =>
    refine ⟨?_, fun fault => absurd rfl ((noKindFault _ fault).2 kind)⟩
    rintro ⟨-, named, notZero, notOne⟩
    have named := congrArg String.ofList named
    rw [String.ofList_toList] at named
    rcases known with same | same <;> rw [same] at named
    · exact absurd named notZero
    · exact absurd named notOne
  | missing field => exact and_iff_right nonempty
  | invalid field value => exact and_iff_right nonempty

/-- With a kind that names no record, the fault of a line is its kind. -/
theorem fault_iff_unknown {text : List Char} (nonempty : text ≠ [])
    (notZero : kindOf text ≠ ['0']) (notOne : kindOf text ≠ ['1']) {err : LineError} :
    Fault text err ↔ err = .unknownKind (String.ofList (kindOf text)) := by
  have noFields : recordFields (kindOf text) = [] := by
    unfold recordFields
    split <;> simp_all
  cases err with
  | empty => simp [Fault, nonempty]
  | unknownKind kind =>
    simp only [Fault, ne_eq, nonempty, not_false_eq_true, true_and, LineError.unknownKind.injEq]
    constructor
    · rintro ⟨named, -, -⟩
      rw [← named, String.ofList_toList]
    · rintro rfl
      rw [String.toList_ofList]
      refine ⟨rfl, fun same => notZero ?_, fun same => notOne ?_⟩
      · rw [← String.toList_ofList (l := kindOf text), same]
        rfl
      · rw [← String.toList_ofList (l := kindOf text), same]
        rfl
  | missing field => simp [Fault, noFields, not_firstFault_nil]
  | invalid field value => simp [Fault, noFields, not_firstFault_nil]

theorem parse_eq_error_iff (t : String) (err : LineError) :
    Line.parse t = .error err ↔ Fault t.toList err := by
  rw [Line.parse_eq]
  by_cases empty : t.toList = []
  · rw [if_pos empty]
    cases err <;> simp [Fault, empty]
  · rw [if_neg empty]
    split
    · next kind =>
      rw [except_map_eq_error_iff, readDirectory_pieces_eq_error_iff,
        fault_iff_firstFault empty (.inl kind), kind]
    · next kind =>
      rw [except_map_eq_error_iff, readEntry_pieces_eq_error_iff,
        fault_iff_firstFault empty (.inr kind), kind]
    · next notZero notOne =>
      rw [fault_iff_unknown empty notZero notOne, Except.error.injEq]
      exact eq_comm

/-- Reading a line accepts exactly the line grammar and names the fault of every other
text. A text of the grammar reads as the line it spells, marker and fields; the empty
text is `empty`; a text whose body starts with a token other than `0` and `1` is
`unknownKind` of that token; otherwise the first field of the record, in the order id,
or parent, fid, size, dir id, items, name, that is missing is `missing`, and the first
that does not spell a number of its word is `invalid` with its text. -/
theorem Line.parse_spec (t : String) :
    (∀ line, Line.parse t = .ok line ↔ Grammar t.toList line) ∧
      ∀ err, Line.parse t = .error err ↔ Fault t.toList err :=
  ⟨fun _ => ⟨grammar_of_parse, parse_of_grammar⟩, parse_eq_error_iff t⟩

example : Line.parse "+ 0 +007 a b" = .ok ⟨some .added, .directory 7 "a b"⟩ := by rfl

example : Line.parse "1 1 0 5 0 0" = .error (.missing .name) := by rfl

example : Line.parse "0  5" = .error (.invalid .id "") := by rfl

example : Line.parse "-1 0" = .error (.unknownKind "-1") := by rfl

end TreeDump.Wire
