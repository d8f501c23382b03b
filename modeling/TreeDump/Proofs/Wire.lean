import Mathlib
import TreeDump.Wire.Line

/-!
Reading back what the wire format writes.

Owns: every line whose numbers fit their words is read back as itself,
`Line.parse line.render = .ok line`, whatever its path or name holds (spaces,
leading spaces, nothing at all), so no two such lines are written alike
(`Line.render_round_trip`). The marker of a rendered line is the line's own
marker, and a rendered line holds a line break only where its path or name does.

The proof follows the reader: the number fields are the decimal digits of their
values, which `readUnsigned` reads back; `splitFields` cuts at the first spaces
only, so the last piece is the path or name whole.
-/

namespace TreeDump.Wire

/-! ### Number fields -/

theorem digitsValue_toDigits (n : Nat) : digitsValue (Nat.toDigits 10 n) = some n := by
  have digits : (Nat.toDigits 10 n).all Char.isDigit = true := by
    rw [List.all_eq_true]
    intro c member
    exact Nat.isDigit_of_mem_toDigits (by decide) (by decide) member
  rw [digitsValue, if_pos ⟨Nat.toDigits_ne_nil, digits⟩, ← Nat.ofDigitChars_eq_foldl,
    Nat.ofDigitChars_ten_toDigits]

theorem toList_toString (n : Nat) : (toString n).toList = Nat.toDigits 10 n := by
  simp [Nat.toString_eq_repr, Nat.toList_repr]

/-- A number below its field's bound is read back from its decimal digits. -/
theorem readUnsigned_digits {bound n : Nat} (below : n < bound) :
    readUnsigned bound (String.ofList (Nat.toDigits 10 n)) = some n := by
  have noSign : ∀ rest, Nat.toDigits 10 n ≠ '+' :: rest := by
    intro rest same
    have digit := Nat.isDigit_of_mem_toDigits (b := 10) (n := n) (c := '+') (by decide) (by decide)
      (by rw [same]; exact List.mem_cons_self)
    exact absurd digit (by decide)
  unfold readUnsigned
  simp only [String.toList_ofList]
  simp [digitsValue_toDigits, below]

@[simp] theorem readField_digits {bound n : Nat} (below : n < bound) (field : Field) :
    readField bound field (some (Nat.toDigits 10 n)) = .ok n := by
  simp [readField, readUnsigned_digits below]

/-! ### Cutting at spaces -/

theorem splitFields_one (cs : List Char) : splitFields 1 cs = [cs] := rfl

/-- A piece without a space, then a space: the piece comes off whole. -/
theorem splitFields_cons {word : List Char} (noSpace : ' ' ∉ word) (rest : List Char) (n : Nat) :
    splitFields (n + 2) (word ++ ' ' :: rest) = word :: splitFields (n + 1) rest := by
  have upTo : (word ++ ' ' :: rest).dropWhile (· ≠ ' ') = ' ' :: rest := by
    rw [List.dropWhile_append_of_pos]
    · simp
    · intro c member
      simpa using (fun same : c = ' ' => noSpace (same ▸ member))
  have taken : (word ++ ' ' :: rest).takeWhile (· ≠ ' ') = word := by
    rw [List.takeWhile_append_of_pos]
    · simp
    · intro c member
      simpa using (fun same : c = ' ' => noSpace (same ▸ member))
  simp only [splitFields, upTo, taken]

theorem space_not_mem_toString (n : Nat) : ' ' ∉ (toString n).toList := by
  rw [toList_toString]
  intro member
  exact absurd (Nat.isDigit_of_mem_toDigits (by decide) (by decide) member) (by decide)

/-! ### Whole lines -/

/-- The numbers of a record fit their words: ids, positions and item counts in 32
bits, sizes in 64. -/
def Record.Fits : Record → Prop
  | .directory id _ => id < idRange
  | .entry parent fid size dirId items _ =>
    parent < idRange ∧ fid < idRange ∧ size < sizeRange ∧ dirId < idRange ∧ items < idRange

instance Record.decidableFits : DecidablePred Record.Fits
  | .directory id _ => inferInstanceAs (Decidable (id < idRange))
  | .entry parent fid size dirId items _ => inferInstanceAs (Decidable
      (parent < idRange ∧ fid < idRange ∧ size < sizeRange ∧ dirId < idRange ∧ items < idRange))

-- Stated by `rfl`: letting `simp` derive the equations of `Record.render` costs
-- seconds, for a failed definitional check of its second case.
theorem Record.render_directory (id : Nat) (path : String) :
    (Record.directory id path).render = "0 " ++ toString id ++ " " ++ path := rfl

theorem Record.render_entry (parent fid size dirId items : Nat) (name : String) :
    (Record.entry parent fid size dirId items name).render =
      "1 " ++ toString parent ++ " " ++ toString fid ++ " " ++ toString size ++ " " ++
        toString dirId ++ " " ++ toString items ++ " " ++ name := rfl

/-- The text of a record, as characters. -/
theorem Record.toList_render_directory (id : Nat) (path : String) :
    (Record.directory id path).render.toList = '0' :: ' ' :: ((toString id).toList ++ ' ' :: path.toList) := by
  simp [Record.render_directory]

theorem Record.toList_render_entry (parent fid size dirId items : Nat) (name : String) :
    (Record.entry parent fid size dirId items name).render.toList =
      '1' :: ' ' :: ((toString parent).toList ++ ' ' :: ((toString fid).toList ++ ' ' ::
        ((toString size).toList ++ ' ' :: ((toString dirId).toList ++ ' ' ::
          ((toString items).toList ++ ' ' :: name.toList))))) := by
  simp [Record.render_entry]

theorem Record.toList_render_ne_nil (record : Record) : record.render.toList ≠ [] := by
  cases record <;> simp [Record.toList_render_directory, Record.toList_render_entry]

/-- The first character of a record's text names its kind. -/
theorem Record.markerOf_render (record : Record) : markerOf record.render = none := by
  cases record <;> simp [markerOf, Record.toList_render_directory, Record.toList_render_entry,
    Marker.ofSymbol?]

theorem Line.toList_render (line : Line) :
    line.render.toList = (match line.marker with
      | some marker => [marker.symbol, ' ']
      | none => []) ++ line.record.render.toList := by
  unfold Line.render
  cases line.marker <;> simp

/-- The marker read off a rendered line is the line's own. -/
theorem Line.markerOf_render (line : Line) : markerOf line.render = line.marker := by
  rcases line with ⟨marker, record⟩
  cases marker with
  | none => simpa [Line.render] using Record.markerOf_render record
  | some marker =>
    cases marker <;> simp [Line.render, markerOf, Marker.symbol, Marker.ofSymbol?]

/-- The body of a record is read back as the record. -/
private theorem parse_body (record : Record) (fits : record.Fits) (marker : Option Marker) :
    (match record.render.toList.takeWhile (· ≠ ' ') with
      | ['0'] => (readDirectory ((splitFields 3 record.render.toList).drop 1)).map
          fun record => (⟨marker, record⟩ : Line)
      | ['1'] => (readEntry ((splitFields 7 record.render.toList).drop 1)).map
          fun record => ⟨marker, record⟩
      | kind => .error (.unknownKind (String.ofList kind))) = .ok ⟨marker, record⟩ := by
  cases record with
  | directory id path =>
    have pieces : splitFields 3 (Record.directory id path).render.toList =
        [['0'], (toString id).toList, path.toList] := by
      rw [Record.toList_render_directory,
        show '0' :: ' ' :: ((toString id).toList ++ ' ' :: path.toList) =
          ['0'] ++ ' ' :: ((toString id).toList ++ ' ' :: path.toList) from rfl,
        splitFields_cons (by decide), splitFields_cons (space_not_mem_toString id), splitFields_one]
    rw [pieces, Record.toList_render_directory]
    simp [readDirectory, readField_digits (show id < idRange from fits), Except.map]
  | entry parent fid size dirId items name =>
    obtain ⟨parentFits, fidFits, sizeFits, dirIdFits, itemsFits⟩ := fits
    have pieces : splitFields 7 (Record.entry parent fid size dirId items name).render.toList =
        [['1'], (toString parent).toList, (toString fid).toList, (toString size).toList,
          (toString dirId).toList, (toString items).toList, name.toList] := by
      rw [Record.toList_render_entry,
        show '1' :: ' ' :: ((toString parent).toList ++ ' ' :: ((toString fid).toList ++ ' ' ::
            ((toString size).toList ++ ' ' :: ((toString dirId).toList ++ ' ' ::
              ((toString items).toList ++ ' ' :: name.toList))))) =
          ['1'] ++ ' ' :: ((toString parent).toList ++ ' ' :: ((toString fid).toList ++ ' ' ::
            ((toString size).toList ++ ' ' :: ((toString dirId).toList ++ ' ' ::
              ((toString items).toList ++ ' ' :: name.toList))))) from rfl,
        splitFields_cons (by decide), splitFields_cons (space_not_mem_toString parent),
        splitFields_cons (space_not_mem_toString fid), splitFields_cons (space_not_mem_toString size),
        splitFields_cons (space_not_mem_toString dirId),
        splitFields_cons (space_not_mem_toString items), splitFields_one]
    rw [pieces, Record.toList_render_entry]
    simp [readEntry, readField_digits parentFits, readField_digits fidFits,
      readField_digits sizeFits, readField_digits dirIdFits, readField_digits itemsFits, Except.map, bind, Except.bind, pure,
      Except.pure]

/-- Every line whose numbers fit their words reads back as itself. -/
theorem Line.parse_render (line : Line) (fits : line.record.Fits) :
    Line.parse line.render = .ok line := by
  rcases line with ⟨marker, record⟩
  have nonempty : (Line.render ⟨marker, record⟩).isEmpty = false := by
    rw [Bool.eq_false_iff]
    intro empty
    rw [String.isEmpty_iff] at empty
    have chars := congrArg String.toList empty
    rw [Line.toList_render, String.toList_empty, List.append_eq_nil_iff] at chars
    exact Record.toList_render_ne_nil record chars.2
  unfold Line.parse
  rw [nonempty, Line.markerOf_render]
  simp only [Bool.false_eq_true, if_false]
  have body : (if marker.isSome = true then (Line.render ⟨marker, record⟩).toList.drop 2
      else (Line.render ⟨marker, record⟩).toList) = record.render.toList := by
    cases marker with
    | none => simp [Line.render]
    | some marker => simp [Line.render]
  rw [body]
  exact parse_body record fits marker

/-- Two lines whose numbers fit their words and that are written alike are the same
line: the reader tells them apart. -/
theorem Line.eq_of_render_eq {line other : Line} (fits : line.record.Fits)
    (otherFits : other.record.Fits) (same : other.render = line.render) : other = line := by
  have read := Line.parse_render other otherFits
  rw [same, Line.parse_render line fits] at read
  exact (Except.ok.inj read).symm

/-- The wire form of a line is faithful: a line whose numbers fit their words reads
back as itself, no other such line is written the same way, and writing what is
read back gives the text again. -/
theorem Line.render_round_trip (line : Line) (fits : line.record.Fits) :
    Line.parse line.render = .ok line ∧
      (∀ other : Line, other.record.Fits → other.render = line.render → other = line) ∧
      (Line.parse line.render).map Line.render = .ok line.render := by
  have read := Line.parse_render line fits
  refine ⟨read, fun other otherFits same => Line.eq_of_render_eq fits otherFits same, ?_⟩
  rw [read]
  rfl

/-- A changed entry at the top of every word, whose name starts with a space and
ends with a carriage return, makes the round trip. -/
theorem Line.spaced_name_round_trip :
    ∃ line : Line,
      line = ⟨some .changed, .entry 4294967295 0 18446744073709551615 4294967295 7 " my file\r"⟩ ∧
        line.record.Fits ∧ Line.parse line.render = .ok line ∧
        (∀ other : Line, other.record.Fits → other.render = line.render → other = line) ∧
        (Line.parse line.render).map Line.render = .ok line.render := by
  have fits : (Record.entry 4294967295 0 18446744073709551615 4294967295 7 " my file\r").Fits := by
    decide
  exact ⟨_, rfl, fits, Line.render_round_trip _ fits⟩

/-- A rendered line holds a line break only where its path or name does. -/
theorem Line.newline_not_mem_render (line : Line)
    (noBreak : match line.record with
      | .directory _ path => '\n' ∉ path.toList
      | .entry _ _ _ _ _ name => '\n' ∉ name.toList) :
    '\n' ∉ line.render.toList := by
  have digitsNoBreak : ∀ n : Nat, '\n' ∉ Nat.toDigits 10 n := by
    intro n member
    exact absurd (Nat.isDigit_of_mem_toDigits (by decide) (by decide) member) (by decide)
  rcases line with ⟨marker, record⟩
  have recordNoBreak : '\n' ∉ record.render.toList := by
    cases record with
    | directory id path =>
      simp only [Record.toList_render_directory]
      simp_all
    | entry parent fid size dirId items name =>
      simp only [Record.toList_render_entry]
      simp_all
  cases marker with
  | none => simpa [Line.render] using recordNoBreak
  | some marker => cases marker <;> simpa [Line.render, Marker.symbol] using recordNoBreak

/-- The path of a child holds a line break only where its parent's path or its name does. -/
theorem newline_not_mem_childPath {path child : String} (pathNoBreak : '\n' ∉ path.toList)
    (childNoBreak : '\n' ∉ child.toList) (parentName : String) :
    '\n' ∉ (childPath path parentName child).toList := by
  unfold childPath
  split <;> simp_all

end TreeDump.Wire
