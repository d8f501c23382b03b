import Mathlib
import TreeDump.Snapshot
import TreeDump.Wire.Document
import TreeDump.Proofs.Table
import TreeDump.Proofs.Wire
import TreeDump.Proofs.Utf8
import TreeDump.Proofs.Tree

/-!
Reading documents line by line.

Owns: how `Snapshot.read` meets a document written by `Wire.text`: the bytes split
into the document's lines (`splitLines_text`), a marked line is passed over, and an
unmarked line that reads back is applied as its record (`readLine_lineBytes`).
Reading a document is therefore applying the records of its unmarked lines in
order, whatever marked lines stand between them.
-/

namespace TreeDump

open Wire

/-- The bytes of one line of a document, line break included. -/
def Wire.lineBytes (line : Line) : List UInt8 := (line.render.push '\n').toUTF8.toList

/-- A line that reads back as itself: its numbers fit their words and its text has no
line break. -/
structure Wire.Line.Readable (line : Line) : Prop where
  fits : line.record.Fits
  noBreak : '\n' ∉ line.render.toList

theorem Wire.lineBytes_eq (line : Line) :
    lineBytes line = line.render.toUTF8.toList ++ [10] := by
  simp only [lineBytes, Text.toList_toUTF8, String.toList_push, List.flatMap_append,
    List.flatMap_cons, List.flatMap_nil, List.append_nil]
  rfl

/-- The bytes of a document are the bytes of its lines. -/
theorem Wire.toList_toUTF8_text (lines : List Line) :
    (text lines).toUTF8.toList = lines.flatMap lineBytes := by
  rw [show lines.flatMap lineBytes = lines.flatMap fun line => (line.render.push '\n').toUTF8.toList
    from rfl]
  simp only [text, Text.toList_toUTF8, String.toList_join, List.flatMap_map, List.flatMap_assoc]

/-! ### Lines of a tree of sound directories -/

theorem DirEntry.readable_declaration {d : DirEntry} (sound : d.Sound) {path : String}
    (pathNoBreak : '\n' ∉ path.toList) (marker : Option Marker) :
    (d.declaration marker path).Readable :=
  ⟨sound.idFits, Line.newline_not_mem_render _ pathNoBreak⟩

theorem DirEntry.readable_entryLine {d : DirEntry} (sound : d.Sound) {parent : Nat}
    (parentFits : parent < idRange) (marker : Option Marker) : (d.entryLine marker parent).Readable :=
  ⟨⟨parentFits, sound.fidFits, sound.sizeFits, sound.idFits, sound.itemsFits⟩,
    Line.newline_not_mem_render _ sound.nameNoBreak⟩

theorem FileEntry.readable_entryLine {f : FileEntry}
    (fit : f.fid < idRange ∧ f.size < sizeRange ∧ '\n' ∉ f.name.toList) {parent : Nat}
    (parentFits : parent < idRange) (marker : Option Marker) : (f.entryLine marker parent).Readable :=
  ⟨⟨parentFits, fit.1, fit.2.1, by decide, by decide⟩, Line.newline_not_mem_render _ fit.2.2⟩

/-- Every line written for the inside of a tree of sound directories reads back as
itself, whatever their ids. -/
theorem DirEntry.readable_replayInside (marker : Option Marker) :
    ∀ d : DirEntry, (∀ e ∈ d.allDirs, e.Sound) → ∀ path : String, '\n' ∉ path.toList →
      ∀ line ∈ d.replayInside marker path, line.Readable := by
  intro d
  induction d using DirEntry.induction with
  | step d inductionHypothesis =>
      intro sound path pathNoBreak line member
      have soundSelf := sound d (mem_allDirs_self d)
      have soundChild : ∀ e ∈ d.dirs, e.Sound := fun e child =>
        sound e (allDirs_subset_of_mem child (mem_allDirs_self e))
      rw [replayInside_eq] at member
      simp only [List.mem_append, List.mem_map, List.mem_flatMap] at member
      rcases member with ((⟨e, child, rfl⟩ | ⟨f, file, rfl⟩) | ⟨e, child, inside⟩) | ⟨e, child, rfl⟩
      · exact readable_declaration (soundChild e child)
          (newline_not_mem_childPath pathNoBreak (soundChild e child).nameNoBreak _) marker
      · exact FileEntry.readable_entryLine (soundSelf.filesFit f file) soundSelf.idFits marker
      · exact inductionHypothesis e child (fun x below => sound x (allDirs_subset_of_mem child below)) _
          (newline_not_mem_childPath pathNoBreak (soundChild e child).nameNoBreak _) line inside
      · exact readable_entryLine (soundChild e child) soundSelf.idFits marker

/-- Every line written for a tree of sound directories reads back as itself. -/
theorem DirEntry.readable_replay {d : DirEntry} (sound : ∀ e ∈ d.allDirs, e.Sound) {path : String}
    (pathNoBreak : '\n' ∉ path.toList) {parent : Nat} (parentFits : parent < idRange)
    (marker : Option Marker) : ∀ line ∈ d.replay marker path parent, line.Readable := by
  have soundSelf := sound d (mem_allDirs_self d)
  intro line member
  simp only [replay, List.cons_append, List.mem_cons, List.mem_append, List.not_mem_nil,
    or_false] at member
  rcases member with rfl | inside | rfl
  · exact readable_declaration soundSelf pathNoBreak marker
  · exact readable_replayInside marker d sound path pathNoBreak line inside
  · exact readable_entryLine soundSelf parentFits marker

namespace Snapshot

theorem splitLines_append_newline {line : List UInt8} (noBreak : (10 : UInt8) ∉ line)
    (rest : List UInt8) : splitLines (line ++ 10 :: rest) = (line ++ [10]) :: splitLines rest := by
  induction line with
  | nil => simp [splitLines]
  | cons b bs inductionHypothesis =>
      have notBreak : b ≠ 10 := fun same => noBreak (same ▸ List.mem_cons_self)
      rw [List.cons_append, splitLines, if_neg notBreak,
        inductionHypothesis (fun member => noBreak (List.mem_cons_of_mem b member))]
      rfl

/-- A document splits into its lines when no line holds a line break. -/
theorem splitLines_text (lines : List Line) (noBreak : ∀ line ∈ lines, '\n' ∉ line.render.toList) :
    splitLines (text lines).toUTF8.toList = lines.map lineBytes := by
  rw [toList_toUTF8_text]
  induction lines with
  | nil => rfl
  | cons line lines inductionHypothesis =>
      rw [List.flatMap_cons, lineBytes_eq, List.append_assoc, List.singleton_append,
        splitLines_append_newline (Text.newline_not_mem_toUTF8 (noBreak line List.mem_cons_self)),
        inductionHypothesis (fun other member => noBreak other (List.mem_cons_of_mem line member)),
        List.map_cons, lineBytes_eq]

namespace Progress

/-- A line that reads back is passed over when marked and applied when not. -/
theorem readLine_lineBytes (p : Progress) (n : Nat) {line : Line} (readable : line.Readable) :
    p.readLine n (lineBytes line) =
      match line.marker with
      | some _ => .ok p
      | none => p.apply n line.record := by
  have decoded : Text.decodeStrict? (lineBytes line) = some (line.render.push '\n') :=
    Text.decodeStrict?_toUTF8 _
  have stripped : (if (line.render.push '\n').toList.getLast? = some '\n' then
      String.ofList (line.render.push '\n').toList.dropLast else line.render.push '\n') =
        line.render := by
    simp
  unfold readLine
  rw [decoded]
  dsimp only
  rw [stripped, Line.markerOf_render, Line.parse_render line readable.fits]
  cases line.marker <;> rfl

/-- A marked line is passed over, whatever its record. -/
theorem readLine_marked (p : Progress) (n : Nat) {line : Line} (marked : line.marker.isSome) :
    p.readLine n (lineBytes line) = .ok p := by
  have decoded : Text.decodeStrict? (lineBytes line) = some (line.render.push '\n') :=
    Text.decodeStrict?_toUTF8 _
  have stripped : (if (line.render.push '\n').toList.getLast? = some '\n' then
      String.ofList (line.render.push '\n').toList.dropLast else line.render.push '\n') =
        line.render := by
    simp
  unfold readLine
  rw [decoded]
  dsimp only
  rw [stripped, Line.markerOf_render, if_pos marked]

theorem readLines_nil (p : Progress) (n : Nat) : p.readLines n [] = .ok p := rfl

theorem readLines_cons (p : Progress) (n : Nat) (raw : List UInt8) (rest : List (List UInt8)) :
    p.readLines n (raw :: rest) = (p.readLine n raw).bind fun q => q.readLines (n + 1) rest := rfl

theorem readLines_append (p : Progress) (n : Nat) (first rest : List (List UInt8)) :
    p.readLines n (first ++ rest) =
      (p.readLines n first).bind fun q => q.readLines (n + first.length) rest := by
  induction first generalizing p n with
  | nil => rfl
  | cons raw first inductionHypothesis =>
      rw [List.cons_append, readLines_cons, readLines_cons]
      cases p.readLine n raw with
      | error e => rfl
      | ok q =>
          show q.readLines (n + 1) (first ++ rest) =
            (q.readLines (n + 1) first).bind fun q => q.readLines (n + (first.length + 1)) rest
          rw [inductionHypothesis q (n + 1), Nat.add_assoc, Nat.add_comm 1]

theorem readLines_cons_ok {p q : Progress} {n : Nat} {raw : List UInt8}
    (step : p.readLine n raw = .ok q) (rest : List (List UInt8)) :
    p.readLines n (raw :: rest) = q.readLines (n + 1) rest := by
  rw [readLines_cons, step]
  rfl

theorem readLines_append_ok {p q : Progress} {n : Nat} {first : List (List UInt8)}
    (firstRead : p.readLines n first = .ok q) (rest : List (List UInt8)) :
    p.readLines n (first ++ rest) = q.readLines (n + first.length) rest := by
  rw [readLines_append, firstRead]
  rfl

theorem readLines_append_error {p : Progress} {n : Nat} {first : List (List UInt8)}
    {e : SnapshotError} (firstFails : p.readLines n first = .error e) (rest : List (List UInt8)) :
    p.readLines n (first ++ rest) = .error e := by
  rw [readLines_append, firstFails]
  rfl

theorem readLines_cons_error {p : Progress} {n : Nat} {raw : List UInt8} {e : SnapshotError}
    (fails : p.readLine n raw = .error e) (rest : List (List UInt8)) :
    p.readLines n (raw :: rest) = .error e := by
  rw [readLines_cons, fails]
  rfl

/-- Marked lines are all passed over. -/
theorem readLines_marked (p : Progress) (n : Nat) {lines : List Line}
    (marked : ∀ line ∈ lines, line.marker.isSome) :
    p.readLines n (lines.map lineBytes) = .ok p := by
  induction lines generalizing n with
  | nil => rfl
  | cons line lines inductionHypothesis =>
      rw [List.map_cons, readLines_cons_ok (readLine_marked p n (marked line List.mem_cons_self))]
      exact inductionHypothesis (n + 1) fun other member => marked other (List.mem_cons_of_mem _ member)

/-- An unmarked line that reads back is applied as its record. -/
theorem readLine_unmarked (p : Progress) (n : Nat) {line : Line} (readable : line.Readable)
    (unmarked : line.marker = none) : p.readLine n (lineBytes line) = p.apply n line.record := by
  rw [readLine_lineBytes p n readable, unmarked]

/-! ### The records of a dump -/

theorem apply_directory {p : Progress} {n id : Nat} {t : IdTable DirEntry} (path : String)
    (inserted : p.table.insert id { name := "" } = .ok t) :
    p.apply n (.directory id path) = .ok ⟨t, max p.maxId id, p.rootId⟩ := by
  simp only [apply, inserted]

theorem apply_directory_error {p : Progress} {n id : Nat} {e : TableError} (path : String)
    (refused : p.table.insert id { name := "" } = .error e) :
    p.apply n (.directory id path) = .error (.table n e) := by
  simp only [apply, refused]

theorem apply_fileEntry {p : Progress} {n parent fid size : Nat} {name : String}
    {t : IdTable DirEntry}
    (modified : p.table.modify? parent
      (fun up => { up with files := up.files ++ [{ name, size, fid }] }) = some t) :
    p.apply n (.entry parent fid size 0 0 name) = .ok ⟨t, p.maxId, p.rootId⟩ := by
  simp [apply, modified]

theorem apply_dirEntry {p : Progress} {n parent fid size dirId items : Nat} {name : String}
    {dir : DirEntry} {t t' : IdTable DirEntry} (parentPos : parent ≠ 0) (idPos : dirId ≠ 0)
    (erased : p.table.erase? dirId = some (dir, t))
    (modified : t.modify? parent
      (fun up => { up with dirs := up.dirs ++ [fill name fid size dirId items dir] }) = some t') :
    p.apply n (.entry parent fid size dirId items name) = .ok ⟨t', max p.maxId dirId, p.rootId⟩ := by
  simp [apply, parentPos, idPos, erased, modified]

theorem apply_rootEntry {p : Progress} {n fid size dirId items : Nat} {name : String}
    {t : IdTable DirEntry} (idPos : dirId ≠ 0) (noRoot : p.rootId = none)
    (modified : p.table.modify? dirId (fill name fid size dirId items) = some t) :
    p.apply n (.entry 0 fid size dirId items name) = .ok ⟨t, max p.maxId dirId, some dirId⟩ := by
  simp [apply, idPos, noRoot, modified]

end Progress

end Snapshot

end TreeDump
