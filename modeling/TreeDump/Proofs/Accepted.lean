import Mathlib
import TreeDump.Proofs.Utf8
import TreeDump.Proofs.Reading

/-!
What the snapshot reader accepts.

Owns: the records the reader parses carry no line break in their texts, because
every line it cuts holds the line-break byte only at its end and no decoded text
holds `'\n'` elsewhere; and `DirEntry.Rebuilt`, what the reader keeps of every
directory it holds, line after line: no line break in a name below the directory
or of its files, and a positive id no larger than the largest id read for every
directory below it. So the tree of every accepted snapshot is rebuilt within the
snapshot's largest id.
-/

namespace TreeDump

open Wire

/-! ### Records -/

/-- No text a record carries, the path of a declaration or the name of an entry,
holds a line break. -/
def Wire.Record.Plain : Record → Prop
  | .directory _ path => '\n' ∉ path.toList
  | .entry _ _ _ _ _ name => '\n' ∉ name.toList

/-- Every field cut from a text is made of the text's characters. -/
theorem Wire.subset_of_mem_splitFields : ∀ {n : Nat} {cs piece : List Char},
    piece ∈ splitFields n cs → piece ⊆ cs
  | 0, _, _, member => by cases member
  | 1, _, _, member => by
      rw [splitFields_one, List.mem_singleton] at member
      exact member ▸ List.Subset.refl _
  | n + 2, cs, piece, member => by
      rw [splitFields] at member
      split at member
      · rw [List.mem_singleton] at member
        exact member ▸ List.Subset.refl _
      · rename_i c rest dropped
        have restInside : rest ⊆ cs := fun x member =>
          (List.dropWhile_suffix (· ≠ ' ')).subset (dropped ▸ List.mem_cons_of_mem c member)
        rcases List.mem_cons.mp member with rfl | later
        · exact (List.takeWhile_sublist _).subset
        · exact List.Subset.trans (subset_of_mem_splitFields later) restInside

theorem Wire.readDirectory_plain {parts : List (List Char)}
    (plain : ∀ piece ∈ parts, '\n' ∉ piece) {record : Record}
    (read : readDirectory parts = .ok record) : record.Plain := by
  unfold readDirectory at read
  cases field : readField idRange .id parts[0]? with
  | error e => simp [field, bind, Except.bind] at read
  | ok id =>
      simp only [field, bind, Except.bind, pure, Except.pure, Except.ok.injEq] at read
      subst read
      show '\n' ∉ (String.ofList (parts[1]?.getD [])).toList
      rw [String.toList_ofList]
      cases piece : parts[1]? with
      | none => simp
      | some cs => exact plain cs (List.mem_of_getElem? piece)

theorem Wire.readEntry_plain {parts : List (List Char)}
    (plain : ∀ piece ∈ parts, '\n' ∉ piece) {record : Record}
    (read : readEntry parts = .ok record) : record.Plain := by
  unfold readEntry at read
  simp only [bind, Except.bind] at read
  repeat' split at read
  all_goals cases read
  rename_i piece found
  show '\n' ∉ (String.ofList piece).toList
  rw [String.toList_ofList]
  exact plain piece (List.mem_of_getElem? found)

/-- A line without a line break parses to a record whose texts hold none. -/
theorem Wire.Line.plain_of_parse {text : String} (noBreak : '\n' ∉ text.toList) {line : Line}
    (parsed : Line.parse text = .ok line) : line.record.Plain := by
  unfold Line.parse at parsed
  split_ifs at parsed
  -- Every field is cut from the body, which is the text or the text past its marker.
  have fieldsPlain : ∀ n, ∀ piece ∈ (splitFields n
      (if (markerOf text).isSome then text.toList.drop 2 else text.toList)).drop 1,
      '\n' ∉ piece := by
    intro n piece member inside
    refine noBreak (?_ : '\n' ∈ text.toList)
    have fromBody := subset_of_mem_splitFields (List.mem_of_mem_drop member) inside
    split at fromBody
    · exact List.mem_of_mem_drop fromBody
    · exact fromBody
  dsimp only at parsed
  split at parsed
  · cases read : readDirectory ((splitFields 3
        (if (markerOf text).isSome then text.toList.drop 2 else text.toList)).drop 1) with
    | error e =>
        rw [read] at parsed
        cases parsed
    | ok record =>
        simp only [read, Except.map, Except.ok.injEq] at parsed
        subst parsed
        exact readDirectory_plain (fieldsPlain 3) read
  · cases read : readEntry ((splitFields 7
        (if (markerOf text).isSome then text.toList.drop 2 else text.toList)).drop 1) with
    | error e =>
        rw [read] at parsed
        cases parsed
    | ok record =>
        simp only [read, Except.map, Except.ok.injEq] at parsed
        subst parsed
        exact readEntry_plain (fieldsPlain 7) read
  · cases parsed

/-! ### Lines without line breaks -/

namespace Snapshot

/-- A line cut by `splitLines` holds the line-break byte at most at its end. -/
theorem newline_not_mem_dropLast {bytes line : List UInt8} (cut : line ∈ splitLines bytes) :
    (10 : UInt8) ∉ line.dropLast := by
  induction bytes generalizing line with
  | nil => cases cut
  | cons b bs inductionHypothesis =>
      rw [splitLines] at cut
      split_ifs at cut with isBreak
      · rcases List.mem_cons.mp cut with rfl | later
        · simp
        · exact inductionHypothesis later
      · split at cut
        · rw [List.mem_singleton.mp cut]
          simp
        · rename_i first others split
          rcases List.mem_cons.mp cut with rfl | later
          · have firstInside := inductionHypothesis (split ▸ List.mem_cons_self)
            rcases first with _ | ⟨c, cs⟩
            · simp
            · rw [List.dropLast_cons_cons, List.mem_cons]
              rintro (same | inside)
              · exact isBreak same.symm
              · exact firstInside inside
          · exact inductionHypothesis (split ▸ List.mem_cons_of_mem _ later)

/-- The text the reader parses from a line, its last line break taken off, holds no
line break. -/
theorem newline_not_mem_stripped {raw : List UInt8} (inside : (10 : UInt8) ∉ raw.dropLast)
    {text : String} (decoded : Text.decodeStrict? raw = some text) :
    '\n' ∉ (if text.toList.getLast? = some '\n' then String.ofList text.toList.dropLast
      else text).toList := by
  have stripped : (if text.toList.getLast? = some '\n' then String.ofList text.toList.dropLast
      else text).toList ⊆ text.toList := by
    split
    · rw [String.toList_ofList]
      exact (List.dropLast_sublist _).subset
    · exact List.Subset.refl _
  rcases List.eq_nil_or_concat raw with rfl | ⟨body, last, rfl⟩
  · exact fun member => Text.newline_not_mem_decodeStrict? (by simp) decoded (stripped member)
  rw [List.concat_eq_append] at inside decoded
  rw [List.dropLast_concat] at inside
  by_cases isBreak : last = 10
  · subst isBreak
    rw [Text.decodeStrict?_append_newline] at decoded
    obtain ⟨line, lineDecoded, rfl⟩ := Option.map_eq_some_iff.mp decoded
    have lineNoBreak := Text.newline_not_mem_decodeStrict? inside lineDecoded
    simpa [String.toList_push] using lineNoBreak
  · refine fun member => Text.newline_not_mem_decodeStrict? ?_ decoded (stripped member)
    simp only [List.mem_append, List.mem_singleton, not_or]
    exact ⟨inside, Ne.symm isBreak⟩

end Snapshot

/-! ### What the reader holds -/

/-- A directory as the reader rebuilds it, `bound` the largest id read so far: no
line break in the names of its files or in any name below it, and every directory
below it with a positive id no larger than `bound`. -/
structure DirEntry.Rebuilt (bound : Nat) (d : DirEntry) : Prop where
  files : ∀ f ∈ d.files, '\n' ∉ f.name.toList
  below : ∀ e ∈ d.dirs.flatMap DirEntry.allDirs,
    e.id ≠ 0 ∧ e.id ≤ bound ∧ '\n' ∉ e.name.toList ∧ ∀ f ∈ e.files, '\n' ∉ f.name.toList

namespace DirEntry.Rebuilt

variable {bound : Nat} {d : DirEntry}

theorem mono (rebuilt : d.Rebuilt bound) {bound' : Nat} (le : bound ≤ bound') :
    d.Rebuilt bound' :=
  ⟨rebuilt.files, fun e member =>
    have ⟨idPos, idLe, nameNoBreak, filesNoBreak⟩ := rebuilt.below e member
    ⟨idPos, le_trans idLe le, nameNoBreak, filesNoBreak⟩⟩

theorem placeholder (bound : Nat) : ({ name := "" } : DirEntry).Rebuilt bound :=
  ⟨fun _ member => absurd member List.not_mem_nil, fun _ member => by simp at member⟩

/-- Filling a directory in only sorts what it holds. -/
theorem fill (rebuilt : d.Rebuilt bound) (name : String) (fid size id items : Nat) :
    (Snapshot.fill name fid size id items d).Rebuilt bound := by
  refine ⟨fun f member => rebuilt.files f (List.mem_mergeSort.mp member), fun e member => ?_⟩
  obtain ⟨c, child, inside⟩ := List.mem_flatMap.mp member
  exact rebuilt.below e (List.mem_flatMap.mpr ⟨c, List.mem_mergeSort.mp child, inside⟩)

/-- Placing a rebuilt directory, with a positive id within the bound and a name
without line break, under a rebuilt directory. -/
theorem placeDir (rebuilt : d.Rebuilt bound) {c : DirEntry} (child : c.Rebuilt bound)
    (idPos : c.id ≠ 0) (idLe : c.id ≤ bound) (nameNoBreak : '\n' ∉ c.name.toList) :
    { d with dirs := d.dirs ++ [c] }.Rebuilt bound := by
  refine ⟨rebuilt.files, fun e member => ?_⟩
  rw [List.flatMap_append, List.mem_append, List.flatMap_singleton, DirEntry.allDirs_eq,
    List.mem_cons] at member
  rcases member with earlier | rfl | below
  · exact rebuilt.below e earlier
  · exact ⟨idPos, idLe, nameNoBreak, child.files⟩
  · exact child.below e below

theorem placeFile (rebuilt : d.Rebuilt bound) {name : String} (size fid : Nat)
    (nameNoBreak : '\n' ∉ name.toList) :
    { d with files := d.files ++ [({ name, size, fid } : FileEntry)] }.Rebuilt bound := by
  refine ⟨fun f member => ?_, rebuilt.below⟩
  rcases List.mem_append.mp member with earlier | added
  · exact rebuilt.files f earlier
  · rw [List.mem_singleton.mp added]
    exact nameNoBreak

end DirEntry.Rebuilt

/-- Every directory a table holds is rebuilt within `bound`. -/
def IdTable.Rebuilt (bound : Nat) (t : IdTable DirEntry) : Prop :=
  ∀ k d, t.get? k = some d → d.Rebuilt bound

namespace IdTable.Rebuilt

variable {bound : Nat} {t t' : IdTable DirEntry} {k : Nat}

theorem empty (bound : Nat) : (IdTable.empty : IdTable DirEntry).Rebuilt bound := by
  intro k d found
  simp at found

theorem mono (held : t.Rebuilt bound) {bound' : Nat} (le : bound ≤ bound') : t.Rebuilt bound' :=
  fun k d found => (held k d found).mono le

theorem insert (held : t.Rebuilt bound) {v : DirEntry} (fresh : v.Rebuilt bound)
    (inserted : t.insert k v = .ok t') : t'.Rebuilt bound := by
  intro j d found
  rw [IdTable.get?_of_insert_eq_ok inserted] at found
  split at found
  · cases found
    exact fresh
  · exact held j d found

theorem erase? (held : t.Rebuilt bound) {v : DirEntry} (erased : t.erase? k = some (v, t')) :
    t'.Rebuilt bound := by
  intro j d found
  rw [IdTable.get?_of_erase?_eq_some erased] at found
  split at found
  · cases found
  · exact held j d found

theorem modify? (held : t.Rebuilt bound) {f : DirEntry → DirEntry}
    (keeps : ∀ d, d.Rebuilt bound → (f d).Rebuilt bound) (modified : t.modify? k f = some t') :
    t'.Rebuilt bound := by
  intro j d found
  rw [IdTable.get?_of_modify?_eq_some modified] at found
  split at found
  · obtain ⟨d₀, found₀, rfl⟩ := Option.map_eq_some_iff.mp found
    exact keeps d₀ (held k d₀ found₀)
  · exact held j d found

end IdTable.Rebuilt

/-! ### Reading keeps it -/

namespace Snapshot.Progress

variable {p q : Progress} {n : Nat}

/-- Applying a record whose texts hold no line break keeps every held directory
rebuilt within the largest id read. -/
theorem rebuilt_apply (held : p.table.Rebuilt p.maxId) {record : Record} (plain : record.Plain)
    (applied : p.apply n record = .ok q) : q.table.Rebuilt q.maxId := by
  cases record with
  | directory id path =>
      rw [apply] at applied
      split at applied
      · cases applied
      · rename_i t inserted
        cases applied
        exact (held.mono (le_max_left _ _)).insert (DirEntry.Rebuilt.placeholder _) inserted
  | entry parent fid size dirId items name =>
      rw [apply] at applied
      have nameNoBreak : '\n' ∉ name.toList := plain
      dsimp only at applied
      split_ifs at applied with isDir isRoot hasRoot
      · -- The root's entry fills its directory in where it is held.
        split at applied
        · cases applied
        · rename_i t modified
          cases applied
          exact (held.mono (le_max_left _ _)).modify?
            (fun d rebuilt => rebuilt.fill name fid size dirId items) modified
      · -- Any other directory's entry takes it out of the table and under its parent.
        have heldWider := held.mono (le_max_left p.maxId dirId)
        split at applied
        · cases applied
        · rename_i dir t erased
          have dirRebuilt := heldWider dirId dir (IdTable.get?_of_erase?_eq_some_self erased)
          split at applied
          · cases applied
          · rename_i t' modified
            cases applied
            exact (heldWider.erase? erased).modify? (fun up rebuilt =>
              rebuilt.placeDir (dirRebuilt.fill name fid size dirId items) isDir
                (le_max_right _ _) nameNoBreak) modified
      · -- A file's entry adds it to its parent.
        split at applied
        · cases applied
        · rename_i t modified
          cases applied
          exact held.modify? (fun up rebuilt => rebuilt.placeFile size fid nameNoBreak) modified

theorem rebuilt_readLine (held : p.table.Rebuilt p.maxId) {raw : List UInt8}
    (inside : (10 : UInt8) ∉ raw.dropLast) (read : p.readLine n raw = .ok q) :
    q.table.Rebuilt q.maxId := by
  unfold readLine at read
  split at read
  · cases read
  · rename_i text decoded
    have noBreak := newline_not_mem_stripped inside decoded
    dsimp only at read
    generalize (if text.toList.getLast? = some '\n' then String.ofList text.toList.dropLast
      else text) = stripped at read noBreak
    split_ifs at read with marked
    · cases read
      exact held
    · split at read
      · cases read
      · rename_i line parsed
        exact rebuilt_apply held (Line.plain_of_parse noBreak parsed) read

theorem rebuilt_readLines {lines : List (List UInt8)}
    (inside : ∀ raw ∈ lines, (10 : UInt8) ∉ raw.dropLast) :
    ∀ {p q : Progress} {n : Nat}, p.table.Rebuilt p.maxId → p.readLines n lines = .ok q →
      q.table.Rebuilt q.maxId := by
  induction lines with
  | nil =>
      intro p q n held read
      cases read
      exact held
  | cons raw rest inductionHypothesis =>
      intro p q n held read
      rw [readLines_cons] at read
      cases step : p.readLine n raw with
      | error e =>
          rw [step] at read
          cases read
      | ok r =>
          rw [step] at read
          exact inductionHypothesis (fun line member => inside line (List.mem_cons_of_mem _ member))
            (rebuilt_readLine held (inside raw List.mem_cons_self) step) read

end Snapshot.Progress

/-- What an accepted read is made of: the lines read into a table that holds at
most the root, placed as the root; the snapshot is that root, the largest id read
and the fingerprint of the bytes. -/
theorem Snapshot.read_eq_ok {bytes : List UInt8} {S : Snapshot} (read : Snapshot.read bytes = .ok S) :
    ∃ p id t, ({} : Progress).readLines 1 (splitLines bytes) = .ok p ∧ p.rootId = some id ∧
      p.table.size ≤ 1 ∧ p.table.erase? id = some (S.root, t) ∧ S.maxId = p.maxId ∧
      S.digest = Md5.digest bytes := by
  unfold Snapshot.read at read
  cases lines : ({} : Progress).readLines 1 (splitLines bytes) with
  | error e =>
      rw [lines] at read
      cases read
  | ok p =>
      simp only [lines, bind, Except.bind] at read
      split at read
      · cases read
      · rename_i id hasRoot
        split_ifs at read with tooMany
        split at read
        · cases read
        · rename_i root t erased
          cases read
          exact ⟨p, id, t, rfl, hasRoot, Nat.le_of_not_lt tooMany, erased, rfl, rfl⟩

/-- The tree of a snapshot the reader accepts is rebuilt within its largest id: no
line break in a name below the root or of the root's files, and a positive id no
larger than the largest id read for every directory below the root. -/
theorem Snapshot.rebuilt_read {bytes : List UInt8} {S : Snapshot}
    (read : Snapshot.read bytes = .ok S) : S.root.Rebuilt S.maxId := by
  obtain ⟨p, id, t, lines, -, -, erased, maxId, -⟩ := Snapshot.read_eq_ok read
  have held := Progress.rebuilt_readLines (fun raw member => newline_not_mem_dropLast member)
    (IdTable.Rebuilt.empty 0) lines
  rw [maxId]
  exact held id S.root (IdTable.get?_of_erase?_eq_some_self erased)

end TreeDump
