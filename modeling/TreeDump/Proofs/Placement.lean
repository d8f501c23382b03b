import Mathlib
import TreeDump.Proofs.Registry
import TreeDump.Proofs.ScanTree
import TreeDump.Proofs.StoredReading

/-!
Where each entry of an accepted snapshot ends up.

The tree the reader returns is made of the snapshot's entries: each entry gives one
node, a directory's entry the directory it fills and a file's entry a file, and no
node comes from anywhere else. A node sits in the directory its parent id named
when its entry was read, that is, the directory the last declaration of that id
registered. One id may name several directories over a snapshot, one after
another, since an id is free again once its directory was placed; and a directory's
entry comes after the entries placed in it, or, for the root, possibly before some.
So the statement compares declarations (`PlacedUnder`).

`LineTree` tells a tree by the positions of the records it comes from, and
`LineTree.view` reads each node's fields off its entry: a directory's name, fid,
size, id and items, a file's name, size and fid (a file keeps no item count).

The root's entry fills the root in place and leaves it registered, and nothing stops
a later entry from naming the root's id: the reader then moves the root under
another directory, and once the id is declared again the root's entry is lost from
the tree. `NoRehome` leaves such snapshots out.

Owns: `LineTree` and `Held`, a directory and a directory the reader holds, told by
positions; `declaredAt`, the declaration an id refers to at a position;
`PlacedUnder`; `NoRehome`; and `Progress.Tracks`, the reader's table told by
positions, with one step lemma for each way a record is applied.
Main statement: `read_accepts_consistent_dumps`, with `entry_lines_not_kept` for
the two ways a tree read back is not made of its entry lines alone.
-/

namespace TreeDump

open Wire

namespace Wire

/-- The parent id an entry names; a declaration names none. -/
def Record.parent : Record → Nat
  | .entry parent .. => parent
  | .directory .. => 0

/-- The directory id a record names: the id a declaration registers, the id a
directory's entry fills, and `0` for a file's entry. -/
def Record.dirId : Record → Nat
  | .entry _ _ _ dirId _ _ => dirId
  | .directory id _ => id

/-- A directory's entry. -/
def Record.placesDir : Record → Bool
  | .entry _ _ _ dirId _ _ => dirId != 0
  | .directory .. => false

/-- A file's entry. -/
def Record.placesFile : Record → Bool
  | .entry _ _ _ dirId _ _ => dirId == 0
  | .directory .. => false

/-- The directory a directory's entry fills, before anything is placed in it. -/
def Record.dirNode : Record → DirEntry
  | .entry _ fid size dirId items name => { name, fid, size, id := dirId, items }
  | .directory .. => { name := "" }

/-- The file a file's entry gives; its item count is not kept. -/
def Record.fileNode : Record → FileEntry
  | .entry _ fid size _ _ name => { name, size, fid }
  | .directory .. => { name := "" }

@[simp] theorem Record.dirNode_digest (r : Record) : r.dirNode.digest = none := by
  cases r <;> rfl

theorem Record.dirNode_id_of_placesDir {record : Record} (placesDir : record.placesDir = true) :
    record.dirNode.id = record.dirId := by
  cases record with
  | entry => rfl
  | directory => cases placesDir

theorem Record.dirId_ne_zero_of_placesDir {record : Record} (placesDir : record.placesDir = true) :
    record.dirId ≠ 0 := by
  cases record with
  | entry _ _ _ dirId _ _ => simpa [Record.placesDir, Record.dirId] using placesDir
  | directory => cases placesDir

end Wire

namespace Snapshot

variable {recs : List Record}

/-- The record at a position; a placeholder past the end. -/
def recordAt (recs : List Record) (i : Nat) : Record := recs.getD i (.directory 0 "")

theorem recordAt_of_getElem? {i : Nat} {r : Record} (found : recs[i]? = some r) : recordAt recs i = r := by
  simp [recordAt, List.getD_eq_getElem?_getD, found]

/-- The positions before `n` whose records have `P`. -/
def positions (recs : List Record) (P : Record → Bool) (n : Nat) : List Nat :=
  (List.range n).filter fun i => recs[i]?.any P

theorem positions_succ {P : Record → Bool} {n : Nat} {r : Record} (found : recs[n]? = some r) :
    positions recs P (n + 1) = positions recs P n ++ if P r then [n] else [] := by
  simp only [positions, List.range_succ, List.filter_append]
  cases kind : P r <;> simp [found, kind]

/-- The position of the last declaration of `id` before position `n`: the directory
`id` names there, if any. -/
def declaredAt (recs : List Record) (id : Nat) : Nat → Option Nat
  | 0 => none
  | n + 1 =>
    match recs[n]? with
    | some (.directory k _) => if k = id then some n else declaredAt recs id n
    | _ => declaredAt recs id n

theorem declaredAt_succ_of_directory {n k id : Nat} {path : String} (found : recs[n]? = some (.directory k path)) :
    declaredAt recs id (n + 1) = if k = id then some n else declaredAt recs id n := by
  simp [declaredAt, found]

theorem declaredAt_succ_of_entry {n parent fid size dirId items id : Nat} {name : String}
    (found : recs[n]? = some (.entry parent fid size dirId items name)) :
    declaredAt recs id (n + 1) = declaredAt recs id n := by
  simp [declaredAt, found]

/-- The entry at position `i` sits in the directory the entry at position `j` fills:
when each was read, `i`'s parent id and `j`'s directory id were registered by the
same declaration. -/
def PlacedUnder (recs : List Record) (j i : Nat) : Prop :=
  ∃ child dir d, recs[i]? = some child ∧ recs[j]? = some dir ∧
    declaredAt recs child.parent i = some d ∧ declaredAt recs dir.dirId j = some d

/-- No record after the root's entry names the root's id. -/
def NoRehome (recs : List Record) : Prop :=
  recs.Pairwise fun root later => root.parent = 0 → root.placesDir = true → later.dirId ≠ root.dirId

instance (recs : List Record) : Decidable (NoRehome recs) :=
  inferInstanceAs (Decidable (recs.Pairwise _))

/-- A record after the root's entry names another id. -/
theorem NoRehome.dirId_ne (noRehome : NoRehome recs) {j n fid size k items : Nat} {name : String}
    (before : j < n) (rootFound : recs[j]? = some (.entry 0 fid size k items name)) (idPos : k ≠ 0)
    {record : Record} (found : recs[n]? = some record) : record.dirId ≠ k := by
  obtain ⟨inJ, rootEq⟩ := List.getElem?_eq_some_iff.mp rootFound
  obtain ⟨inN, recordEq⟩ := List.getElem?_eq_some_iff.mp found
  have later := List.pairwise_iff_getElem.mp noRehome j n inJ inN before
  rw [rootEq, recordEq] at later
  simpa [Record.parent, Record.placesDir, Record.dirId, idPos] using later

end Snapshot

/-- A directory told by the positions of the records it comes from: its entry's
position, the directories placed in it and the positions of its files' entries. -/
inductive LineTree where
  | dir (line : Nat) (dirs : List LineTree) (files : List Nat)

namespace LineTree

open Snapshot

/-- The position of the directory's entry. -/
def line : LineTree → Nat
  | dir line _ _ => line

/-- The directory the positions tell, each node with its entry's fields. -/
def view (recs : List Record) : LineTree → DirEntry
  | dir line dirs files =>
    { (recordAt recs line).dirNode with
      dirs := dirs.map (view recs), files := files.map fun i => (recordAt recs i).fileNode }

/-- The positions of the directories' entries, the root's first, in pre-order. -/
def dirLines : LineTree → List Nat
  | dir line dirs _ => line :: dirs.flatMap dirLines

/-- The positions of the files' entries. -/
def fileLines : LineTree → List Nat
  | dir _ dirs files => files ++ dirs.flatMap fileLines

/-- Every placement: the position of a directory's entry, with the position of each
entry placed in it. -/
def placements : LineTree → List (Nat × Nat)
  | dir line dirs files =>
    dirs.map (fun c => (line, c.line)) ++ files.map (line, ·) ++ dirs.flatMap placements

end LineTree

namespace Snapshot

/-- A directory the reader holds, told by positions: its entry's position once the
entry was read (only the root's is read while it is held), the directories placed
in it and the positions of its files' entries. -/
structure Held where
  line : Option Nat := none
  dirs : List LineTree := []
  files : List Nat := []

namespace Held

variable {recs : List Record}

/-- The fields of the held directory: its entry's once read, else an empty name. -/
def head (recs : List Record) (h : Held) : DirEntry :=
  match h.line with
  | none => { name := "" }
  | some j => (recordAt recs j).dirNode

/-- The directory the positions tell; an empty placeholder until its entry is read. -/
def view (recs : List Record) (h : Held) : DirEntry :=
  { h.head recs with
    dirs := h.dirs.map (LineTree.view recs), files := h.files.map fun i => (recordAt recs i).fileNode }

/-- The positions of the directories' entries. -/
def dirLines (h : Held) : List Nat := h.line.toList ++ h.dirs.flatMap LineTree.dirLines

/-- The positions of the files' entries. -/
def fileLines (h : Held) : List Nat := h.files ++ h.dirs.flatMap LineTree.fileLines

/-- The positions of the entries placed in the directory itself. -/
def topLines (h : Held) : List Nat := h.dirs.map LineTree.line ++ h.files

/-- The placements below the directory's children. -/
def inner (h : Held) : List (Nat × Nat) := h.dirs.flatMap LineTree.placements

/-- The directory once its entry at position `j` is read: the children sorted by
name, as the reader sorts them. -/
def close (recs : List Record) (h : Held) (j : Nat) : LineTree :=
  .dir j (h.dirs.mergeSort fun a b => DirEntry.nameLe (a.view recs) (b.view recs))
    (h.files.mergeSort fun a b => FileEntry.nameLe (recordAt recs a).fileNode (recordAt recs b).fileNode)

@[simp] theorem head_digest (recs : List Record) (h : Held) : (h.head recs).digest = none := by
  unfold head
  split <;> simp

/-- Reading a held directory's entry fills it as the reader does. -/
theorem view_close (h : Held) {j parent fid size id items : Nat} {name : String}
    (entry : recordAt recs j = .entry parent fid size id items name) :
    (h.close recs j).view recs = fill name fid size id items (h.view recs) := by
  have dirsSorted : (h.dirs.mergeSort fun a b => DirEntry.nameLe (a.view recs) (b.view recs)).map
      (LineTree.view recs) = (h.dirs.map (LineTree.view recs)).mergeSort DirEntry.nameLe :=
    List.map_mergeSort fun _ _ _ _ => rfl
  have filesSorted : (h.files.mergeSort fun a b =>
      FileEntry.nameLe (recordAt recs a).fileNode (recordAt recs b).fileNode).map
        (fun i => (recordAt recs i).fileNode) =
      (h.files.map fun i => (recordAt recs i).fileNode).mergeSort FileEntry.nameLe :=
    List.map_mergeSort fun _ _ _ _ => rfl
  have digest := h.head_digest recs
  simp only [close, LineTree.view, view, fill, entry, Record.dirNode, dirsSorted, filesSorted]
  generalize h.head recs = head at digest ⊢
  cases head
  simp_all

@[simp] theorem line_close (h : Held) (j : Nat) : (h.close recs j).line = j := rfl

/-- Changing what one id holds, but not whether its entry was read, keeps every
id's entry. -/
theorem line_update {H : Nat → Held} {P : Nat} {h : Held} (same : h.line = (H P).line) (k : Nat) :
    (Function.update H P h k).line = (H k).line := by
  by_cases other : k = P
  · subst other
    rw [Function.update_self, same]
  · rw [Function.update_of_ne other]

theorem dirLines_close (h : Held) (j : Nat) :
    (h.close recs j).dirLines.Perm (j :: h.dirs.flatMap LineTree.dirLines) := by
  rw [close, LineTree.dirLines]
  exact ((List.mergeSort_perm _ _).flatMap_right _).cons j

theorem fileLines_close (h : Held) (j : Nat) : (h.close recs j).fileLines.Perm h.fileLines := by
  rw [close, LineTree.fileLines, fileLines]
  exact (List.mergeSort_perm _ _).append ((List.mergeSort_perm _ _).flatMap_right _)

/-- Reading a directory's entry places what it holds under that entry. -/
theorem placements_close (h : Held) (j : Nat) :
    (h.close recs j).placements.Perm (h.topLines.map (j, ·) ++ h.inner) := by
  simp only [close, LineTree.placements, topLines, inner, List.map_append, List.map_map]
  exact (((List.mergeSort_perm _ _).map _).append ((List.mergeSort_perm _ _).map _)).append
    ((List.mergeSort_perm _ _).flatMap_right _)

end Held

end Snapshot

/-- A directory whose entry was read, as a held one. -/
def LineTree.toHeld : LineTree → Snapshot.Held
  | .dir line dirs files => { line := some line, dirs, files }

namespace LineTree

open Snapshot

variable {recs : List Record}

@[simp] theorem view_toHeld (T : LineTree) : T.toHeld.view recs = T.view recs := by
  cases T
  simp only [toHeld, Held.view, Held.head, view]

@[simp] theorem dirLines_toHeld (T : LineTree) : T.toHeld.dirLines = T.dirLines := by
  cases T
  simp [toHeld, Held.dirLines, dirLines]

@[simp] theorem fileLines_toHeld (T : LineTree) : T.toHeld.fileLines = T.fileLines := by
  cases T
  simp [toHeld, Held.fileLines, fileLines]

@[simp] theorem line_toHeld (T : LineTree) : T.toHeld.line = some T.line := by
  cases T
  rfl

/-- A directory's placements: what sits in it, then what sits below. -/
theorem placements_eq (T : LineTree) :
    T.placements = T.toHeld.topLines.map (T.line, ·) ++ T.toHeld.inner := by
  cases T
  simp [placements, toHeld, Held.topLines, Held.inner, line, Function.comp_def]

end LineTree

namespace Snapshot

/-! ### Lists held under distinct keys -/

section Keyed

variable {β : Type} {keys : List Nat} {k : Nat}

theorem perm_flatMap_erase (member : k ∈ keys) (F : Nat → List β) :
    (keys.flatMap F).Perm (F k ++ (keys.erase k).flatMap F) := by
  simpa only [List.flatMap_cons] using (List.perm_cons_erase member).flatMap_right F

open List in
/-- Over distinct keys, changing what one key holds so that it lists `extra` more
changes the whole by `extra`. -/
theorem perm_flatMap_update {γ : Type} (nodup : keys.Nodup) (member : k ∈ keys) (G : γ → List β)
    (H : Nat → γ) {x : γ} {extra : List β} (changed : (G x).Perm (G (H k) ++ extra)) :
    (keys.flatMap fun k' => G (Function.update H k x k')).Perm ((keys.flatMap fun k' => G (H k')) ++ extra) := by
  have rest : ((keys.erase k).flatMap fun k' => G (Function.update H k x k')) =
      (keys.erase k).flatMap fun k' => G (H k') :=
    List.flatMap_congr fun k' inside => by
      rw [Function.update_of_ne ((nodup.mem_erase_iff).mp inside).1]
  calc (keys.flatMap fun k' => G (Function.update H k x k'))
      ~ G x ++ (keys.erase k).flatMap fun k' => G (H k') := by
        simpa [rest] using perm_flatMap_erase member fun k' => G (Function.update H k x k')
    _ ~ (G (H k) ++ extra) ++ (keys.erase k).flatMap fun k' => G (H k') := changed.append_right _
    _ ~ (G (H k) ++ (keys.erase k).flatMap fun k' => G (H k')) ++ extra := by
        simpa only [List.append_assoc] using List.perm_append_comm.append_left (G (H k))
    _ ~ (keys.flatMap fun k' => G (H k')) ++ extra :=
        (perm_flatMap_erase member fun k' => G (H k')).symm.append_right extra

end Keyed

end Snapshot

namespace Snapshot.Progress

/-- The reader's progress `p` after the first `n` records, told by `H`, which gives
for each id the table holds the directory held under it. The held directories hold
each entry read so far once, a directory's entry as a directory and a file's entry
as a file. Every entry below them sits in the directory its parent id named when it
was read, and every entry placed in one of them was read while its parent id named
the declaration the directory's id names now. Of the held directories, only the root
has had its entry read, and the root stays held. -/
structure Tracks (recs : List Record) (n : Nat) (p : Progress) (H : Nat → Held) : Prop where
  wellFormed : p.table.WellFormed
  view : ∀ k v, p.table.get? k = some v → v = (H k).view recs
  dirLines : (p.table.keys.flatMap fun k => (H k).dirLines).Perm (positions recs Record.placesDir n)
  fileLines : (p.table.keys.flatMap fun k => (H k).fileLines).Perm (positions recs Record.placesFile n)
  inner : ∀ k ∈ p.table.keys, ∀ placed ∈ (H k).inner, PlacedUnder recs placed.1 placed.2
  top : ∀ k ∈ p.table.keys, ∀ i ∈ (H k).topLines,
    ∃ child, recs[i]? = some child ∧ declaredAt recs child.parent i = declaredAt recs k n
  declared : ∀ k ∈ p.table.keys, declaredAt recs k n ≠ none
  filled : ∀ k ∈ p.table.keys, ∀ j, (H k).line = some j →
    p.rootId = some k ∧ j < n ∧ (∃ fid size items name, recs[j]? = some (.entry 0 fid size k items name)) ∧
      declaredAt recs k j = declaredAt recs k n
  rooted : ∀ k, p.rootId = some k → k ∈ p.table.keys ∧ ∃ j, (H k).line = some j

variable {recs : List Record} {n : Nat} {p : Progress} {H : Nat → Held}

theorem tracks_empty : Tracks recs 0 {} fun _ => {} := by
  have noKeys : ({} : Progress).table.keys = [] := rfl
  constructor <;> simp [noKeys, positions, IdTable.wellFormed_empty]

/-- An entry read at `n` whose directory id is held is not the root's entry read
before, when no record after the root's entry names its id. -/
theorem Tracks.line_eq_none (tracks : Tracks recs n p H) (noRehome : NoRehome recs) {k : Nat}
    (member : k ∈ p.table.keys) {record : Record} (found : recs[n]? = some record) (names : record.dirId = k) :
    (H k).line = none := by
  cases line : (H k).line with
  | none => rfl
  | some j =>
      obtain ⟨-, before, ⟨fid, size, items, name, rootFound⟩, -⟩ := tracks.filled k member j line
      exact absurd names (noRehome.dirId_ne before rootFound (tracks.wellFormed.positive k member) found)

/-- A declaration holds an empty directory under its id. -/
theorem Tracks.declare (tracks : Tracks recs n p H) {k : Nat} {path : String} {t : IdTable DirEntry}
    (found : recs[n]? = some (.directory k path)) (inserted : p.table.insert k { name := "" } = .ok t) :
    Tracks recs (n + 1) ⟨t, max p.maxId k, p.rootId⟩ (Function.update H k {}) := by
  have fresh := IdTable.not_mem_keys_of_insert_eq_ok inserted
  have keys := IdTable.keys_of_insert_eq_ok inserted
  -- The ids held before keep their directories and the declarations they name.
  have other : ∀ k' ∈ p.table.keys, k' ≠ k := fun k' member same => fresh (same ▸ member)
  have kept : ∀ k' ∈ p.table.keys, Function.update H k {} k' = H k' := fun k' member =>
    Function.update_of_ne (other k' member) _ _
  have stillDeclared : ∀ k' ∈ p.table.keys, declaredAt recs k' (n + 1) = declaredAt recs k' n :=
    fun k' member => by rw [declaredAt_succ_of_directory found, if_neg (other k' member).symm]
  have held : ∀ {k'}, k' ∈ t.keys → k' ∈ p.table.keys ∨ k' = k := fun member => by
    simpa [keys] using member
  constructor
  · exact tracks.wellFormed.of_insert inserted
  · intro j v found'
    rw [IdTable.get?_of_insert_eq_ok inserted] at found'
    by_cases same : j = k
    · subst same
      rw [if_pos rfl, Option.some.injEq] at found'
      simp [← found', Held.view, Held.head]
    · rw [if_neg same] at found'
      rw [Function.update_of_ne same]
      exact tracks.view j v found'
  · rw [keys, List.flatMap_append, List.flatMap_congr fun k' member => congrArg Held.dirLines (kept k' member),
      positions_succ found]
    simpa [Held.dirLines, Record.placesDir] using tracks.dirLines
  · rw [keys, List.flatMap_append, List.flatMap_congr fun k' member => congrArg Held.fileLines (kept k' member),
      positions_succ found]
    simpa [Held.fileLines, Record.placesFile] using tracks.fileLines
  · intro k' member placed inside
    rcases held member with old | rfl
    · exact tracks.inner k' old placed (kept k' old ▸ inside)
    · simp [Held.inner] at inside
  · intro k' member i inside
    rcases held member with old | rfl
    · rw [stillDeclared k' old]
      exact tracks.top k' old i (kept k' old ▸ inside)
    · simp [Held.topLines] at inside
  · intro k' member
    rcases held member with old | rfl
    · rw [stillDeclared k' old]
      exact tracks.declared k' old
    · simp [declaredAt_succ_of_directory found]
  · intro k' member j line
    rcases held member with old | rfl
    · obtain ⟨rootId, before, root, rootDeclared⟩ := tracks.filled k' old j (kept k' old ▸ line)
      exact ⟨rootId, by omega, root, by rw [stillDeclared k' old, rootDeclared]⟩
    · simp at line
  · intro R rootId
    obtain ⟨member, line⟩ := tracks.rooted R rootId
    exact ⟨by simp [keys, member], kept R member ▸ line⟩

/-- The root's entry fills its directory in place, which stays held. -/
theorem Tracks.root (tracks : Tracks recs n p H) {fid size R items : Nat} {name : String}
    {t : IdTable DirEntry} (found : recs[n]? = some (.entry 0 fid size R items name)) (idPos : R ≠ 0)
    (noRoot : p.rootId = none) (modified : p.table.modify? R (fill name fid size R items) = some t) :
    Tracks recs (n + 1) ⟨t, max p.maxId R, some R⟩ (Function.update H R ((H R).close recs n).toHeld) := by
  have member := IdTable.mem_keys_of_modify?_eq_some modified
  have keys := IdTable.keys_of_modify?_eq_some modified
  have unread : (H R).line = none := by
    cases line : (H R).line with
    | none => rfl
    | some j => cases noRoot ▸ (tracks.filled R member j line).1
  have stillDeclared : ∀ k, declaredAt recs k (n + 1) = declaredAt recs k n := fun _ => declaredAt_succ_of_entry found
  have kept : ∀ k, k ≠ R → Function.update H R ((H R).close recs n).toHeld k = H k := fun k other =>
    Function.update_of_ne other _ _
  -- The root's children are only sorted: what sits in and below it is unchanged.
  have topSame : ∀ i, i ∈ ((H R).close recs n).toHeld.topLines ↔ i ∈ (H R).topLines := fun i => by
    simp only [Held.close, LineTree.toHeld, Held.topLines, List.mem_append, List.mem_map,
      List.mem_mergeSort]
  have innerSame : ∀ placed, placed ∈ ((H R).close recs n).toHeld.inner ↔ placed ∈ (H R).inner := fun placed => by
    simp only [Held.close, LineTree.toHeld, Held.inner, List.mem_flatMap, List.mem_mergeSort]
  constructor
  · exact tracks.wellFormed.of_modify? modified
  · intro j v found'
    rw [IdTable.get?_of_modify?_eq_some modified] at found'
    by_cases same : j = R
    · subst same
      rw [if_pos rfl] at found'
      obtain ⟨d, held, rfl⟩ := Option.map_eq_some_iff.mp found'
      rw [Function.update_self, LineTree.view_toHeld, Held.view_close _ (recordAt_of_getElem? found),
        tracks.view _ d held]
    · rw [if_neg same] at found'
      rw [kept j same]
      exact tracks.view j v found'
  · have changed : ((H R).close recs n).toHeld.dirLines.Perm ((H R).dirLines ++ [n]) := by
      rw [LineTree.dirLines_toHeld]
      refine (Held.dirLines_close _ _).trans ?_
      simpa [Held.dirLines, unread] using (List.perm_append_singleton n _).symm
    rw [keys, positions_succ found]
    simpa [Record.placesDir, idPos] using
      (perm_flatMap_update tracks.wellFormed.nodup member Held.dirLines H changed).trans
        (tracks.dirLines.append_right [n])
  · have changed : ((H R).close recs n).toHeld.fileLines.Perm ((H R).fileLines ++ []) := by
      simpa using Held.fileLines_close (H R) n
    rw [keys, positions_succ found]
    simpa [Record.placesFile, idPos] using
      (perm_flatMap_update tracks.wellFormed.nodup member Held.fileLines H changed).trans
        (tracks.fileLines.append_right [])
  · intro k member' placed inside
    rw [keys] at member'
    by_cases same : k = R
    · subst same
      rw [Function.update_self] at inside
      exact tracks.inner k member' placed ((innerSame placed).mp inside)
    · exact tracks.inner k member' placed (kept k same ▸ inside)
  · intro k member' i inside
    rw [keys] at member'
    rw [stillDeclared k]
    by_cases same : k = R
    · subst same
      rw [Function.update_self] at inside
      exact tracks.top k member' i ((topSame i).mp inside)
    · exact tracks.top k member' i (kept k same ▸ inside)
  · intro k member'
    rw [stillDeclared k]
    exact tracks.declared k (keys ▸ member')
  · intro k member' j line
    rw [keys] at member'
    by_cases same : k = R
    · subst same
      rw [Function.update_self, LineTree.line_toHeld] at line
      obtain rfl : n = j := Option.some.inj line
      exact ⟨rfl, by omega, ⟨fid, size, items, name, found⟩, (stillDeclared k).symm⟩
    · obtain ⟨rootId, -⟩ := tracks.filled k member' j (kept k same ▸ line)
      cases noRoot ▸ rootId
  · intro k rootId
    obtain rfl : R = k := Option.some.inj rootId
    exact ⟨keys ▸ member, n, by rw [Function.update_self, LineTree.line_toHeld]; rfl⟩

/-- A file's entry appends the file to its parent's. -/
theorem Tracks.file (tracks : Tracks recs n p H) {P fid size items : Nat} {name : String}
    {t : IdTable DirEntry} (found : recs[n]? = some (.entry P fid size 0 items name))
    (modified : p.table.modify? P (fun up => { up with files := up.files ++ [{ name, size, fid }] }) = some t) :
    Tracks recs (n + 1) ⟨t, p.maxId, p.rootId⟩ (Function.update H P { H P with files := (H P).files ++ [n] }) := by
  have member := IdTable.mem_keys_of_modify?_eq_some modified
  have keys := IdTable.keys_of_modify?_eq_some modified
  have stillDeclared : ∀ k, declaredAt recs k (n + 1) = declaredAt recs k n := fun _ => declaredAt_succ_of_entry found
  have kept : ∀ k, k ≠ P → Function.update H P { H P with files := (H P).files ++ [n] } k = H k :=
    fun k other => Function.update_of_ne other _ _
  constructor
  · exact tracks.wellFormed.of_modify? modified
  · intro j v found'
    rw [IdTable.get?_of_modify?_eq_some modified] at found'
    by_cases same : j = P
    · subst same
      rw [if_pos rfl] at found'
      obtain ⟨d, held, rfl⟩ := Option.map_eq_some_iff.mp found'
      rw [Function.update_self, tracks.view _ d held]
      simp [Held.view, Held.head, recordAt_of_getElem? found, Record.fileNode]
    · rw [if_neg same] at found'
      rw [kept j same]
      exact tracks.view j v found'
  · -- A file adds no directory.
    have same : ∀ k, (Function.update H P { H P with files := (H P).files ++ [n] } k).dirLines = (H k).dirLines := by
      intro k
      by_cases other : k = P
      · subst other
        simp [Held.dirLines]
      · rw [kept k other]
    simpa [keys, same, positions_succ found, Record.placesDir] using tracks.dirLines
  · have changed : ({ H P with files := (H P).files ++ [n] } : Held).fileLines.Perm ((H P).fileLines ++ [n]) := by
      simpa only [Held.fileLines, List.append_assoc] using List.perm_append_comm.append_left (H P).files
    rw [keys, positions_succ found]
    simpa [Record.placesFile] using
      (perm_flatMap_update tracks.wellFormed.nodup member Held.fileLines H changed).trans
        (tracks.fileLines.append_right [n])
  · intro k member' placed inside
    rw [keys] at member'
    by_cases same : k = P
    · subst same
      rw [Function.update_self] at inside
      exact tracks.inner k member' placed inside
    · exact tracks.inner k member' placed (kept k same ▸ inside)
  · intro k member' i inside
    rw [keys] at member'
    rw [stillDeclared k]
    by_cases same : k = P
    · subst same
      rw [Function.update_self] at inside
      simp only [Held.topLines, List.mem_append, List.mem_singleton] at inside
      rcases inside with placed | placed | rfl
      · exact tracks.top k member' i (by simp [Held.topLines, placed])
      · exact tracks.top k member' i (by simp [Held.topLines, placed])
      · exact ⟨_, found, by simp [Record.parent]⟩
    · exact tracks.top k member' i (kept k same ▸ inside)
  · intro k member'
    rw [stillDeclared k]
    exact tracks.declared k (keys ▸ member')
  · intro k member' j line
    rw [keys] at member'
    simp only [Held.line_update] at line
    obtain ⟨rootId, before, root, rootDeclared⟩ := tracks.filled k member' j line
    exact ⟨rootId, by omega, root, by rw [stillDeclared k, rootDeclared]⟩
  · intro R rootId
    obtain ⟨member', j, line⟩ := tracks.rooted R rootId
    exact ⟨keys ▸ member', j, by simpa only [Held.line_update] using line⟩

/-! #### Placing a directory in its parent

An entry of a directory other than the root takes the directory `k` out of the table and
appends it, closed, to its parent `P`'s directories. Each field of `Tracks` is kept by a
lemma of its own; they share the hypotheses of this section. -/

section Place

variable (tracks : Tracks recs n p H) {P fid size k items : Nat} {name : String} {dir : DirEntry}
  {t t' : IdTable DirEntry}
  (found : recs[n]? = some (.entry P fid size k items name))
  (erased : p.table.erase? k = some (dir, t))
  (modified : t.modify? P (fun up => { up with dirs := up.dirs ++ [fill name fid size k items dir] }) = some t')

include tracks erased modified in
/-- The placed directory leaves the table, and its parent, another id, stays. -/
theorem Tracks.place_keys :
    k ∈ p.table.keys ∧ t'.keys = p.table.keys.erase k ∧ P ∈ p.table.keys.erase k ∧ P ≠ k := by
  have nodup := tracks.wellFormed.nodup
  have keys : t'.keys = p.table.keys.erase k := by
    rw [IdTable.keys_of_modify?_eq_some modified, IdTable.keys_of_erase?_eq_some erased, nodup.erase_eq_filter]
  have member : P ∈ p.table.keys.erase k := by
    rw [← keys, IdTable.keys_of_modify?_eq_some modified]
    exact IdTable.mem_keys_of_modify?_eq_some modified
  exact ⟨IdTable.mem_keys_of_erase?_eq_some erased, keys, member, (nodup.mem_erase_iff.mp member).1⟩

include tracks found erased modified in
/-- Every directory the table holds after the placement reads as the held one: the
parent now with the placed directory closed as its last child. -/
theorem Tracks.place_view : ∀ j v, t'.get? j = some v →
    v = (Function.update H P { H P with dirs := (H P).dirs ++ [(H k).close recs n] } j).view recs := by
  obtain ⟨-, -, -, parentNe⟩ := tracks.place_keys erased modified
  have dirHeld : dir = (H k).view recs := tracks.view k dir (IdTable.get?_of_erase?_eq_some_self erased)
  intro j v found'
  rw [IdTable.get?_of_modify?_eq_some modified] at found'
  by_cases same : j = P
  · subst same
    rw [if_pos rfl] at found'
    obtain ⟨u, uHeld, rfl⟩ := Option.map_eq_some_iff.mp found'
    rw [IdTable.get?_of_erase?_eq_some erased, if_neg parentNe] at uHeld
    rw [Function.update_self, tracks.view _ u uHeld, dirHeld,
      ← Held.view_close _ (recordAt_of_getElem? found)]
    simp [Held.view, Held.head]
  · rw [if_neg same, IdTable.get?_of_erase?_eq_some erased] at found'
    split at found'
    · cases found'
    · rw [Function.update_of_ne same]
      exact tracks.view j v found'

include tracks found erased modified in
/-- The directory's lines move to its parent's, with its entry's. -/
theorem Tracks.place_dirLines (noRehome : NoRehome recs) (idPos : k ≠ 0) :
    (t'.keys.flatMap fun j =>
        (Function.update H P { H P with dirs := (H P).dirs ++ [(H k).close recs n] } j).dirLines).Perm
      (positions recs Record.placesDir (n + 1)) := by
  obtain ⟨held, keys, member, -⟩ := tracks.place_keys erased modified
  have unread : (H k).line = none := tracks.line_eq_none noRehome held found rfl
  have changed : ({ H P with dirs := (H P).dirs ++ [(H k).close recs n] } : Held).dirLines.Perm
      ((H P).dirLines ++ n :: (H k).dirLines) := by
    simp only [Held.dirLines, List.flatMap_append, List.flatMap_singleton, List.append_assoc, unread,
      Option.toList_none, List.nil_append]
    exact ((Held.dirLines_close _ _).append_left _).append_left _
  rw [keys, positions_succ found]
  simp only [Record.placesDir, bne_iff_ne, ne_eq, idPos, not_false_eq_true, if_true]
  refine (perm_flatMap_update (tracks.wellFormed.nodup.erase k) member Held.dirLines H changed).trans ?_
  refine List.perm_middle.trans ((List.perm_append_singleton _ _).symm.trans ?_)
  exact (List.perm_append_comm.trans ((perm_flatMap_erase held _).symm.trans tracks.dirLines)).append_right [n]

include tracks found erased modified in
/-- The directory's files move to its parent's. -/
theorem Tracks.place_fileLines (idPos : k ≠ 0) :
    (t'.keys.flatMap fun j =>
        (Function.update H P { H P with dirs := (H P).dirs ++ [(H k).close recs n] } j).fileLines).Perm
      (positions recs Record.placesFile (n + 1)) := by
  obtain ⟨held, keys, member, -⟩ := tracks.place_keys erased modified
  have changed : ({ H P with dirs := (H P).dirs ++ [(H k).close recs n] } : Held).fileLines.Perm
      ((H P).fileLines ++ (H k).fileLines) := by
    simp only [Held.fileLines, List.flatMap_append, List.flatMap_singleton, List.append_assoc]
    exact ((Held.fileLines_close _ _).append_left _).append_left _
  rw [keys, positions_succ found]
  simp only [Record.placesFile, beq_iff_eq, idPos, if_false, List.append_nil]
  refine (perm_flatMap_update (tracks.wellFormed.nodup.erase k) member Held.fileLines H changed).trans ?_
  exact List.perm_append_comm.trans ((perm_flatMap_erase held _).symm.trans tracks.fileLines)

include tracks found erased modified in
/-- What the directory held is now placed under its entry. -/
theorem Tracks.place_inner : ∀ j ∈ t'.keys,
    ∀ placed ∈ (Function.update H P { H P with dirs := (H P).dirs ++ [(H k).close recs n] } j).inner,
      PlacedUnder recs placed.1 placed.2 := by
  obtain ⟨held, keys, -, -⟩ := tracks.place_keys erased modified
  intro j member' placed inside
  rw [keys] at member'
  have old := List.mem_of_mem_erase member'
  by_cases same : j = P
  · subst same
    simp only [Function.update_self, Held.inner, List.flatMap_append, List.flatMap_singleton,
      List.mem_append] at inside
    rcases inside with before | closed
    · exact tracks.inner j old placed before
    · rcases List.mem_append.mp ((Held.placements_close _ _).mem_iff.mp closed) with top | below
      · obtain ⟨i, inTop, rfl⟩ := List.mem_map.mp top
        obtain ⟨child, childFound, childDeclared⟩ := tracks.top k held i inTop
        obtain ⟨d, declared⟩ := Option.ne_none_iff_exists'.mp (tracks.declared k held)
        exact ⟨child, _, d, childFound, found, childDeclared.trans declared, declared⟩
      · exact tracks.inner k held placed below
  · rw [Function.update_of_ne same] at inside
    exact tracks.inner j old placed inside

include tracks found erased modified in
/-- The lines at the top of a held directory name children declared where it is: the
placed directory's entry names its parent's declaration. -/
theorem Tracks.place_top : ∀ j ∈ t'.keys,
    ∀ i ∈ (Function.update H P { H P with dirs := (H P).dirs ++ [(H k).close recs n] } j).topLines,
      ∃ child, recs[i]? = some child ∧ declaredAt recs child.parent i = declaredAt recs j (n + 1) := by
  obtain ⟨-, keys, -, -⟩ := tracks.place_keys erased modified
  intro j member' i inside
  rw [keys] at member'
  have old := List.mem_of_mem_erase member'
  rw [declaredAt_succ_of_entry found]
  by_cases same : j = P
  · subst same
    simp only [Function.update_self, Held.topLines, List.map_append, List.map_singleton,
      List.mem_append, List.mem_singleton] at inside
    rcases inside with (placed | isNew) | placed
    · exact tracks.top j old i (by simp [Held.topLines, placed])
    · rw [Held.line_close] at isNew
      subst isNew
      exact ⟨_, found, rfl⟩
    · exact tracks.top j old i (by simp [Held.topLines, placed])
  · rw [Function.update_of_ne same] at inside
    exact tracks.top j old i inside

end Place

/-- Any other directory's entry takes its directory out of the table, fills it and
places it in its parent. -/
theorem Tracks.place (tracks : Tracks recs n p H) (noRehome : NoRehome recs) {P fid size k items : Nat}
    {name : String} {dir : DirEntry} {t t' : IdTable DirEntry}
    (found : recs[n]? = some (.entry P fid size k items name)) (idPos : k ≠ 0)
    (erased : p.table.erase? k = some (dir, t))
    (modified : t.modify? P (fun up => { up with dirs := up.dirs ++ [fill name fid size k items dir] }) = some t') :
    Tracks recs (n + 1) ⟨t', max p.maxId k, p.rootId⟩
      (Function.update H P { H P with dirs := (H P).dirs ++ [(H k).close recs n] }) := by
  obtain ⟨held, keys, -, -⟩ := tracks.place_keys erased modified
  have unread : (H k).line = none := tracks.line_eq_none noRehome held found rfl
  refine ⟨(tracks.wellFormed.of_erase? erased).of_modify? modified, tracks.place_view found erased modified,
    tracks.place_dirLines found erased modified noRehome idPos, tracks.place_fileLines found erased modified idPos,
    tracks.place_inner found erased modified, tracks.place_top found erased modified, ?_, ?_, ?_⟩
  · intro j member'
    rw [keys] at member'
    rw [declaredAt_succ_of_entry found]
    exact tracks.declared j (List.mem_of_mem_erase member')
  · intro j member' j₀ line
    rw [keys] at member'
    simp only [Held.line_update] at line
    obtain ⟨rootId, before, root, rootDeclared⟩ := tracks.filled j (List.mem_of_mem_erase member') j₀ line
    exact ⟨rootId, by omega, root, by rw [declaredAt_succ_of_entry found, rootDeclared]⟩
  · intro R rootId
    obtain ⟨rootHeld, j, line⟩ := tracks.rooted R rootId
    -- The root is not the directory placed: that one's entry was not read.
    have notPlaced : R ≠ k := fun same => by
      subst same
      rw [unread] at line
      cases line
    exact ⟨keys ▸ (List.mem_erase_of_ne notPlaced).mpr rootHeld, j, by simpa only [Held.line_update] using line⟩

/-- Each record applied raises the largest id to the id it names. -/
theorem Applied.maxId_eq {record : Record} {q : Progress} (applied : Applied p record q) :
    q.maxId = max p.maxId record.dirId := by
  cases applied <;> simp [Record.dirId]

theorem maxId_applyAll {rest : List Record} :
    ∀ {p q : Progress}, p.applyAll rest = some q → q.maxId = max p.maxId ((rest.map Record.dirId).foldr max 0) := by
  induction rest with
  | nil =>
      intro p q applied
      rw [applyAll_nil, Option.some.injEq] at applied
      simp [applied]
  | cons record rest inductionHypothesis =>
      intro p q applied
      obtain ⟨p₁, step, later⟩ := applyAll_cons_eq_some.mp applied
      rw [inductionHypothesis later, step.maxId_eq, List.map_cons, List.foldr_cons, Nat.max_assoc]

/-- Applying the record at position `n`, in whichever way, keeps the progress told. -/
theorem Tracks.applied (tracks : Tracks recs n p H) (noRehome : NoRehome recs) {record : Record}
    (found : recs[n]? = some record) {q : Progress} (applied : Applied p record q) :
    ∃ H', Tracks recs (n + 1) q H' := by
  cases applied with
  | declare inserted => exact ⟨_, tracks.declare found inserted⟩
  | root idPos noRoot modified => exact ⟨_, tracks.root found idPos noRoot modified⟩
  | place _ idPos erased modified => exact ⟨_, tracks.place noRehome found idPos erased modified⟩
  | file modified => exact ⟨_, tracks.file found modified⟩

/-- Applying the records from position `n` on keeps the progress told. -/
theorem Tracks.applyAll (noRehome : NoRehome recs) (rest : List Record) :
    ∀ {n : Nat} {p q : Progress} {H : Nat → Held}, recs.drop n = rest → Tracks recs n p H →
      p.applyAll rest = some q → ∃ H', Tracks recs (n + rest.length) q H' := by
  induction rest with
  | nil =>
      intro n p q H _ tracks applied
      rw [applyAll_nil, Option.some.injEq] at applied
      exact ⟨H, applied ▸ tracks⟩
  | cons record rest inductionHypothesis =>
      intro n p q H dropped tracks applied
      obtain ⟨p₁, step, later⟩ := applyAll_cons_eq_some.mp applied
      have found : recs[n]? = some record := by
        rw [← List.head?_drop, dropped, List.head?_cons]
      have dropped₁ : recs.drop (n + 1) = rest := by
        rw [← List.tail_drop, dropped, List.tail_cons]
      obtain ⟨H₁, tracks₁⟩ := tracks.applied noRehome found step
      obtain ⟨H', final⟩ := inductionHypothesis dropped₁ tracks₁ later
      refine ⟨H', ?_⟩
      rwa [List.length_cons, ← Nat.add_assoc, Nat.add_right_comm]

end Snapshot.Progress

namespace Snapshot

/-- `T` tells how the entries `recs` make the tree `root`: each node has its entry's
fields; each directory's entry and each file's entry gives exactly one node; the
root comes from the entry under parent `0`; and each entry sits in the directory its
parent id named when it was read. -/
structure EntryTree (recs : List Record) (root : DirEntry) (T : LineTree) : Prop where
  view : root = T.view recs
  dirLines : T.dirLines.Perm (positions recs Record.placesDir recs.length)
  fileLines : T.fileLines.Perm (positions recs Record.placesFile recs.length)
  rootEntry : ∃ record, recs[T.line]? = some record ∧ record.parent = 0
  placed : ∀ placed ∈ T.placements, PlacedUnder recs placed.1 placed.2

variable {recs : List Record}

/-- The root an entry tree tells carries the id of a directory's entry under parent
`0`, so it is never `0`. -/
theorem EntryTree.root_entry {root : DirEntry} {T : LineTree} (tree : EntryTree recs root T) :
    ∃ record ∈ recs, record.placesDir = true ∧ record.parent = 0 ∧ root.id = record.dirId := by
  obtain ⟨record, found, parentZero⟩ := tree.rootEntry
  -- the root's line heads the directory lines, so it holds a directory's entry
  have head : T.line ∈ T.dirLines := by
    cases T with
    | dir line dirs files => simp [LineTree.line, LineTree.dirLines]
  have placed := tree.dirLines.mem_iff.mp head
  simp only [positions, List.mem_filter, List.mem_range, found, Option.any_some] at placed
  refine ⟨record, List.mem_of_getElem? found, placed.2, parentZero, ?_⟩
  rw [tree.view, ← Record.dirNode_id_of_placesDir placed.2, ← recordAt_of_getElem? found]
  cases T with
  | dir line dirs files =>
    rw [LineTree.view]
    rfl

/-- When the records apply to the end with one directory left, the root's, that
directory is made of the entries. -/
theorem entryTree_of_applyAll (noRehome : NoRehome recs) {p : Progress}
    (applied : ({} : Progress).applyAll recs = some p) {id : Nat} (rootId : p.rootId = some id)
    (small : p.table.size ≤ 1) {root : DirEntry} {t : IdTable DirEntry}
    (erased : p.table.erase? id = some (root, t)) : ∃ T, EntryTree recs root T := by
  obtain ⟨H, tracks⟩ := Progress.Tracks.applyAll noRehome recs (List.drop_zero) Progress.tracks_empty applied
  rw [Nat.zero_add] at tracks
  obtain ⟨member, j, line⟩ := tracks.rooted id rootId
  have alone := IdTable.keys_eq_singleton member small
  obtain ⟨-, -, ⟨fid, size, items, name, rootFound⟩, rootDeclared⟩ := tracks.filled id member j line
  let T : LineTree := .dir j (H id).dirs (H id).files
  have shape : T.toHeld = H id := by
    simp only [T, LineTree.toHeld, ← line]
  refine ⟨T, ⟨?_, ?_, ?_, ⟨_, rootFound, rfl⟩, ?_⟩⟩
  · rw [tracks.view id root (IdTable.get?_of_erase?_eq_some_self erased), ← shape, LineTree.view_toHeld]
  · simpa [alone, ← shape] using tracks.dirLines
  · simpa [alone, ← shape] using tracks.fileLines
  · -- What sits in the root was placed while the root's id named its declaration.
    intro placed inside
    rw [LineTree.placements_eq, shape, List.mem_append] at inside
    rcases inside with top | below
    · obtain ⟨i, inTop, rfl⟩ := List.mem_map.mp top
      obtain ⟨child, childFound, childDeclared⟩ := tracks.top id member i inTop
      obtain ⟨d, declared⟩ := Option.ne_none_iff_exists'.mp (tracks.declared id member)
      exact ⟨child, _, d, childFound, rootFound, childDeclared.trans declared, rootDeclared.trans declared⟩
    · exact tracks.inner id member placed below

end Snapshot

open Snapshot in
/-- The reader accepts exactly the consistent snapshots and builds their trees from
their entries. It accepts a snapshot exactly when every line is UTF-8, every
unmarked line is a record, and the registry takes the records to the root's id
alone; the table's capacity bounds how many ids a declaration finds registered.
The reader over the store returns the same, whatever its random source, unless it
gives up on its store.
What it returns has the largest id a record names, the digest of the whole input,
and, unless a record after the root's entry names the root's id, the tree the
entries make, each entry once and in the directory its parent id named. -/
theorem read_accepts_consistent_dumps (bytes : List UInt8) :
    ((∃ S, read bytes = .ok S) ↔
        (∀ raw ∈ splitLines bytes, (lineRecord raw).isOk) ∧ Registry.Accepts (records (splitLines bytes))) ∧
      (∀ rng, (readStored rng bytes).1 = read bytes ∨ GaveUp (readStored rng bytes)) ∧
      ∀ S, read bytes = .ok S →
        S.maxId = ((records (splitLines bytes)).map Wire.Record.dirId).foldr max 0 ∧
          S.digest = Md5.digest bytes ∧
          (NoRehome (records (splitLines bytes)) → ∃ T, EntryTree (records (splitLines bytes)) S.root T) := by
  refine ⟨read_accepts_iff, fun rng => readStored_follows rng bytes, fun S accepted => ?_⟩
  obtain ⟨-, p, id, t, applied, rootId, small, erased, maxId, digest⟩ := read_eq_ok_iff.mp accepted
  refine ⟨?_, digest, fun noRehome => entryTree_of_applyAll noRehome applied rootId small erased⟩
  rw [maxId, Progress.maxId_applyAll applied]
  exact Nat.zero_max _

/-- A snapshot whose root's entry comes before the entry of its last directory. -/
theorem root_entry_first_tree :
    ∃ S, Snapshot.read
        "0 1 r\n0 2 r/a\n1 1 3 4 2 5 a\n1 1 6 7 0 8 f\n1 0 0 0 1 2 r\n0 3 r/b\n1 1 9 0 3 0 b\n".toUTF8.toList = .ok S ∧
      Snapshot.NoRehome (Snapshot.records (Snapshot.splitLines
        "0 1 r\n0 2 r/a\n1 1 3 4 2 5 a\n1 1 6 7 0 8 f\n1 0 0 0 1 2 r\n0 3 r/b\n1 1 9 0 3 0 b\n".toUTF8.toList)) ∧
      ∃ T, Snapshot.EntryTree (Snapshot.records (Snapshot.splitLines
        "0 1 r\n0 2 r/a\n1 1 3 4 2 5 a\n1 1 6 7 0 8 f\n1 0 0 0 1 2 r\n0 3 r/b\n1 1 9 0 3 0 b\n".toUTF8.toList)) S.root T := by
  have checked : (Snapshot.read
      "0 1 r\n0 2 r/a\n1 1 3 4 2 5 a\n1 1 6 7 0 8 f\n1 0 0 0 1 2 r\n0 3 r/b\n1 1 9 0 3 0 b\n".toUTF8.toList).toOption.any
      (fun _ => true) = true := by
    decide +kernel
  obtain ⟨S, accepted, -⟩ := Scan.exists_ok_of_toOption_any checked
  have noRehome : Snapshot.NoRehome (Snapshot.records (Snapshot.splitLines
      "0 1 r\n0 2 r/a\n1 1 3 4 2 5 a\n1 1 6 7 0 8 f\n1 0 0 0 1 2 r\n0 3 r/b\n1 1 9 0 3 0 b\n".toUTF8.toList)) := by
    decide +kernel
  exact ⟨S, accepted, noRehome, ((read_accepts_consistent_dumps _).2.2 S accepted).2.2 noRehome⟩

/-- Two dumps the reader accepts whose trees are not made of their entry lines as the
lines alone tell. In the first a file's entry carries `7` items, which its node does
not keep: the tree is the root, with `1` item, and the file, with its name, size and
fid only. In the second the root's entry is placed again, as `y` under `x`, and the
root's id is then declared anew for `z`: the reader returns that last declaration,
never filled, as the root, so no tree of the entries is the one it returns. -/
theorem entry_lines_not_kept :
    (∃ S, Snapshot.read "0 1 r\n1 1 0 5 0 7 f\n1 0 0 0 1 1 r\n".toUTF8.toList = .ok S ∧
      S.root.dirs = [] ∧ S.root.items = 1 ∧ S.root.files = [{ name := "f", size := 5, fid := 0 }]) ∧
    ∃ S, Snapshot.read "0 1 r\n1 0 0 0 1 0 r\n0 2 x\n1 2 0 0 1 0 y\n0 1 z\n1 1 0 0 2 0 x\n".toUTF8.toList = .ok S ∧
      ¬ Snapshot.NoRehome (Snapshot.records (Snapshot.splitLines
        "0 1 r\n1 0 0 0 1 0 r\n0 2 x\n1 2 0 0 1 0 y\n0 1 z\n1 1 0 0 2 0 x\n".toUTF8.toList)) ∧
      S.root.id = 0 ∧ ¬ ∃ T, Snapshot.EntryTree (Snapshot.records (Snapshot.splitLines
        "0 1 r\n1 0 0 0 1 0 r\n0 2 x\n1 2 0 0 1 0 y\n0 1 z\n1 1 0 0 2 0 x\n".toUTF8.toList)) S.root T := by
  have fileChecked : (Snapshot.read "0 1 r\n1 1 0 5 0 7 f\n1 0 0 0 1 1 r\n".toUTF8.toList).toOption.any
      (fun S => S.root.dirs.isEmpty && S.root.items == 1 &&
        S.root.files == [{ name := "f", size := 5, fid := 0 }]) = true := by
    decide +kernel
  obtain ⟨S, accepted, listed⟩ := Scan.exists_ok_of_toOption_any fileChecked
  simp only [Bool.and_eq_true, beq_iff_eq, List.isEmpty_iff] at listed
  refine ⟨⟨S, accepted, listed.1.1, listed.1.2, listed.2⟩, ?_⟩
  have rootChecked : (Snapshot.read
      "0 1 r\n1 0 0 0 1 0 r\n0 2 x\n1 2 0 0 1 0 y\n0 1 z\n1 1 0 0 2 0 x\n".toUTF8.toList).toOption.any
      (fun S => S.root.id == 0) = true := by
    decide +kernel
  obtain ⟨S', accepted', unfilled⟩ := Scan.exists_ok_of_toOption_any rootChecked
  have rehomed : ¬ Snapshot.NoRehome (Snapshot.records (Snapshot.splitLines
      "0 1 r\n1 0 0 0 1 0 r\n0 2 x\n1 2 0 0 1 0 y\n0 1 z\n1 1 0 0 2 0 x\n".toUTF8.toList)) := by
    decide +kernel
  refine ⟨S', accepted', rehomed, beq_iff_eq.mp unfilled, fun ⟨T, tree⟩ => ?_⟩
  -- an entry tree's root has the id of a directory's entry, which is never `0`
  obtain ⟨record, -, placesDir, -, idEq⟩ := tree.root_entry
  exact Record.dirId_ne_zero_of_placesDir placesDir (idEq.symm.trans (beq_iff_eq.mp unfilled))

end TreeDump
