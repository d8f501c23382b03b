import Mathlib
import TreeDump.Engine.Listing
import TreeDump.Entry.Listing
import TreeDump.Proofs.DepthFirst
import TreeDump.Proofs.Wire

/-!
Contract: the full listing printed by the walk.

Owns: what the listing policy writes on each call (`Hooks.Call.listingLines`), the
policy's effect on the tree (`listingClears`), and the count of its lines.

Main statement (`print_listing_lines`): printing a tree writes its full listing
`DirEntry.listingText`: the root as `name size`, then for every directory in depth-first
pre-order one line `path/ size` for each child directory and one line `path size` for
each file, in order, with paths built by `Wire.childPath`. When no name holds a line
break, the text has one line for each directory and file of the tree.

Does not own: names with a line break, which the listing writes raw, so that one name
can take two lines (`broken_name_listing`).

## Why it goes through

The listing policy writes, on every call, lines that depend on the call alone, and what
it does to the tree is what `listingClears` does. So it follows the logging policy of
`listingClears` through the map that turns calls into lines (`listing_follows_calls`),
and by `Hooks.walk_map` and `Hooks.logged_walk` it writes the lines of the tree's
depth-first calls; those are the listing, by induction over the directories.
-/

namespace TreeDump

/-! ### Lines of calls -/

/-- What the listing policy does to the tree: it drops a directory's files on entering
it and its child directories on leaving it. -/
def listingClears : Hooks Unit where
  enterRoot cx _ := ({ cx.current with files := [] }, ())
  enter cx _ := ({ cx.current with files := [] }, ())
  leave cx _ := ({ cx.current with dirs := [] }, ())
  leaveRoot cx _ := ({ cx.current with dirs := [] }, ())
  enterRoot_kept _ _ := ⟨rfl, rfl, rfl⟩
  enter_kept _ _ := ⟨rfl, rfl, rfl⟩

/-- The lines of the children of a directory found at `path`: `path/ size` for each child
directory, then `path size` for each file. -/
def DirEntry.childLines (path : String) (d : DirEntry) : List String :=
  d.dirs.map (fun c => Wire.childPath path d.name c.name ++ "/ " ++ toString c.size) ++
    d.files.map (fun f => Wire.childPath path d.name f.name ++ " " ++ toString f.size)

/-- The lines the listing writes on a call. -/
def Hooks.Call.listingLines : Hooks.Call → List String
  | .enterRoot _ path d => (path ++ " " ++ toString d.size) :: d.childLines path
  | .enter _ path d => d.childLines path
  | _ => []

/-- The listing writes, on each call, the lines of that call. -/
theorem listing_follows_calls :
    let f := fun s : Unit × List Hooks.Call => s.2.flatMap Hooks.Call.listingLines
    Hooks.Follows f listingClears.logged.enterRoot listingHooks.enterRoot ∧
      Hooks.Follows f listingClears.logged.enter listingHooks.enter ∧
      Hooks.Follows f listingClears.logged.leave listingHooks.leave ∧
      Hooks.Follows f listingClears.logged.leaveRoot listingHooks.leaveRoot := by
  refine ⟨fun cx s => ?_, fun cx s => ?_, fun cx s => ?_, fun cx s => ?_⟩ <;>
    simp [listingHooks, listingClears, Cursor.printChildren, Hooks.Call.listingLines,
      DirEntry.childLines, Cursor.childPath, Cursor.path, Cursor.current]

/-- The listing's lines are those of the depth-first calls of the tree. -/
theorem listing_walk (T : DirEntry) :
    (listingHooks.walk (Cursor.new T) []).2 = T.calls.flatMap Hooks.Call.listingLines := by
  obtain ⟨enterRoot, enter, leave, leaveRoot⟩ := listing_follows_calls
  have walked := Hooks.walk_map enterRoot enter leave leaveRoot (Cursor.new T) ((), [])
  rw [listingClears.logged_walk] at walked
  exact congrArg Prod.snd walked

/-! ### The listing -/

theorem DirEntry.listingInside_eq (path : String) (d : DirEntry) :
    d.listingInside path = d.childLines path ++
      d.dirs.flatMap fun c => c.listingInside (Wire.childPath path d.name c.name) := by
  cases d
  rw [DirEntry.listingInside]
  rfl

theorem listingLines_callsBelow (cs : List DirEntry) : ∀ (depth : Nat) (path name : String),
    (DirEntry.callsBelow depth path name cs).flatMap Hooks.Call.listingLines =
      cs.flatMap fun c => c.listingInside (Wire.childPath path name c.name) := by
  induction cs using DirEntry.listInduction with
  | nil => intros; rfl
  | cons c cs inside rest =>
    intro depth path name
    rw [DirEntry.callsBelow, Hooks.visitCalls_eq, List.flatMap_cons, DirEntry.listingInside_eq]
    simp [List.flatMap_append, inside, rest, Hooks.Call.listingLines]

theorem listingLines_calls (T : DirEntry) :
    T.calls.flatMap Hooks.Call.listingLines = (T.name ++ " " ++ toString T.size) :: T.listingInside T.name := by
  rw [DirEntry.calls, List.flatMap_append, List.flatMap_cons, listingLines_callsBelow,
    DirEntry.listingInside_eq]
  simp [Hooks.Call.listingLines]

/-- Printing a tree by the walk writes its full listing. -/
theorem printListing_eq (T : DirEntry) : printListing T = T.listingText := by
  rw [printListing, listing_walk, listingLines_calls]
  rfl

/-- The tree of the listing's own check, as a scan reads it: `share` holding the file
`z.txt` and the directories `a` and `b`, and `b` holding the file `inner`. -/
def shareTree : DirEntry :=
  { name := "share", size := 5, id := 1, items := 3,
    dirs := [{ name := "a", id := 2 },
      { name := "b", size := 4, id := 3, fid := 1, items := 1, files := [{ name := "inner", size := 4 }] }],
    files := [{ name := "z.txt", size := 1, fid := 2 }] }

example : printListing shareTree =
    "share 5\nshare/a/ 0\nshare/b/ 4\nshare/z.txt 1\nshare/b/inner 4\n" := by
  rw [printListing, listing_walk]
  decide

/-! ### One line per node -/

/-- No name in the tree, of a directory or of a file, holds a line break. -/
def DirEntry.NamesUnbroken (T : DirEntry) : Prop :=
  ∀ d ∈ T.allDirs, '\n' ∉ d.name.toList ∧ ∀ f ∈ d.files, '\n' ∉ f.name.toList

theorem newline_not_mem_toDigits (n : Nat) : '\n' ∉ Nat.toDigits 10 n := by
  intro member
  exact absurd (Nat.isDigit_of_mem_toDigits (by decide) (by decide) member) (by decide)

/-- With no line break in a name or in `path`, no listing line below `path` holds one. -/
theorem newline_not_mem_listingInside : ∀ d : DirEntry, d.NamesUnbroken → ∀ path : String,
    '\n' ∉ path.toList → ∀ line ∈ d.listingInside path, '\n' ∉ line.toList := by
  intro d
  induction d using DirEntry.induction with
  | step d inductionHypothesis =>
    intro unbroken path pathNoBreak line member
    have self := unbroken d (DirEntry.mem_allDirs_self d)
    rw [DirEntry.listingInside_eq, List.mem_append] at member
    rcases member with member | member
    · -- a line of a child of `d`
      simp only [DirEntry.childLines, List.mem_append, List.mem_map] at member
      rcases member with ⟨c, child, rfl⟩ | ⟨f, file, rfl⟩
      · have named := (unbroken c (DirEntry.allDirs_subset_of_mem child (DirEntry.mem_allDirs_self c))).1
        simp [Wire.newline_not_mem_childPath pathNoBreak named, newline_not_mem_toDigits]
      · simp [Wire.newline_not_mem_childPath pathNoBreak (self.2 f file), newline_not_mem_toDigits]
    · -- a line below a child directory of `d`
      obtain ⟨c, child, below⟩ := List.mem_flatMap.mp member
      have named := (unbroken c (DirEntry.allDirs_subset_of_mem child (DirEntry.mem_allDirs_self c))).1
      exact inductionHypothesis c child (fun e inC => unbroken e (DirEntry.allDirs_subset_of_mem child inC))
        _ (Wire.newline_not_mem_childPath pathNoBreak named _) line below

/-- Below the directories `cs`, wherever they are found, the listing has one line for each
directory and file other than `cs` themselves. -/
theorem length_flatMap_listingInside (cs : List DirEntry) : ∀ paths : DirEntry → String,
    (cs.flatMap fun c => c.listingInside (paths c)).length + cs.length =
      (cs.flatMap DirEntry.allDirs).length + ((cs.flatMap DirEntry.allDirs).flatMap (·.files)).length := by
  induction cs using DirEntry.listInduction with
  | nil => intro; rfl
  | cons c cs inside rest =>
    intro paths
    have below := inside fun d => Wire.childPath (paths c) c.name d.name
    have after := rest paths
    rw [List.flatMap_cons, DirEntry.listingInside_eq, List.flatMap_cons, DirEntry.allDirs_eq]
    simp only [List.length_append, List.length_cons, List.flatMap_append, List.flatMap_cons,
      DirEntry.childLines, List.length_map] at below after ⊢
    omega

/-- A text of lines, each ended by a line break and holding none of its own, has as many
line breaks as lines. -/
theorem count_newline_join {lines : List String} (noBreak : ∀ line ∈ lines, '\n' ∉ line.toList) :
    (String.join (lines.map (·.push '\n'))).toList.count '\n' = lines.length := by
  rw [String.toList_join, List.flatMap_map]
  induction lines with
  | nil => rfl
  | cons line lines inductionHypothesis =>
    rw [List.flatMap_cons, List.count_append, String.toList_push, List.count_append,
      List.count_eq_zero_of_not_mem (noBreak line List.mem_cons_self),
      inductionHypothesis fun l member => noBreak l (List.mem_cons_of_mem _ member)]
    simp only [List.count_singleton_self, List.length_cons]
    omega

/-- The full listing prints each node once, grouped by parent: the root as `name size`,
then, for every directory in depth-first pre-order, `path/ size` for each child directory
and `path size` for each file, in order, with paths built by `Wire.childPath`, so that no
`/` follows an empty parent name. When no name holds a line break, the text has one line
for each directory and file of the tree. -/
theorem print_listing_lines (T : DirEntry) :
    printListing T = T.listingText ∧
      (T.NamesUnbroken →
        (printListing T).toList.count '\n' =
          T.allDirs.length + (T.allDirs.flatMap (·.files)).length) := by
  refine ⟨printListing_eq T, fun unbroken => ?_⟩
  have rootNoBreak : '\n' ∉ (T.name ++ " " ++ toString T.size).toList := by
    simp [(unbroken T (DirEntry.mem_allDirs_self T)).1, newline_not_mem_toDigits]
  have lines := newline_not_mem_listingInside T unbroken T.name
    (unbroken T (DirEntry.mem_allDirs_self T)).1
  have counted := length_flatMap_listingInside [T] fun d => d.name
  rw [printListing_eq, DirEntry.listingText,
    count_newline_join (List.forall_mem_cons.mpr ⟨rootNoBreak, lines⟩)]
  simp only [List.flatMap_cons, List.flatMap_nil, List.append_nil, List.length_cons,
    List.length_nil] at counted ⊢
  omega

theorem share_listing_lines :
    shareTree.NamesUnbroken ∧
      (printListing shareTree).toList.count '\n' =
        shareTree.allDirs.length + (shareTree.allDirs.flatMap (·.files)).length :=
  have unbroken : shareTree.NamesUnbroken := by
    simp [DirEntry.NamesUnbroken, shareTree, DirEntry.allDirs_eq]
  ⟨unbroken, (print_listing_lines shareTree).2 unbroken⟩

/-- A directory `r` holding one file whose name holds a line break. -/
def brokenNameEntry : DirEntry :=
  { name := "r", size := 1, id := 1, items := 1, files := [{ name := "a\nb", size := 1 }] }

/-- A file name with a line break takes two lines of the listing: the tree has two nodes
and its listing three lines. -/
theorem broken_name_listing :
    (printListing brokenNameEntry).toList.count '\n' = 3 ∧
      brokenNameEntry.allDirs.length + (brokenNameEntry.allDirs.flatMap (·.files)).length = 2 := by
  constructor
  · rw [printListing, listing_walk]
    decide
  · simp [brokenNameEntry, DirEntry.allDirs_eq]

end TreeDump
