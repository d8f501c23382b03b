import Mathlib
import TreeDump.Inventory
import TreeDump.Proofs.ScanTree

/-!
The dump a scan writes as it goes.

A scan cannot keep the tree it reads in memory and print it afterwards: it writes
the dump while it walks. A directory's child declarations and its files go out as
soon as the directory is read and merged; its child directories' entries go out
once every child has been scanned and their sizes are final; a child that cannot
be entered gets nothing, and holds nothing. The writer that prints a tree held in
memory (`DirEntry.replay`) walks the finished tree instead.

Owns: the lines each part of a scan adds to the dump (`enterAll_dump`,
`visit_dump`); that a whole scan writes exactly the replay of the tree it returns
(`run_dump`); and so that the streamed reverse inventory is the replay of the tree
`buildTree` reads, with the same statistics, and fails exactly when it fails.

Does not own: what the tree holds, which `ScanTree` states.
-/

namespace TreeDump

open Wire

/-! ### The replay of a directory in three parts -/

/-- Replaying what a directory holds writes its opening lines, what its children
hold, and its closing lines. -/
theorem DirEntry.replayInside_eq_opening (marker : Option Marker) (path : String) (d : DirEntry) :
    d.replayInside marker path =
      d.openingLines marker path ++
        d.dirs.flatMap (fun c => c.replayInside marker (childPath path d.name c.name)) ++
        d.closingLines marker := by
  rw [replayInside_eq, openingLines, closingLines]

theorem DirEntry.replayInside_of_empty (marker : Option Marker) (path : String) {d : DirEntry}
    (noDirs : d.dirs = []) (noFiles : d.files = []) : d.replayInside marker path = [] := by
  rw [replayInside_eq, noDirs, noFiles]
  rfl

/-- The opening lines of a directory depend on its children only through their
names and ids. -/
theorem DirEntry.openingLines_congr (marker : Option Marker) (path : String) {d e : DirEntry}
    (name : e.name = d.name) (id : e.id = d.id) (files : e.files = d.files)
    (children : e.dirs.map (fun c => (c.name, c.id, c.fid)) =
      d.dirs.map (fun c => (c.name, c.id, c.fid))) :
    e.openingLines marker path = d.openingLines marker path := by
  have declared := congrArg
    (List.map fun t : String × Nat × Nat =>
      (⟨marker, .directory t.2.1 (childPath path d.name t.1)⟩ : Line)) children
  simp only [List.map_map, Function.comp_def] at declared
  rw [openingLines, openingLines, name, id, files]
  exact congrArg (· ++ _) declared

namespace Scan

variable {σ : Type} {walker : Walker σ}

/-! ### Entering children -/

/-- Entering the children writes, child after child, what each one holds; a child
the walker refuses is kept as listed, with nothing below it, and writes nothing. -/
theorem enterAll_dump
    {visitChild : String → Option DirEntry → DirEntry → ScanM σ DirEntry}
    (visitDump : ∀ path b c c' (s s' : ScanState σ), c.dirs = [] → c.files = [] →
      (visitChild path b c).run s = .ok (c', s') →
      c'.name = c.name ∧ c'.id = c.id ∧ c'.fid = c.fid ∧
        s'.dump.toList = s.dump.toList ++ c'.replayInside none path)
    {path parentName : String} :
    ∀ {cs : List DirEntry} {baselines : List (Option DirEntry)}
      {result : List DirEntry × List (Option DirEntry)} {s s' : ScanState σ},
      (enterAll walker visitChild path parentName cs baselines).run s = .ok (result, s') →
      (∀ c ∈ cs, c.dirs = [] ∧ c.files = []) →
      result.1.map (fun c => (c.name, c.id, c.fid)) = cs.map (fun c => (c.name, c.id, c.fid)) ∧
        s'.dump.toList = s.dump.toList ++
          result.1.flatMap (fun c => c.replayInside none (childPath path parentName c.name)) := by
  intro cs
  induction cs with
  | nil =>
      intro baselines result s s' h _
      rw [enterAll, run_pure_eq_ok] at h
      obtain ⟨rfl, rfl⟩ := h
      simp
  | cons c cs inductionHypothesis =>
      intro baselines result s s' h empty
      have restEmpty := fun c' member => empty c' (List.mem_cons_of_mem c member)
      obtain ⟨noDirs, noFiles⟩ := empty c List.mem_cons_self
      rw [enterAll] at h
      dsimp only at h
      rw [run_get_bind] at h
      split at h
      · -- A refused child holds nothing, so its replay is empty too.
        rw [run_count_bind, run_bind_eq_ok] at h
        obtain ⟨⟨rest, pending⟩, s₁, restRun, h⟩ := h
        rw [run_pure_eq_ok] at h
        obtain ⟨rfl, rfl⟩ := h
        obtain ⟨same, dump⟩ := inductionHypothesis restRun restEmpty
        refine ⟨by simp [same], ?_⟩
        rw [dump, List.flatMap_cons, DirEntry.replayInside_of_empty _ _ noDirs noFiles,
          List.nil_append]
      · rename_i state entered
        rw [run_set_bind, run_bind_eq_ok] at h
        obtain ⟨c', s₁, visited, h⟩ := h
        rw [run_bind_eq_ok] at h
        obtain ⟨_, s₂, left, h⟩ := h
        rw [run_bind_eq_ok] at h
        obtain ⟨⟨rest, pending⟩, s₃, restRun, h⟩ := h
        rw [run_pure_eq_ok] at h
        obtain ⟨rfl, rfl⟩ := h
        obtain ⟨name, id, fid, childDump⟩ := visitDump _ _ _ _ _ _ noDirs noFiles visited
        obtain ⟨-, -, -, leftDump, -⟩ := leaveChild_eq_ok left
        obtain ⟨same, restDump⟩ := inductionHypothesis restRun restEmpty
        refine ⟨by simp [name, id, fid, same], ?_⟩
        rw [restDump, leftDump, childDump, List.flatMap_cons, name, List.append_assoc]

/-! ### Scanning a directory -/

/-- Scanning a directory that holds nothing yet keeps its name, id and position and
adds to the dump exactly the replay of what the scanned directory holds. -/
theorem visit_dump {limits : Limits} {firstFresh : Nat} (fuel : Nat) :
    ∀ {path : String} {old : Option DirEntry} {d d' : DirEntry} {s s' : ScanState σ},
      (visit walker limits firstFresh fuel path old d).run s = .ok (d', s') →
      d.dirs = [] → d.files = [] →
      d'.name = d.name ∧ d'.id = d.id ∧ d'.fid = d.fid ∧
        s'.dump.toList = s.dump.toList ++ d'.replayInside none path := by
  induction fuel with
  | zero =>
      intro path old d d' s s' h
      rw [visit, run_throw] at h
      cases h
  | succ fuel inductionHypothesis =>
      intro path old d d' s s' h noDirs noFiles
      rw [visit, run_bind_eq_ok] at h
      obtain ⟨d₁, s₁, read, h⟩ := h
      have readSpec := readDir_numbered read ⟨noDirs, noFiles⟩
      rw [run_bind_eq_ok] at h
      obtain ⟨⟨d₂, baselines⟩, s₂, merged, h⟩ := h
      dsimp only at h
      have mergeSpec := readSpec.merged merged
      -- The merged children still hold nothing: merging changes only their ids.
      have childrenEmpty := mergeSpec.empty_of_mem readSpec.childrenEmpty
      rw [run_bind_eq_ok] at h
      obtain ⟨_, s₃, opened, h⟩ := h
      obtain ⟨-, -, -, openedDump⟩ := dumpAll_eq_ok opened
      rw [run_bind_eq_ok] at h
      obtain ⟨⟨dirs, pending⟩, s₄, entered, h⟩ := h
      dsimp only at h
      obtain ⟨same, enteredDump⟩ := enterAll_dump
        (fun _ _ _ _ _ _ noDirs noFiles visited => inductionHypothesis visited noDirs noFiles)
        entered childrenEmpty
      rw [run_bind_eq_ok] at h
      obtain ⟨size, s₅, summed, h⟩ := h
      rw [run_checked_eq_ok] at summed
      obtain ⟨-, rfl⟩ := summed
      rw [run_bind_eq_ok] at h
      obtain ⟨_, s₆, compared, h⟩ := h
      obtain ⟨-, -, -, comparedDump, -⟩ := keeps_compareChildren _ _ _ _ _ _ _ _ compared
      rw [run_bind_eq_ok] at h
      obtain ⟨_, s₇, closed, h⟩ := h
      obtain ⟨-, -, -, closedDump⟩ := dumpAll_eq_ok closed
      rw [run_pure_eq_ok] at h
      obtain ⟨rfl, rfl⟩ := h
      -- Only the children and the size changed since reading.
      have nameKept : d₂.name = d.name := (congrArg DirEntry.name mergeSpec.same).trans readSpec.name
      have idKept : d₂.id = d.id := (congrArg DirEntry.id mergeSpec.same).trans readSpec.id
      have fidKept : d₂.fid = d.fid := (congrArg DirEntry.fid mergeSpec.same).trans readSpec.fid
      have opening : DirEntry.openingLines none path { d₂ with dirs, size } =
          d₂.openingLines none path :=
        DirEntry.openingLines_congr _ _ rfl rfl rfl same
      refine ⟨nameKept, idKept, fidKept, ?_⟩
      rw [closedDump, comparedDump, enteredDump, openedDump, mergeSpec.dump, readSpec.dump,
        DirEntry.replayInside_eq_opening, opening]
      simp only [List.append_assoc]

/-! ### A whole scan -/

/-- A scan from a root that holds nothing yet writes exactly the dump of the tree
it returns: every line of it, in the order a replay of the finished tree writes
them. -/
theorem run_dump {limits : Limits} {state : σ} {root : DirEntry} {baseline : Option DirEntry}
    {ids : IdSupply} {scan : Scan σ} (h : run walker limits state root baseline ids = .ok scan)
    (noDirs : root.dirs = []) (noFiles : root.files = []) :
    scan.dump = scan.tree.replay none scan.tree.name 0 := by
  unfold run at h
  obtain ⟨⟨tree, s'⟩, ran, rfl⟩ := except_map_eq_ok h
  rw [run_bind_eq_ok] at ran
  obtain ⟨_, s₁, opened, ran⟩ := ran
  obtain ⟨-, -, -, openedDump, -⟩ := keeps_openRoot root baseline _ _ _ opened
  rw [run_bind_eq_ok] at ran
  obtain ⟨_, s₂, declared, ran⟩ := ran
  obtain ⟨-, -, -, declaredDump⟩ := dumpAll_eq_ok declared
  rw [run_bind_eq_ok] at ran
  obtain ⟨d, s₃, visited, ran⟩ := ran
  obtain ⟨name, id, -, visitedDump⟩ := visit_dump _ visited noDirs noFiles
  rw [run_bind_eq_ok] at ran
  obtain ⟨_, s₄, closed, ran⟩ := ran
  obtain ⟨-, -, -, closedDump, -⟩ := keeps_closeRoot d baseline _ _ _ closed
  rw [run_bind_eq_ok] at ran
  obtain ⟨_, s₅, written, ran⟩ := ran
  obtain ⟨-, -, -, writtenDump⟩ := dumpAll_eq_ok written
  rw [run_pure_eq_ok] at ran
  obtain ⟨rfl, rfl⟩ := ran
  dsimp only
  rw [writtenDump, closedDump, visitedDump, declaredDump, openedDump, DirEntry.replay,
    DirEntry.declaration, DirEntry.declaration, id, name]
  simp

end Scan

/-! ### The streamed reverse inventory -/

/-- The reverse inventory, written while the tree is walked, is the replay of the
tree `buildTree` reads from the same walker, limits and state, with the same
statistics and the same final walker; and one fails exactly when the other does,
with the same error. This holds for every walker, in particular for in-memory
trees of every shape, refused directories, truncated or pruned listings and
directories left unread. -/
theorem reverse_inventory_eq_replay {σ : Type} (walker : Walker σ) (limits : Limits)
    (state : σ) (name : String) :
    inventory walker limits state .reverse (DirEntry.root name) none =
      (buildTree walker limits state (DirEntry.root name)).map fun (tree, stats, final) =>
        ⟨tree.dumpText, stats, final⟩ := by
  unfold inventory buildTree
  cases ran : Scan.run walker limits state (DirEntry.root name) none IdSupply.fresh with
  | error e => rfl
  | ok scan =>
      show Except.ok _ = Except.ok _
      rw [Scan.run_dump ran rfl rfl]
      rfl

end TreeDump
