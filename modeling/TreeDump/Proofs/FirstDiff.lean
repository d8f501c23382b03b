import Mathlib
import TreeDump.Inventory
import TreeDump.Walkers.Memory
import TreeDump.Proofs.Dump

/-!
A diff against no snapshot.

Without a baseline every directory and file a scan meets is new. The scan then
writes into its patch exactly what it writes into its dump, each line marked `+`
and in the same order: the root's declaration first, each directory's opening
lines once it is merged, each directory's child entries once they are compared,
the root's entry last. No directory of the chain is ever waiting to be named,
since every level enters the chain named, so announcing writes nothing.

Owns: that every line of a replay carries its marker (`DirEntry.marker_of_mem_replay`),
the patch of a scan without a baseline (`visit_patch_fresh`, `run_patch_fresh`),
and so that a diff against no snapshot is the fingerprint of the empty text, the
dump's lines marked `+`, and the dump itself, with the same statistics as the
reverse inventory and the same failures.
-/

namespace TreeDump

open Wire

/-! ### Marked replays -/

/-- The line with its marker replaced by `marker`. -/
def Wire.Line.mark (marker : Marker) (line : Line) : Line := { line with marker := some marker }

theorem Wire.Line.render_mark (marker : Marker) {line : Line} (plain : line.marker = none) :
    (line.mark marker).render = String.ofList [marker.symbol, ' '] ++ line.render := by
  simp [mark, render, plain]

/-- A replay with a marker is the plain replay with every line marked. -/
theorem DirEntry.replayInside_mark (marker : Marker) :
    ∀ (d : DirEntry) (path : String),
      d.replayInside (some marker) path = (d.replayInside none path).map (Line.mark marker) := by
  intro d
  induction d using DirEntry.induction with
  | step d inductionHypothesis =>
      intro path
      rw [replayInside_eq, replayInside_eq]
      simp only [List.map_append, List.map_map, List.map_flatMap, Function.comp_def, declaration,
        entryLine, FileEntry.entryLine, Line.mark]
      congr 2
      exact List.flatMap_congr fun c member => inductionHypothesis c member _

theorem DirEntry.replay_mark (marker : Marker) (path : String) (parent : Nat) (d : DirEntry) :
    d.replay (some marker) path parent = (d.replay none path parent).map (Line.mark marker) := by
  simp [replay, replayInside_mark, declaration, entryLine, Line.mark]

/-- Every line of a replay carries the replay's marker. -/
theorem DirEntry.marker_of_mem_replayInside (marker : Option Marker) :
    ∀ (d : DirEntry) (path : String), ∀ line ∈ d.replayInside marker path, line.marker = marker := by
  intro d
  induction d using DirEntry.induction with
  | step d inductionHypothesis =>
      intro path line member
      rw [replayInside_eq] at member
      simp only [List.mem_append, List.mem_map, List.mem_flatMap] at member
      rcases member with ((⟨c, -, rfl⟩ | ⟨f, -, rfl⟩) | ⟨c, child, inside⟩) | ⟨c, -, rfl⟩
      · rfl
      · rfl
      · exact inductionHypothesis c child _ line inside
      · rfl

theorem DirEntry.marker_of_mem_replay (marker : Option Marker) (path : String) (parent : Nat)
    (d : DirEntry) : ∀ line ∈ d.replay marker path parent, line.marker = marker := by
  intro line member
  rw [replay, List.mem_append, List.mem_cons, List.mem_singleton] at member
  rcases member with (rfl | inside) | rfl
  · rfl
  · exact marker_of_mem_replayInside marker d path line inside
  · rfl

/-! ### The text and counts of marked lines -/

theorem Wire.text_eq_join (lines : List Line) :
    text lines = String.join (lines.map fun line => line.render ++ "\n") := by
  simp [text, String.push_eq_append]

/-- Marking plain lines puts the marker's symbol and a space before each of them. -/
theorem Wire.text_map_mark (marker : Marker) {lines : List Line}
    (plain : ∀ line ∈ lines, line.marker = none) :
    text (lines.map (Line.mark marker)) =
      String.join (lines.map fun line => String.ofList [marker.symbol, ' '] ++ line.render ++ "\n") := by
  rw [text_eq_join, List.map_map]
  congr 1
  exact List.map_congr_left fun line member => by
    simp only [Function.comp_apply, Line.render_mark marker (plain line member)]

theorem Wire.LineCounts.foldl_count_added (lines : List Line) (counts : LineCounts) :
    (lines.map (Line.mark .added)).foldl (fun c line => c.count line.marker) counts =
      { counts with added := counts.added + lines.length } := by
  induction lines generalizing counts with
  | nil => rfl
  | cons line lines inductionHypothesis =>
      rw [List.map_cons, List.foldl_cons, inductionHypothesis]
      simp only [Line.mark, count, List.length_cons]
      congr 1
      omega

/-- Lines all marked `+` count as added, and as nothing else. -/
theorem Wire.LineCounts.ofLines_mark_added (lines : List Line) :
    ofLines (lines.map (Line.mark .added)) = { added := lines.length } := by
  rw [ofLines, foldl_count_added, show ({} : LineCounts).added = 0 from rfl, Nat.zero_add]

namespace Scan

variable {σ : Type} {walker : Walker σ}

/-! ### A chain with every level named -/

/-- Every directory of the chain is named in the patch already. -/
def Named (chain : List Level) : Prop := ∀ level ∈ chain, level.announced = true

theorem Named.setTop {chain : List Level} (named : Named chain) {f : Level → Level}
    (keeps : ∀ level, (f level).announced = level.announced) : Named (Level.setTop f chain) := by
  cases chain with
  | nil => exact named
  | cons level up =>
      intro level' member
      rcases List.mem_cons.mp member with rfl | above
      · rw [keeps]
        exact named level List.mem_cons_self
      · exact named level' (List.mem_cons_of_mem _ above)

theorem Named.cons {chain : List Level} (named : Named chain) {level : Level}
    (top : level.announced = true) : Named (level :: chain) := by
  intro level' member
  rcases List.mem_cons.mp member with rfl | above
  · exact top
  · exact named level' above

theorem Named.tail {chain : List Level} (named : Named chain) : Named chain.tail :=
  fun level member => named level (List.mem_of_mem_tail member)

/-- Announcing with every level named writes nothing and changes nothing. -/
theorem run_announce_of_named {s : ScanState σ} (named : Named s.chain) :
    (announce : ScanM σ Unit).run s = .ok ((), s) := by
  have nothing : s.chain.takeWhile (!·.announced) = [] := by
    cases chain : s.chain with
    | nil => rfl
    | cons level up =>
        have top : level.announced = true := named level (by rw [chain]; exact List.mem_cons_self)
        simp [top]
  rw [run_announce, nothing]
  rfl

/-- Reading a directory names the same levels it found named. -/
theorem readDir_named {limits : Limits} {firstFresh : Nat} {d d₁ : DirEntry} {s s₁ : ScanState σ}
    (read : (readDir walker limits firstFresh d).run s = .ok (d₁, s₁)) (named : Named s.chain) :
    Named s₁.chain := by
  obtain ⟨-, -, -, outcome⟩ := readDir_eq_ok read
  have recorded : ∀ e : DirEntry, Named (Level.record e s.chain) :=
    fun _ => named.setTop fun _ => rfl
  rcases outcome with ⟨-, -, -, -, chain, -⟩ | ⟨-, -, -, _, _, _, -, -, kept⟩
  · rw [chain]
    exact named
  · rcases kept with ⟨-, -, -, chain⟩ | ⟨-, -, -, chain⟩
    · rw [chain]
      exact recorded _
    · rw [chain]
      exact (recorded _).setTop fun _ => rfl

/-! ### The steps of a scan without a baseline -/

/-- Merging with no baseline writes the directory's opening lines marked `+`, and
keeps the directory as read. -/
theorem run_merge_none (path : String) (d : DirEntry) (s : ScanState σ) :
    (merge path none d).run s =
      .ok ((d, d.dirs.map fun _ => none),
        { s with patch := (d.openingLines (some .added) path).foldl Array.push s.patch }) := by
  unfold merge
  dsimp only
  rw [run_emitAll_bind, run_emitAll_bind, DirEntry.openingLines, List.foldl_append]
  rfl

theorem leaveChild_patch {path : String} {r : Unit} {s s' : ScanState σ}
    (h : (leaveChild walker path).run s = .ok (r, s')) : s'.patch = s.patch := by
  unfold leaveChild at h
  rw [run_get_bind] at h
  split at h
  · cases h
  · rw [run_set, Except.ok.injEq, Prod.mk.injEq] at h
    rw [← h.2]

theorem head?_join_eq_none {baselines : List (Option DirEntry)}
    (noBaselines : ∀ b ∈ baselines, b = none) : baselines.head?.join = none := by
  cases baselines with
  | nil => rfl
  | cons b bs => simpa using noBaselines b List.mem_cons_self

/-- With no baselines, entering the children writes, child after child, what each
one holds, marked `+`; every child is entered as a named level, so the chain stays
named, and no child is left with a baseline to remove. -/
theorem enterAll_patch_fresh
    {visitChild : String → Option DirEntry → DirEntry → ScanM σ DirEntry}
    (visitPatch : ∀ path (c c' : DirEntry) (s s' : ScanState σ), c.dirs = [] → c.files = [] →
      Named s.chain → (visitChild path none c).run s = .ok (c', s') →
      c'.name = c.name ∧ s'.patch.toList = s.patch.toList ++ c'.replayInside (some .added) path ∧
        Named s'.chain)
    {path parentName : String} :
    ∀ {cs : List DirEntry} {baselines : List (Option DirEntry)}
      {result : List DirEntry × List (Option DirEntry)} {s s' : ScanState σ},
      (enterAll walker visitChild path parentName cs baselines).run s = .ok (result, s') →
      (∀ c ∈ cs, c.dirs = [] ∧ c.files = []) → (∀ b ∈ baselines, b = none) → Named s.chain →
      result.2 = List.replicate result.1.length none ∧ result.1.length = cs.length ∧
        Named s'.chain ∧
        s'.patch.toList = s.patch.toList ++
          result.1.flatMap (fun c => c.replayInside (some .added) (childPath path parentName c.name)) := by
  intro cs
  induction cs with
  | nil =>
      intro baselines result s s' h _ _ named
      rw [enterAll, run_pure_eq_ok] at h
      obtain ⟨rfl, rfl⟩ := h
      simp [named]
  | cons c cs inductionHypothesis =>
      intro baselines result s s' h empty noBaselines named
      have restEmpty := fun c' member => empty c' (List.mem_cons_of_mem c member)
      have restNone := fun b member => noBaselines b (List.mem_of_mem_tail member)
      obtain ⟨noDirs, noFiles⟩ := empty c List.mem_cons_self
      rw [enterAll] at h
      dsimp only at h
      rw [head?_join_eq_none noBaselines, run_get_bind] at h
      split at h
      · -- A refused child holds nothing, so it writes nothing.
        rw [run_count_bind, run_bind_eq_ok] at h
        obtain ⟨⟨rest, pending⟩, s₁, restRun, h⟩ := h
        rw [run_pure_eq_ok] at h
        obtain ⟨rfl, rfl⟩ := h
        obtain ⟨pendingNone, length, restNamed, patch⟩ := inductionHypothesis restRun restEmpty restNone named
        dsimp only at pendingNone length
        refine ⟨by simp [pendingNone, List.replicate_succ], by simp [length], restNamed, ?_⟩
        rw [patch, List.flatMap_cons, DirEntry.replayInside_of_empty _ _ noDirs noFiles,
          List.nil_append]
      · -- An entered child is pushed as a named level and popped again after its scan.
        rw [run_set_bind, run_bind_eq_ok] at h
        obtain ⟨c', s₁, visited, h⟩ := h
        rw [run_bind_eq_ok] at h
        obtain ⟨_, s₂, left, h⟩ := h
        rw [run_bind_eq_ok] at h
        obtain ⟨⟨rest, pending⟩, s₃, restRun, h⟩ := h
        rw [run_pure_eq_ok] at h
        obtain ⟨rfl, rfl⟩ := h
        obtain ⟨name, childPatch, childNamed⟩ := visitPatch _ _ _ _ _ noDirs noFiles (named.cons rfl) visited
        obtain ⟨-, -, -, -, -, chain⟩ := leaveChild_eq_ok left
        have leftNamed : Named s₂.chain := by
          rw [chain]
          exact childNamed.tail
        obtain ⟨pendingNone, length, restNamed, restPatch⟩ :=
          inductionHypothesis restRun restEmpty restNone leftNamed
        dsimp only at pendingNone length
        refine ⟨by simp [pendingNone, List.replicate_succ], by simp [length], restNamed, ?_⟩
        rw [restPatch, leaveChild_patch left, childPatch, List.flatMap_cons, name, List.append_assoc]

/-- With no baselines, comparing the children writes each child's entry marked `+`,
in order, and announces nothing. -/
theorem compareChildren_fresh (path : String) (d : DirEntry) :
    ∀ (cs : List DirEntry) {s s' : ScanState σ},
      (compareChildren path d cs (List.replicate cs.length none)
        (List.replicate cs.length none)).run s = .ok ((), s') → Named s.chain →
      s'.patch.toList = s.patch.toList ++ cs.map (DirEntry.entryLine (some .added) d.id) ∧
        s'.chain = s.chain := by
  intro cs
  induction cs with
  | nil =>
      intro s s' h _
      obtain ⟨-, rfl⟩ := run_pure_eq_ok.mp h
      simp
  | cons c cs inductionHypothesis =>
      intro s s' h named
      rw [List.length_cons, List.replicate_succ, compareChildren, run_bind_eq_ok] at h
      obtain ⟨_, s₁, removed, h⟩ := h
      rw [removeUnentered, run_pure_eq_ok] at removed
      obtain ⟨-, rfl⟩ := removed
      rw [run_bind_eq_ok] at h
      obtain ⟨_, s₂, compared, h⟩ := h
      rw [compareChild, run_bind_of_eq_ok (run_announce_of_named named), run_emit] at compared
      obtain ⟨-, rfl⟩ := Prod.mk.inj (Except.ok.inj compared)
      obtain ⟨patch, chain⟩ := inductionHypothesis h named
      refine ⟨?_, chain⟩
      rw [patch]
      simp

/-! ### Scanning without a baseline -/

/-- Scanning a directory that holds nothing yet with no baseline, under a chain
whose levels are all named, writes into the patch exactly the replay of what the
scanned directory holds, marked `+`, and leaves the chain named. -/
theorem visit_patch_fresh {limits : Limits} {firstFresh : Nat} (fuel : Nat) :
    ∀ {path : String} {d d' : DirEntry} {s s' : ScanState σ},
      (visit walker limits firstFresh fuel path none d).run s = .ok (d', s') →
      d.dirs = [] → d.files = [] → Named s.chain →
      s'.patch.toList = s.patch.toList ++ d'.replayInside (some .added) path ∧ Named s'.chain := by
  induction fuel with
  | zero =>
      intro path d d' s s' h
      rw [visit, run_throw] at h
      cases h
  | succ fuel inductionHypothesis =>
      intro path d d' s s' h noDirs noFiles named
      rw [visit, run_bind_eq_ok] at h
      obtain ⟨d₁, s₁, read, h⟩ := h
      have readSpec := readDir_numbered read ⟨noDirs, noFiles⟩
      obtain ⟨-, readPatch, -, -⟩ := readDir_eq_ok read
      have readNamed := readDir_named read named
      rw [run_bind_of_eq_ok (run_merge_none _ _ _), run_dumpAll_bind, run_bind_eq_ok] at h
      obtain ⟨⟨dirs, pending⟩, s₄, entered, h⟩ := h
      dsimp only at h
      have noBaselines : ∀ b ∈ d₁.dirs.map (fun _ => (none : Option DirEntry)), b = none := by
        simp
      obtain ⟨same, -⟩ := enterAll_dump
        (fun _ _ _ _ _ _ noDirs noFiles visited => visit_dump fuel visited noDirs noFiles)
        entered readSpec.childrenEmpty
      obtain ⟨pendingNone, length, enteredNamed, enteredPatch⟩ := enterAll_patch_fresh
        (fun _ _ _ _ _ noDirs noFiles named visited =>
          ⟨(visit_dump fuel visited noDirs noFiles).1, inductionHypothesis visited noDirs noFiles named⟩)
        entered readSpec.childrenEmpty noBaselines readNamed
      dsimp only at pendingNone length
      rw [run_bind_eq_ok] at h
      obtain ⟨size, s₅, summed, h⟩ := h
      rw [run_checked_eq_ok] at summed
      obtain ⟨-, rfl⟩ := summed
      rw [run_bind_eq_ok] at h
      obtain ⟨_, s₆, compared, h⟩ := h
      -- Both lists of baselines hold nothing, one entry per child.
      rw [pendingNone, List.map_const', ← length] at compared
      obtain ⟨comparedPatch, comparedChain⟩ := compareChildren_fresh _ _ dirs compared enteredNamed
      rw [run_dumpAll_bind, run_pure_eq_ok] at h
      obtain ⟨rfl, rfl⟩ := h
      have opening : DirEntry.openingLines (some .added) path { d₁ with dirs, size } =
          d₁.openingLines (some .added) path :=
        DirEntry.openingLines_congr _ _ rfl rfl rfl same
      refine ⟨?_, by rw [comparedChain]; exact enteredNamed⟩
      dsimp only
      rw [comparedPatch, enteredPatch, readPatch, DirEntry.replayInside_eq_opening, opening]
      simp only [List.foldl_push_eq_append', Array.toList_append, List.append_assoc]
      rfl

/-- A scan with no baseline from a root that holds nothing yet writes into its
patch the replay of the tree it returns, marked `+`. -/
theorem run_patch_fresh {limits : Limits} {state : σ} {root : DirEntry} {ids : IdSupply}
    {scan : Scan σ} (h : run walker limits state root none ids = .ok scan)
    (noDirs : root.dirs = []) (noFiles : root.files = []) :
    scan.patch = scan.tree.replay (some .added) scan.tree.name 0 := by
  unfold run at h
  obtain ⟨⟨tree, s'⟩, ran, rfl⟩ := except_map_eq_ok h
  rw [run_bind_eq_ok] at ran
  obtain ⟨_, s₁, opened, ran⟩ := ran
  have isNew : (none : Option DirEntry).isNone = true := rfl
  rw [openRoot, if_pos isNew, run_emit] at opened
  obtain ⟨-, rfl⟩ := Prod.mk.inj (Except.ok.inj opened)
  rw [run_dumpAll_bind, run_bind_eq_ok] at ran
  obtain ⟨d, s₃, visited, ran⟩ := ran
  obtain ⟨name, id, -, -⟩ := visit_dump _ visited noDirs noFiles
  obtain ⟨visitedPatch, -⟩ := visit_patch_fresh _ visited noDirs noFiles
    (Named.cons (fun _ member => absurd member List.not_mem_nil) rfl)
  rw [closeRoot, run_emit_bind, run_dumpAll_bind, run_pure_eq_ok] at ran
  obtain ⟨rfl, rfl⟩ := ran
  dsimp only
  rw [Array.toList_push, visitedPatch]
  simp [DirEntry.replay, DirEntry.declaration, name, id]

end Scan

/-! ### The diff against no snapshot -/

theorem IdSupply.after_zero : IdSupply.after 0 = .ok IdSupply.fresh := rfl

/-- The fingerprint of the empty text. -/
theorem Md5.toHex_digest_nil : (Md5.digest []).toHex = "d41d8cd98f00b204e9800998ecf8427e" := by
  decide +kernel

/-- A diff against no snapshot and the reverse inventory come from one scan, which
fails for both or succeeds for both. The reverse inventory writes the scan's dump,
each line followed by a line break. The diff writes the fingerprint of the empty
text, then every line of that dump with `+ ` before it, in the same order, then the
dump itself; its statistics are the reverse inventory's, with every patch line
counted as added. -/
theorem diff_without_snapshot_marks_dump {σ : Type} (walker : Walker σ) (limits : Limits)
    (state : σ) (name : String) :
    inventory walker limits state .reverse (DirEntry.root name) none =
        (Scan.run walker limits state (DirEntry.root name) none IdSupply.fresh).map (fun scan =>
          ⟨String.join (scan.dump.map fun line => line.render ++ "\n"), scan.stats, scan.walker⟩) ∧
      inventory walker limits state .diff (DirEntry.root name) none =
        (Scan.run walker limits state (DirEntry.root name) none IdSupply.fresh).map (fun scan =>
          ⟨"* d41d8cd98f00b204e9800998ecf8427e\n" ++
              String.join (scan.dump.map fun line => "+ " ++ line.render ++ "\n") ++
              String.join (scan.dump.map fun line => line.render ++ "\n"),
            { scan.stats with patch := some { added := scan.dump.length } }, scan.walker⟩) := by
  unfold inventory
  simp only [Option.map_none, Option.getD_none, IdSupply.after_zero, pure_bind, Md5.toHex_digest_nil]
  cases ran : Scan.run walker limits state (DirEntry.root name) none IdSupply.fresh with
  | error e => exact ⟨rfl, rfl⟩
  | ok scan =>
      -- The patch is the dump with every line marked `+`, and the dump's lines are plain.
      have marked : scan.patch = scan.dump.map (Line.mark .added) := by
        rw [Scan.run_patch_fresh ran rfl rfl, Scan.run_dump ran rfl rfl, DirEntry.replay_mark]
      have plain := DirEntry.marker_of_mem_replay none scan.tree.name 0 scan.tree
      rw [← Scan.run_dump ran rfl rfl] at plain
      constructor
      · show Except.ok _ = Except.ok _
        rw [Wire.text_eq_join]
      · show Except.ok _ = Except.ok _
        rw [marked, LineCounts.ofLines_mark_added, Wire.text_map_mark .added plain, Wire.text_eq_join]
        rfl

/-- A root `r` holding one empty file whose name holds a line break. -/
def brokenNameTree : MemNode := .dir "r" [.file "a\nb" 0] false false

/-- The dump of `brokenNameTree` has four lines, since the file's record spans two.
A diff against no snapshot marks records, not lines: the second line of the file's
record goes out without `+ `, and the patch counts three added lines. -/
theorem broken_name_line_unmarked :
    ∃ reverse diff,
      inventory memWalker {} { root := brokenNameTree } .reverse (DirEntry.root "r") none = .ok reverse ∧
      reverse.output = "0 1 r\n1 1 0 0 0 0 a\nb\n1 0 0 0 1 1 r\n" ∧
      inventory memWalker {} { root := brokenNameTree } .diff (DirEntry.root "r") none = .ok diff ∧
      diff.output = "* d41d8cd98f00b204e9800998ecf8427e\n+ 0 1 r\n+ 1 1 0 0 0 0 a\nb\n+ 1 0 0 0 1 1 r\n" ++
        reverse.output ∧
      diff.stats.patch = some { added := 3 } := by
  have reversed : (inventory memWalker {} { root := brokenNameTree } .reverse (DirEntry.root "r")
      none).toOption.any (fun r => r.output == "0 1 r\n1 1 0 0 0 0 a\nb\n1 0 0 0 1 1 r\n") = true := by
    decide +kernel
  have diffed : (inventory memWalker {} { root := brokenNameTree } .diff (DirEntry.root "r")
      none).toOption.any (fun r => r.output == "* d41d8cd98f00b204e9800998ecf8427e\n+ 0 1 r\n" ++
        "+ 1 1 0 0 0 0 a\nb\n+ 1 0 0 0 1 1 r\n0 1 r\n1 1 0 0 0 0 a\nb\n1 0 0 0 1 1 r\n" &&
        r.stats.patch == some { added := 3 }) = true := by
    decide +kernel
  obtain ⟨reverse, reverseRan, reverseOutput⟩ := Scan.exists_ok_of_toOption_any reversed
  obtain ⟨diff, diffRan, checks⟩ := Scan.exists_ok_of_toOption_any diffed
  rw [Bool.and_eq_true, beq_iff_eq, beq_iff_eq] at checks
  rw [beq_iff_eq] at reverseOutput
  refine ⟨reverse, diff, reverseRan, reverseOutput, diffRan, ?_, checks.2⟩
  rw [checks.1, reverseOutput]
  rfl

end TreeDump
