import Mathlib
import TreeDump.Inventory
import TreeDump.Proofs.Order
import TreeDump.Proofs.Budget
import TreeDump.Proofs.Dump

/-!
How a scan without a baseline numbers the tree it builds.

Owns: `batchIds`, the ids below a directory in the order a scan hands them out
(the ids of a directory's children as one batch, when its listing is sorted,
then the batches below each child in turn, depth-first); `Unread`, a directory
that holds nothing yet; and `Arranged`, what scanning an unread directory
leaves. The main statement: every tree `buildTree` returns, over any walker and
any limits, has its root at id `1`, every directory arranged as ordering its
children arranges it, and the ids `2, 3, …` handed out batch by batch in
pre-order, with no gap; the reverse inventory streams that same tree.

Why the ids have no gap: the supply moves over one batch per listing that is
kept. A listing dropped by recursion detection hands its batch back before any
child is entered, and a directory left unread or refused takes no batch, so the
batches of the tree are exactly the runs of ids the supply moved over.

Does not own: the ordering of one listing (`TreeDump.Proofs.Order`) nor the
bounds on the ids (`TreeDump.Proofs.ScanTree`).
-/

namespace TreeDump

namespace DirEntry

/-- The ids a scan hands out below a directory, in the order it hands them out:
the ids of the child directories, then the batches below each child in turn. -/
def batchIds : DirEntry → List Nat
  | ⟨_, _, _, _, _, _, dirs, _⟩ => dirs.map (·.id) ++ dirs.flatMap batchIds

theorem batchIds_eq (d : DirEntry) :
    d.batchIds = d.dirs.map (·.id) ++ d.dirs.flatMap batchIds := by
  cases d
  rw [batchIds]

/-- Every directory below the root takes one id of the batches. -/
theorem length_allDirs (d : DirEntry) : d.allDirs.length = d.batchIds.length + 1 := by
  induction d using DirEntry.induction with
  | step d inductionHypothesis =>
      have below : ∀ ds : List DirEntry, (∀ c ∈ ds, c.allDirs.length = c.batchIds.length + 1) →
          (ds.flatMap allDirs).length = ds.length + (ds.flatMap batchIds).length := by
        intro ds each
        induction ds with
        | nil => rfl
        | cons c cs restHypothesis =>
            rw [List.flatMap_cons, List.flatMap_cons, List.length_append, List.length_append,
              each c List.mem_cons_self,
              restHypothesis fun c' member => each c' (List.mem_cons_of_mem c member),
              List.length_cons]
            omega
      rw [allDirs_eq, batchIds_eq, List.length_cons, List.length_append, List.length_map,
        below d.dirs inductionHypothesis]

/-- The ids below a directory are its batches, in some order. -/
theorem idsBelow_perm_batchIds (d : DirEntry) : d.idsBelow.Perm d.batchIds := by
  induction d using DirEntry.induction with
  | step d inductionHypothesis =>
      rw [batchIds_eq]
      exact (flatMap_allDirs_ids_perm d.dirs).trans
        ((List.Perm.flatMap_left d.dirs inductionHypothesis).append_left _)

/-- The ids of a tree are the root's and its batches. -/
theorem allDirs_ids_perm (d : DirEntry) : (d.allDirs.map (·.id)).Perm (d.id :: d.batchIds) := by
  rw [allDirs_eq, List.map_cons]
  refine List.Perm.cons _ ?_
  rw [batchIds_eq]
  exact (flatMap_allDirs_ids_perm d.dirs).trans
    ((List.Perm.flatMap_left d.dirs fun c _ => idsBelow_perm_batchIds c).append_left _)

/-- A directory that holds nothing yet and counts no child: a root before its
scan, or a child as its parent's listing gives it. -/
structure Unread (d : DirEntry) : Prop where
  noDirs : d.dirs = []
  noFiles : d.files = []
  noItems : d.items = 0

theorem Unread.ordered {d : DirEntry} (unread : d.Unread) : d.Ordered where
  dirsSorted := by rw [unread.noDirs]; exact List.Pairwise.nil
  filesSorted := by rw [unread.noFiles]; exact List.Pairwise.nil
  dirFids := by rw [unread.noDirs]; rfl
  fileFids := by rw [unread.noFiles]; rfl
  items := by rw [unread.noItems, unread.noDirs, unread.noFiles]; rfl

theorem Unread.allDirs {d : DirEntry} (unread : d.Unread) : d.allDirs = [d] := by
  rw [allDirs_eq, unread.noDirs, List.flatMap_nil]

theorem Unread.batchIds {d : DirEntry} (unread : d.Unread) : d.batchIds = [] := by
  rw [batchIds_eq, unread.noDirs, List.map_nil, List.flatMap_nil, List.append_nil]

/-- Replacing the child directories by ones of the same names and positions keeps
a directory arranged. -/
theorem Ordered.of_children {d e : DirEntry} (ordered : d.Ordered)
    (names : e.dirs.map (·.name) = d.dirs.map (·.name))
    (fids : e.dirs.map (·.fid) = d.dirs.map (·.fid)) (files : e.files = d.files)
    (items : e.items = d.items) : e.Ordered := by
  have length : e.dirs.length = d.dirs.length := by
    simpa using congrArg List.length names
  refine ⟨?_, ?_, ?_, ?_, ?_⟩
  · exact List.pairwise_map.mp (names ▸ List.pairwise_map.mpr ordered.dirsSorted)
  · exact files ▸ ordered.filesSorted
  · rw [fids, ordered.dirFids, length]
  · rw [files, length]
    exact ordered.fileFids
  · rw [items, files, length]
    exact ordered.items

end DirEntry

namespace Scan

variable {σ : Type} {walker : Walker σ}

/-- Reading an unread directory arranges it as ordering its children does, whether
the listing is kept, dropped by recursion detection or not read at all. -/
theorem readDir_ordered {limits : Limits} {firstFresh : Nat} {d d₁ : DirEntry}
    {s s₁ : ScanState σ} (h : (readDir walker limits firstFresh d).run s = .ok (d₁, s₁))
    (unread : d.Unread) : d₁.Ordered := by
  obtain ⟨-, -, -, outcome⟩ := readDir_eq_ok h
  rcases outcome with ⟨-, rfl, -⟩ | ⟨-, -, -, ordered, ids, size, orderedEq, -, kept⟩
  · exact unread.ordered
  · have arranged := orderChildren_ordered orderedEq
    rcases kept with ⟨-, rfl, -⟩ | ⟨-, rfl, -⟩
    · exact ⟨arranged.dirsSorted, arranged.filesSorted, arranged.dirFids, arranged.fileFids,
        arranged.items⟩
    · exact DirEntry.Unread.ordered ⟨rfl, rfl, rfl⟩

/-- Without a baseline, merging writes the new children to the patch and changes
neither the directory nor the supply; no child has a baseline directory. -/
theorem merge_none_eq_ok {path : String} {d d₂ : DirEntry} {baselines : List (Option DirEntry)}
    {s s₂ : ScanState σ} (h : (merge path none d).run s = .ok ((d₂, baselines), s₂)) :
    d₂ = d ∧ baselines = d.dirs.map (fun _ => none) ∧ s₂.ids = s.ids := by
  unfold merge at h
  rw [run_bind_eq_ok] at h
  obtain ⟨_, s₁, added, h⟩ := h
  rw [run_bind_eq_ok] at h
  obtain ⟨_, s₃, addedFiles, h⟩ := h
  obtain ⟨-, ids₁, -⟩ := keeps_emitAll _ _ _ _ added
  obtain ⟨-, ids₃, -⟩ := keeps_emitAll _ _ _ _ addedFiles
  rw [run_pure_eq_ok, Prod.mk.injEq] at h
  obtain ⟨⟨rfl, rfl⟩, rfl⟩ := h
  exact ⟨rfl, rfl, ids₃.trans ids₁⟩

/-- What scanning an unread directory without a baseline leaves: its name, id and
position kept, every directory of its tree arranged, and the batches below it,
in the order they are handed out, exactly the ids the supply moved over. -/
structure Arranged (d d' : DirEntry) (s s' : ScanState σ) : Prop where
  name : d'.name = d.name
  id : d'.id = d.id
  fid : d'.fid = d.fid
  supply : s.ids.next ≤ s'.ids.next
  ordered : ∀ e ∈ d'.allDirs, e.Ordered
  batches : d'.batchIds = List.range' s.ids.next (s'.ids.next - s.ids.next)

/-- What entering every unread child without a baseline leaves: the children keep
their names, ids and positions, every directory of their trees is arranged, and
their batches, child after child, are exactly the ids the supply moved over. -/
structure ArrangedAll (cs cs' : List DirEntry) (s s' : ScanState σ) : Prop where
  names : cs'.map (·.name) = cs.map (·.name)
  childIds : cs'.map (·.id) = cs.map (·.id)
  fids : cs'.map (·.fid) = cs.map (·.fid)
  supply : s.ids.next ≤ s'.ids.next
  ordered : ∀ e ∈ cs'.flatMap DirEntry.allDirs, e.Ordered
  batches : cs'.flatMap DirEntry.batchIds = List.range' s.ids.next (s'.ids.next - s.ids.next)

theorem enterAll_arranged
    {visitChild : String → Option DirEntry → DirEntry → ScanM σ DirEntry}
    (visitArranged : ∀ path c c' (t t' : ScanState σ), c.Unread →
      (visitChild path none c).run t = .ok (c', t') → Arranged c c' t t')
    {path parentName : String} :
    ∀ {cs : List DirEntry} {baselines : List (Option DirEntry)}
      {result : List DirEntry × List (Option DirEntry)} {s s' : ScanState σ},
      (enterAll walker visitChild path parentName cs baselines).run s = .ok (result, s') →
      (∀ c ∈ cs, c.Unread) → (∀ b ∈ baselines, b = none) →
      ArrangedAll cs result.1 s s' := by
  intro cs
  induction cs with
  | nil =>
      intro baselines result s s' h _ _
      rw [enterAll, run_pure_eq_ok] at h
      obtain ⟨rfl, rfl⟩ := h
      exact ⟨rfl, rfl, rfl, le_refl _, by simp, by simp⟩
  | cons c cs inductionHypothesis =>
      intro baselines result s s' h children noBaselines
      have unread := children c List.mem_cons_self
      have restChildren := fun c' member => children c' (List.mem_cons_of_mem c member)
      have restNoBaselines := fun b member => noBaselines b (List.mem_of_mem_tail member)
      rw [enterAll] at h
      dsimp only at h
      rw [run_get_bind] at h
      split at h
      · -- The walker refused the child: it stays unread, with no batch.
        rw [run_count_bind, run_bind_eq_ok] at h
        obtain ⟨⟨rest, pending⟩, s₁, restRun, h⟩ := h
        dsimp only at h
        rw [run_pure_eq_ok] at h
        obtain ⟨rfl, rfl⟩ := h
        have restArranged := inductionHypothesis restRun restChildren restNoBaselines
        have restBatches : rest.flatMap DirEntry.batchIds =
            List.range' s.ids.next (s'.ids.next - s.ids.next) := restArranged.batches
        refine ⟨by simp [restArranged.names], by simp [restArranged.childIds],
          by simp [restArranged.fids], restArranged.supply, ?_, ?_⟩
        · intro e member
          rw [List.flatMap_cons, unread.allDirs, List.singleton_append] at member
          rcases List.mem_cons.mp member with rfl | member
          · exact unread.ordered
          · exact restArranged.ordered e member
        · rw [List.flatMap_cons, unread.batchIds, List.nil_append]
          exact restBatches
      · -- The child was entered without a baseline: it is scanned, and the walker
        -- moves back up.
        have noBaseline : baselines.head?.join = none := by
          cases baselines with
          | nil => rfl
          | cons b bs => simpa using noBaselines b List.mem_cons_self
        rw [run_set_bind, run_bind_eq_ok] at h
        obtain ⟨c', s₁, visited, h⟩ := h
        rw [noBaseline] at visited
        rw [run_bind_eq_ok] at h
        obtain ⟨_, s₂, left, h⟩ := h
        rw [run_bind_eq_ok] at h
        obtain ⟨⟨rest, pending⟩, s₃, restRun, h⟩ := h
        dsimp only at h
        rw [run_pure_eq_ok] at h
        obtain ⟨rfl, rfl⟩ := h
        have childArranged := visitArranged _ _ _ _ _ unread visited
        obtain ⟨-, ids₂, -⟩ := leaveChild_eq_ok left
        have restArranged := inductionHypothesis restRun restChildren restNoBaselines
        have childSupply : s.ids.next ≤ s₁.ids.next := childArranged.supply
        have restSupply : s₂.ids.next ≤ s'.ids.next := restArranged.supply
        have restBatches : rest.flatMap DirEntry.batchIds =
            List.range' s₂.ids.next (s'.ids.next - s₂.ids.next) := restArranged.batches
        rw [ids₂] at restSupply restBatches
        refine ⟨by simp [childArranged.name, restArranged.names],
          by simp [childArranged.id, restArranged.childIds],
          by simp [childArranged.fid, restArranged.fids], by omega, ?_, ?_⟩
        · intro e member
          rw [List.flatMap_cons, List.mem_append] at member
          rcases member with member | member
          · exact childArranged.ordered e member
          · exact restArranged.ordered e member
        · show c'.batchIds ++ rest.flatMap DirEntry.batchIds = _
          rw [childArranged.batches, restBatches]
          exact range'_sub_append childSupply restSupply

/-- Scanning an unread directory without a baseline arranges every directory of
the tree it reads and hands out its batches, in pre-order, from one unbroken run
of the supply; whatever the walker lists, refuses or repeats, and whatever the
limits leave unread. -/
theorem visit_arranged {limits : Limits} {firstFresh : Nat} (fuel : Nat) :
    ∀ {path : String} {d d' : DirEntry} {s s' : ScanState σ}, d.Unread →
      (visit walker limits firstFresh fuel path none d).run s = .ok (d', s') →
      Arranged d d' s s' := by
  induction fuel with
  | zero =>
      intro path d d' s s' _ h
      rw [visit, run_throw] at h
      cases h
  | succ fuel inductionHypothesis =>
      intro path d d' s s' unread h
      rw [visit, run_bind_eq_ok] at h
      obtain ⟨d₁, s₁, read, h⟩ := h
      have numbered := readDir_numbered read ⟨unread.noDirs, unread.noFiles⟩
      have readOrdered := readDir_ordered read unread
      rw [run_bind_eq_ok] at h
      obtain ⟨⟨d₂, baselines⟩, s₂, merged, h⟩ := h
      obtain ⟨rfl, rfl, ids₂⟩ := merge_none_eq_ok merged
      rw [run_dumpAll_bind, run_bind_eq_ok] at h
      obtain ⟨⟨dirs, pending⟩, s₃, entered, h⟩ := h
      dsimp only at h
      have childrenUnread : ∀ c ∈ d₂.dirs, c.Unread := fun c child =>
        ⟨(numbered.childrenEmpty c child).1, (numbered.childrenEmpty c child).2,
          numbered.childrenUnread c child⟩
      have enterArranged := enterAll_arranged (fun _ _ _ _ _ => inductionHypothesis) entered
        childrenUnread (by simp)
      have enterSupply : s₂.ids.next ≤ s₃.ids.next := enterArranged.supply
      have enterBatches : dirs.flatMap DirEntry.batchIds =
          List.range' s₂.ids.next (s₃.ids.next - s₂.ids.next) := enterArranged.batches
      rw [ids₂, numbered.supply] at enterSupply enterBatches
      rw [run_bind_eq_ok] at h
      obtain ⟨size, s₄, summed, h⟩ := h
      rw [run_checked_eq_ok] at summed
      obtain ⟨-, rfl⟩ := summed
      rw [run_bind_eq_ok] at h
      obtain ⟨_, s₅, compared, h⟩ := h
      obtain ⟨-, ids₅, -⟩ := keeps_compareChildren _ _ _ _ _ _ _ _ compared
      rw [run_dumpAll_bind, run_pure_eq_ok] at h
      obtain ⟨rfl, rfl⟩ := h
      refine ⟨numbered.name, numbered.id, numbered.fid, ?_, ?_, ?_⟩
      · show s.ids.next ≤ s₅.ids.next
        rw [ids₅]
        omega
      · -- The directory keeps the names and positions of its children; below them,
        -- the children's own trees.
        intro e member
        rw [DirEntry.allDirs_eq, List.mem_cons] at member
        rcases member with rfl | member
        · exact readOrdered.of_children enterArranged.names enterArranged.fids rfl rfl
        · exact enterArranged.ordered e member
      · -- The children's batch, then the batches below them.
        rw [DirEntry.batchIds_eq]
        show List.map (·.id) dirs ++ dirs.flatMap DirEntry.batchIds = _
        have childBatch : dirs.map (·.id) =
            List.range' s.ids.next (s.ids.next + d₂.dirs.length - s.ids.next) := by
          rw [enterArranged.childIds, numbered.childIds, Nat.add_sub_cancel_left]
        rw [childBatch, enterBatches, ids₅]
        exact range'_sub_append (Nat.le_add_right _ _) enterSupply

/-- A whole scan from a root without a baseline arranges every directory of the
tree it returns and numbers the tree's directories `1, 2, …`: the root first,
then the batches below it in the order they are handed out. -/
theorem run_arranged {limits : Limits} {state : σ} {name : String} {scan : Scan σ}
    (h : run walker limits state (DirEntry.root name) none IdSupply.fresh = .ok scan) :
    scan.tree.id = rootId ∧ (∀ e ∈ scan.tree.allDirs, e.Ordered) ∧
      rootId :: scan.tree.batchIds = List.range' rootId scan.tree.allDirs.length := by
  unfold run at h
  obtain ⟨⟨tree, s'⟩, ran, rfl⟩ := except_map_eq_ok h
  rw [run_bind_eq_ok] at ran
  obtain ⟨_, s₁, opened, ran⟩ := ran
  obtain ⟨-, ids₁, -⟩ := keeps_openRoot _ none _ _ _ opened
  rw [run_dumpAll_bind, run_bind_eq_ok] at ran
  obtain ⟨d, s₂, visited, ran⟩ := ran
  have arranged := visit_arranged _ ⟨rfl, rfl, rfl⟩ visited
  rw [run_bind_eq_ok] at ran
  obtain ⟨_, s₃, -, ran⟩ := ran
  rw [run_dumpAll_bind, run_pure_eq_ok] at ran
  obtain ⟨rfl, rfl⟩ := ran
  have batches : tree.batchIds = List.range' s₁.ids.next (s₂.ids.next - s₁.ids.next) :=
    arranged.batches
  have supplyStart : s₁.ids.next = rootId + 1 := by
    rw [ids₁]
    rfl
  rw [supplyStart] at batches
  refine ⟨arranged.id, arranged.ordered, ?_⟩
  show rootId :: tree.batchIds = List.range' rootId tree.allDirs.length
  rw [DirEntry.length_allDirs, batches, List.length_range', List.range'_succ]

end Scan

/-- Every tree a scan builds, over any walker and under any limits, is arranged.
In every directory both partitions are sorted by name, the directories sit at
positions `0, 1, …` and the files after them, and `items` counts the children,
positions and count being 32-bit words. The root has id `1` and the directories
below it the ids `2, 3, …` with no gap: each directory's children take one run in
name order, and the runs follow the order the directories are read in. The
reverse inventory streams that same tree. A scan that builds no tree has lost its
position or overflowed a counter. -/
theorem buildTree_arranged {σ : Type} (walker : Walker σ) (limits : Limits) (state : σ)
    (name : String) :
    (∃ tree stats final,
        buildTree walker limits state (DirEntry.root name) = .ok (tree, stats, final) ∧
        tree.id = rootId ∧ (∀ e ∈ tree.allDirs, e.Ordered) ∧
        rootId :: tree.batchIds = List.range' rootId tree.allDirs.length ∧
        (tree.allDirs.map (·.id)).Perm (List.range' rootId tree.allDirs.length) ∧
        inventory walker limits state .reverse (DirEntry.root name) none =
          .ok ⟨tree.dumpText, stats, final⟩) ∨
      (∃ path reason, buildTree walker limits state (DirEntry.root name) =
        .error (.lostPosition path reason)) ∨
      ∃ counter, buildTree walker limits state (DirEntry.root name) = .error (.overflow counter) := by
  cases ran : Scan.run walker limits state (DirEntry.root name) none IdSupply.fresh with
  | ok scan =>
      obtain ⟨rootFirst, ordered, batches⟩ := Scan.run_arranged ran
      have built : buildTree walker limits state (DirEntry.root name) =
          .ok (scan.tree, scan.stats, scan.walker) := by
        unfold buildTree
        rw [ran]
        rfl
      have ids : (scan.tree.allDirs.map (·.id)).Perm
          (List.range' rootId scan.tree.allDirs.length) := by
        rw [← batches, ← rootFirst]
        exact scan.tree.allDirs_ids_perm
      have streamed : inventory walker limits state .reverse (DirEntry.root name) none =
          .ok ⟨scan.tree.dumpText, scan.stats, scan.walker⟩ := by
        unfold inventory
        dsimp only
        rw [ran]
        show Except.ok _ = Except.ok _
        rw [Scan.run_dump ran rfl rfl]
        rfl
      exact .inl ⟨scan.tree, scan.stats, scan.walker, built, rootFirst, ordered, batches, ids,
        streamed⟩
  | error e =>
      have built : buildTree walker limits state (DirEntry.root name) = .error e := by
        unfold buildTree
        rw [ran]
        rfl
      cases e with
      | lostPosition path reason => exact .inr (.inl ⟨path, reason, built⟩)
      | overflow counter => exact .inr (.inr ⟨counter, built⟩)
      | tooDeep => exact absurd ran (Scan.run_ne_tooDeep rfl rfl)

end TreeDump
