import Mathlib
import TreeDump.Walkers.Loop
import TreeDump.Proofs.WideScan
import TreeDump.Proofs.StoredReading

/-!
Contract: where a scan cuts the endless tree.

Owns: the scan of `loopWalker`, whose every directory holds one directory `again`
and one file of one byte, followed level by level for every limits that read a
listing whole (`maxItems ≥ 2`) and every 32-bit recursion threshold.

Two things stop the descent. A chain of `k + 1` levels that all hold the one
listing of two children repeats itself exactly when `k ≥ 1` and the `k` levels it
compares count the threshold, `threshold ≤ 2 * k`; the first such depth is
`Limits.repeatDepth`, `max 1 ⌈threshold / 2⌉`. And the directory at depth `k` has id
`k + 1`, which is also its place in the order of ids, so it is read only when
`k + 1 ≤ maxDirs`. The scan stops at the depth `min maxDirs repeatDepth`: pruning
the directory there when it is read, leaving it unread otherwise.

Main statement (`loop_scan_cut`): the reverse inventory of the endless tree, from a
root whose name holds no line break, succeeds; the walker went down `min maxDirs repeatDepth` levels; one directory is
pruned when `repeatDepth + 1 ≤ maxDirs` and one is left unread otherwise;
`min maxDirs (repeatDepth + 1)` directories are read; and the dump reads back, with
`min maxDirs repeatDepth + 1` as its largest id, exactly when the reader's table holds
the `1 + min maxDirs repeatDepth` directories it declares before placing any.

Does not own: the reading of a dump (see `Snapshot.read_dumpText`), which fails past
the table's capacity; `deep_loop_unreadable` is such a scan. A root name with a line
break leaves the scan as it is but breaks the dump's first line in two, so the dump
does not read back (`broken_root_loop_unreadable`).

## Why it goes through

Every directory of the endless tree is listed alike, so every level of the chain
records the same fingerprint and two children, and whether the chain repeats
depends on its length alone (`Level.chainRepeats_uniform`). The scan is then one
descent: the run lemma `visit_loop` goes by induction on the levels left above the
cut, each step reading one directory and entering its one child.
-/

namespace TreeDump

/-! ### The endless walker -/

/-- The walker lists `again` and `data` in every directory, whole once two entries
are read. -/
theorem loopWalker_list (w : LoopWalk) {n : Nat} (whole : 2 ≤ n) :
    loopWalker.list w n = (w, [.dir "again", .file "data" 1]) := by
  obtain ⟨n, rfl⟩ : ∃ j, n = j + 2 := ⟨n - 2, by omega⟩
  simp [loopWalker]

theorem loopWalker_enter (k : Nat) (name : String) :
    loopWalker.enter ⟨k, k⟩ name = some ⟨k + 1, k + 1⟩ := by
  simp [loopWalker]

theorem loopWalker_leave (k deepest : Nat) :
    loopWalker.leave ⟨k + 1, deepest⟩ = .ok ⟨k, deepest⟩ := rfl

/-- No name the endless walker lists holds a line break. -/
theorem loopWalker_plainNames : loopWalker.PlainNames fun _ => True where
  list _ _ _ := trivial
  names w n _ item listed := by
    have whole : item ∈ [Item.dir "again", .file "data" 1] := List.mem_of_mem_take listed
    simp only [List.mem_cons, List.not_mem_nil, or_false] at whole
    rcases whole with rfl | rfl <;> decide
  enter _ _ _ _ _ := trivial
  leave _ _ _ _ := trivial

/-! ### Chains of one listing -/

namespace Level

/-- Along levels that all record one listing of `n` children, the near side matches
the far one for as many levels as the shorter side has; so the two repeat exactly
when those levels count the threshold. -/
theorem repeats_uniform {threshold n : Nat} {x : Md5.Digest} {near : List Level}
    (nearSame : ∀ a ∈ near, a.digest = some x ∧ a.items = n) :
    ∀ {far : List Level} {seen : Nat}, (∀ b ∈ far, b.digest = some x) →
      (repeats threshold near far seen = true ↔
        0 < min near.length far.length ∧ threshold ≤ seen + n * min near.length far.length) := by
  induction near with
  | nil => intro far seen _; simp [repeats]
  | cons a near inductionHypothesis =>
    intro far seen farSame
    cases far with
    | nil => simp [repeats]
    | cons b far =>
      obtain ⟨aDigest, aItems⟩ := nearSame a List.mem_cons_self
      have nearRest : ∀ a' ∈ near, a'.digest = some x ∧ a'.items = n :=
        fun a' member => nearSame a' (List.mem_cons_of_mem a member)
      have farRest : ∀ b' ∈ far, b'.digest = some x :=
        fun b' member => farSame b' (List.mem_cons_of_mem b member)
      have shorter : min (near.length + 1) (far.length + 1) = min near.length far.length + 1 :=
        Nat.succ_min_succ _ _
      simp only [repeats, aDigest, farSame b List.mem_cons_self, ↓reduceIte, aItems,
        List.length_cons, shorter, Nat.mul_succ]
      by_cases reached : threshold ≤ seen + n
      · rw [if_pos reached]
        simp only [true_iff]
        omega
      · rw [if_neg reached, inductionHypothesis nearRest farRest]
        -- with no level left to compare, neither side holds
        rcases Nat.eq_zero_or_pos (min near.length far.length) with empty | compared
        · rw [empty, Nat.mul_zero]
          omega
        · omega

/-- A chain whose levels all record one listing of `n` children repeats exactly when
it has a level above the current one and the levels above count the threshold. -/
theorem chainRepeats_uniform {threshold n : Nat} {x : Md5.Digest} {chain : List Level}
    (same : ∀ a ∈ chain, a.digest = some x ∧ a.items = n) :
    chainRepeats threshold chain = true ↔ 2 ≤ chain.length ∧ threshold ≤ n * (chain.length - 1) := by
  -- shifted by `k + 1` levels, the chain is compared over its `length - (k + 1)` upper levels
  have shifted : ∀ k, repeats threshold chain (chain.drop (k + 1)) 0 = true ↔
      0 < chain.length - (k + 1) ∧ threshold ≤ n * (chain.length - (k + 1)) := by
    intro k
    have upper : min chain.length (chain.length - (k + 1)) = chain.length - (k + 1) := by omega
    rw [repeats_uniform same fun b member => (same b (List.mem_of_mem_drop member)).1,
      List.length_drop, upper, Nat.zero_add]
  unfold chainRepeats
  rw [List.any_eq_true]
  constructor
  · rintro ⟨k, inRange, repeated⟩
    rw [List.mem_range] at inRange
    obtain ⟨-, reached⟩ := (shifted k).mp repeated
    exact ⟨by omega, le_trans reached (Nat.mul_le_mul_left n (by omega))⟩
  · rintro ⟨long, reached⟩
    exact ⟨0, List.mem_range.mpr (by omega), (shifted 0).mpr ⟨by omega, reached⟩⟩

end Level

/-! ### Where the scan stops -/

/-- The depth at which a scan of the endless tree finds its first repeat: the least
`k ≥ 1` whose `k` levels above, two children each, count the recursion threshold. -/
def Limits.repeatDepth (limits : Limits) : Nat := max 1 ((limits.recursionThreshold + 1) / 2)

/-- The depth at which a scan of the endless tree stops: the first repeat, or the
deepest directory within `maxDirs`, whichever is nearer. -/
def Limits.loopCut (limits : Limits) : Nat := min limits.maxDirs limits.repeatDepth

/-- What a scan of the endless tree counts: the directories down to the repeat,
the last one pruned, or down to `maxDirs`, the next one left unread; one byte for
every directory read and not pruned. -/
def Limits.loopStats (limits : Limits) : WalkStats :=
  if limits.repeatDepth + 1 ≤ limits.maxDirs then
    { directories := limits.repeatDepth + 1, files := limits.repeatDepth,
      bytes := limits.repeatDepth, pruned := 1 }
  else
    { directories := limits.maxDirs, files := limits.maxDirs, bytes := limits.maxDirs,
      truncated := 1 }

/-- The fingerprint every directory of the endless tree records. -/
def loopDigest : Md5.Digest := Md5.listingDigest [("again", 0), ("data", 1)]

/-- A chain of `k + 1` levels of the endless tree repeats exactly from the repeat
depth on. -/
theorem Level.chainRepeats_loop {limits : Limits} {chain : List Level}
    (same : ∀ a ∈ chain, a.digest = some loopDigest ∧ a.items = 2) :
    Level.chainRepeats limits.recursionThreshold chain = true ↔
      limits.repeatDepth ≤ chain.length - 1 := by
  rw [Level.chainRepeats_uniform same, Limits.repeatDepth]
  omega

/-- `d` heads a strand of `j` directories below it, one inside the other, numbered
on from its own id. -/
def DirEntry.Strand : Nat → DirEntry → Prop
  | 0, d => d.dirs = []
  | j + 1, d => ∃ c, d.dirs = [c] ∧ c.id = d.id + 1 ∧ c.Strand j

/-- A reader of the dump of a strand holds all of it declared at once. -/
theorem DirEntry.Strand.breadth : ∀ {j : Nat} {d : DirEntry}, d.Strand j → d.breadth = j
  | 0, d, strand => by
    rw [DirEntry.breadth_eq, show d.dirs = [] from strand]
    rfl
  | j + 1, d, strand => by
    obtain ⟨c, only, -, below⟩ := strand
    rw [DirEntry.breadth_eq, only, List.map_singleton, below.breadth]
    simp [Nat.add_comm]

theorem DirEntry.Strand.largestId : ∀ {j : Nat} {d : DirEntry}, d.Strand j → d.largestId = d.id + j
  | 0, d, strand => by
    rw [DirEntry.largestId_eq, DirEntry.largestBelow, show d.dirs = [] from strand]
    simp
  | j + 1, d, strand => by
    obtain ⟨c, only, next, below⟩ := strand
    rw [DirEntry.largestId_eq, DirEntry.largestBelow, only, List.map_singleton, below.largestId, next]
    simp only [List.foldr_cons, List.foldr_nil]
    omega

/-! ### One level of the scan -/

theorem except_ok_bind {ε α β : Type} (a : α) (f : α → Except ε β) : (Except.ok a >>= f) = f a := rfl

theorem idRange_lt_sizeRange : idRange < sizeRange := by decide

namespace Scan

/-- Where a scan of the endless tree stands on entering the directory at depth `k`:
the walker there for the first time, the ids up to `k + 1` handed out, the `k`
directories above read with their byte each, and every level above the new one
recording the one listing. -/
structure LoopAt (k : Nat) (s : ScanState LoopWalk) : Prop where
  walker : s.walker = ⟨k, k⟩
  ids : s.ids = ⟨k + 2⟩
  stats : s.stats = { directories := k, files := k, bytes := k }
  depth : s.chain.length = k + 1
  above : ∀ level ∈ s.chain.tail, level.digest = some loopDigest ∧ level.items = 2

/-- Where a scan of the endless tree stands once the directory at depth `k` is
scanned: the walker back there, having been down to the cut, and everything
counted. -/
structure LoopDone (limits : Limits) (k : Nat) (s : ScanState LoopWalk) : Prop where
  walker : s.walker = ⟨k, limits.loopCut⟩
  stats : s.stats = limits.loopStats

/-- Sorting and numbering the listing of the endless tree. -/
theorem orderChildren_loop {d : DirEntry} (unread : d.Unread) {next : Nat} (room : next + 1 < idRange) :
    (d.withListing [.dir "again", .file "data" 1]).orderChildren ⟨next⟩ =
      .ok ({ d with dirs := [{ name := "again", id := next }], files := [{ name := "data", size := 1, fid := 1 }],
                    items := 2 }, ⟨next + 1⟩) := by
  have dirs : (d.withListing [.dir "again", .file "data" 1]).dirs = [{ name := "again" }] := by
    rw [DirEntry.withListing, unread.noDirs]
    rfl
  have files : (d.withListing [.dir "again", .file "data" 1]).files = [{ name := "data", size := 1 }] := by
    rw [DirEntry.withListing, unread.noFiles]
    rfl
  have numbered : numberDirs [{ name := "again" }] 0 ⟨next⟩ =
      .ok ([{ name := "again", id := next }], ⟨next + 1⟩) := by
    simp [numberDirs, IdSupply.take, addWithin_eq_ok room, Except.map, bind, Except.bind, pure, Except.pure]
  unfold DirEntry.orderChildren
  rw [dirs, files, List.mergeSort_singleton, List.mergeSort_singleton, numbered]
  rfl

/-- The listing of the endless tree, numbered, has the one fingerprint. -/
theorem childDigest_loop (d : DirEntry) (next : Nat) :
    DirEntry.childDigest { d with dirs := [{ name := "again", id := next }],
                                  files := [{ name := "data", size := 1, fid := 1 }], items := 2 } =
      loopDigest := rfl

/-- Reading the directory at depth `k` of the endless tree, within `maxDirs`: it
lists `again` and `data` and records the listing in the chain. From the repeat depth
on the chain repeats and the directory is pruned; above it the directory keeps its
child, numbered `k + 2`, and its byte. -/
theorem readDir_loop {limits : Limits} {k : Nat} {d : DirEntry} {s : ScanState LoopWalk}
    (listsAll : 2 ≤ limits.maxItems) (here : LoopAt k s) (unread : d.Unread)
    (placed : ordinal 2 d.id = k + 1) (within : k + 1 ≤ limits.maxDirs) (room : k + 3 < idRange) :
    RunsTo (readDir loopWalker limits 2 d) s fun d' s' =>
      d'.name = d.name ∧ d'.id = d.id ∧ s'.walker = s.walker ∧ s'.chain.length = k + 1 ∧
      if limits.repeatDepth ≤ k then
        d'.dirs = [] ∧ d'.size = 0 ∧ s'.stats = { directories := k + 1, files := k, bytes := k, pruned := 1 }
      else
        d'.dirs = [{ name := "again", id := k + 2 }] ∧ d'.size = 1 ∧ s'.ids = ⟨k + 3⟩ ∧
          s'.stats = { directories := k + 1, files := k + 1, bytes := k + 1 } ∧
          ∀ level ∈ s'.chain, level.digest = some loopDigest ∧ level.items = 2 := by
  have listedRun : (listChildren loopWalker limits).run { s with batchStart := s.ids.next } =
      .ok ([.dir "again", .file "data" 1], { s with batchStart := s.ids.next }) := by
    rw [run_listChildren, loopWalker_list _ (show 2 ≤ limits.maxItems + 1 by omega)]
    simp [List.take_of_length_le (show [Item.dir "again", .file "data" 1].length ≤ limits.maxItems from listsAll), show ¬limits.maxItems < 2 by omega]
  have ordered := orderChildren_loop unread (show k + 2 + 1 < idRange by omega)
  simp only [DirEntry.withListing] at ordered
  obtain ⟨top, up, chain⟩ := List.exists_cons_of_length_eq_add_one here.depth
  -- with the listing recorded, every level of the chain holds it
  have recorded : ∀ level ∈ ({ top with digest := some loopDigest, items := 2 } :: up),
      level.digest = some loopDigest ∧ level.items = 2 := by
    intro level member
    rcases List.mem_cons.mp member with rfl | above
    · exact ⟨rfl, rfl⟩
    · exact here.above level (by rw [chain]; exact above)
  have upper : up.length = k := by
    have depth := here.depth
    rw [chain, List.length_cons] at depth
    omega
  have repeats := @Level.chainRepeats_loop limits _ recorded
  rw [List.length_cons, Nat.add_sub_cancel, upper] at repeats
  unfold readDir RunsTo
  rw [run_modify_bind, if_neg (by omega), run_bind_of_eq_ok listedRun, run_get_bind]
  dsimp only
  rw [here.ids, ordered, run_checked_ok_bind, run_modify_bind]
  dsimp only
  rw [show sumWithin sizeRange (([{ name := "data", size := 1, fid := 1 }] : List FileEntry).map (·.size)) =
      .ok 1 from rfl, run_checked_ok_bind,
    run_bind_of_eq_ok (run_recordListing _ _)]
  dsimp only
  rw [chain]
  dsimp only
  rw [childDigest_loop, StateT.run_bind, run_pruneIfRepeats]
  by_cases deep : limits.repeatDepth ≤ k
  · -- From the repeat depth on, the directory is emptied and counts no byte.
    have found : Level.chainRepeats limits.recursionThreshold
        ({ top with digest := some loopDigest, items := 2 } :: up) = true := repeats.mpr deep
    rw [if_pos found, except_ok_bind, run_get_bind]
    dsimp only
    rw [addWithin_eq_ok (show s.stats.bytes + 0 < sizeRange by rw [here.stats]; have := idRange_lt_sizeRange; show k + 0 < sizeRange; omega),
      run_checked_ok_bind, run_count_bind]
    refine ⟨_, _, rfl, rfl, rfl, rfl, by simp [upper], ?_⟩
    rw [if_pos deep]
    refine ⟨rfl, rfl, ?_⟩
    rw [here.stats]
    rfl
  · have fresh : Level.chainRepeats limits.recursionThreshold
        ({ top with digest := some loopDigest, items := 2 } :: up) = false := by
      rw [Bool.eq_false_iff]
      exact fun found => deep (repeats.mp found)
    rw [if_neg (by simp [fresh]), except_ok_bind, run_get_bind]
    dsimp only
    rw [addWithin_eq_ok (show s.stats.bytes + 1 < sizeRange by rw [here.stats]; have := idRange_lt_sizeRange; show k + 1 < sizeRange; omega),
      run_checked_ok_bind, run_count_bind]
    refine ⟨_, _, rfl, rfl, rfl, rfl, by simp [upper], ?_⟩
    rw [if_neg deep]
    refine ⟨rfl, rfl, rfl, ?_, recorded⟩
    rw [here.stats]
    rfl

/-- A directory past `maxDirs` is left unread and counted as truncated. -/
theorem run_readDir_past {σ : Type} {walker : Walker σ} {limits : Limits} {firstFresh : Nat}
    {d : DirEntry} (s : ScanState σ) (past : limits.maxDirs < ordinal firstFresh d.id) :
    (readDir walker limits firstFresh d).run s =
      .ok (d, { s with batchStart := s.ids.next,
                       stats := { s.stats with truncated := s.stats.truncated + 1 } }) := by
  unfold readDir
  rw [run_modify_bind, if_pos past, run_count_bind]
  rfl

/-- The walker of the endless tree moves back up from every level below the top. -/
theorem leaveChild_loop (path : String) (s : ScanState LoopWalk) {k deepest : Nat}
    (below : s.walker = ⟨k + 1, deepest⟩) :
    (leaveChild loopWalker path).run s =
      .ok ((), { s with walker := ⟨k, deepest⟩, chain := s.chain.tail }) := by
  unfold leaveChild
  rw [run_get_bind, below, loopWalker_leave]
  rfl

/-- The directory at depth `k` of the endless tree takes the id `k + 1`, which is
also its place in the order of ids. -/
theorem ordinal_loop {k : Nat} : ordinal 2 (k + 1) = k + 1 := by
  unfold ordinal
  split <;> omega

/-- At the cut the directory is left unread or pruned: either way it ends with no child
and no size, the walker where it stood, and the statistics of the whole scan. -/
theorem readDir_atCut {limits : Limits} {k : Nat} {d : DirEntry} {s : ScanState LoopWalk}
    (listsAll : 2 ≤ limits.maxItems) (shallow : limits.repeatDepth + 3 < idRange)
    (atCut : k + 0 = limits.loopCut) (here : LoopAt k s) (unread : d.Unread) (named : d.id = k + 1)
    (empty : d.size = 0) :
    RunsTo (readDir loopWalker limits 2 d) s fun d₁ s₁ =>
      d₁.name = d.name ∧ d₁.id = d.id ∧ d₁.dirs = [] ∧ d₁.size = 0 ∧ s₁.walker = s.walker ∧
        s₁.stats = limits.loopStats := by
  have placed : ordinal 2 d.id = k + 1 := by rw [named, ordinal_loop]
  unfold Limits.loopCut at atCut
  by_cases past : limits.maxDirs < k + 1
  · refine .of_run_eq (run_readDir_past s (by rw [placed]; exact past))
      ⟨rfl, rfl, unread.noDirs, empty, rfl, ?_⟩
    rw [Limits.loopStats, if_neg (by omega), here.stats, show limits.maxDirs = k by omega]
  · refine (readDir_loop listsAll here unread placed (by omega) (by omega)).imp
      fun d₁ s₁ read₁ => ?_
    obtain ⟨nameEq, idEq, walkerEq, _, post⟩ := read₁
    rw [if_pos (by omega)] at post
    obtain ⟨noDirs, noSize, stats⟩ := post
    refine ⟨nameEq, idEq, noDirs, noSize, walkerEq, ?_⟩
    rw [stats, Limits.loopStats, if_pos (by omega), show limits.repeatDepth = k by omega]

/-- The run lemma: the scan of the endless tree from the directory at depth `k`,
`j` levels above the cut. It reads the directories down to the cut, keeping the
`j` below `d` one inside the other, and the walker comes back to depth `k`. -/
theorem visit_loop {limits : Limits} (listsAll : 2 ≤ limits.maxItems)
    (shallow : limits.repeatDepth + 3 < idRange) :
    ∀ (j : Nat) {k fuel : Nat} {path : String} {d : DirEntry} {s : ScanState LoopWalk},
      k + j = limits.loopCut → j < fuel → LoopAt k s → d.Unread → d.id = k + 1 → d.size = 0 →
      RunsTo (visit loopWalker limits 2 fuel path none d) s fun d' s' =>
        d'.name = d.name ∧ d'.id = d.id ∧ d'.size = j ∧ d'.Strand j ∧ LoopDone limits k s' := by
  intro j
  induction j with
  | zero =>
    intro k fuel path d s atCut fueled here unread named empty
    obtain ⟨fuel, rfl⟩ : ∃ f, fuel = f + 1 := ⟨fuel - 1, by omega⟩
    rw [visit]
    refine (readDir_atCut listsAll shallow atCut here unread named empty).bind
      fun d₁ s₁ read₁ => ?_
    obtain ⟨nameEq, idEq, noDirs, noSize, walkerEq, statsEq⟩ := read₁
    refine .bind_of_run_eq (run_merge_none _ _ _) ?_
    refine .bind_of_run_eq (run_dumpAll _ _) ?_
    rw [noDirs]
    refine .bind_of_run_eq rfl ?_
    have sized : addWithin sizeRange d₁.size ((([] : List DirEntry).map (·.size)).foldl (· + ·) 0) = .ok 0 := by
      rw [noSize]
      rfl
    refine .bind_of_run_eq (show (checked .size _ : ScanM LoopWalk Nat).run _ = _ by rw [sized]; rfl) ?_
    refine (runsTo_close path _ _ _ _).imp fun d' s' closed => ?_
    obtain ⟨rfl, walker', -, stats', -⟩ := closed
    refine ⟨nameEq, idEq, rfl, rfl, ⟨?_, stats'.trans statsEq⟩⟩
    rw [walker', walkerEq, here.walker, ← atCut, Nat.add_zero]
  | succ j inductionHypothesis =>
    intro k fuel path d s atCut fueled here unread named empty
    obtain ⟨fuel, rfl⟩ : ∃ f, fuel = f + 1 := ⟨fuel - 1, by omega⟩
    have placed : ordinal 2 d.id = k + 1 := by rw [named, ordinal_loop]
    have cut := atCut
    unfold Limits.loopCut at cut
    -- Above the cut the directory is read and kept with its one child.
    rw [visit]
    refine (readDir_loop listsAll here unread placed (by omega) (by omega)).bind
      fun d₁ s₁ read₁ => ?_
    obtain ⟨nameEq, idEq, walkerEq, depth₁, post⟩ := read₁
    rw [if_neg (by omega)] at post
    obtain ⟨dirs₁, size₁, ids₁, stats₁, recorded₁⟩ := post
    refine .bind_of_run_eq (run_merge_none _ _ _) ?_
    refine .bind_of_run_eq (run_dumpAll _ _) ?_
    -- enter the one child, scan it and come back up, inside the rest of the scan
    rw [dirs₁, enterAll]
    simp only [bind_assoc]
    refine .bind_of_run_eq (run_get _) ?_
    dsimp only
    rw [walkerEq, here.walker, loopWalker_enter]
    simp only [bind_assoc]
    refine .bind_of_run_eq (run_set _ _) ?_
    refine (@inductionHypothesis (k + 1) fuel _ _ _ (by omega) (by omega) ?_ ⟨rfl, rfl, rfl⟩ rfl rfl).bind
      fun c s₂ below => ?_
    · -- one level down, below levels that all recorded the listing
      exact ⟨rfl, ids₁, stats₁, by simp [depth₁], recorded₁⟩
    obtain ⟨_, childId, childSize, strand, done⟩ := below
    refine .bind_of_run_eq (leaveChild_loop _ _ done.walker) ?_
    -- no other child, and the one scanned is all the directory holds
    refine .bind_of_run_eq rfl ?_
    refine .bind_of_run_eq rfl ?_
    have sized : addWithin sizeRange d₁.size (([c].map (·.size)).foldl (· + ·) 0) = .ok (j + 1) := by
      rw [size₁, List.map_singleton, List.foldl_cons, List.foldl_nil, childSize,
        addWithin_eq_ok (by have := idRange_lt_sizeRange; omega)]
      congr 1
      omega
    refine .bind_of_run_eq (show (checked .size _ : ScanM LoopWalk Nat).run _ = _ by rw [sized]; rfl) ?_
    refine (runsTo_close path _ _ _ _).imp fun d' s' closed => ?_
    obtain ⟨rfl, walker', -, stats', -⟩ := closed
    refine ⟨nameEq, idEq, rfl, ⟨c, rfl, ?_, strand⟩, ⟨walker', stats'.trans done.stats⟩⟩
    rw [childId, idEq, named]

end Scan

/-! ### The whole scan -/

/-- The scan of the endless tree from its root goes on, under limits that read a
listing whole and a 32-bit threshold. It builds a strand down to the cut, numbered on
from the root's id, and ends with the walker back at the root, having been down to
the cut. -/
theorem run_loop {limits : Limits} (listsAll : 2 ≤ limits.maxItems)
    (threshold : limits.recursionThreshold < idRange) (name : String) :
    ∃ scan, Scan.run loopWalker limits {} (DirEntry.root name) none IdSupply.fresh = .ok scan ∧
      scan.tree.Strand limits.loopCut ∧ scan.tree.name = name ∧ scan.tree.id = rootId ∧
      scan.walker = ⟨0, limits.loopCut⟩ ∧ scan.stats = limits.loopStats := by
  have shallow : limits.repeatDepth + 3 < idRange := by
    have : idRange = 4294967296 := rfl
    unfold Limits.repeatDepth
    omega
  have fueled : limits.loopCut < Scan.depthBudget none := by
    show limits.loopCut < idRange + 0 + 2
    unfold Limits.loopCut
    omega
  have steps : Scan.RunsTo (do
      Scan.openRoot (DirEntry.root name) none
      Scan.dumpAll [(DirEntry.root name).declaration none (DirEntry.root name).name]
      let d ← Scan.visit loopWalker limits IdSupply.fresh.next (Scan.depthBudget none)
        (DirEntry.root name).name none (DirEntry.root name)
      Scan.closeRoot d none
      Scan.dumpAll [d.entryLine none 0]
      pure d : ScanM LoopWalk DirEntry)
      { walker := {}, ids := IdSupply.fresh, batchStart := IdSupply.fresh.next,
        chain := [{ id := (DirEntry.root name).id, path := (DirEntry.root name).name,
                    announced := (none : Option DirEntry).isNone }] }
      fun d' s' => d'.Strand limits.loopCut ∧ d'.name = name ∧ d'.id = rootId ∧
        Scan.LoopDone limits 0 s' := by
    refine .bind_of_run_eq (Scan.run_emit _ _) ?_
    refine .bind_of_run_eq (Scan.run_dumpAll _ _) ?_
    refine (@Scan.visit_loop limits listsAll shallow limits.loopCut 0 _ _ (DirEntry.root name) _
      (Nat.zero_add _) fueled ?_ ⟨rfl, rfl, rfl⟩ rfl rfl).bind fun d' s' below => ?_
    · -- at the root, nothing read yet
      exact ⟨rfl, rfl, rfl, rfl, fun _ member => by cases member⟩
    obtain ⟨named, rooted, _, strand, done⟩ := below
    refine .bind_of_run_eq (Scan.run_emit _ _) ?_
    refine .bind_of_run_eq (Scan.run_dumpAll _ _) ?_
    exact .of_run_eq rfl ⟨strand, named, rooted, done.walker, done.stats⟩
  obtain ⟨tree, s', ran, strand, named, rooted, done⟩ := steps
  refine ⟨⟨tree, s'.stats, s'.patch.toList, s'.dump.toList, s'.walker⟩, ?_, strand, named, rooted,
    done.walker, done.stats⟩
  unfold Scan.run
  dsimp only
  rw [ran]
  rfl

/-- The reverse inventory of the endless tree is the dump of a replayable tree that
a reader holds whole, `loopCut` directories below the root, with the largest id
`loopCut + 1`. -/
theorem inventory_loop {limits : Limits} (listsAll : 2 ≤ limits.maxItems)
    (threshold : limits.recursionThreshold < idRange) {name : String}
    (nameNoBreak : '\n' ∉ name.toList) :
    ∃ T : DirEntry, inventory loopWalker limits {} .reverse (DirEntry.root name) none =
        .ok ⟨T.dumpText, limits.loopStats, ⟨0, limits.loopCut⟩⟩ ∧
      T.Replayable ∧ T.breadth = limits.loopCut ∧ T.largestId = limits.loopCut + 1 := by
  obtain ⟨scan, ran, strand, -, rooted, walkerEq, statsEq⟩ := run_loop listsAll threshold name
  have replayable := run_fresh_replayable loopWalker_plainNames ran nameNoBreak trivial
  refine ⟨scan.tree, ?_, replayable, strand.breadth, ?_⟩
  · rw [inventory_reverse_of_run ran, statsEq, walkerEq]
  · rw [strand.largestId, rooted, Nat.add_comm]
    rfl

/-- Where a scan cuts the endless tree. For every limits that read a listing whole
and every 32-bit recursion threshold, the reverse inventory of the endless tree, from
a root whose name holds no line break, succeeds. The walker went down
`min maxDirs repeatDepth` levels. When `repeatDepth + 1 ≤ maxDirs` the directory at
the repeat depth is pruned and nothing is cut short; otherwise the directory at depth
`maxDirs` is entered but left unread. `min maxDirs (repeatDepth + 1)` directories are
read. The dump reads back, with the largest id `min maxDirs repeatDepth + 1`, exactly
when the reader's table holds the `1 + min maxDirs repeatDepth` directories the dump
declares before it places any; the reader over the store then reads it back alike,
whatever its random source, unless it gives up on its store, and past that capacity
it refuses the dump too. -/
theorem loop_scan_cut {limits : Limits} (listsAll : 2 ≤ limits.maxItems)
    (threshold : limits.recursionThreshold < idRange) {name : String}
    (nameNoBreak : '\n' ∉ name.toList) :
    ∃ r, inventory loopWalker limits {} .reverse (DirEntry.root name) none = .ok r ∧
      r.walker.deepest = min limits.maxDirs limits.repeatDepth ∧
      (limits.repeatDepth + 1 ≤ limits.maxDirs → r.stats.pruned = 1 ∧ r.stats.truncated = 0) ∧
      (limits.maxDirs < limits.repeatDepth + 1 → r.stats.pruned = 0 ∧ r.stats.truncated = 1) ∧
      r.stats.directories = min limits.maxDirs (limits.repeatDepth + 1) ∧
      ((∃ S, Snapshot.read r.output.toUTF8.toList = .ok S ∧
          S.maxId = min limits.maxDirs limits.repeatDepth + 1) ↔
        1 + min limits.maxDirs limits.repeatDepth < IdTable.limit) ∧
      (1 + min limits.maxDirs limits.repeatDepth < IdTable.limit → ∀ rng,
        (∃ S, (Snapshot.readStored rng r.output.toUTF8.toList).1 = .ok S ∧
            S.maxId = min limits.maxDirs limits.repeatDepth + 1) ∨
          Snapshot.GaveUp (Snapshot.readStored rng r.output.toUTF8.toList)) ∧
      ∀ rng S, (Snapshot.readStored rng r.output.toUTF8.toList).1 = .ok S →
        1 + min limits.maxDirs limits.repeatDepth < IdTable.limit := by
  obtain ⟨T, ran, replayable, breadth, largest⟩ := inventory_loop listsAll threshold nameNoBreak
  -- the reader holds the whole strand at once, root included
  have fits : ∀ S, Snapshot.read T.dumpText.toUTF8.toList = .ok S → 1 + limits.loopCut < IdTable.limit := by
    intro S read
    refine Nat.lt_of_not_le fun full => ?_
    obtain ⟨err, failed⟩ := Snapshot.read_dumpText_error replayable (by rw [breadth]; exact full)
    rw [failed] at read
    cases read
  refine ⟨_, ran, rfl, fun deep => ?_, fun short => ?_, ?_, ?_, fun room rng => ?_,
    fun rng S stored => fits S (Snapshot.read_of_readStored stored)⟩
  · show limits.loopStats.pruned = 1 ∧ limits.loopStats.truncated = 0
    rw [Limits.loopStats, if_pos deep]
    exact ⟨rfl, rfl⟩
  · show limits.loopStats.pruned = 0 ∧ limits.loopStats.truncated = 1
    rw [Limits.loopStats, if_neg (by omega)]
    exact ⟨rfl, rfl⟩
  · show limits.loopStats.directories = _
    unfold Limits.loopStats
    split
    · next deep =>
      show limits.repeatDepth + 1 = _
      omega
    · next short =>
      show limits.maxDirs = _
      omega
  · show (∃ S, Snapshot.read T.dumpText.toUTF8.toList = .ok S ∧ S.maxId = limits.loopCut + 1) ↔
      1 + limits.loopCut < IdTable.limit
    constructor
    · rintro ⟨S, read, -⟩
      exact fits S read
    · intro room
      exact ⟨_, Snapshot.read_dumpText replayable (by rw [breadth]; exact room), largest⟩
  · have read := Snapshot.read_dumpText replayable (by rw [breadth]; exact room)
    rcases Snapshot.readStored_of_read read rng with same | gaveUp
    · exact .inl ⟨_, same, largest⟩
    · exact .inr gaveUp

/-- With the default limits the scan of the endless tree `loop` goes three levels
down, prunes the directory there after reading four, and its dump reads back with
the largest id 4, into the table and, unless it gives up, into the store. -/
theorem default_loop_scan :
    ∃ r, inventory loopWalker {} {} .reverse (DirEntry.root "loop") none = .ok r ∧
      r.walker.deepest = 3 ∧ r.stats.pruned = 1 ∧ r.stats.truncated = 0 ∧ r.stats.directories = 4 ∧
      (∃ S, Snapshot.read r.output.toUTF8.toList = .ok S ∧ S.maxId = 4) ∧
      ∀ rng, (∃ S, (Snapshot.readStored rng r.output.toUTF8.toList).1 = .ok S ∧ S.maxId = 4) ∨
        Snapshot.GaveUp (Snapshot.readStored rng r.output.toUTF8.toList) := by
  obtain ⟨r, ran, deepest, pruning, -, directories, readBack, storedBack, -⟩ :=
    @loop_scan_cut {} (by decide) (by decide) "loop" (by decide)
  have repeat3 : ({} : Limits).repeatDepth = 3 := rfl
  have within : ({} : Limits).repeatDepth + 1 ≤ ({} : Limits).maxDirs := by decide
  rw [repeat3] at deepest directories readBack storedBack
  obtain ⟨pruned, unshort⟩ := pruning within
  exact ⟨r, ran, deepest, pruned, unshort, directories, readBack.mpr (by decide),
    storedBack (by decide)⟩

/-- Limits under which the repeat and the last directory read both lie `2 ^ 30`
levels down the endless tree. -/
def deepLoopLimits : Limits := { maxDirs := Nat.pow 2 30, recursionThreshold := Nat.pow 2 31 - 1 }

/-- Under `deepLoopLimits` the scan of the endless tree stops `2 ^ 30` levels down,
so its dump declares `2 ^ 30 + 1` directories before it places any, one more than the
reader's table holds: the dump does not read back, into the table nor into the store. -/
theorem deep_loop_unreadable :
    ∃ r, inventory loopWalker deepLoopLimits {} .reverse (DirEntry.root "loop") none = .ok r ∧
      (∃ err, Snapshot.read r.output.toUTF8.toList = .error err) ∧
      ∀ rng, ∃ err, (Snapshot.readStored rng r.output.toUTF8.toList).1 = .error err := by
  obtain ⟨T, ran, replayable, breadth, -⟩ :=
    @inventory_loop deepLoopLimits (by decide) (by decide) "loop" (by decide)
  obtain ⟨err, failed⟩ := Snapshot.read_dumpText_error replayable (by rw [breadth]; decide)
  exact ⟨_, ran, ⟨err, failed⟩, Snapshot.readStored_error_of_read failed⟩

/-- The endless tree under a root whose name breaks the line. The scan goes three
levels down and prunes there, as under any other name, but the name breaks the root's
declaration in two, and the reader stops at the second half, `b`, a kind that names no
record. -/
theorem broken_root_loop_unreadable :
    ∃ r, inventory loopWalker {} {} .reverse (DirEntry.root "a\nb") none = .ok r ∧
      r.walker.deepest = 3 ∧ r.stats.pruned = 1 ∧ r.stats.truncated = 0 ∧
      r.stats.directories = 4 ∧
      Snapshot.read r.output.toUTF8.toList = .error (.parse 2 (.unknownKind "b")) := by
  obtain ⟨scan, ran, -, named, rooted, walkerEq, statsEq⟩ :=
    @run_loop {} (by decide) (by decide) "a\nb"
  refine ⟨_, inventory_reverse_of_run ran, by rw [walkerEq]; rfl, by rw [statsEq]; rfl,
    by rw [statsEq]; rfl, by rw [statsEq]; rfl, ?_⟩
  -- the dump opens with the root's declaration, `0 1 a` and `b` once cut at the break
  have declared : Wire.lineBytes (scan.tree.declaration none scan.tree.name) =
      [48, 32, 49, 32, 97, 10, 98, 10] := by
    rw [DirEntry.declaration, named, rooted]
    decide +kernel
  have cut : ∀ rest, Snapshot.splitLines ([48, 32, 49, 32, 97, 10, 98, 10] ++ rest) =
      [48, 32, 49, 32, 97, 10] :: [98, 10] :: Snapshot.splitLines rest := by
    intro rest
    show Snapshot.splitLines ([48, 32, 49, 32, 97] ++ 10 :: ([98] ++ 10 :: rest)) =
      ([48, 32, 49, 32, 97] ++ [10]) :: ([98] ++ [10]) :: Snapshot.splitLines rest
    rw [Snapshot.splitLines_append_newline (by decide), Snapshot.splitLines_append_newline (by decide)]
  have opened : (({} : Snapshot.Progress).readLine 1 [48, 32, 49, 32, 97, 10]).toOption.any
      (fun _ => true) = true := by
    decide +kernel
  obtain ⟨q, first, -⟩ := Scan.exists_ok_of_toOption_any opened
  -- the second half fails whatever the reader holds
  have stopped : q.readLine 2 [98, 10] = .error (.parse 2 (.unknownKind "b")) := by
    have decoded : Text.decodeStrict? [98, 10] = some "b\n" := by decide +kernel
    unfold Snapshot.Progress.readLine
    rw [decoded]
    rfl
  apply Snapshot.read_eq_error_of_readLines
  rw [DirEntry.dumpText, DirEntry.replay, Wire.toList_toUTF8_text, List.cons_append,
    List.flatMap_cons, declared, cut, Snapshot.Progress.readLines_cons_ok first,
    Snapshot.Progress.readLines_cons_error stopped]

end TreeDump
