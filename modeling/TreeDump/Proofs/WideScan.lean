import Mathlib
import TreeDump.Walkers.Memory
import TreeDump.Proofs.Numbering
import TreeDump.Proofs.FirstDiff
import TreeDump.Proofs.InStep
import TreeDump.Proofs.Roundtrip
import TreeDump.Proofs.NextSnapshot
import TreeDump.Proofs.SelfDiff

/-!
Scanning a tree of fans.

A fan is a directory over `n` directories of one name that all refuse to be
entered; the tree `MemNode.fans k n` is a root over `k` fans of one name. Its
scan can be followed step by step for every `k` and `n` without evaluating it,
which is how facts about trees far too large to run are proved.

Owns: the numbering of a listing of directories of one name; reading a directory
that lists only such directories; the scan of a fan and of the tree of fans; and
the size of that tree, the most directories its dump holds open, and its largest
id.

Main statement (`run_fans`): under limits that read every listing whole and find
no repeat (`n` below the recursion threshold), the fresh scan of the tree of fans
succeeds whenever its ids fit in 32 bits, and builds a root over `k` directories
each over `n` unread directories. With `k = 65534` and `n = 65536` the ids of that
tree reach `2 ^ 32 - 2 ^ 16 - 1`, and a diff against the snapshot of its own dump
runs out of ids numbering a fan (`fans_self_diff_overflows`).

Why it goes through: the walker moves into the first fan every time, since all
fans have one name, and refuses every directory below it. A chain of two levels
repeats only where the nearer level counts at least the threshold of children,
so no fan is pruned, whatever the fingerprints of the listings are.
-/

namespace TreeDump

/-! ### The tree of fans -/

namespace MemNode

/-- A directory named `b` that refuses to be entered. -/
def closed : MemNode := .dir "b" [] true false

/-- A directory named `a` over `n` closed directories. -/
def fan (n : Nat) : MemNode := .dir "a" (List.replicate n closed) false false

/-- A root named `r` over `k` fans of `n` closed directories each. -/
def fans (k n : Nat) : MemNode := .dir "r" (List.replicate k (fan n)) false false

theorem fans_follow_first {k n : Nat} (some : 0 < k) : (fans k n).follow [0] = fan n := by
  obtain ⟨k, rfl⟩ : ∃ j, k = j + 1 := ⟨k - 1, by omega⟩
  rfl

theorem closed_follow : ∀ path : List Nat, closed.follow path = closed
  | [] => rfl
  | _ :: _ => rfl

/-- Every directory of the tree of fans is its root, a fan or a closed directory. -/
theorem fans_follow (k n : Nat) : ∀ path : List Nat,
    (fans k n).follow path = fans k n ∨ (fans k n).follow path = fan n ∨ (fans k n).follow path = closed
  | [] => .inl rfl
  | i :: is => by
      by_cases inRoot : i < k
      · have fanFollow : ∀ path : List Nat, (fan n).follow path = fan n ∨ (fan n).follow path = closed
          | [] => .inl rfl
          | j :: js => by
              by_cases inFan : j < n
              · simp [follow, fan, children, inFan, closed_follow]
              · simp [follow, fan, children, inFan]
        simp only [follow, fans, children, List.getElem?_replicate, if_pos inRoot]
        exact .inr (fanFollow is)
      · simp [follow, fans, children, inRoot]

/-- No name in the tree of fans holds a line break. -/
theorem fans_plainBelow (k n : Nat) : (fans k n).PlainBelow := by
  intro path child member
  rcases fans_follow k n path with atRoot | atFan | atClosed
  · rw [atRoot] at member
    rw [List.eq_of_mem_replicate member]
    show '\n' ∉ "a".toList
    decide
  · rw [atFan] at member
    rw [List.eq_of_mem_replicate member]
    show '\n' ∉ "b".toList
    decide
  · rw [atClosed] at member
    cases member

end MemNode

namespace MemWalk

variable {k n : Nat} {w : MemWalk}

/-- At the root of the tree of fans the walker lists `k` directories named `a`
and moves into the first of them. -/
theorem list_fans_root (root : w.root = .fans k n) (top : w.position = []) (m : Nat) :
    memWalker.list w m = ({ w with listed := w.listed ++ [[]] }, (List.replicate k (Item.dir "a")).take m) := by
  simp [memWalker, current, root, top, MemNode.follow, MemNode.fans, MemNode.children,
    List.map_replicate, MemNode.item, MemNode.fan]

theorem enter_fans_root (root : w.root = .fans k n) (top : w.position = []) (some : 0 < k) :
    memWalker.enter w "a" = .some { w with position := [0] } := by
  obtain ⟨k, rfl⟩ : ∃ j, k = j + 1 := ⟨k - 1, by omega⟩
  simp [memWalker, current, root, top, MemNode.follow, MemNode.fans, MemNode.children,
    List.replicate_succ, findChild, MemNode.enterable?, MemNode.fan]

/-- In the first fan the walker lists `n` directories named `b`, is refused each
of them, and moves back up to the root. -/
theorem list_fan (root : w.root = .fans k n) (first : w.position = [0]) (some : 0 < k) (m : Nat) :
    memWalker.list w m = ({ w with listed := w.listed ++ [[0]] }, (List.replicate n (Item.dir "b")).take m) := by
  simp [memWalker, current, root, first, MemNode.fans_follow_first some, MemNode.fan, MemNode.children,
    List.map_replicate, MemNode.item, MemNode.closed]

theorem enter_fan (root : w.root = .fans k n) (first : w.position = [0]) (some : 0 < k) :
    memWalker.enter w "b" = none := by
  cases n with
  | zero => simp [memWalker, current, root, first, MemNode.fans_follow_first some, MemNode.fan,
      MemNode.children, findChild]
  | succ n => simp [memWalker, current, root, first, MemNode.fans_follow_first some, MemNode.fan,
      MemNode.children, List.replicate_succ, findChild, MemNode.enterable?, MemNode.closed]

theorem leave_fan (root : w.root = .fans k n) (first : w.position = [0]) (some : 0 < k) :
    memWalker.leave w = .ok { w with position := [] } := by
  simp [memWalker, current, root, first, MemNode.fans_follow_first some, MemNode.fan]

end MemWalk

/-! ### Listings of one name -/

/-- `j` unread directories named `x`, at positions `fid, fid + 1, …` with ids
`next, next + 1, …`: a listing of `j` directories of one name, numbered. -/
def DirEntry.uniform (x : String) (fid next j : Nat) : List DirEntry :=
  (List.range j).map fun i => { name := x, fid := (fid + i) % idRange, id := next + i }

theorem numberDirs_replicate (x : String) :
    ∀ {j fid next : Nat}, next + j < idRange →
      numberDirs (List.replicate j { name := x }) fid ⟨next⟩ =
        .ok (DirEntry.uniform x fid next j, ⟨next + j⟩) := by
  intro j
  induction j with
  | zero => intro fid next _; rfl
  | succ j inductionHypothesis =>
      intro fid next room
      have taken : IdSupply.take ⟨next⟩ = .ok (next, ⟨next + 1⟩) := by
        simp [IdSupply.take, addWithin_eq_ok (show next + 1 < idRange by omega), Except.map]
      rw [List.replicate_succ, numberDirs, taken]
      simp only [bind, Except.bind]
      rw [inductionHypothesis (by omega)]
      simp only [pure, Except.pure, Except.ok.injEq, Prod.mk.injEq, IdSupply.mk.injEq]
      refine ⟨?_, by omega⟩
      rw [DirEntry.uniform, DirEntry.uniform, List.range_succ_eq_map, List.map_cons, List.map_map]
      congr 1
      refine List.map_congr_left fun i _ => ?_
      simp only [Function.comp_apply, Nat.succ_eq_add_one, Nat.add_right_comm _ 1 i, Nat.add_assoc]

/-- A listing of directories of one name is already in order, so numbering it is
all that ordering does. -/
theorem orderChildren_replicate {d : DirEntry} {x : String} {j : Nat} {ids : IdSupply} (unread : d.Unread)
    (room : ids.next + j < idRange) :
    (d.withListing (List.replicate j (.dir x))).orderChildren ids =
      .ok ({ d with dirs := DirEntry.uniform x 0 ids.next j, items := j % idRange }, ⟨ids.next + j⟩) := by
  obtain ⟨next⟩ := ids
  have sorted : (List.replicate j ({ name := x } : DirEntry)).mergeSort DirEntry.nameLe =
      List.replicate j { name := x } :=
    List.mergeSort_of_pairwise (List.pairwise_replicate.mpr (.inr (by simp [DirEntry.nameLe])))
  simp [DirEntry.withListing, DirEntry.orderChildren, unread.noDirs, unread.noFiles,
    List.filterMap_replicate, Scan.Item.dirEntry?, Scan.Item.fileEntry?, sorted,
    numberDirs_replicate x room, numberFiles, bind, Except.bind, pure, Except.pure, DirEntry.uniform]

/-! ### Runs that go on -/

namespace Scan

variable {σ α β : Type} {walker : Walker σ}

/-- The step `x`, run from `t`, goes on, with no error, to a result and a state
that satisfy `Q`. -/
def RunsTo (x : ScanM σ α) (t : ScanState σ) (Q : α → ScanState σ → Prop) : Prop :=
  ∃ a t', x.run t = .ok (a, t') ∧ Q a t'

theorem RunsTo.of_run_eq {x : ScanM σ α} {t t' : ScanState σ} {a : α} {Q : α → ScanState σ → Prop}
    (ran : x.run t = .ok (a, t')) (holds : Q a t') : RunsTo x t Q :=
  ⟨a, t', ran, holds⟩

theorem RunsTo.imp {x : ScanM σ α} {t : ScanState σ} {R Q : α → ScanState σ → Prop}
    (ran : RunsTo x t R) (weaker : ∀ a t', R a t' → Q a t') : RunsTo x t Q := by
  obtain ⟨a, t', run, holds⟩ := ran
  exact ⟨a, t', run, weaker a t' holds⟩

/-- A first step that goes on, followed by steps that go on from wherever it ends. -/
theorem RunsTo.bind {x : ScanM σ α} {f : α → ScanM σ β} {t : ScanState σ}
    {R : α → ScanState σ → Prop} {Q : β → ScanState σ → Prop} (first : RunsTo x t R)
    (rest : ∀ a t₁, R a t₁ → RunsTo (f a) t₁ Q) : RunsTo (x >>= f) t Q := by
  obtain ⟨a, t₁, ran, holds⟩ := first
  unfold RunsTo
  rw [run_bind_of_eq_ok ran]
  exact rest a t₁ holds

theorem RunsTo.bind_of_run_eq {x : ScanM σ α} {f : α → ScanM σ β} {t t₁ : ScanState σ} {a : α}
    {Q : β → ScanState σ → Prop} (first : x.run t = .ok (a, t₁)) (rest : RunsTo (f a) t₁ Q) :
    RunsTo (x >>= f) t Q := by
  unfold RunsTo
  rw [run_bind_of_eq_ok first]
  exact rest

/-- A step that stops with no error goes on from every state. -/
theorem Throws.runsTo {x : ScanM σ α} (never : Throws (fun _ => False) x) (t : ScanState σ) :
    RunsTo x t fun _ _ => True := by
  cases ran : x.run t with
  | error e => exact (never t e ran).elim
  | ok p => exact ⟨p.1, p.2, ran, trivial⟩

/-! ### Reading a listing of one name -/

theorem run_pruneIfRepeats_fresh {limits : Limits} {d : DirEntry} {s : ScanState σ}
    (fresh : Level.chainRepeats limits.recursionThreshold s.chain = false) :
    (pruneIfRepeats limits d).run s = .ok (d, s) := by
  rw [run_pruneIfRepeats, fresh]
  rfl

/-- Reading an unread directory whose whole listing is `j` directories of one
name goes on when the directory is within `maxDirs`, the supply has room for `j`
ids, the count of bytes is within its word and the chain, with the listing
recorded, does not repeat. The directory takes the `j` directories numbered from
the supply and no size; the walker is the listing's, the supply moves over `j`
ids, and the chain keeps its length. -/
theorem readDir_replicate {limits : Limits} {firstFresh : Nat} {d : DirEntry} {s : ScanState σ}
    {x : String} {j : Nat} (unread : d.Unread) (within : ordinal firstFresh d.id ≤ limits.maxDirs)
    (listed : (walker.list s.walker (limits.maxItems + 1)).2 = List.replicate j (.dir x))
    (whole : j ≤ limits.maxItems) (room : s.ids.next + j < idRange)
    (bytes : s.stats.bytes < sizeRange)
    (fresh : ∀ digest, Level.chainRepeats limits.recursionThreshold
      (Level.setTop (fun level => { level with digest, items := j % idRange }) s.chain) = false) :
    RunsTo (readDir walker limits firstFresh d) s fun d₁ s₁ =>
      d₁.name = d.name ∧ d₁.size = 0 ∧ d₁.dirs = DirEntry.uniform x 0 s.ids.next j ∧
      s₁.walker = (walker.list s.walker (limits.maxItems + 1)).1 ∧ s₁.ids = ⟨s.ids.next + j⟩ ∧
      s₁.stats.bytes = s.stats.bytes ∧ s₁.chain.length = s.chain.length := by
  have listedRun : (listChildren walker limits).run { s with batchStart := s.ids.next } =
      .ok (List.replicate j (.dir x),
        { s with batchStart := s.ids.next, walker := (walker.list s.walker (limits.maxItems + 1)).1 }) := by
    rw [run_listChildren]
    simp [listed, List.take_replicate, Nat.min_eq_right whole, Nat.not_lt.mpr whole]
  have ordered := orderChildren_replicate (x := x) unread room
  simp only [DirEntry.withListing] at ordered
  unfold readDir RunsTo
  rw [run_modify_bind, if_neg (Nat.not_lt.mpr within), run_bind_of_eq_ok listedRun, run_get_bind]
  dsimp only
  rw [ordered, run_checked_ok_bind, run_modify_bind]
  dsimp only
  have summed : sumWithin sizeRange (d.files.map (·.size)) = .ok 0 := by
    rw [unread.noFiles]
    rfl
  rw [summed, run_checked_ok_bind, run_bind_of_eq_ok (run_recordListing _ _)]
  dsimp only
  rw [run_bind_of_eq_ok (run_pruneIfRepeats_fresh (by rw [setTop_eq_match]; exact fresh _)), run_get_bind]
  dsimp only
  rw [addWithin_eq_ok (show s.stats.bytes + 0 < sizeRange by omega), run_checked_ok_bind, run_count_bind]
  refine ⟨_, _, rfl, rfl, rfl, rfl, rfl, rfl, rfl, ?_⟩
  cases s.chain <;> rfl

/-! ### Steps that always go on -/

/-- Comparing the children goes on from every state; it writes only the patch and
names levels of the chain. -/
theorem runsTo_compareChildren (path : String) (d : DirEntry) (cs : List DirEntry)
    (pending before : List (Option DirEntry)) (t : ScanState σ) :
    RunsTo (compareChildren path d cs pending before) t fun _ t' =>
      t'.walker = t.walker ∧ t'.ids = t.ids ∧ t'.stats = t.stats ∧ t'.chain.length = t.chain.length := by
  obtain ⟨⟨⟩, t', ran, -⟩ := (throws_compareChildren path d cs pending before).runsTo t
  obtain ⟨walker', ids', -, -, stats'⟩ := keeps_compareChildren path d cs pending before t () t' ran
  have shown : t'.chain.map LevelView.key.view = t.chain.map LevelView.key.view :=
    chainShows_compareChildren LevelView.key path d cs pending before t () t' ran rfl
  refine ⟨(), t', ran, walker', ids', stats', ?_⟩
  simpa using congrArg List.length shown

/-- Children the walker refuses to enter stay as listed, each counted as skipped,
and nothing else changes. -/
theorem run_enterAll_refused
    {visitChild : String → Option DirEntry → DirEntry → ScanM σ DirEntry} {path parentName : String} :
    ∀ {cs : List DirEntry} {s : ScanState σ}, (∀ c ∈ cs, walker.enter s.walker c.name = none) →
      (enterAll walker visitChild path parentName cs (cs.map fun _ => none)).run s =
        .ok ((cs, cs.map fun _ => none),
          { s with stats := { s.stats with skipped := s.stats.skipped + cs.length } }) := by
  intro cs
  induction cs with
  | nil => intro s _; rfl
  | cons c cs inductionHypothesis =>
      intro s refused
      rw [enterAll]
      dsimp only
      rw [run_get_bind, refused c List.mem_cons_self, run_count_bind, List.map_cons, List.tail_cons]
      have rest := inductionHypothesis (s := { s with stats := { s.stats with skipped := s.stats.skipped + 1 } })
        fun c' member => refused c' (List.mem_cons_of_mem c member)
      rw [run_bind_of_eq_ok rest, List.length_cons, ← Nat.add_assoc, Nat.add_right_comm _ cs.length 1]
      rfl

/-- After the children of `d` are scanned, a scan compares them, writes the entries
of the child directories to the dump and returns `d`. This goes on from every
state, and keeps the walker, the supply, the statistics and the chain's length. -/
theorem runsTo_close (path : String) (d : DirEntry) (pending baselines : List (Option DirEntry))
    (t : ScanState σ) :
    RunsTo (do
        compareChildren path d d.dirs pending baselines
        dumpAll (d.closingLines none)
        pure d) t fun d' t' =>
      d' = d ∧ t'.walker = t.walker ∧ t'.ids = t.ids ∧ t'.stats = t.stats ∧
        t'.chain.length = t.chain.length := by
  refine (runsTo_compareChildren path d d.dirs pending baselines t).bind
    fun _ t₁ compared => ?_
  obtain ⟨walker₁, ids₁, stats₁, depth₁⟩ := compared
  refine .bind_of_run_eq (run_dumpAll _ _) ?_
  exact .of_run_eq rfl ⟨rfl, walker₁, ids₁, stats₁, depth₁⟩

end Scan

theorem DirEntry.mem_uniform {x : String} {fid next j : Nat} {c : DirEntry}
    (member : c ∈ DirEntry.uniform x fid next j) :
    c.name = x ∧ c.Unread ∧ c.size = 0 ∧ next ≤ c.id ∧ c.id < next + j := by
  obtain ⟨i, listed, rfl⟩ := List.mem_map.mp member
  have := List.mem_range.mp listed
  exact ⟨rfl, ⟨rfl, rfl, rfl⟩, rfl, by dsimp only; omega, by dsimp only; omega⟩

theorem DirEntry.length_uniform (x : String) (fid next j : Nat) :
    (DirEntry.uniform x fid next j).length = j := by
  simp [DirEntry.uniform]

/-- Directories of no size add up to no size. -/
theorem foldl_sizes_eq_zero : ∀ {cs : List DirEntry}, (∀ c ∈ cs, c.size = 0) →
    (cs.map (·.size)).foldl (· + ·) 0 = 0
  | [], _ => rfl
  | c :: cs, noSize => by
      rw [List.map_cons, List.foldl_cons, noSize c List.mem_cons_self]
      exact foldl_sizes_eq_zero fun c' member => noSize c' (List.mem_cons_of_mem c member)

/-! ### Chains of the tree of fans -/

/-- A chain of one level never repeats: nothing above it could be repeated. -/
theorem Level.chainRepeats_single (threshold : Nat) (level : Level) :
    Level.chainRepeats threshold [level] = false := rfl

/-- A chain of two levels repeats only where the nearer level counts at least the
threshold of children, whatever the fingerprints of the two listings. -/
theorem Level.chainRepeats_pair {threshold : Nat} {near far : Level} (fewer : near.items < threshold) :
    Level.chainRepeats threshold [near, far] = false := by
  have once : (List.range ([near, far].length - 1)) = [0] := rfl
  rw [Level.chainRepeats, once, List.any_cons, List.any_nil, Bool.or_false, List.drop_one, List.tail_cons,
    Level.repeats]
  split
  · -- Equal fingerprints still leave the nearer level short of the threshold, and
    -- nothing lies above the farther one.
    rw [if_neg (show ¬threshold ≤ 0 + near.items by omega)]
    split <;> rfl
  · rfl

/-! ### Scanning a fan -/

/-- Limits under which a scan of the tree of `k` fans of `n` reads every listing
whole, reaches every fan within `maxDirs`, and finds no repeat. -/
structure Limits.ReadsFans (limits : Limits) (k n : Nat) : Prop where
  rootWhole : k ≤ limits.maxItems
  fanWhole : n ≤ limits.maxItems
  fansWithin : k + 1 ≤ limits.maxDirs
  noRepeat : n < limits.recursionThreshold

/-- A fan as a scan reads it: no size, and `n` unread directories below it. -/
structure DirEntry.ReadFan (n : Nat) (d : DirEntry) : Prop where
  noSize : d.size = 0
  count : d.dirs.length = n
  below : ∀ c ∈ d.dirs, c.Unread

namespace Scan

/-- Where a scan of the tree of `k` fans of `n` stands between its steps: the
walker in that tree at `here`, the supply at `next`, no byte counted, and `depth`
levels in the chain. -/
structure FansAt (k n : Nat) (here : List Nat) (next depth : Nat) (s : ScanState MemWalk) : Prop where
  root : s.walker.root = .fans k n
  position : s.walker.position = here
  ids : s.ids = ⟨next⟩
  bytes : s.stats.bytes = 0
  depth : s.chain.length = depth

variable {limits : Limits} {k n : Nat}

/-- Scanning the first fan, entered from the root, reads its `n` directories with
the next `n` ids, is refused each of them and counts no byte; the walker stays in
the fan. -/
theorem visit_fan {next fuel : Nat} {path : String} {d : DirEntry} {s : ScanState MemWalk}
    (reads : limits.ReadsFans k n) (some : 0 < k) (unread : d.Unread)
    (within : ordinal 2 d.id ≤ limits.maxDirs) (inFan : FansAt k n [0] next 2 s)
    (room : next + n < idRange) :
    RunsTo (visit memWalker limits 2 (fuel + 1) path none d) s fun d' s' =>
      d'.ReadFan n ∧ FansAt k n [0] (next + n) 2 s' := by
  have listed : (memWalker.list s.walker (limits.maxItems + 1)).2 = List.replicate n (.dir "b") := by
    rw [MemWalk.list_fan inFan.root inFan.position some, List.take_replicate,
      Nat.min_eq_right (by have := reads.fanWhole; omega)]
  obtain ⟨near, far, chain⟩ := List.length_eq_two.mp inFan.depth
  have fresh : ∀ digest, Level.chainRepeats limits.recursionThreshold
      (Level.setTop (fun level => { level with digest, items := n % idRange }) s.chain) = false := by
    intro digest
    rw [chain]
    exact Level.chainRepeats_pair (show n % idRange < limits.recursionThreshold by
      rw [Nat.mod_eq_of_lt (by omega)]
      exact reads.noRepeat)
  rw [visit]
  refine (readDir_replicate unread within listed reads.fanWhole (by rw [inFan.ids]; exact room)
    (by rw [inFan.bytes]; decide) fresh).bind fun d₁ s₁ read₁ => ?_
  obtain ⟨_, size₁, dirs₁, walker₁, ids₁, bytes₁, depth₁⟩ := read₁
  have inFan₁ : s₁.walker.root = .fans k n ∧ s₁.walker.position = [0] := by
    rw [walker₁, MemWalk.list_fan inFan.root inFan.position some]
    exact ⟨inFan.root, inFan.position⟩
  have leaves : ∀ c ∈ d₁.dirs, c.name = "b" ∧ c.Unread ∧ c.size = 0 := fun c member => by
    rw [dirs₁] at member
    obtain ⟨named, unreadLeaf, noSize, -⟩ := DirEntry.mem_uniform member
    exact ⟨named, unreadLeaf, noSize⟩
  refine .bind_of_run_eq (run_merge_none _ _ _) ?_
  refine .bind_of_run_eq (run_dumpAll _ _) ?_
  -- The walker refuses every directory of the fan.
  refine .bind_of_run_eq (run_enterAll_refused fun c member => ?_) ?_
  · rw [(leaves c member).1]
    exact MemWalk.enter_fan inFan₁.1 inFan₁.2 some
  have sized : addWithin sizeRange d₁.size ((d₁.dirs.map (·.size)).foldl (· + ·) 0) = .ok 0 := by
    rw [size₁, foldl_sizes_eq_zero fun c member => (leaves c member).2.2]
    rfl
  refine .bind_of_run_eq (show (checked .size _ : ScanM MemWalk Nat).run _ = _ by rw [sized]; rfl) ?_
  refine (runsTo_close path _ _ _ _).imp fun d' s' closed => ?_
  obtain ⟨rfl, walker', ids', stats', depth'⟩ := closed
  refine ⟨⟨rfl, by rw [dirs₁, DirEntry.length_uniform], fun c member => (leaves c member).2.1⟩, ?_⟩
  refine ⟨by rw [walker']; exact inFan₁.1, by rw [walker']; exact inFan₁.2, ?_, ?_, ?_⟩
  · rw [ids', ids₁, inFan.ids]
  · rw [stats']
    exact bytes₁.trans inFan.bytes
  · rw [depth']
    exact depth₁.trans inFan.depth

/-- Entering the fans that the root lists, one after another: the walker moves
into the first fan every time, scans it, and moves back up to the root, so that
each fan takes the next `n` ids. -/
theorem enterAll_fans {fuel : Nat} {path name : String} (reads : limits.ReadsFans k n) (some : 0 < k) :
    ∀ {cs : List DirEntry} {next : Nat} {s : ScanState MemWalk},
      (∀ c ∈ cs, c.name = "a" ∧ c.Unread ∧ ordinal 2 c.id ≤ limits.maxDirs) →
      FansAt k n [] next 1 s → next + cs.length * n < idRange →
      RunsTo (enterAll memWalker (visit memWalker limits 2 (fuel + 1)) path name cs
          (cs.map fun _ => none)) s fun result s' =>
        result.1.length = cs.length ∧ (∀ c ∈ result.1, c.ReadFan n) ∧
          result.2 = cs.map (fun _ => none) ∧ FansAt k n [] (next + cs.length * n) 1 s' := by
  intro cs
  induction cs with
  | nil =>
      intro next s _ atRoot _
      exact .of_run_eq rfl ⟨rfl, by simp, rfl, by simpa using atRoot⟩
  | cons c cs inductionHypothesis =>
      intro next s children atRoot room
      obtain ⟨named, unread, within⟩ := children c List.mem_cons_self
      have fanRoom : next + n < idRange := by
        have : n ≤ (cs.length + 1) * n := Nat.le_mul_of_pos_left n (Nat.succ_pos _)
        simp only [List.length_cons] at room
        omega
      rw [enterAll]
      refine .bind_of_run_eq (run_get s) ?_
      dsimp only
      rw [named, MemWalk.enter_fans_root atRoot.root atRoot.position some]
      dsimp only
      refine .bind_of_run_eq (run_set _ _) ?_
      -- In the fan, one level deeper.
      have inFan : FansAt k n [0] next 2
          { s with walker := { s.walker with position := [0] },
                   chain := { id := c.id, path := Wire.childPath path name "a", announced := true } :: s.chain } :=
        ⟨atRoot.root, rfl, atRoot.ids, atRoot.bytes, by simp [atRoot.depth]⟩
      refine (visit_fan reads some unread within inFan fanRoom).bind fun c' s₁ scanned => ?_
      obtain ⟨fanRead, inFan₁⟩ := scanned
      have left : (leaveChild memWalker (Wire.childPath path name "a")).run s₁ =
          .ok ((), { s₁ with walker := { s₁.walker with position := [] }, chain := s₁.chain.tail }) := by
        rw [run_leaveChild, MemWalk.leave_fan inFan₁.root inFan₁.position some]
      refine .bind_of_run_eq left ?_
      -- Back at the root, with the next fans to enter.
      have atRoot₁ : FansAt k n [] (next + n) 1
          { s₁ with walker := { s₁.walker with position := [] }, chain := s₁.chain.tail } :=
        ⟨inFan₁.root, rfl, inFan₁.ids, inFan₁.bytes, by simp [inFan₁.depth]⟩
      have restRoom : next + n + cs.length * n < idRange := by
        simp only [List.length_cons, Nat.add_mul, Nat.one_mul] at room
        omega
      refine (inductionHypothesis (fun c' member => children c' (List.mem_cons_of_mem c member))
        atRoot₁ restRoom).bind fun result s₂ entered => ?_
      obtain ⟨count, fans, pending, atRoot₂⟩ := entered
      have ids : next + n + cs.length * n = next + (c :: cs).length * n := by
        simp only [List.length_cons, Nat.add_mul, Nat.one_mul]
        omega
      refine .of_run_eq rfl ⟨by simp [count], ?_, by simp [pending], ?_⟩
      · intro c'' member
        rcases List.mem_cons.mp member with rfl | member
        · exact fanRead
        · exact fans c'' member
      · rw [← ids]
        exact atRoot₂

/-- Scanning the root of the tree of fans reads its `k` fans with the ids
`2, …, k + 1` and scans each of them in turn. -/
theorem visit_fans {fuel : Nat} {name : String} {s : ScanState MemWalk} (reads : limits.ReadsFans k n)
    (some : 0 < k) (atRoot : FansAt k n [] 2 1 s) (room : 2 + k + k * n < idRange) :
    RunsTo (visit memWalker limits 2 (fuel + 2) name none (DirEntry.root name)) s fun d' _ =>
      d'.dirs.length = k ∧ ∀ c ∈ d'.dirs, c.ReadFan n := by
  have listed : (memWalker.list s.walker (limits.maxItems + 1)).2 = List.replicate k (.dir "a") := by
    rw [MemWalk.list_fans_root atRoot.root atRoot.position, List.take_replicate,
      Nat.min_eq_right (by have := reads.rootWhole; omega)]
  obtain ⟨top, chain⟩ := List.length_eq_one_iff.mp atRoot.depth
  have fresh : ∀ digest, Level.chainRepeats limits.recursionThreshold
      (Level.setTop (fun level => { level with digest, items := k % idRange }) s.chain) = false := by
    intro digest
    rw [chain]
    exact Level.chainRepeats_single _ _
  have within : ordinal 2 (DirEntry.root name).id ≤ limits.maxDirs := by
    have := reads.fansWithin
    simp [ordinal, DirEntry.root, rootId]
    omega
  rw [visit]
  refine (readDir_replicate ⟨rfl, rfl, rfl⟩ within listed reads.rootWhole
    (by rw [atRoot.ids]; show 2 + k < idRange; omega) (by rw [atRoot.bytes]; decide) fresh).bind
    fun d₁ s₁ read₁ => ?_
  obtain ⟨_, size₁, dirs₁, walker₁, ids₁, bytes₁, depth₁⟩ := read₁
  refine .bind_of_run_eq (run_merge_none _ _ _) ?_
  refine .bind_of_run_eq (run_dumpAll _ _) ?_
  -- The fans are listed with the ids `2, …, k + 1`, all within `maxDirs`.
  have fans : ∀ c ∈ d₁.dirs, c.name = "a" ∧ c.Unread ∧ ordinal 2 c.id ≤ limits.maxDirs := by
    intro c member
    rw [dirs₁, atRoot.ids] at member
    obtain ⟨named, unread, -, low, high⟩ := DirEntry.mem_uniform member
    dsimp only at low high
    have := reads.fansWithin
    refine ⟨named, unread, ?_⟩
    simp only [ordinal, if_pos low]
    omega
  have atRoot₁ : FansAt k n [] (2 + k) 1 s₁ := by
    refine ⟨?_, ?_, by rw [ids₁, atRoot.ids], bytes₁.trans atRoot.bytes, depth₁.trans atRoot.depth⟩
    · rw [walker₁, MemWalk.list_fans_root atRoot.root atRoot.position]
      exact atRoot.root
    · rw [walker₁, MemWalk.list_fans_root atRoot.root atRoot.position]
      exact atRoot.position
  have count : d₁.dirs.length = k := by rw [dirs₁, DirEntry.length_uniform]
  refine (enterAll_fans reads some fans ?_ (by rw [count]; omega)).bind fun result s₂ entered => ?_
  · -- Writing the patch and the dump moved nothing the scan of the fans reads.
    exact ⟨atRoot₁.root, atRoot₁.position, atRoot₁.ids, atRoot₁.bytes, atRoot₁.depth⟩
  obtain ⟨entered, read, -, -⟩ := entered
  have sized : addWithin sizeRange d₁.size ((result.1.map (·.size)).foldl (· + ·) 0) = .ok 0 := by
    rw [size₁, foldl_sizes_eq_zero fun c member => (read c member).noSize]
    rfl
  refine .bind_of_run_eq (show (checked .size _ : ScanM MemWalk Nat).run _ = _ by rw [sized]; rfl) ?_
  refine (runsTo_close name _ _ _ _).imp fun d' s' closed => ?_
  obtain ⟨rfl, -⟩ := closed
  exact ⟨entered.trans count, read⟩

end Scan

/-! ### The tree that a scan of fans builds -/

namespace DirEntry

variable {k n : Nat} {d : DirEntry}

theorem ReadFan.allDirs_length (fan : d.ReadFan n) : d.allDirs.length = n + 1 := by
  have leaves : d.dirs.flatMap allDirs = d.dirs := by
    rw [List.flatMap_congr fun c child => (fan.below c child).allDirs]
    exact List.flatMap_singleton' _
  rw [allDirs_eq, List.length_cons, leaves, fan.count]

theorem ReadFan.breadth_eq (fan : d.ReadFan n) : d.breadth = n := by
  have flat : (d.dirs.map breadth).foldr max 0 = 0 := by
    refine Nat.eq_zero_of_not_pos fun positive => ?_
    obtain ⟨c, child, deeper⟩ := exists_lt_of_lt_foldr_max positive
    rw [DirEntry.breadth_eq, (fan.below c child).noDirs] at deeper
    exact absurd deeper (show ¬0 < 0 + 0 by decide)
  rw [DirEntry.breadth_eq, flat, fan.count, Nat.add_zero]

/-- A root over `k` fans of `n` holds `1 + k * (n + 1)` directories. -/
theorem length_allDirs_of_fans (count : d.dirs.length = k) (fans : ∀ c ∈ d.dirs, c.ReadFan n) :
    d.allDirs.length = 1 + k * (n + 1) := by
  rw [allDirs_eq, List.length_cons, List.length_flatMap,
    List.map_congr_left fun c child => (fans c child).allDirs_length, List.map_const',
    List.sum_replicate, count, smul_eq_mul]
  omega

/-- The dump of a root over `k` fans of `n` holds at most `k + n` directories
declared and not yet placed: the root's `k` children and one fan's. -/
theorem breadth_le_of_fans (count : d.dirs.length = k) (fans : ∀ c ∈ d.dirs, c.ReadFan n) :
    d.breadth ≤ k + n := by
  have widest : (d.dirs.map breadth).foldr max 0 ≤ n := Nat.le_of_not_lt fun above => by
    obtain ⟨c, child, wider⟩ := exists_lt_of_lt_foldr_max above
    rw [(fans c child).breadth_eq] at wider
    exact Nat.lt_irrefl n wider
  rw [DirEntry.breadth_eq, count]
  omega

end DirEntry

/-- The fresh scan of the tree of `k` fans of `n`, under limits that read its
listings whole and find no repeat, goes on whenever its ids fit in 32 bits. It
builds a root over `k` directories, each over `n` unread directories. -/
theorem run_fans {limits : Limits} {k n : Nat} (name : String) (reads : limits.ReadsFans k n)
    (some : 0 < k) (room : 2 + k + k * n < idRange) :
    ∃ scan, Scan.run memWalker limits { root := .fans k n } (DirEntry.root name) none IdSupply.fresh =
        .ok scan ∧ scan.tree.dirs.length = k ∧ ∀ c ∈ scan.tree.dirs, c.ReadFan n := by
  have steps : Scan.RunsTo (do
      Scan.openRoot (DirEntry.root name) none
      Scan.dumpAll [(DirEntry.root name).declaration none (DirEntry.root name).name]
      let d ← Scan.visit memWalker limits IdSupply.fresh.next (Scan.depthBudget none) (DirEntry.root name).name
        none (DirEntry.root name)
      Scan.closeRoot d none
      Scan.dumpAll [d.entryLine none 0]
      pure d : ScanM MemWalk DirEntry)
      { walker := { root := .fans k n }, ids := IdSupply.fresh, batchStart := IdSupply.fresh.next,
        chain := [{ id := (DirEntry.root name).id, path := (DirEntry.root name).name,
                    announced := (none : Option DirEntry).isNone }] }
      fun d' _ => d'.dirs.length = k ∧ ∀ c ∈ d'.dirs, c.ReadFan n := by
    refine .bind_of_run_eq (Scan.run_emit _ _) ?_
    refine .bind_of_run_eq (Scan.run_dumpAll _ _) ?_
    refine (Scan.visit_fans reads some ⟨rfl, rfl, rfl, rfl, rfl⟩ room).bind fun d' s' fans => ?_
    refine .bind_of_run_eq (Scan.run_emit _ _) ?_
    refine .bind_of_run_eq (Scan.run_dumpAll _ _) ?_
    exact .of_run_eq rfl fans
  obtain ⟨tree, s', ran, fans⟩ := steps
  exact ⟨⟨tree, s'.stats, s'.patch.toList, s'.dump.toList, s'.walker⟩, by
    unfold Scan.run
    dsimp only
    rw [ran]
    rfl, fans⟩

/-! ### A self-diff that runs out of ids -/

/-- A tree with distinct positive directory ids holds no more directories than its
largest id. -/
theorem DirEntry.length_allDirs_le_largestId {d : DirEntry} (replayable : d.Replayable) :
    d.allDirs.length ≤ d.largestId := by
  have within : d.allDirs.map (·.id) ⊆ List.range' 1 d.largestId := by
    intro id member
    obtain ⟨x, inside, rfl⟩ := List.mem_map.mp member
    have positive := (replayable.sound x inside).idPos
    have atMost := DirEntry.id_le_largestId d inside
    rw [List.mem_range'_1]
    omega
  simpa using (List.subperm_of_subset replayable.idsNodup within).length_le

/-- Limits that read the root over 65534 fans of 65536 directories whole. -/
def fanLimits : Limits := { maxItems := Nat.pow 2 17, recursionThreshold := Nat.pow 2 17 }

theorem fanLimits_readsFans : fanLimits.ReadsFans 65534 65536 where
  rootWhole := by decide
  fanWhole := by decide
  fansWithin := by decide
  noRepeat := by decide

/-- The diff of the root over 65534 fans of 65536 directories against the snapshot
of its own reverse inventory stops on the id counter. The inventory holds
`1 + 65534 * 65537 = 2 ^ 32 - 2 ^ 16 - 1` directories with distinct ids, so the diff
hands out ids from `2 ^ 32 - 2 ^ 16` on, and the first fan's listing of `2 ^ 16`
directories needs one past the last 32-bit value. -/
theorem fans_self_diff_overflows :
    ∃ r S, inventory memWalker fanLimits { root := .fans 65534 65536 } .reverse (DirEntry.root "r") none =
        .ok r ∧ Snapshot.read r.output.toUTF8.toList = .ok S ∧
      inventory memWalker fanLimits { root := .fans 65534 65536 } .diff (DirEntry.root "r") (some S) =
        .error (.overflow .nextId) := by
  obtain ⟨scan, ran, count, fans⟩ := run_fans "r" fanLimits_readsFans (by decide) (by decide)
  have replayable := run_fresh_replayable memWalker_plainNames ran (by decide) (MemNode.fans_plainBelow _ _)
  have reversed : inventory memWalker fanLimits { root := .fans 65534 65536 } .reverse (DirEntry.root "r") none =
      .ok ⟨Wire.text scan.dump, scan.stats, scan.walker⟩ := by
    unfold inventory
    rw [ran]
    rfl
  have dumped : Wire.text scan.dump = scan.tree.dumpText := by
    rw [Scan.run_dump ran rfl rfl]
    rfl
  -- The reader holds at most the root's fans and one fan's directories at once.
  have room : 1 + scan.tree.breadth < IdTable.limit := by
    have := DirEntry.breadth_le_of_fans count fans
    have : 1 + (65534 + 65536) < IdTable.limit := by decide
    omega
  have accepted := Snapshot.read_dumpText replayable room
  rw [← dumped] at accepted
  -- Distinct ids for `1 + 65534 * 65537` directories reach that far.
  have many : 1 + 65534 * (65536 + 1) ≤ scan.tree.largestId := by
    rw [← DirEntry.length_allDirs_of_fans count fans]
    exact DirEntry.length_allDirs_le_largestId replayable
  have fits := Scan.run_largestId_fits ran
  have after : IdSupply.after scan.tree.largestId = .ok ⟨max scan.tree.largestId rootId + 1⟩ := by
    have : max scan.tree.largestId rootId + 1 < idRange := by
      have : rootId + 1 < idRange := by decide
      omega
    simp [IdSupply.after, addWithin, this, Except.map]
  have below : ∀ x ∈ scan.tree.allDirs, x.id < max scan.tree.largestId rootId + 1 := fun x member => by
    have := DirEntry.id_le_largestId scan.tree member
    omega
  -- The first fan has no room for its directories' ids.
  have noRoom : ¬scan.tree.NumbersFrom (max scan.tree.largestId rootId + 1) := by
    intro numbers
    obtain ⟨fan, member⟩ := List.exists_mem_of_length_pos (show 0 < scan.tree.dirs.length by rw [count]; decide)
    have fanCount := (fans fan member).count
    have inTree : fan ∈ scan.tree.allDirs := by
      rw [DirEntry.allDirs_eq]
      exact List.mem_cons_of_mem _ (DirEntry.mem_flatMap_allDirs_of_mem member)
    rcases numbers fan inTree with empty | short
    · rw [empty] at fanCount
      cases fanCount
    · have : idRange ≤ 2 + 65534 * (65536 + 1) + 65536 := by decide
      omega
  refine ⟨_, _, reversed, accepted, ?_⟩
  rcases Scan.run_quietly ran below with ⟨-, numbers⟩ | overflow
  · exact absurd numbers noRoom
  · exact inventory_diff_of_run_error after overflow

end TreeDump
