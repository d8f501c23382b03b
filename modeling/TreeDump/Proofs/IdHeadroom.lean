import Mathlib
import TreeDump.Inventory
import TreeDump.Proofs.InStep
import TreeDump.Proofs.SelfDiff

/-!
Room in the id counter of a diff.

A diff hands out fresh ids after the largest id of the previous snapshot. It reads a
directory by numbering every child directory of the listing from fresh ids, and only
then carries the snapshot's ids back and rewinds the counter to where the listing
started (`merge`). So the counter climbs past the ids the diff keeps, and a diff can
run out of ids although every directory it keeps is carried.

Owns: `MemNode.walkDirs`, the child directories a walk of the in-memory walker meets
below a directory, counted each time a listing names them; the errors of the id
counter (`ScanError.IdOverflow`); and `Headroom`, what a step of the scan below the
directory at a position promises when the counter has room.

Main statement (`diff_id_counter_room`): a diff stops on its first fresh id when the
snapshot's largest id leaves no 32-bit id after it; and it never stops on the id
counter when the counter has room, after the first fresh id, for every child
directory the walk meets.

Why it holds: reading a directory moves the counter up by the child directories its
listing names, merging moves it back to at most that, and each child the walker moves
into moves it by at most what the walk meets below that child; so the counter never
passes its start plus `walkDirs` of the root.
-/

namespace TreeDump

namespace MemNode

mutual

/-- The child directories a walk of the in-memory walker meets below `node`: each
child directory the listing names, and below each name the walker moves into (the
first child directory of that name, unless it refuses) what the walk meets there.
The scan's limits only cut this short; a name that two child directories share is
met twice, below the first of them both times. -/
def walkDirs : MemNode → Nat
  | .dir name children refuseEnter refuseLeave =>
    let below := walksOf children
    ((MemNode.dir name children refuseEnter refuseLeave).dirNames.map fun n =>
      1 + match (MemNode.dir name children refuseEnter refuseLeave).enteredAt n with
        | some i => below.getD i 0
        | none => 0).sum
  | .file _ _ => 0

/-- `walkDirs` of each node of a list. -/
def walksOf : List MemNode → List Nat
  | [] => []
  | c :: cs => c.walkDirs :: walksOf cs

end

/-- What the walk meets below the child directory the walker moves into by the name
`n`, if it moves into one. -/
def enteredWalk (node : MemNode) (n : String) : Nat :=
  match node.enteredAt n with
  | some i => (node.children[i]?.map walkDirs).getD 0
  | none => 0

example : (MemNode.dir "r" [.dir "a" [.dir "x" [] false false] false false,
    .dir "a" [] false false, .file "f" 3] false false).walkDirs = 4 := by decide

theorem walksOf_eq (cs : List MemNode) : walksOf cs = cs.map walkDirs := by
  induction cs with
  | nil => rfl
  | cons c cs inductionHypothesis => rw [walksOf, inductionHypothesis, List.map_cons]

/-- The walk meets each child directory the listing names, and what it meets below
the child the walker moves into by that name. -/
theorem walkDirs_eq (node : MemNode) :
    node.walkDirs = (node.dirNames.map fun n => 1 + node.enteredWalk n).sum := by
  cases node with
  | dir name children refuseEnter refuseLeave =>
      simp only [walkDirs, walksOf_eq, enteredWalk]
      congr 2
      funext n
      split <;> simp [List.getD_eq_getElem?_getD, List.getElem?_map, MemNode.children]
  | file name size => rfl

theorem enteredWalk_of_enteredAt {node child : MemNode} {n : String} {i : Nat}
    (entered : node.enteredAt n = some i) (located : node.children[i]? = some child) :
    node.enteredWalk n = child.walkDirs := by
  simp only [enteredWalk, entered, located, Option.map_some, Option.getD_some]

/-- A listing that names some of the child directories, each at most as often as
the node has it, meets no more, with what lies below them, than the walk does. -/
theorem length_add_sum_le_walkDirs {node : MemNode} {names : List String}
    (listed : names.Subperm node.dirNames) :
    names.length + (names.map node.enteredWalk).sum ≤ node.walkDirs := by
  obtain ⟨common, perm, sub⟩ := listed
  have spread : (names.map fun n => 1 + node.enteredWalk n).sum =
      names.length + (names.map node.enteredWalk).sum := by
    simp [List.sum_map_add]
  rw [← spread, walkDirs_eq, ← (perm.map _).sum_eq]
  exact (sub.map _).sum_le_sum fun _ _ => Nat.zero_le _

end MemNode

/-- The errors of the id counter: no first fresh id after the previous snapshot's
ids, or no next fresh id. -/
def ScanError.IdOverflow (e : ScanError) : Prop :=
  e = .overflow .firstId ∨ e = .overflow .nextId

/-- The in-memory walker stands at position `p` of `T`. -/
structure MemWalk.At (T : MemNode) (p : List Nat) (w : MemWalk) : Prop where
  root : w.root = T
  position : w.position = p

theorem MemWalk.At.current {T : MemNode} {p : List Nat} {w : MemWalk} (stands : w.At T p) :
    w.current = T.follow p := by
  rw [MemWalk.current, stands.root, stands.position]

/-! ### Numbering from the counter -/

/-- Numbering stops only when the counter has no room for one id per directory. -/
theorem numberDirs_eq_error {fid : Nat} {ids : IdSupply} {o : Overflow} :
    ∀ {ds : List DirEntry}, numberDirs ds fid ids = .error o → idRange ≤ ids.next + ds.length := by
  intro ds
  induction ds generalizing fid ids with
  | nil => intro h; cases h
  | cons d ds inductionHypothesis =>
      intro h
      unfold numberDirs IdSupply.take at h
      by_cases room : ids.next + 1 < idRange
      · simp only [addWithin_eq_ok room, Except.map, bind, Except.bind] at h
        cases tail : numberDirs ds (fid + 1) ⟨ids.next + 1⟩ with
        | error o' =>
            have short := inductionHypothesis tail
            simp only [List.length_cons] at short ⊢
            omega
        | ok r => simp [tail, pure, Except.pure] at h
      · simp only [List.length_cons]
        omega

theorem orderChildren_eq_error {d : DirEntry} {ids : IdSupply} {o : Overflow}
    (h : d.orderChildren ids = .error o) : idRange ≤ ids.next + d.dirs.length := by
  unfold DirEntry.orderChildren at h
  cases numbered : numberDirs (d.dirs.mergeSort DirEntry.nameLe) 0 ids with
  | error o' =>
      have short := numberDirs_eq_error numbered
      rwa [List.length_mergeSort] at short
  | ok r => simp [numbered, bind, Except.bind, pure, Except.pure] at h

namespace Scan

variable {σ α β : Type} {walker : Walker σ}

theorem run_checked_eq_error {counter : Counter} {x : Except Overflow α} {s : ScanState σ}
    {e : ScanError} (h : (checked counter x : ScanM σ α).run s = .error e) :
    e = .overflow counter ∧ ∃ o, x = .error o := by
  cases x with
  | error o =>
      cases h
      exact ⟨rfl, o, rfl⟩
  | ok a => cases h

/-- Reading a directory stops on the id counter only when the counter has no room
for the child directories the listing names. -/
theorem readDir_fits {limits : Limits} {firstFresh : Nat} {d : DirEntry} {s : ScanState σ}
    (noDirs : d.dirs = [])
    (room : s.ids.next + ((walker.kept limits s.walker).filterMap Item.dirEntry?).length < idRange) :
    ∀ e, (readDir walker limits firstFresh d).run s = .error e → ¬ e.IdOverflow := by
  intro e h
  unfold readDir at h
  rw [run_modify_bind] at h
  split at h
  · -- Past `maxDirs`: nothing can fail.
    rw [run_count_bind] at h
    cases h
  · rw [run_bind_of_eq_ok (run_listChildren walker limits _), run_get_bind, run_bind_eq_error] at h
    rcases h with failed | ⟨numbered, s₁, -, h⟩
    · -- The numbering has room for every child directory listed.
      obtain ⟨rfl, o, failed⟩ := run_checked_eq_error failed
      have short := orderChildren_eq_error failed
      simp only [noDirs, List.nil_append] at short
      exact absurd room (Nat.not_lt.mpr short)
    · refine (?_ : Throws (fun e => ¬ ScanError.IdOverflow e) _) s₁ e h
      refine (throws_modify _).bind fun _ => ?_
      refine (throws_checked (by simp [ScanError.IdOverflow]) _).bind fun size => ?_
      refine (throws_modify _).bind fun _ => ?_
      refine (throws_pruneIfRepeats limits _).bind fun d => ?_
      refine throws_get.bind fun s => ?_
      refine (throws_checked (by simp [ScanError.IdOverflow]) _).bind fun bytes => ?_
      exact (throws_modify _).bind fun _ => Throws.pure _

/-- Reading a directory that holds nothing yet names child directories of its
listing, each at most as often as the listing does. -/
theorem readDir_names {limits : Limits} {firstFresh : Nat} {d d₁ : DirEntry} {s s₁ : ScanState σ}
    (h : (readDir walker limits firstFresh d).run s = .ok (d₁, s₁)) (noDirs : d.dirs = []) :
    (d₁.dirs.map (·.name)).Subperm (((walker.kept limits s.walker).filterMap Item.dirEntry?).map (·.name)) := by
  obtain ⟨-, -, -, outcome⟩ := readDir_eq_ok h
  rcases outcome with ⟨-, rfl, -⟩ | ⟨-, -, -, ordered, ids, size, orderedEq, -, kept⟩
  · rw [noDirs]
    exact List.nil_subperm
  · have names : (ordered.dirs.map (·.name)).Subperm
        (((walker.kept limits s.walker).filterMap Item.dirEntry?).map (·.name)) := by
      obtain ⟨-, -, -, -, shape, -⟩ := orderChildren_eq_ok orderedEq
      have sameNames : ordered.dirs.map (·.name) = ((d.withListing (walker.kept limits s.walker)).dirs.mergeSort
          DirEntry.nameLe).map (·.name) := by
        simpa [List.map_map, Function.comp_def] using congrArg (List.map DirEntry.name) shape
      rw [sameNames]
      refine ((List.mergeSort_perm _ _).map _).subperm.trans ?_
      rw [DirEntry.withListing]
      dsimp only
      rw [noDirs, List.nil_append]
    -- A pruned directory names no child directory at all.
    rcases kept with ⟨-, rfl, -⟩ | ⟨-, rfl, -⟩
    · exact names
    · exact List.nil_subperm

/-- Merging the pairs of child directories, with room in the counter for a fresh id
for each live child, never stops. -/
theorem mergeDirs_ne_error {path : String} {d : DirEntry} {e : ScanError} :
    ∀ {pairs : List (Pairing DirEntry DirEntry)} {s : ScanState σ},
      s.ids.next + (pairs.filterMap Pairing.live?).length < idRange →
      (mergeDirs path d pairs).run s ≠ .error e := by
  intro pairs
  induction pairs with
  | nil =>
      intro s _ h
      cases h
  | cons pair pairs inductionHypothesis =>
      intro s room h
      rw [mergeDirs, run_bind_eq_error] at h
      rcases h with failed | ⟨kept, s₁, merged, h⟩
      · -- Only a new child takes an id, and there is room for it.
        cases pair with
        | both c b => cases failed
        | live c =>
            rw [mergeDir, run_bind_eq_error] at failed
            rcases failed with failed | ⟨id, s₂, -, failed⟩
            · have fresh : s.ids.next + 1 < idRange := by
                simp only [List.filterMap_cons, Pairing.live?, List.length_cons] at room
                omega
              rw [run_takeId, if_pos fresh] at failed
              cases failed
            · exact (throws_announce.bind fun _ => (throws_modify _).bind fun _ => Throws.pure _ :
                Throws (fun _ => False) _) s₂ e failed
        | old b =>
            exact (throws_announce.bind fun _ => (throws_modify _).bind fun _ => Throws.pure _ :
              Throws (fun _ => False) _) s e failed
      rw [run_bind_eq_error] at h
      rcases h with failed | ⟨rest, s₂, -, h⟩
      · refine inductionHypothesis ?_ failed
        cases pair with
        | both c b =>
            rw [mergeDir, run_pure_eq_ok] at merged
            obtain ⟨rfl, rfl⟩ := merged
            simp only [List.filterMap_cons, Pairing.live?, List.length_cons] at room
            omega
        | live c =>
            obtain ⟨-, -, next, -⟩ := mergeDir_live_eq_ok merged
            simp only [List.filterMap_cons, Pairing.live?, List.length_cons] at room
            omega
        | old b =>
            obtain ⟨-, ids, -⟩ := mergeDir_old_eq_ok merged
            rw [ids]
            simpa only [List.filterMap_cons, Pairing.live?] using room
      · cases h

/-- Merging a directory whose listing fits the counter from where it started never
stops. -/
theorem merge_ne_error {path : String} {old : Option DirEntry} {d : DirEntry} {s : ScanState σ}
    {e : ScanError} (room : s.batchStart + d.dirs.length < idRange) :
    (merge path old d).run s ≠ .error e := by
  intro h
  unfold merge at h
  cases old with
  | none =>
      exact ((throws_modify _).bind fun _ => (throws_modify _).bind fun _ => Throws.pure _ :
        Throws (fun _ => False) _) s e h
  | some o =>
      rw [run_modify_bind, run_bind_eq_error] at h
      rcases h with failed | ⟨kept, s₁, -, h⟩
      · refine mergeDirs_ne_error ?_ failed
        rw [filterMap_live?_pairByName]
        exact room
      · exact ((throws_mergeFiles d _).bind fun _ => Throws.pure _ : Throws (fun _ => False) _) s₁ e h

end Scan

/-- The child directories the in-memory walker lists, each at most as often as the
directory it stands in has them. -/
theorem memWalker_kept_names (limits : Limits) (w : MemWalk) :
    (((memWalker.kept limits w).filterMap Scan.Item.dirEntry?).map (·.name)).Sublist w.current.dirNames := by
  unfold Walker.kept MemNode.dirNames
  exact (((List.take_sublist _ _).trans (List.take_sublist _ _)).filterMap _).map _

/-! ### What a step promises when the counter has room -/

section Headroom

variable {T : MemNode} {p : List Nat} {α β : Type}

/-- What a step of the scan below the directory at position `p` of `T` promises with
the counter kept to at most `bound`: it stops with no error of the id counter, and
when it ends the walker stands at `p` and the counter is at most `bound`. -/
structure Headroom (T : MemNode) (p : List Nat) (bound : Nat)
    (r : Except ScanError (α × ScanState MemWalk)) : Prop where
  fits : ∀ e, r = .error e → ¬ e.IdOverflow
  back : ∀ a s', r = .ok (a, s') → s'.walker.At T p ∧ s'.ids.next ≤ bound

theorem Headroom.pure (a : α) {s : ScanState MemWalk} {bound : Nat} (stands : s.walker.At T p)
    (below : s.ids.next ≤ bound) : Headroom T p bound ((Pure.pure a : ScanM MemWalk α).run s) where
  fits _ h := by cases h
  back _ _ h := by
    obtain ⟨rfl, rfl⟩ := Scan.run_pure_eq_ok.mp h
    exact ⟨stands, below⟩

/-- A first step that stops with no error of the id counter, then steps that keep
the promise from wherever the first one ends. -/
theorem Headroom.bind {x : ScanM MemWalk α} {k : α → ScanM MemWalk β} {s : ScanState MemWalk}
    {bound : Nat} (first : ∀ e, x.run s = .error e → ¬ e.IdOverflow)
    (rest : ∀ a s₁, x.run s = .ok (a, s₁) → Headroom T p bound ((k a).run s₁)) :
    Headroom T p bound ((x >>= k).run s) where
  fits e h := by
    rcases Scan.run_bind_eq_error.mp h with failed | ⟨a, s₁, ran, failed⟩
    · exact first e failed
    · exact (rest a s₁ ran).fits e failed
  back b s' h := by
    obtain ⟨a, s₁, ran, h⟩ := Scan.run_bind_eq_ok.mp h
    exact (rest a s₁ ran).back b s' h

/-- A first step that never stops on the id counter, from any state, then steps that
keep the promise from wherever it ends. -/
theorem Headroom.bind_throws {x : ScanM MemWalk α} {k : α → ScanM MemWalk β} {s : ScanState MemWalk}
    {bound : Nat} (first : Scan.Throws (fun e => ¬ e.IdOverflow) x)
    (rest : ∀ a s₁, x.run s = .ok (a, s₁) → Headroom T p bound ((k a).run s₁)) :
    Headroom T p bound ((x >>= k).run s) :=
  Headroom.bind (first s) rest

/-- A first step that keeps its own promise, below the directory at `q`, then steps
that keep theirs from where it ends. -/
theorem Headroom.then {q : List Nat} {x : ScanM MemWalk α} {k : α → ScanM MemWalk β}
    {s : ScanState MemWalk} {bound₁ bound : Nat} (first : Headroom T q bound₁ (x.run s))
    (rest : ∀ a s₁, x.run s = .ok (a, s₁) → s₁.walker.At T q → s₁.ids.next ≤ bound₁ →
      Headroom T p bound ((k a).run s₁)) :
    Headroom T p bound ((x >>= k).run s) :=
  Headroom.bind first.fits fun a s₁ ran =>
    rest a s₁ ran (first.back a s₁ ran).1 (first.back a s₁ ran).2

end Headroom

namespace Scan

/-- Reading a directory leaves the in-memory walker where it stands. -/
theorem readDir_stands {T : MemNode} {p : List Nat} {limits : Limits} {firstFresh : Nat}
    {d d₁ : DirEntry} {s s₁ : ScanState MemWalk}
    (h : (readDir memWalker limits firstFresh d).run s = .ok (d₁, s₁)) (stands : s.walker.At T p) :
    s₁.walker.At T p := by
  obtain ⟨-, -, -, outcome⟩ := readDir_eq_ok h
  rcases outcome with ⟨-, -, walker, -⟩ | ⟨-, walker, -⟩
  · rw [walker]
    exact stands
  · rw [walker]
    exact ⟨stands.root, stands.position⟩

/-- Moving back up from a child directory at `p ++ [i]` stands the walker at `p`
again, unless the child refuses, which stops the scan with a lost position. -/
theorem leaveChild_headroom {T : MemNode} {p : List Nat} {i : Nat} {path : String} {bound : Nat}
    {s : ScanState MemWalk} (stands : s.walker.At T (p ++ [i])) (below : s.ids.next ≤ bound) :
    Headroom T p bound ((leaveChild memWalker path).run s) where
  fits e h := (throws_leaveChild fun _ => by simp [ScanError.IdOverflow] :
    Throws (fun e => ¬ ScanError.IdOverflow e) (leaveChild memWalker path)) s e h
  back _ s' h := by
    obtain ⟨left, ids, -⟩ := leaveChild_eq_ok h
    rw [memWalker_leave] at left
    split at left
    · cases left
    · have away : s.walker.position.isEmpty = false := by
        rw [stands.position]
        simp
      simp only [settledWalker, away, Bool.false_eq_true, if_false, Except.ok.injEq] at left
      rw [← left, ids]
      exact ⟨⟨stands.root, by rw [stands.position, List.dropLast_concat]⟩, below⟩

/-- Moving into each child directory in turn keeps the counter within what the walk
meets below the children's names, given that each child's scan keeps it within
what the walk meets below that child. -/
theorem enterAll_headroom {T : MemNode}
    {visitChild : String → Option DirEntry → DirEntry → ScanM MemWalk DirEntry}
    (childRoom : ∀ {q : List Nat} {path : String} {b : Option DirEntry} {c : DirEntry}
      {t : ScanState MemWalk}, T.Reaches q → t.walker.At T q → c.dirs = [] → c.files = [] →
      t.ids.next + (T.follow q).walkDirs < idRange →
      Headroom T q (t.ids.next + (T.follow q).walkDirs) ((visitChild path b c).run t))
    {p : List Nat} {path parentName : String} (reaches : T.Reaches p) :
    ∀ {cs : List DirEntry} {baselines : List (Option DirEntry)} {s : ScanState MemWalk},
      s.walker.At T p → (∀ c ∈ cs, c.dirs = [] ∧ c.files = []) →
      s.ids.next + ((cs.map (·.name)).map (T.follow p).enteredWalk).sum < idRange →
      Headroom T p (s.ids.next + ((cs.map (·.name)).map (T.follow p).enteredWalk).sum)
        ((enterAll memWalker visitChild path parentName cs baselines).run s) := by
  intro cs
  induction cs with
  | nil =>
      intro baselines s stands _ _
      rw [enterAll]
      exact Headroom.pure _ stands (Nat.le_add_right _ _)
  | cons c cs inductionHypothesis =>
      intro baselines s stands children room
      obtain ⟨noDirs, noFiles⟩ := children c List.mem_cons_self
      have restChildren := fun c' member => children c' (List.mem_cons_of_mem c member)
      simp only [List.map_cons, List.sum_cons] at room ⊢
      rw [enterAll]
      dsimp only
      rw [run_get_bind]
      split
      · -- The walker refused the child: nothing is met below it.
        rw [run_count_bind]
        refine Headroom.then (inductionHypothesis stands restChildren (by dsimp only; omega))
          fun r s₁ _ stands₁ below₁ => ?_
        dsimp only at below₁
        exact Headroom.pure _ stands₁ (by omega)
      · -- The walker moved into the first child directory of that name, and the walk
        -- meets below it what the child's scan may use.
        rename_i state entered
        rw [memWalker_enter, stands.current] at entered
        obtain ⟨i, enteredAt, rfl⟩ := Option.map_eq_some_iff.mp entered
        obtain ⟨grandchildren, refuseLeave, located⟩ := MemNode.enteredAt_eq_some enteredAt
        obtain ⟨reachesChild, followed⟩ := MemNode.reaches_append reaches located
        have childWalk := MemNode.enteredWalk_of_enteredAt enteredAt located
        rw [← followed] at childWalk
        rw [run_set_bind]
        refine Headroom.then (childRoom reachesChild ⟨stands.root, by rw [stands.position]⟩ noDirs noFiles
          (by dsimp only; omega)) fun c' s₁ _ stands₁ below₁ => ?_
        dsimp only at below₁
        refine Headroom.then (leaveChild_headroom stands₁ le_rfl) fun _ s₂ _ stands₂ below₂ => ?_
        refine Headroom.then (inductionHypothesis stands₂ restChildren (by omega)) fun r s₃ _ stands₃ below₃ => ?_
        exact Headroom.pure _ stands₃ (by omega)

/-- Scanning the directory at `p`, which holds nothing yet, with room in the counter
for what the walk meets below it, never stops on the id counter, and moves the
counter up by at most that. -/
theorem visit_headroom {T : MemNode} {limits : Limits} {firstFresh : Nat} (fuel : Nat) :
    ∀ {p : List Nat} {path : String} {old : Option DirEntry} {d : DirEntry} {s : ScanState MemWalk},
      T.Reaches p → s.walker.At T p → d.dirs = [] → d.files = [] →
      s.ids.next + (T.follow p).walkDirs < idRange →
      Headroom T p (s.ids.next + (T.follow p).walkDirs)
        ((visit memWalker limits firstFresh fuel path old d).run s) := by
  induction fuel with
  | zero =>
      intro p path old d s _ _ _ _ _
      -- The depth budget ran out, which is no error of the id counter.
      rw [visit]
      refine ⟨fun e h => ?_, fun _ _ h => ?_⟩
      · rw [run_throw] at h
        cases h
        simp [ScanError.IdOverflow]
      · rw [run_throw] at h
        cases h
  | succ fuel inductionHypothesis =>
      intro p path old d s reaches stands noDirs noFiles room
      have listed := memWalker_kept_names limits s.walker
      rw [stands.current] at listed
      have keptRoom : s.ids.next + ((memWalker.kept limits s.walker).filterMap Item.dirEntry?).length <
          idRange := by
        have counted := MemNode.length_add_sum_le_walkDirs listed.subperm
        rw [List.length_map] at counted
        omega
      rw [visit]
      refine Headroom.bind (readDir_fits noDirs keptRoom) fun d₁ s₁ read => ?_
      have numbered := readDir_numbered read ⟨noDirs, noFiles⟩
      have stands₁ := readDir_stands read stands
      -- The children read, with what the walk meets below them, fit the room.
      have budget := MemNode.length_add_sum_le_walkDirs ((readDir_names read noDirs).trans listed.subperm)
      rw [List.length_map] at budget
      refine Headroom.bind (fun e h => absurd h (merge_ne_error (by rw [numbered.start]; omega)))
        fun r s₂ merged => ?_
      obtain ⟨d₂, baselines⟩ := r
      have mergeSpec := numbered.merged merged
      have names₂ := mergeSpec.names
      -- Merging hands back the ids of the carried children: the counter ends no
      -- higher than the listing left it.
      have rewound : s₂.ids.next ≤ s.ids.next + d₁.dirs.length := by
        have lengths := mergeSpec.ids.length_eq
        have sameLength := congrArg List.length names₂
        simp only [List.length_map, List.length_append, List.length_range'] at lengths sameLength
        have := mergeSpec.supply
        rw [numbered.start] at lengths this
        omega
      have stands₂ : s₂.walker.At T p := by
        rw [mergeSpec.walker]
        exact stands₁
      dsimp only
      rw [run_dumpAll_bind]
      refine Headroom.then (enterAll_headroom inductionHypothesis reaches stands₂
        (mergeSpec.empty_of_mem numbered.childrenEmpty) (by dsimp only; rw [names₂]; omega))
        fun r s₃ _ stands₃ below₃ => ?_
      dsimp only at below₃
      rw [names₂] at below₃
      obtain ⟨dirs, pending⟩ := r
      dsimp only
      refine Headroom.bind_throws (throws_checked (by simp [ScanError.IdOverflow]) _)
        fun size s₄ checked => ?_
      obtain ⟨-, rfl⟩ := run_checked_eq_ok.mp checked
      refine Headroom.bind_throws (throws_compareChildren path _ _ _ _) fun _ s₅ compared => ?_
      obtain ⟨walker₅, ids₅, -⟩ := keeps_compareChildren path _ _ _ _ _ _ _ compared
      rw [run_dumpAll_bind]
      refine Headroom.pure _ (by rw [walker₅]; exact stands₃) ?_
      dsimp only
      rw [ids₅]
      omega

/-- A whole scan from a root that holds nothing yet, with the in-memory walker at the
root of `T` and room in the counter for what the walk meets below it, never stops on
the id counter. -/
theorem run_fits {T : MemNode} {limits : Limits} {root : DirEntry} {baseline : Option DirEntry}
    {ids : IdSupply} (noDirs : root.dirs = []) (noFiles : root.files = [])
    (room : ids.next + T.walkDirs < idRange) :
    ∀ e, run memWalker limits { root := T } root baseline ids = .error e → ¬ e.IdOverflow := by
  intro e h
  unfold run at h
  refine (?_ : Headroom T [] (ids.next + T.walkDirs) _).fits e (except_map_eq_error h)
  refine Headroom.bind_throws (throws_openRoot root baseline) fun _ s₁ opened => ?_
  obtain ⟨walker₁, ids₁, -⟩ := keeps_openRoot root baseline _ _ _ opened
  rw [run_dumpAll_bind]
  refine Headroom.then (visit_headroom _ (show T.Reaches [] from trivial) ⟨by rw [walker₁], by rw [walker₁]⟩ noDirs noFiles
    (by dsimp only; rw [ids₁]; exact room)) fun d s₂ _ stands₂ below₂ => ?_
  dsimp only at below₂
  rw [ids₁] at below₂
  refine Headroom.bind_throws (throws_closeRoot d baseline) fun _ s₃ closed => ?_
  obtain ⟨walker₃, ids₃, -⟩ := keeps_closeRoot d baseline _ _ _ closed
  rw [run_dumpAll_bind]
  refine Headroom.pure _ (by rw [walker₃]; exact stands₂) ?_
  dsimp only
  rw [ids₃]
  exact below₂

end Scan

/-- A diff runs out of ids only where its counter does. It stops on its first fresh
id when the snapshot's largest id leaves no 32-bit id after it, whatever the tree;
and with room in the counter, after the first fresh id, for every child directory
a walk of the tree meets, it stops on neither the first nor the next fresh id. So a
tree with no directory below its root runs out of ids exactly when the snapshot's
largest id is the last 32-bit value, though it keeps no fresh id at all. -/
theorem diff_id_counter_room (limits : Limits) (T : MemNode) (name : String) (S : Snapshot) :
    (idRange ≤ max S.maxId rootId + 1 →
        inventory memWalker limits { root := T } .diff (DirEntry.root name) (some S) =
          .error (.overflow .firstId)) ∧
      (max S.maxId rootId + 1 + T.walkDirs < idRange →
        inventory memWalker limits { root := T } .diff (DirEntry.root name) (some S) ≠
            .error (.overflow .firstId) ∧
          inventory memWalker limits { root := T } .diff (DirEntry.root name) (some S) ≠
            .error (.overflow .nextId)) := by
  constructor
  · intro full
    have after : IdSupply.after S.maxId = .error .add := by
      unfold IdSupply.after
      rw [addWithin_eq_error full]
      rfl
    unfold inventory
    simp only [Option.map_some, Option.getD_some, after, bind, Except.bind]
    rfl
  · intro room
    have after : IdSupply.after S.maxId = .ok ⟨max S.maxId rootId + 1⟩ := by
      unfold IdSupply.after
      rw [addWithin_eq_ok (by omega)]
      rfl
    -- With the first fresh id handed out, every error is the scan's.
    have fits : ∀ e, inventory memWalker limits { root := T } .diff (DirEntry.root name) (some S) =
        .error e → ¬ e.IdOverflow := by
      intro e h
      cases ran : Scan.run memWalker limits { root := T } (DirEntry.root name) (some S.root)
          ⟨max S.maxId rootId + 1⟩ with
      | ok scan =>
          rw [inventory_diff_of_run after ran] at h
          cases h
      | error e' =>
          rw [inventory_diff_of_run_error after ran] at h
          cases h
          exact Scan.run_fits rfl rfl room _ ran
    exact ⟨fun h => fits _ h (.inl rfl), fun h => fits _ h (.inr rfl)⟩

/-- A root holding a directory `a` that holds a directory `b` and a file: a walk of it
meets two child directories. -/
def nestedTree : MemNode :=
  .dir "r" [.dir "a" [.dir "b" [] false false, .file "f" 1] false false] false false

/-- Against a snapshot whose largest id leaves a diff of `nestedTree` just the room its
walk needs, the diff stops on neither fresh id; against one whose largest id is the last
32-bit value, it stops on its first fresh id. -/
theorem nested_diff_ids :
    ∃ S S' : Snapshot, Snapshot.read "0 4294967292 r\n1 0 0 0 4294967292 0 r\n".toUTF8.toList = .ok S ∧
      Snapshot.read "0 4294967295 r\n1 0 0 0 4294967295 0 r\n".toUTF8.toList = .ok S' ∧
      nestedTree.walkDirs = 2 ∧
      (inventory memWalker {} { root := nestedTree } .diff (DirEntry.root "r") (some S) ≠
          .error (.overflow .firstId) ∧
        inventory memWalker {} { root := nestedTree } .diff (DirEntry.root "r") (some S) ≠
          .error (.overflow .nextId)) ∧
      inventory memWalker {} { root := nestedTree } .diff (DirEntry.root "r") (some S') =
        .error (.overflow .firstId) := by
  have near : (Snapshot.read "0 4294967292 r\n1 0 0 0 4294967292 0 r\n".toUTF8.toList).toOption.any
      (fun S => S.maxId == 4294967292) = true := by
    decide +kernel
  have last : (Snapshot.read "0 4294967295 r\n1 0 0 0 4294967295 0 r\n".toUTF8.toList).toOption.any
      (fun S => S.maxId == 4294967295) = true := by
    decide +kernel
  obtain ⟨S, accepted, nearMax⟩ := Scan.exists_ok_of_toOption_any near
  obtain ⟨S', accepted', lastMax⟩ := Scan.exists_ok_of_toOption_any last
  rw [beq_iff_eq] at nearMax lastMax
  have walked : nestedTree.walkDirs = 2 := by decide
  refine ⟨S, S', accepted, accepted', walked, (diff_id_counter_room {} _ "r" S).2 ?_,
    (diff_id_counter_room {} _ "r" S').1 ?_⟩
  · -- the room the walk needs ends at the last 32-bit value
    rw [nearMax, walked]
    decide
  · rw [lastMax]
    decide

/-- A diff can run out of ids while it keeps none: against a snapshot whose largest
id is the last 32-bit value, a tree with no directory below its root stops on its
first fresh id; and a tree whose only child directory is carried, with the id just
below, stops numbering the root's listing. -/
theorem carried_diff_overflows :
    (∃ S : Snapshot, Snapshot.read "0 4294967295 r\n1 0 0 0 4294967295 0 r\n".toUTF8.toList = .ok S ∧
      S.maxId = 4294967295 ∧
      inventory memWalker {} { root := .dir "r" [] false false } .diff (DirEntry.root "r") (some S) =
        .error (.overflow .firstId)) ∧
    (∃ S : Snapshot,
      Snapshot.read "0 1 r\n0 4294967294 r/a\n1 1 0 0 4294967294 0 a\n1 0 0 0 1 1 r\n".toUTF8.toList = .ok S ∧
      S.root.dirs.map (fun c => (c.name, c.id)) = [("a", 4294967294)] ∧
      inventory memWalker {} { root := .dir "r" [.dir "a" [] false false] false false } .diff
        (DirEntry.root "r") (some S) = .error (.overflow .nextId)) := by
  have flat : (Snapshot.read "0 4294967295 r\n1 0 0 0 4294967295 0 r\n".toUTF8.toList).toOption.any
      (fun S => S.maxId == 4294967295 &&
        decide ((inventory memWalker {} { root := .dir "r" [] false false } .diff (DirEntry.root "r")
          (some S)).map (fun _ => ()) = .error (.overflow .firstId))) = true := by
    decide +kernel
  have carried : (Snapshot.read
      "0 1 r\n0 4294967294 r/a\n1 1 0 0 4294967294 0 a\n1 0 0 0 1 1 r\n".toUTF8.toList).toOption.any
      (fun S => S.root.dirs.map (fun c => (c.name, c.id)) == [("a", 4294967294)] &&
        decide ((inventory memWalker {} { root := .dir "r" [.dir "a" [] false false] false false } .diff
          (DirEntry.root "r") (some S)).map (fun _ => ()) = .error (.overflow .nextId))) = true := by
    decide +kernel
  obtain ⟨S, accepted, checks⟩ := Scan.exists_ok_of_toOption_any flat
  obtain ⟨S', accepted', checks'⟩ := Scan.exists_ok_of_toOption_any carried
  rw [Bool.and_eq_true, beq_iff_eq, decide_eq_true_eq] at checks checks'
  exact ⟨⟨S, accepted, checks.1, Scan.except_map_eq_error checks.2⟩,
    ⟨S', accepted', checks'.1, Scan.except_map_eq_error checks'.2⟩⟩

end TreeDump
