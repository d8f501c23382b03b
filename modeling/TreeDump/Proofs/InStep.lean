import Mathlib
import TreeDump.Walkers.Memory
import TreeDump.Proofs.ScanErrors
import TreeDump.Proofs.ChainView
import TreeDump.Proofs.Budget

/-!
A scan and the in-memory walker stay in step.

Owns: the place a scan gives the directory at a position of an in-memory tree
(`MemNode.place`: its path and name); the directories of a scanned tree that the
walker moves into, with their positions, in the order they are read
(`DirEntry.entered`) and in the order the scan moves back out of them
(`DirEntry.leaves`, post-order); the listings a scan starts (`DirEntry.listings`);
the settled walker, the in-memory walker with every directory willing to be left;
and `stopAtRefusal`, a result cut at the first directory of a list that refuses to
be left.

Main statement: a scan over the in-memory walker is the settled scan cut at the
first directory, in post-order, that refuses to be left. The settled scan never
moves up from the root and never loses its position; it ends with the walker back
at the root, having started one listing for each directory it moved into whose
ordinal is within `maxDirs`, in pre-order and none twice when sibling directories
have distinct names.

Why it holds: the two walkers differ only in moving back up, so both scans make the
same steps from the same states until the first refusal; and every step keeps the
walker's position and the scan's chain naming the same directory, since the scan
moves into a child of the listing and back out of it in pairs.
-/

namespace TreeDump

namespace MemNode

/-- Whether the node is a directory that refuses to be left. -/
def refusesLeave : MemNode → Bool
  | .dir _ _ _ refuseLeave => refuseLeave
  | .file _ _ => false

/-- The names of the node's child directories, in order, as its listing gives them. -/
def dirNames (node : MemNode) : List String :=
  ((node.children.map MemNode.item).filterMap Scan.Item.dirEntry?).map (·.name)

/-- Sibling directories have distinct names, everywhere in the tree. -/
def DistinctDirs (T : MemNode) : Prop := ∀ q, (T.follow q).dirNames.Nodup

mutual
/-- Whether `p` holds of every node of the tree, its root included. -/
def allNodes (p : MemNode → Bool) : MemNode → Bool
  | .dir name children refuseEnter refuseLeave =>
    p (.dir name children refuseEnter refuseLeave) && allAmong p children
  | .file name size => p (.file name size)

/-- Whether `p` holds of every node of each tree of a list. -/
def allAmong (p : MemNode → Bool) : List MemNode → Bool
  | [] => true
  | c :: cs => allNodes p c && allAmong p cs
end

/-- What holds at every position of a tree holds at its root and at every position
of each child. -/
theorem forall_follow_iff {P : MemNode → Prop} (node : MemNode) :
    (∀ q, P (node.follow q)) ↔ P node ∧ ∀ child ∈ node.children, ∀ q, P (child.follow q) := by
  constructor
  · intro everywhere
    refine ⟨everywhere [], fun child member q => ?_⟩
    obtain ⟨i, found⟩ := List.mem_iff_getElem?.mp member
    simpa [follow, found] using everywhere (i :: q)
  · rintro ⟨here, below⟩ (_ | ⟨i, q⟩)
    · exact here
    · -- past the last child a path stops where it is
      cases found : node.children[i]? with
      | none => simpa [follow, found] using here
      | some child => simpa [follow, found] using below child (List.mem_of_getElem? found) q

mutual
/-- A tree passes `allNodes p` exactly when `p` holds at every position. -/
theorem allNodes_iff (p : MemNode → Bool) :
    ∀ node : MemNode, allNodes p node = true ↔ ∀ q, p (node.follow q) = true
  | .dir name children refuseEnter refuseLeave => by
    rw [forall_follow_iff (P := fun node => p node = true), allNodes, Bool.and_eq_true,
      allAmong_iff p children]
    exact Iff.rfl
  | .file name size => by
    rw [forall_follow_iff (P := fun node => p node = true), allNodes]
    simp [children]

theorem allAmong_iff (p : MemNode → Bool) :
    ∀ nodes : List MemNode, allAmong p nodes = true ↔ ∀ child ∈ nodes, ∀ q, p (child.follow q) = true
  | [] => by simp [allAmong]
  | c :: cs => by
    rw [allAmong, Bool.and_eq_true, allNodes_iff p c, allAmong_iff p cs]
    simp
end

instance (T : MemNode) : Decidable T.DistinctDirs :=
  decidable_of_iff (allNodes (fun node => decide node.dirNames.Nodup) T = true)
    (by rw [allNodes_iff]; simp [DistinctDirs])

/-- The position of the child directory called `n` that the walker moves into, if it
moves into one: the first child directory of that name, unless it refuses. -/
def enteredAt (node : MemNode) (n : String) : Option Nat :=
  match MemWalk.findChild n node.children 0 with
  | some (i, true) => some i
  | _ => none

/-- The positions that lead through children that exist. -/
def Reaches : MemNode → List Nat → Prop
  | _, [] => True
  | node, i :: is => ∃ child, node.children[i]? = some child ∧ child.Reaches is

/-- The path and the name a scan gives the directory at position `q` below `node`,
which it calls `name` at `path`. -/
def place (node : MemNode) (path name : String) : List Nat → String × String
  | [] => (path, name)
  | i :: is => match node.children[i]? with
    | some child => child.place (Wire.childPath path name child.name) child.name is
    | none => (path, name)

/-- The paths a scan gives the directories from position `q` up to the root of
`T`, which it calls `rootName`, nearest first: the paths of its chain there. -/
def chainPaths (T : MemNode) (rootName : String) (q : List Nat) : List String :=
  (q.inits.map fun r => (T.place rootName rootName r).1).reverse

end MemNode

/-- The in-memory walker with every directory willing to be left: the walk a scan
makes when no move back up is refused. -/
def settledWalker : Walker MemWalk :=
  { memWalker with
    leave := fun w => if w.position.isEmpty then .error "already at root"
      else .ok { w with position := w.position.dropLast } }

namespace DirEntry

/-- The directories of `d`'s tree that a scan of `T` moves into, each with its
position, in the order the scan reads them: `d` itself at `q`, then the trees of the
child directories it moves into, in turn. -/
def entered (T : MemNode) : List Nat → DirEntry → List (List Nat × DirEntry)
  | q, ⟨name, size, id, fid, items, digest, dirs, files⟩ =>
    (q, ⟨name, size, id, fid, items, digest, dirs, files⟩) :: dirs.flatMap fun c =>
      match (T.follow q).enteredAt c.name with
      | some i => c.entered T (q ++ [i])
      | none => []

/-- The positions of the directories below `d` that a scan of `T` moves into, in the
order it moves back out of them: post-order. -/
def leaves (T : MemNode) : List Nat → DirEntry → List (List Nat)
  | q, ⟨_, _, _, _, _, _, dirs, _⟩ => dirs.flatMap fun c =>
    match (T.follow q).enteredAt c.name with
    | some i => c.leaves T (q ++ [i]) ++ [q ++ [i]]
    | none => []

/-- The position of a directory a scan moves into, if it starts its listing: if its
ordinal is within `maxDirs`. -/
def listedAt (limits : Limits) (firstFresh : Nat) (entry : List Nat × DirEntry) : Option (List Nat) :=
  if ordinal firstFresh entry.2.id ≤ limits.maxDirs then some entry.1 else none

/-- The positions whose listings a scan starts: the directories it moves into whose
ordinal is within `maxDirs`, in the order it reads them. -/
def listings (limits : Limits) (firstFresh : Nat) (T : MemNode) (q : List Nat) (d : DirEntry) :
    List (List Nat) :=
  (d.entered T q).filterMap (listedAt limits firstFresh)

end DirEntry

/-- The first directory among `left` that refuses to be left, as the error of a scan
stopped there. -/
def refusal (T : MemNode) (rootName : String) (left : List (List Nat)) : Option ScanError :=
  (left.find? fun q => (T.follow q).refusesLeave).map fun q =>
    .lostPosition (T.place rootName rootName q).1 "connection lost"

/-- The result `r` of a scan, stopped at the first directory among `left` that
refuses to be left. -/
def stopAtRefusal {α : Type} (T : MemNode) (rootName : String) (left : List (List Nat))
    (r : Except ScanError α) : Except ScanError α :=
  match refusal T rootName left with
  | some e => .error e
  | none => r

/-! ### Positions in an in-memory tree -/

namespace MemNode

theorem findChild_eq_some {n : String} :
    ∀ {cs : List MemNode} {k i : Nat} {ok : Bool}, MemWalk.findChild n cs k = some (i, ok) →
      k ≤ i ∧ ∃ children refuseLeave, cs[i - k]? = some (.dir n children (!ok) refuseLeave) := by
  intro cs
  induction cs with
  | nil =>
      intro k i ok h
      cases h
  | cons c cs inductionHypothesis =>
      intro k i ok h
      rw [MemWalk.findChild] at h
      split at h
      · -- The first child is a directory called `n`.
        rename_i allowed enterable
        rw [Option.some.injEq, Prod.mk.injEq] at h
        obtain ⟨rfl, rfl⟩ := h
        cases c with
        | dir name children refuseEnter refuseLeave =>
            simp only [enterable?] at enterable
            split at enterable
            · rename_i named
              rw [Option.some.injEq] at enterable
              subst named enterable
              exact ⟨le_refl _, children, refuseLeave, by simp⟩
            · cases enterable
        | file name size => cases enterable
      · obtain ⟨later, found⟩ := inductionHypothesis h
        refine ⟨by omega, ?_⟩
        rw [show i - k = (i - (k + 1)) + 1 by omega, List.getElem?_cons_succ]
        exact found

/-- The child directory the walker moves into is the first of that name, and does
not refuse. -/
theorem enteredAt_eq_some {node : MemNode} {n : String} {i : Nat} (h : node.enteredAt n = some i) :
    ∃ children refuseLeave, node.children[i]? = some (.dir n children false refuseLeave) := by
  unfold enteredAt at h
  split at h
  · rename_i found
    rw [Option.some.injEq] at h
    subst h
    obtain ⟨-, children, refuseLeave, located⟩ := findChild_eq_some found
    exact ⟨children, refuseLeave, by simpa using located⟩
  · cases h

theorem reaches_append {node : MemNode} {c : MemNode} {i : Nat} :
    ∀ {q : List Nat}, node.Reaches q → (node.follow q).children[i]? = some c →
      node.Reaches (q ++ [i]) ∧ node.follow (q ++ [i]) = c := by
  intro q
  induction q generalizing node with
  | nil =>
      intro _ child
      rw [follow] at child
      refine ⟨⟨c, child, trivial⟩, ?_⟩
      simp only [List.nil_append, follow, child]
  | cons j js inductionHypothesis =>
      intro reaches child
      obtain ⟨next, located, nextReaches⟩ := reaches
      rw [follow, located] at child
      obtain ⟨reachesAfter, followed⟩ := inductionHypothesis nextReaches child
      refine ⟨⟨next, located, reachesAfter⟩, ?_⟩
      simp only [List.cons_append, follow, located]
      exact followed

/-- The place of a child directory: its name joined to its parent's path. -/
theorem place_append {node c : MemNode} {i : Nat} :
    ∀ {q : List Nat} {path name : String}, node.Reaches q → (node.follow q).children[i]? = some c →
      node.place path name (q ++ [i]) =
        (Wire.childPath (node.place path name q).1 (node.place path name q).2 c.name, c.name) := by
  intro q
  induction q generalizing node with
  | nil =>
      intro path name _ child
      rw [follow] at child
      simp only [List.nil_append, place, child]
  | cons j js inductionHypothesis =>
      intro path name reaches child
      obtain ⟨next, located, nextReaches⟩ := reaches
      rw [follow, located] at child
      simp only [List.cons_append, place, located]
      exact inductionHypothesis nextReaches child

/-- Moving into a child adds its path to the chain's. -/
theorem chainPaths_append (T : MemNode) (rootName : String) (q : List Nat) (i : Nat) :
    T.chainPaths rootName (q ++ [i]) = (T.place rootName rootName (q ++ [i])).1 :: T.chainPaths rootName q := by
  simp [chainPaths, List.inits_append]

end MemNode

/-- The in-memory walker moves into the child directory `enteredAt` names. -/
theorem memWalker_enter (w : MemWalk) (n : String) :
    memWalker.enter w n = (w.current.enteredAt n).map fun i => { w with position := w.position ++ [i] } := by
  simp only [memWalker, MemNode.enteredAt]
  rcases MemWalk.findChild n w.current.children 0 with _ | ⟨i, _ | _⟩ <;> rfl

/-- The in-memory walker moves back up as the settled one does, unless its
directory refuses to be left. -/
theorem memWalker_leave (w : MemWalk) :
    memWalker.leave w = if w.current.refusesLeave then .error "connection lost" else settledWalker.leave w := by
  unfold memWalker settledWalker MemWalk.current
  dsimp only
  cases w.root.follow w.position with
  | dir name children refuseEnter refuseLeave => cases refuseLeave <;> rfl
  | file name size => rfl

/-! ### The directories a scan moves into -/

namespace DirEntry

variable (T : MemNode)

/-- The positions a scan moves back out of below the directory at `q` through its
child directory `c`: those below `c`, then `c`'s, if the scan moves into `c`. -/
def childLeaves (q : List Nat) (c : DirEntry) : List (List Nat) :=
  match (T.follow q).enteredAt c.name with
  | some i => c.leaves T (q ++ [i]) ++ [q ++ [i]]
  | none => []

theorem leaves_eq (q : List Nat) (d : DirEntry) : d.leaves T q = d.dirs.flatMap (childLeaves T q) := by
  cases d
  rw [leaves]
  rfl

theorem entered_eq (q : List Nat) (d : DirEntry) :
    d.entered T q = (q, d) :: d.dirs.flatMap fun c =>
      match (T.follow q).enteredAt c.name with
      | some i => c.entered T (q ++ [i])
      | none => [] := by
  cases d
  rw [entered]

/-- The listings a scan starts below the directory at `q` through its child
directory `c`. -/
def childListings (limits : Limits) (firstFresh : Nat) (q : List Nat) (c : DirEntry) : List (List Nat) :=
  match (T.follow q).enteredAt c.name with
  | some i => c.listings limits firstFresh T (q ++ [i])
  | none => []

theorem listings_eq (limits : Limits) (firstFresh : Nat) (q : List Nat) (d : DirEntry) :
    d.listings limits firstFresh T q =
      (if ordinal firstFresh d.id ≤ limits.maxDirs then [q] else []) ++
        d.dirs.flatMap (childListings T limits firstFresh q) := by
  rw [listings, entered_eq, List.filterMap_cons, List.filterMap_flatMap]
  have children : ∀ c ∈ d.dirs, ((match (T.follow q).enteredAt c.name with
      | some i => c.entered T (q ++ [i])
      | none => []).filterMap (listedAt limits firstFresh)) =
      childListings T limits firstFresh q c := by
    intro c _
    unfold childListings listings
    split <;> rfl
  rw [List.flatMap_congr children]
  by_cases within : ordinal firstFresh d.id ≤ limits.maxDirs
  · simp [listedAt, within]
  · simp [listedAt, within]

/-- Every position moved back out of lies strictly below `q`. -/
theorem length_lt_of_mem_leaves (d : DirEntry) :
    ∀ {q x : List Nat}, x ∈ d.leaves T q → q.length < x.length := by
  induction d using DirEntry.induction with
  | step d inductionHypothesis =>
      intro q x member
      rw [leaves_eq] at member
      obtain ⟨c, child, inside⟩ := List.mem_flatMap.mp member
      unfold childLeaves at inside
      split at inside
      · rename_i i _
        rcases List.mem_append.mp inside with below | self
        · have := inductionHypothesis c child below
          simp at this
          omega
        · rw [List.mem_singleton] at self
          subst self
          simp
      · cases inside

end DirEntry

/-! ### Stopping at a refusal -/

section Refusal

variable {T : MemNode} {rootName : String}

theorem refusal_nil : refusal T rootName [] = none := rfl

theorem refusal_append (left left' : List (List Nat)) :
    refusal T rootName (left ++ left') = (refusal T rootName left).or (refusal T rootName left') := by
  rw [refusal, List.find?_append, Option.map_or]
  rfl

theorem refusal_singleton (q : List Nat) :
    refusal T rootName [q] = if (T.follow q).refusesLeave then
      some (.lostPosition (T.place rootName rootName q).1 "connection lost") else none := by
  unfold refusal
  by_cases refuses : (T.follow q).refusesLeave <;> simp [refuses]

/-- A refusal found among `left` is the first of them that refuses to be left. -/
theorem refusal_eq_some {left : List (List Nat)} {e : ScanError} (stopped : refusal T rootName left = some e) :
    ∃ q ∈ left, (T.follow q).refusesLeave = true ∧
      e = .lostPosition (T.place rootName rootName q).1 "connection lost" := by
  unfold refusal at stopped
  obtain ⟨q, found, rfl⟩ := Option.map_eq_some_iff.mp stopped
  have refuses := List.find?_some found
  exact ⟨q, List.mem_of_find?_eq_some found, refuses, rfl⟩

theorem stopAtRefusal_of_none {α : Type} {left : List (List Nat)} (none : refusal T rootName left = none)
    (r : Except ScanError α) : stopAtRefusal T rootName left r = r := by
  rw [stopAtRefusal, none]

theorem stopAtRefusal_of_some {α : Type} {left : List (List Nat)} {e : ScanError}
    (stopped : refusal T rootName left = some e) (r : Except ScanError α) :
    stopAtRefusal T rootName left r = .error e := by
  rw [stopAtRefusal, stopped]

theorem stopAtRefusal_error {α : Type} (left : List (List Nat)) (e : ScanError) :
    stopAtRefusal T rootName left (.error e : Except ScanError α) =
      .error ((refusal T rootName left).getD e) := by
  cases stopped : refusal T rootName left with
  | none => rw [stopAtRefusal_of_none stopped]; rfl
  | some e' => rw [stopAtRefusal_of_some stopped]; rfl

/-- A scan stopped at a refusal stays stopped through the steps after it. -/
theorem run_stopAtRefusal_bind {α β : Type} {x y : ScanM MemWalk α} {k : α → ScanM MemWalk β}
    {s : ScanState MemWalk} {left : List (List Nat)}
    (h : y.run s = stopAtRefusal T rootName left (x.run s)) :
    (y >>= k).run s = stopAtRefusal T rootName left ((x >>= k).run s) := by
  cases stopped : refusal T rootName left with
  | none =>
      rw [stopAtRefusal_of_none stopped] at h ⊢
      rw [StateT.run_bind, StateT.run_bind, h]
  | some e =>
      rw [stopAtRefusal_of_some stopped] at h ⊢
      exact Scan.run_bind_of_eq_error h

end Refusal

namespace Scan

/-! ### Where the scan stands -/

section InStep

variable {T : MemNode} {rootName : String}

/-- Where a scan of `T`, whose root it calls `rootName`, stands when it starts or
ends the scan of the directory at `p`: the walker at `p`, reached through children
that exist, and the chain holding the paths from `p` up to the root. -/
structure StandsAt (T : MemNode) (rootName : String) (p : List Nat) (s : ScanState MemWalk) : Prop where
  root : s.walker.root = T
  position : s.walker.position = p
  reaches : T.Reaches p
  chain : s.chain.map (·.path) = T.chainPaths rootName p

theorem StandsAt.keep {p : List Nat} {s s' : ScanState MemWalk} (stands : StandsAt T rootName p s)
    (root : s'.walker.root = s.walker.root) (position : s'.walker.position = s.walker.position)
    (chain : s'.chain.map (·.path) = s.chain.map (·.path)) : StandsAt T rootName p s' :=
  ⟨root.trans stands.root, position.trans stands.position, stands.reaches, chain.trans stands.chain⟩

/-- A step that keeps the walker and the chain's paths keeps the scan where it stands. -/
theorem StandsAt.after {α : Type} {x : ScanM MemWalk α} {p : List Nat} {s s' : ScanState MemWalk} {a : α}
    (stands : StandsAt T rootName p s) (keeps : Keeps x) (paths : Preserves (ChainShows LevelView.path (s.chain.map (·.path))) x)
    (ran : x.run s = .ok (a, s')) : StandsAt T rootName p s' := by
  obtain ⟨walker, -⟩ := keeps s a s' ran
  exact stands.keep (congrArg (·.root) walker) (congrArg (·.position) walker) (paths s a s' ran rfl)

/-- At the root, the walker is the one a scan starts with, but for its listings. -/
theorem StandsAt.walker_eq {s : ScanState MemWalk} (stands : StandsAt T rootName [] s) :
    s.walker = { root := T, listed := s.walker.listed } := by
  rw [← stands.root, ← stands.position]

/-- Reading the directory at `p` with the in-memory walker keeps the walker at `p`
and the chain's paths, starts a listing there when the directory's ordinal is
within `maxDirs`, and names its child directories after child directories of the
directory at `p`. -/
theorem readDir_inStep {limits : Limits} {firstFresh : Nat} {p : List Nat} {d d₁ : DirEntry}
    {s s₁ : ScanState MemWalk} (h : (readDir memWalker limits firstFresh d).run s = .ok (d₁, s₁))
    (stands : StandsAt T rootName p s) (noDirs : d.dirs = []) :
    StandsAt T rootName p s₁ ∧
      s₁.walker.listed = s.walker.listed ++
        (if ordinal firstFresh d.id ≤ limits.maxDirs then [p] else []) ∧
      (d₁.dirs.map (·.name)).Subperm (T.follow p).dirNames := by
  obtain ⟨-, -, -, outcome⟩ := readDir_eq_ok h
  rcases outcome with ⟨past, rfl, walker, -, chain, -⟩ |
    ⟨within, walker, -, ordered, ids, size, orderedEq, -, kept⟩
  · -- Past `maxDirs`: nothing is listed.
    refine ⟨stands.keep (by rw [walker]) (by rw [walker]) (by rw [chain]), ?_, ?_⟩
    · rw [walker, if_neg (Nat.not_le.mpr past), List.append_nil]
    · rw [noDirs]
      exact List.nil_subperm
  · -- The walker lists the directory at `p`; the children named come from that listing.
    have current : s.walker.current = T.follow p := by
      rw [MemWalk.current, stands.root, stands.position]
    have keptSub : (memWalker.kept limits s.walker).Sublist ((T.follow p).children.map MemNode.item) := by
      rw [← current]
      exact (List.take_sublist _ _).trans (List.take_sublist _ _)
    have names : (ordered.dirs.map (·.name)).Subperm (T.follow p).dirNames := by
      obtain ⟨-, -, -, -, shape, -⟩ := orderChildren_eq_ok orderedEq
      have sameNames : ordered.dirs.map (·.name) = ((d.withListing (memWalker.kept limits s.walker)).dirs.mergeSort
          DirEntry.nameLe).map (·.name) := by
        simpa [List.map_map, Function.comp_def] using congrArg (List.map DirEntry.name) shape
      rw [sameNames]
      refine ((List.mergeSort_perm _ _).map _).subperm.trans ?_
      rw [DirEntry.withListing]
      dsimp only
      rw [noDirs, List.nil_append]
      exact ((keptSub.filterMap _).map _).subperm
    have listed : s₁.walker.listed = s.walker.listed ++ [p] := by
      rw [walker, ← stands.position]
      rfl
    have stays : StandsAt T rootName p s₁ → StandsAt T rootName p s₁ ∧
        s₁.walker.listed = s.walker.listed ++ (if ordinal firstFresh d.id ≤ limits.maxDirs then [p] else []) :=
      fun standsAfter => ⟨standsAfter, by rw [if_pos within, listed]⟩
    have walkerStays : s₁.walker.root = s.walker.root ∧ s₁.walker.position = s.walker.position := by
      rw [walker]
      exact ⟨rfl, rfl⟩
    rcases kept with ⟨-, rfl, -, chain⟩ | ⟨-, rfl, -, chain⟩
    · refine ⟨(stays (stands.keep walkerStays.1 walkerStays.2 ?_)).1,
        (stays (stands.keep walkerStays.1 walkerStays.2 ?_)).2, names⟩ <;>
      · rw [chain, Level.record]
        exact map_view_setTop LevelView.path _ (by intro; rfl) _
    · -- Pruned: the children are dropped.
      refine ⟨(stays (stands.keep walkerStays.1 walkerStays.2 ?_)).1,
        (stays (stands.keep walkerStays.1 walkerStays.2 ?_)).2, List.nil_subperm⟩ <;>
      · rw [chain]
        refine (map_view_setTop LevelView.path _ (by intro; rfl) _).trans ?_
        rw [Level.record]
        exact map_view_setTop LevelView.path _ (by intro; rfl) _

theorem MemNode.reaches_of_append {node : MemNode} {r : List Nat} :
    ∀ {q : List Nat}, node.Reaches (q ++ r) → node.Reaches q := by
  intro q
  induction q generalizing node with
  | nil => intro _; trivial
  | cons j js inductionHypothesis =>
      intro reaches
      obtain ⟨next, located, nextReaches⟩ := reaches
      exact ⟨next, located, inductionHypothesis nextReaches⟩

/-- Moving back up, as the walker answers. -/
theorem run_leaveChild (walker : Walker MemWalk) (path : String) (s : ScanState MemWalk) :
    (leaveChild walker path).run s = match walker.leave s.walker with
      | .error reason => .error (.lostPosition path reason)
      | .ok state => .ok ((), { s with walker := state, chain := s.chain.tail }) := by
  unfold leaveChild
  rw [run_get_bind]
  cases walker.leave s.walker <;> rfl

/-- The settled walker moves back up from a child to the directory at `p`. -/
theorem leaveChild_settled {p : List Nat} {i : Nat} {path : String} {s : ScanState MemWalk}
    (stands : StandsAt T rootName (p ++ [i]) s) :
    (leaveChild settledWalker path).run s =
      .ok ((), { s with walker := { s.walker with position := p }, chain := s.chain.tail }) ∧
      StandsAt T rootName p { s with walker := { s.walker with position := p }, chain := s.chain.tail } := by
  have away : s.walker.position.isEmpty = false := by rw [stands.position]; simp
  refine ⟨?_, stands.root, rfl, MemNode.reaches_of_append stands.reaches, ?_⟩
  · rw [run_leaveChild]
    simp only [settledWalker, away]
    rw [stands.position, List.dropLast_concat]
    rfl
  · show s.chain.tail.map (·.path) = _
    rw [List.map_tail, stands.chain, MemNode.chainPaths_append]
    rfl

/-- The in-memory walker moves back up from the directory at `q` as the settled one
does, unless that directory refuses to be left. -/
theorem run_leaveChild_bind {β : Type} {q : List Nat} {s : ScanState MemWalk}
    {k : Unit → ScanM MemWalk β} (root : s.walker.root = T) (position : s.walker.position = q) :
    (leaveChild memWalker (T.place rootName rootName q).1 >>= k).run s =
      stopAtRefusal T rootName [q] ((leaveChild settledWalker (T.place rootName rootName q).1 >>= k).run s) := by
  have current : s.walker.current = T.follow q := by rw [MemWalk.current, root, position]
  rw [StateT.run_bind, StateT.run_bind, run_leaveChild, run_leaveChild, memWalker_leave, current]
  by_cases refuses : (T.follow q).refusesLeave
  · rw [if_pos refuses, stopAtRefusal_of_some (by rw [refusal_singleton, if_pos refuses])]
    rfl
  · rw [if_neg refuses, stopAtRefusal_of_none (by rw [refusal_singleton, if_neg refuses])]

end InStep

/-! ### The settled scan and the in-memory walker's scan beside it -/

section Follows

variable {T : MemNode} {rootName : String} {α β : Type}

/-- The result `settled` of a step of the settled scan and the in-memory walker's
result `real` of the same step from the same state. When the settled step gives a
value `a`, `spec a` holds, and `real` is `settled` stopped at the first refusal
among the directories `leftOf a` left on the way; when it fails, it has not lost
its position, and `real` is its failure or an earlier refusal. -/
structure Follows (T : MemNode) (rootName : String) (spec : α → Prop) (leftOf : α → List (List Nat))
    (settled real : Except ScanError α) : Prop where
  ok : ∀ a, settled = .ok a → spec a ∧ real = stopAtRefusal T rootName (leftOf a) settled
  error : ∀ e, settled = .error e → (∀ path reason, e ≠ .lostPosition path reason) ∧
    ∃ left : List (List Nat), (∀ q ∈ left, q ≠ []) ∧ real = stopAtRefusal T rootName left settled

variable {spec spec' : α → Prop} {leftOf leftOf' : α → List (List Nat)}

theorem follows_ok {a : α} (holds : spec a) (clear : refusal T rootName (leftOf a) = none) :
    Follows T rootName spec leftOf (.ok a) (.ok a) :=
  ⟨fun a' h => by
    cases h
    exact ⟨holds, (stopAtRefusal_of_none clear _).symm⟩, fun e h => by cases h⟩

theorem follows_error {e : ScanError} (notLost : ∀ path reason, e ≠ .lostPosition path reason) :
    Follows T rootName spec leftOf (.error e) (.error e) := by
  refine ⟨fun a ran => (by cases ran), fun e' ran => ?_⟩
  cases ran
  exact ⟨notLost, [], by simp, (stopAtRefusal_of_none refusal_nil _).symm⟩

theorem Follows.imp {settled real : Except ScanError α} (follows : Follows T rootName spec leftOf settled real)
    (h : ∀ a, settled = .ok a → spec a → spec' a ∧ leftOf' a = leftOf a) :
    Follows T rootName spec' leftOf' settled real := by
  refine ⟨fun a ran => ?_, follows.error⟩
  obtain ⟨holds, real⟩ := follows.ok a ran
  obtain ⟨holds', same⟩ := h a ran holds
  exact ⟨holds', by rw [same]; exact real⟩

theorem stopAtRefusal_map (left : List (List Nat)) (f : α → β) (r : Except ScanError α) :
    (stopAtRefusal T rootName left r).map f = stopAtRefusal T rootName left (r.map f) := by
  cases stopped : refusal T rootName left with
  | none => rw [stopAtRefusal_of_none stopped, stopAtRefusal_of_none stopped]
  | some e => rw [stopAtRefusal_of_some stopped, stopAtRefusal_of_some stopped]; rfl

theorem Follows.map {spec' : β → Prop} {leftOf' : β → List (List Nat)} {f : α → β}
    {settled real : Except ScanError α} (follows : Follows T rootName spec leftOf settled real)
    (h : ∀ a, settled = .ok a → spec a → spec' (f a) ∧ leftOf' (f a) = leftOf a) :
    Follows T rootName spec' leftOf' (settled.map f) (real.map f) := by
  constructor
  · intro b ran
    cases settledEq : settled with
    | error e => rw [settledEq] at ran; cases ran
    | ok a =>
        rw [settledEq] at ran
        cases ran
        obtain ⟨holds, real⟩ := follows.ok a settledEq
        obtain ⟨holds', same⟩ := h a settledEq holds
        refine ⟨holds', ?_⟩
        rw [real, stopAtRefusal_map, settledEq, same]
  · intro e ran
    cases settledEq : settled with
    | ok a => rw [settledEq] at ran; cases ran
    | error e' =>
        rw [settledEq] at ran
        cases ran
        obtain ⟨notLost, left, below, real⟩ := follows.error e settledEq
        exact ⟨notLost, left, below, by rw [real, stopAtRefusal_map, settledEq]⟩

theorem stopAtRefusal_append (left left' : List (List Nat)) (r : Except ScanError α) :
    stopAtRefusal T rootName left (stopAtRefusal T rootName left' r) =
      stopAtRefusal T rootName (left ++ left') r := by
  unfold stopAtRefusal
  rw [refusal_append]
  cases refusal T rootName left <;> rfl

/-- Directories left before a step stop it at their first refusal, before its own. -/
theorem Follows.stopped {settled real : Except ScanError α} (follows : Follows T rootName spec leftOf settled real)
    {before : List (List Nat)} (below : ∀ q ∈ before, q ≠ []) :
    Follows T rootName spec (fun a => before ++ leftOf a) settled (stopAtRefusal T rootName before real) := by
  constructor
  · intro a ran
    obtain ⟨holds, real⟩ := follows.ok a ran
    exact ⟨holds, by rw [real, stopAtRefusal_append]⟩
  · intro e ran
    obtain ⟨notLost, left, leftBelow, real⟩ := follows.error e ran
    refine ⟨notLost, before ++ left, fun q member => ?_, by rw [real, stopAtRefusal_append]⟩
    rcases List.mem_append.mp member with early | late
    · exact below q early
    · exact leftBelow q late

/-- A step both scans make alike, which fails without losing its position, then
related steps. -/
theorem follows_bind_same {x : ScanM MemWalk α} {k l : α → ScanM MemWalk β}
    {spec : β × ScanState MemWalk → Prop} {leftOf : β × ScanState MemWalk → List (List Nat)}
    {s : ScanState MemWalk} (throws : Throws (fun e => ∀ path reason, e ≠ .lostPosition path reason) x)
    (rest : ∀ a s₁, x.run s = .ok (a, s₁) → Follows T rootName spec leftOf ((k a).run s₁) ((l a).run s₁)) :
    Follows T rootName spec leftOf ((x >>= k).run s) ((x >>= l).run s) := by
  cases ran : x.run s with
  | error e =>
      rw [run_bind_of_eq_error ran, run_bind_of_eq_error ran]
      exact follows_error (throws s e ran)
  | ok r =>
      obtain ⟨a, s₁⟩ := r
      rw [run_bind_of_eq_ok ran, run_bind_of_eq_ok ran]
      exact rest a s₁ ran

/-- Related steps that fail in the settled scan stop both scans. -/
theorem Follows.bind_error {x y : ScanM MemWalk α} {k l : α → ScanM MemWalk β}
    {spec₁ : α × ScanState MemWalk → Prop} {leftOf₁ : α × ScanState MemWalk → List (List Nat)}
    {spec : β × ScanState MemWalk → Prop} {leftOf : β × ScanState MemWalk → List (List Nat)}
    {s : ScanState MemWalk} {e : ScanError}
    (first : Follows T rootName spec₁ leftOf₁ (x.run s) (y.run s)) (failed : x.run s = .error e) :
    Follows T rootName spec leftOf ((x >>= k).run s) ((y >>= l).run s) := by
  obtain ⟨notLost, left, below, real⟩ := first.error e failed
  rw [failed, stopAtRefusal_error] at real
  rw [run_bind_of_eq_error failed, run_bind_of_eq_error real]
  refine ⟨fun a ran => (by cases ran), fun e' ran => ?_⟩
  cases ran
  exact ⟨notLost, left, below, by rw [stopAtRefusal_error]⟩

/-- Related steps that go on in the settled scan, then steps that follow each other
once the directories the first steps left are taken into account. -/
theorem Follows.bind_ok {x y : ScanM MemWalk α} {k l : α → ScanM MemWalk β}
    {spec₁ : α × ScanState MemWalk → Prop} {leftOf₁ : α × ScanState MemWalk → List (List Nat)}
    {spec : β × ScanState MemWalk → Prop} {leftOf : β × ScanState MemWalk → List (List Nat)}
    {s s₁ : ScanState MemWalk} {a : α}
    (first : Follows T rootName spec₁ leftOf₁ (x.run s) (y.run s)) (ran : x.run s = .ok (a, s₁))
    (rest : Follows T rootName spec leftOf ((k a).run s₁)
      (stopAtRefusal T rootName (leftOf₁ (a, s₁)) ((l a).run s₁))) :
    Follows T rootName spec leftOf ((x >>= k).run s) ((y >>= l).run s) := by
  obtain ⟨-, real⟩ := first.ok (a, s₁) ran
  rw [run_stopAtRefusal_bind real, run_bind_of_eq_ok ran, run_bind_of_eq_ok ran]
  exact rest

/-- Related steps, then related steps after them once the directories the first
steps left are taken into account. -/
theorem Follows.bind {x y : ScanM MemWalk α} {k l : α → ScanM MemWalk β}
    {spec₁ : α × ScanState MemWalk → Prop} {leftOf₁ : α × ScanState MemWalk → List (List Nat)}
    {spec : β × ScanState MemWalk → Prop} {leftOf : β × ScanState MemWalk → List (List Nat)}
    {s : ScanState MemWalk} (first : Follows T rootName spec₁ leftOf₁ (x.run s) (y.run s))
    (rest : ∀ a s₁, x.run s = .ok (a, s₁) → spec₁ (a, s₁) →
      Follows T rootName spec leftOf ((k a).run s₁)
        (stopAtRefusal T rootName (leftOf₁ (a, s₁)) ((l a).run s₁))) :
    Follows T rootName spec leftOf ((x >>= k).run s) ((y >>= l).run s) := by
  cases ran : x.run s with
  | error e => exact first.bind_error ran
  | ok r =>
      obtain ⟨a, s₁⟩ := r
      exact first.bind_ok ran (rest a s₁ ran (first.ok _ ran).1)

/-- A step both scans make alike after leaving the directories `before`, which fails
without losing its position. -/
theorem follows_stopAtRefusal {x : ScanM MemWalk α} {s : ScanState MemWalk}
    {spec : α × ScanState MemWalk → Prop} {leftOf : α × ScanState MemWalk → List (List Nat)}
    {before : List (List Nat)}
    (throws : Throws (fun e => ∀ path reason, e ≠ .lostPosition path reason) x)
    (below : ∀ q ∈ before, q ≠ []) (holds : ∀ r, x.run s = .ok r → spec r ∧ leftOf r = before) :
    Follows T rootName spec leftOf (x.run s) (stopAtRefusal T rootName before (x.run s)) := by
  cases ran : x.run s with
  | ok r =>
      obtain ⟨holds, left⟩ := holds r ran
      refine ⟨fun a same => ?_, fun e same => (by cases same)⟩
      cases same
      exact ⟨holds, by rw [left]⟩
  | error e =>
      refine ⟨fun a same => (by cases same), fun e' same => ?_⟩
      cases same
      exact ⟨throws s e ran, before, below, rfl⟩

/-- A step of both scans that ends in `pure`. -/
theorem run_bind_of_pure {x : ScanM MemWalk α} {k : α → ScanM MemWalk β} {f : α → β}
    (pure : ∀ a, k a = Pure.pure (f a)) (s : ScanState MemWalk) :
    (x >>= k).run s = (x.run s).map fun r => (f r.1, r.2) := by
  rw [StateT.run_bind]
  cases x.run s with
  | error e => rfl
  | ok r =>
      obtain ⟨a, s'⟩ := r
      show (k a).run s' = _
      rw [pure]
      rfl

end Follows

/-! ### The settled scan of a directory -/

section Settled

variable {T : MemNode} {rootName : String} {limits : Limits} {firstFresh : Nat}

/-- What the settled scan of the directory `d` at `p` leaves when it ends with `d'`:
the walker back at `p`, one listing started for each directory of `d'` moved into
whose ordinal is within `maxDirs`, and distinct names among the child directories
of every directory of `d'`. -/
structure Settled (limits : Limits) (firstFresh : Nat) (T : MemNode) (rootName : String)
    (p : List Nat) (d d' : DirEntry) (s s' : ScanState MemWalk) : Prop where
  stands : StandsAt T rootName p s'
  listed : s'.walker.listed = s.walker.listed ++ d'.listings limits firstFresh T p
  name : d'.name = d.name
  apart : ∀ e ∈ d'.allDirs, (e.dirs.map (·.name)).Nodup

/-- What the settled scan of the child directories `cs` of the directory at `p`
leaves when it ends with `cs'`. -/
structure SettledAll (limits : Limits) (firstFresh : Nat) (T : MemNode) (rootName : String)
    (p : List Nat) (cs cs' : List DirEntry) (s s' : ScanState MemWalk) : Prop where
  stands : StandsAt T rootName p s'
  listed : s'.walker.listed =
    s.walker.listed ++ cs'.flatMap (DirEntry.childListings T limits firstFresh p)
  names : cs'.map (·.name) = cs.map (·.name)
  apart : ∀ c ∈ cs', ∀ e ∈ c.allDirs, (e.dirs.map (·.name)).Nodup

theorem settledWalker_enter : settledWalker.enter = memWalker.enter := rfl

theorem readDir_settledWalker (d : DirEntry) :
    readDir settledWalker limits firstFresh d = readDir memWalker limits firstFresh d := rfl

/-- The directories a scan moves back out of all lie below the root. -/
theorem ne_nil_of_mem_leaves {p : List Nat} {d : DirEntry} {q : List Nat} (member : q ∈ d.leaves T p) :
    q ≠ [] := by
  intro empty
  have := DirEntry.length_lt_of_mem_leaves T d member
  rw [empty] at this
  exact Nat.not_lt_zero _ this

theorem ne_nil_of_mem_childLeaves {p : List Nat} {c : DirEntry} {q : List Nat}
    (member : q ∈ DirEntry.childLeaves T p c) : q ≠ [] := by
  unfold DirEntry.childLeaves at member
  split at member
  · rcases List.mem_append.mp member with below | self
    · exact ne_nil_of_mem_leaves below
    · rw [List.mem_singleton] at self
      simp [self]
  · cases member

/-- A directory the scan has not read holds no child directories of its own. -/
theorem apart_of_noDirs {c : DirEntry} (noDirs : c.dirs = []) :
    ∀ e ∈ c.allDirs, (e.dirs.map (·.name)).Nodup := by
  intro e member
  rw [DirEntry.allDirs_eq, noDirs, List.flatMap_nil, List.mem_singleton] at member
  rw [member, noDirs]
  exact List.nodup_nil

/-- The settled scan and the in-memory one of the child directories `cs` of the
directory at `p`, given that they follow each other on every child. -/
theorem enterAll_follows {visitS visitR : String → Option DirEntry → DirEntry → ScanM MemWalk DirEntry}
    (childFollows : ∀ {q : List Nat} {path : String} {b : Option DirEntry} {c : DirEntry}
      {t : ScanState MemWalk}, StandsAt T rootName q t → T.place rootName rootName q = (path, c.name) →
      c.dirs = [] → c.files = [] →
      Follows T rootName (fun r : DirEntry × ScanState MemWalk => Settled limits firstFresh T rootName q c r.1 t r.2)
        (fun r => r.1.leaves T q) ((visitS path b c).run t) ((visitR path b c).run t))
    {p : List Nat} {path parentName : String} (placed : T.place rootName rootName p = (path, parentName)) :
    ∀ {cs : List DirEntry} {baselines : List (Option DirEntry)} {s : ScanState MemWalk},
      StandsAt T rootName p s → (∀ c ∈ cs, c.dirs = [] ∧ c.files = []) →
      Follows T rootName
        (fun r : (List DirEntry × List (Option DirEntry)) × ScanState MemWalk =>
          SettledAll limits firstFresh T rootName p cs r.1.1 s r.2)
        (fun r => r.1.1.flatMap (DirEntry.childLeaves T p))
        ((enterAll settledWalker visitS path parentName cs baselines).run s)
        ((enterAll memWalker visitR path parentName cs baselines).run s) := by
  intro cs
  induction cs with
  | nil =>
      intro baselines s stands _
      refine follows_ok ⟨stands, by simp, rfl, by simp⟩ refusal_nil
  | cons c cs inductionHypothesis =>
      intro baselines s stands children
      obtain ⟨noDirs, noFiles⟩ := children c List.mem_cons_self
      have restChildren : ∀ c' ∈ cs, c'.dirs = [] ∧ c'.files = [] :=
        fun c' member => children c' (List.mem_cons_of_mem c member)
      have current : s.walker.current = T.follow p := by
        rw [MemWalk.current, stands.root, stands.position]
      rw [enterAll, enterAll]
      dsimp only
      rw [run_get_bind, run_get_bind, settledWalker_enter, memWalker_enter, current]
      cases entered : (T.follow p).enteredAt c.name with
      | none =>
          -- A child the walker refuses is kept as listed.
          dsimp only [Option.map_none]
          rw [run_count_bind, run_count_bind, run_bind_of_pure (fun _ => rfl),
            run_bind_of_pure (fun _ => rfl)]
          refine Follows.map (inductionHypothesis ?_ restChildren) fun r _ rest => ⟨?_, ?_⟩
          · exact stands.keep rfl rfl rfl
          · refine ⟨rest.stands, ?_, by simp [rest.names], ?_⟩
            · simp [rest.listed, DirEntry.childListings, entered]
            · intro c' member
              rcases List.mem_cons.mp member with rfl | later
              · exact apart_of_noDirs noDirs
              · exact rest.apart c' later
          · simp [DirEntry.childLeaves, entered]
      | some i =>
          -- The walker moves into the child, the scan visits it and moves back up.
          obtain ⟨grandchildren, refuseLeave, located⟩ := MemNode.enteredAt_eq_some entered
          have placedChild : T.place rootName rootName (p ++ [i]) =
              (Wire.childPath path parentName c.name, c.name) := by
            rw [MemNode.place_append stands.reaches located, placed]
            rfl
          have childPlace : Wire.childPath path parentName c.name = (T.place rootName rootName (p ++ [i])).1 := by
            rw [placedChild]
          have childStands : StandsAt T rootName (p ++ [i])
              { s with walker := { s.walker with position := s.walker.position ++ [i] },
                       chain := { id := c.id, path := (T.place rootName rootName (p ++ [i])).1,
                                  announced := baselines.head?.join.isNone } :: s.chain } :=
            ⟨stands.root, by simp [stands.position], (MemNode.reaches_append stands.reaches located).1,
              by simp [MemNode.chainPaths_append, stands.chain]⟩
          dsimp only [Option.map_some]
          rw [run_set_bind, run_set_bind, childPlace]
          refine Follows.bind (childFollows childStands (by rw [placedChild]) noDirs noFiles)
            fun c' s₂ _ child => ?_
          dsimp only at child
          have leftChild : DirEntry.childLeaves T p c' = c'.leaves T (p ++ [i]) ++ [p ++ [i]] := by
            simp [DirEntry.childLeaves, child.name, entered]
          obtain ⟨left, standsBack⟩ := leaveChild_settled child.stands
          -- Moving back up, the in-memory walker stops if the child refuses to be left.
          rw [run_leaveChild_bind child.stands.root child.stands.position, stopAtRefusal_append,
            ← leftChild, run_bind_of_eq_ok left, run_bind_of_eq_ok left, run_bind_of_pure (fun _ => rfl),
            run_bind_of_pure (fun _ => rfl), ← stopAtRefusal_map]
          refine Follows.map ((inductionHypothesis standsBack restChildren).stopped
            fun q => ne_nil_of_mem_childLeaves) fun r _ rest => ⟨?_, by simp⟩
          refine ⟨rest.stands, ?_, by simp [child.name, rest.names], ?_⟩
          · rw [rest.listed]
            simp [child.listed, DirEntry.childListings, child.name, entered]
          · intro c'' member
            rcases List.mem_cons.mp member with rfl | later
            · exact child.apart
            · exact rest.apart c'' later

/-- The settled scan and the in-memory one of the directory `d` at `p`, which the
walker has just entered, when sibling directories have distinct names. -/
theorem visit_follows (distinct : T.DistinctDirs) :
    ∀ (fuel : Nat) {p : List Nat} {path : String} {old : Option DirEntry} {d : DirEntry}
      {s : ScanState MemWalk}, StandsAt T rootName p s → T.place rootName rootName p = (path, d.name) →
      d.dirs = [] → d.files = [] →
      Follows T rootName (fun r : DirEntry × ScanState MemWalk => Settled limits firstFresh T rootName p d r.1 s r.2)
        (fun r => r.1.leaves T p)
        ((visit settledWalker limits firstFresh fuel path old d).run s)
        ((visit memWalker limits firstFresh fuel path old d).run s) := by
  intro fuel
  induction fuel with
  | zero =>
      intro p path old d s _ _ _ _
      rw [visit, visit, run_throw]
      exact follows_error fun _ _ lost => ScanError.noConfusion lost
  | succ fuel inductionHypothesis =>
      intro p path old d s stands placed noDirs noFiles
      rw [visit, visit, readDir_settledWalker]
      -- Reading and merging are the same steps in both scans.
      refine follows_bind_same (throws_readDir (fun _ _ _ lost => ScanError.noConfusion lost) limits firstFresh d)
        fun d₁ s₁ read => ?_
      have numbered := readDir_numbered read ⟨noDirs, noFiles⟩
      obtain ⟨stands₁, listed₁, names₁⟩ := readDir_inStep read stands noDirs
      refine follows_bind_same (throws_merge (fun _ _ lost => ScanError.noConfusion lost) path old d₁) fun r₂ s₂ merged => ?_
      obtain ⟨d₂, baselines⟩ := r₂
      have mergeSpec := numbered.merged merged
      have stands₂ : StandsAt T rootName p s₂ :=
        stands₁.keep (by rw [mergeSpec.walker]) (by rw [mergeSpec.walker])
          (chainShows_merge LevelView.path path old d₁ s₁ _ s₂ merged rfl)
      have name₂ : d₂.name = d.name := (congrArg DirEntry.name mergeSpec.same).trans numbered.name
      have id₂ : d₂.id = d.id := (congrArg DirEntry.id mergeSpec.same).trans numbered.id
      dsimp only
      rw [run_dumpAll_bind, run_dumpAll_bind]
      refine Follows.bind (enterAll_follows (fun standsC placedC noDirsC noFilesC =>
          inductionHypothesis standsC placedC noDirsC noFilesC) (by rw [placed, name₂])
          (stands₂.keep rfl rfl rfl) (mergeSpec.empty_of_mem numbered.childrenEmpty))
        fun r₃ s₃ _ children => ?_
      obtain ⟨dirs, pending⟩ := r₃
      dsimp only at children ⊢
      -- The steps after the children are again the same in both scans.
      refine follows_stopAtRefusal ((throws_checked (fun _ _ lost => ScanError.noConfusion lost) _).bind fun size =>
          (throws_compareChildren path _ _ _ _).bind fun _ => (throws_modify _).bind fun _ => Throws.pure _)
        (fun q member => ?_) fun r ran => ?_
      · obtain ⟨c, -, inside⟩ := List.mem_flatMap.mp member
        exact ne_nil_of_mem_childLeaves inside
      obtain ⟨d', s'⟩ := r
      rw [run_bind_eq_ok] at ran
      obtain ⟨size, s₄, summed, ran⟩ := ran
      rw [run_checked_eq_ok] at summed
      obtain ⟨-, rfl⟩ := summed
      rw [run_bind_eq_ok] at ran
      obtain ⟨_, s₅, compared, ran⟩ := ran
      obtain ⟨walker₅, -, -, -, -⟩ := keeps_compareChildren _ _ _ _ _ _ _ _ compared
      have paths₅ := chainShows_compareChildren LevelView.path path _ _ _ _ _ _ s₅ compared rfl
      rw [run_dumpAll_bind, run_pure_eq_ok] at ran
      obtain ⟨rfl, rfl⟩ := ran
      have dirNames : (dirs.map (·.name)).Nodup := by
        obtain ⟨named, perm, sub⟩ := names₁
        rw [children.names, mergeSpec.names, ← perm.nodup_iff]
        exact (distinct p).sublist sub
      refine ⟨⟨children.stands.keep (congrArg (·.root) walker₅) (congrArg (·.position) walker₅) paths₅,
        ?_, name₂, ?_⟩, DirEntry.leaves_eq T p _⟩
      · show s₅.walker.listed = _
        rw [walker₅, children.listed, DirEntry.listings_eq]
        show s₂.walker.listed ++ _ = _
        rw [mergeSpec.walker, listed₁, id₂, List.append_assoc]
      · intro e member
        rw [DirEntry.allDirs_eq, List.mem_cons] at member
        rcases member with rfl | below
        · exact dirNames
        · obtain ⟨c, child, inside⟩ := List.mem_flatMap.mp below
          exact children.apart c child e inside

/-- The settled scan of a whole tree and the in-memory one: the settled scan ends
with the walker back at the root, having started the listings of the directories it
moved into whose ordinal is within `maxDirs`, in the order it read them. -/
theorem run_follows (distinct : T.DistinctDirs) (limits : Limits) (name : String)
    (baseline : Option DirEntry) (ids : IdSupply) :
    Follows T name
      (fun scan : Scan MemWalk => scan.walker = { root := T, listed := scan.tree.listings limits ids.next T [] } ∧
        ∀ e ∈ scan.tree.allDirs, (e.dirs.map (·.name)).Nodup)
      (fun scan => scan.tree.leaves T [])
      (Scan.run settledWalker limits { root := T } (DirEntry.root name) baseline ids)
      (Scan.run memWalker limits { root := T } (DirEntry.root name) baseline ids) := by
  unfold Scan.run
  dsimp only
  refine Follows.map (?_ : Follows T name (fun r : DirEntry × ScanState MemWalk => StandsAt T name [] r.2 ∧
      r.2.walker.listed = r.1.listings limits ids.next T [] ∧ ∀ e ∈ r.1.allDirs, (e.dirs.map (·.name)).Nodup)
    (fun r => r.1.leaves T []) _ _) fun ⟨tree, s⟩ _ ⟨stands, listed, apart⟩ => ⟨⟨?_, apart⟩, rfl⟩
  · refine follows_bind_same (throws_openRoot _ _) fun _ s₁ opened => ?_
    have stands₁ : StandsAt T name [] s₁ :=
      StandsAt.after ⟨rfl, rfl, trivial, rfl⟩ (keeps_openRoot _ _) (chainShows_openRoot LevelView.path _ _) opened
    obtain ⟨walker₁, -⟩ := keeps_openRoot _ _ _ _ _ opened
    rw [run_dumpAll_bind, run_dumpAll_bind]
    refine Follows.bind (visit_follows distinct _ (stands₁.keep rfl rfl rfl) rfl rfl rfl)
      fun d s₂ _ visited => ?_
    dsimp only at visited
    -- Closing the root is again the same step in both scans.
    refine follows_stopAtRefusal ((throws_closeRoot _ _).bind fun _ => (throws_modify _).bind fun _ =>
        Throws.pure _) (fun q => ne_nil_of_mem_leaves) fun r ran => ?_
    obtain ⟨d', s'⟩ := r
    rw [run_bind_eq_ok] at ran
    obtain ⟨_, s₃, closed, ran⟩ := ran
    rw [run_dumpAll_bind, run_pure_eq_ok] at ran
    obtain ⟨rfl, rfl⟩ := ran
    obtain ⟨walker₃, -⟩ := keeps_closeRoot _ _ _ _ _ closed
    refine ⟨⟨(visited.stands.after (keeps_closeRoot _ _) (chainShows_closeRoot LevelView.path _ _) closed).keep rfl rfl rfl,
      ?_, visited.apart⟩, rfl⟩
    show s₃.walker.listed = _
    rw [walker₃, visited.listed]
    show s₁.walker.listed ++ _ = _
    rw [walker₁]
    rfl
  · show s.walker = _
    rw [stands.walker_eq, listed]

/-- A scan over the in-memory walker, of a tree whose sibling directories have
distinct names, fails only on an overflow or at a directory below the root that
refuses to be left. -/
theorem run_error_cases {T : MemNode} (distinct : T.DistinctDirs) {limits : Limits} {name : String}
    {baseline : Option DirEntry} {ids : IdSupply} {e : ScanError}
    (h : Scan.run memWalker limits { root := T } (DirEntry.root name) baseline ids = .error e) :
    (∃ counter, e = .overflow counter) ∨
      ∃ q, q ≠ [] ∧ (T.follow q).refusesLeave = true ∧
        e = .lostPosition (T.place name name q).1 "connection lost" := by
  have follows := run_follows distinct limits name baseline ids
  have refused {left : List (List Nat)} (below : ∀ q ∈ left, q ≠ []) {e' : ScanError}
      (stopped : refusal T name left = some e') : ∃ q, q ≠ [] ∧ (T.follow q).refusesLeave = true ∧
        e' = .lostPosition (T.place name name q).1 "connection lost" := by
    obtain ⟨q, member, refuses, same⟩ := refusal_eq_some stopped
    exact ⟨q, below q member, refuses, same⟩
  cases settled : Scan.run settledWalker limits { root := T } (DirEntry.root name) baseline ids with
  | ok scan =>
      -- The settled scan ends; the in-memory one fails only at a refusal on the way.
      obtain ⟨-, real⟩ := follows.ok scan settled
      rw [h, settled] at real
      cases stopped : refusal T name (scan.tree.leaves T []) with
      | none =>
          rw [stopAtRefusal_of_none stopped] at real
          cases real
      | some e' =>
          rw [stopAtRefusal_of_some stopped] at real
          cases real
          exact .inr (refused (fun _ => ne_nil_of_mem_leaves) stopped)
  | error e₀ =>
      obtain ⟨notLost, left, below, real⟩ := follows.error e₀ settled
      rw [h, settled, stopAtRefusal_error] at real
      cases stopped : refusal T name left with
      | none =>
          rw [stopped, Option.getD_none] at real
          cases real
          cases e with
          | overflow counter => exact .inl ⟨counter, rfl⟩
          | lostPosition path reason => exact absurd rfl (notLost path reason)
          | tooDeep => exact absurd settled (Scan.run_ne_tooDeep rfl rfl)
      | some e' =>
          rw [stopped, Option.getD_some] at real
          cases real
          exact .inr (refused below stopped)

/-- A tree of one directory with no children has distinct sibling names everywhere. -/
theorem distinctDirs_leaf (name : String) (refuseEnter refuseLeave : Bool) :
    (MemNode.dir name [] refuseEnter refuseLeave).DistinctDirs := by
  intro q
  cases q <;> simp [MemNode.follow, MemNode.dirNames, MemNode.children]

end Settled

end Scan

end TreeDump
