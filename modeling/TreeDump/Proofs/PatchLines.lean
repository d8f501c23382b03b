import Mathlib
import TreeDump.Proofs.ScanTree
import TreeDump.Proofs.Accepted

/-!
The lines of a patch.

Owns: every line a scan writes into its patch is marked and holds no line break
(`Line.Passed`, what a reader passes over), when the walker lists names without
line breaks, the root's name holds none and the baseline is a tree as a reader
rebuilds it.

The invariant is `Scan.Clean`: the walker in a good state, the patch passed over,
and no line break in a path of the chain. `Preserves` says that a step keeps a
property of the state, and is closed under `pure`, `bind` and `if`; each step of
a scan keeps `Clean`, given that the names it writes hold none, and visiting a
directory keeps it by induction on the depth, with the names of the children
taken from `readDir_spec` and `merge_spec`.
-/

namespace TreeDump

open Wire

/-! ### Lines a reader passes over -/

/-- A line a reader passes over: marked, and without a line break. -/
def Wire.Line.Passed (line : Line) : Prop := line.marker.isSome ∧ '\n' ∉ line.render.toList

theorem Wire.Line.passed {marker : Marker} {record : Record} (plain : record.Plain) :
    (⟨some marker, record⟩ : Line).Passed :=
  ⟨rfl, Line.newline_not_mem_render _ (by cases record <;> exact plain)⟩

theorem DirEntry.Rebuilt.child {bound : Nat} {d c : DirEntry} (rebuilt : d.Rebuilt bound)
    (child : c ∈ d.dirs) : c.Rebuilt bound :=
  ⟨(rebuilt.below c (DirEntry.mem_flatMap_allDirs_of_mem child)).2.2.2,
    fun _ below => rebuilt.below _ (DirEntry.mem_flatMap_allDirs_of_below child below)⟩

theorem DirEntry.Rebuilt.childNoBreak {bound : Nat} {d c : DirEntry} (rebuilt : d.Rebuilt bound)
    (child : c ∈ d.dirs) : '\n' ∉ c.name.toList :=
  (rebuilt.below c (DirEntry.mem_flatMap_allDirs_of_mem child)).2.2.1

/-- Every line written for what a rebuilt directory holds, with a marker, is passed
over. -/
theorem DirEntry.passed_replayInside (marker : Marker) {bound : Nat} :
    ∀ (d : DirEntry), d.Rebuilt bound → ∀ path : String, '\n' ∉ path.toList →
      ∀ line ∈ d.replayInside (some marker) path, line.Passed := by
  intro d
  induction d using DirEntry.induction with
  | step d inductionHypothesis =>
      intro rebuilt path pathNoBreak line member
      rw [DirEntry.replayInside_eq] at member
      simp only [List.mem_append, List.mem_map, List.mem_flatMap] at member
      rcases member with ((⟨c, child, rfl⟩ | ⟨f, file, rfl⟩) | ⟨c, child, inside⟩) | ⟨c, child, rfl⟩
      · exact Line.passed (newline_not_mem_childPath pathNoBreak (rebuilt.childNoBreak child) _)
      · exact Line.passed (show '\n' ∉ f.name.toList from rebuilt.files f file)
      · exact inductionHypothesis c child (rebuilt.child child) _
          (newline_not_mem_childPath pathNoBreak (rebuilt.childNoBreak child) _) line inside
      · exact Line.passed (show '\n' ∉ c.name.toList from rebuilt.childNoBreak child)

theorem DirEntry.passed_replay (marker : Marker) {bound : Nat} {d : DirEntry}
    (rebuilt : d.Rebuilt bound) {path : String} (pathNoBreak : '\n' ∉ path.toList)
    (nameNoBreak : '\n' ∉ d.name.toList) (parent : Nat) :
    ∀ line ∈ d.replay (some marker) path parent, line.Passed := by
  intro line member
  rw [DirEntry.replay, List.mem_append, List.mem_cons, List.mem_singleton] at member
  rcases member with (rfl | inside) | rfl
  · exact Line.passed (show '\n' ∉ path.toList from pathNoBreak)
  · exact DirEntry.passed_replayInside marker d rebuilt path pathNoBreak line inside
  · exact Line.passed (show '\n' ∉ d.name.toList from nameNoBreak)

namespace Scan

variable {σ α β : Type} {walker : Walker σ} {good : σ → Prop}

/-! ### Clean states -/

/-- A scan state a reader can follow: the walker in a good state, every line of the
patch passed over by a reader, and no line break in the path of a directory of
the chain. -/
structure Clean (good : σ → Prop) (s : ScanState σ) : Prop where
  walker : good s.walker
  patch : ∀ line ∈ s.patch.toList, line.Passed
  chain : ∀ level ∈ s.chain, '\n' ∉ level.path.toList

theorem Clean.emitAll {s : ScanState σ} (clean : Clean good s) {lines : List Line}
    (passed : ∀ line ∈ lines, line.Passed) :
    Clean good { s with patch := lines.foldl Array.push s.patch } := by
  refine ⟨clean.walker, fun line member => ?_, clean.chain⟩
  simp only [List.foldl_push_eq_append', Array.toList_append, List.mem_append] at member
  rcases member with earlier | written
  · exact clean.patch line earlier
  · exact passed line written

/-- A step that keeps a property of the scan state. -/
def Preserves (P : ScanState σ → Prop) (x : ScanM σ α) : Prop :=
  ∀ s a s', x.run s = .ok (a, s') → P s → P s'

namespace Preserves

variable {P : ScanState σ → Prop}

theorem pure (a : α) : Preserves P (Pure.pure a : ScanM σ α) := by
  intro s r s' h holds
  rw [run_pure_eq_ok] at h
  rw [h.2]
  exact holds

theorem bind {x : ScanM σ α} {k : α → ScanM σ β} (first : Preserves P x)
    (rest : ∀ a, Preserves P (k a)) : Preserves P (x >>= k) := by
  intro s r s' h holds
  obtain ⟨a, s₁, ran, continued⟩ := run_bind_eq_ok.mp h
  exact rest a s₁ r s' continued (first s a s₁ ran holds)

theorem ite {c : Prop} [Decidable c] {x y : ScanM σ α} (yes : c → Preserves P x)
    (no : ¬c → Preserves P y) : Preserves P (if c then x else y) := by
  by_cases holds : c
  · rw [if_pos holds]
    exact yes holds
  · rw [if_neg holds]
    exact no holds

theorem modify {f : ScanState σ → ScanState σ} (keeps : ∀ s, P s → P (f s)) :
    Preserves P (modify f : ScanM σ PUnit) := by
  intro s r s' h holds
  rw [run_modify, Except.ok.injEq, Prod.mk.injEq] at h
  rw [← h.2]
  exact keeps s holds

theorem get : Preserves P (MonadState.get : ScanM σ (ScanState σ)) := by
  intro s r s' h holds
  rw [run_get, Except.ok.injEq, Prod.mk.injEq] at h
  rw [← h.2]
  exact holds

theorem checked (counter : Counter) (x : Except Overflow α) :
    Preserves P (Scan.checked counter x : ScanM σ α) := by
  intro s r s' h holds
  rw [run_checked_eq_ok] at h
  rw [h.2]
  exact holds

end Preserves

theorem preserves_emit {line : Line} (passed : line.Passed) :
    Preserves (Clean good) (emit line : ScanM σ Unit) :=
  Preserves.modify fun _ clean => by
    simpa using clean.emitAll (show ∀ l ∈ [line], l.Passed by simpa using passed)

theorem preserves_emitAll {lines : List Line} (passed : ∀ line ∈ lines, line.Passed) :
    Preserves (Clean good) (emitAll lines : ScanM σ Unit) :=
  Preserves.modify fun _ clean => clean.emitAll passed

theorem preserves_dumpAll (lines : List Line) :
    Preserves (Clean good) (dumpAll lines : ScanM σ Unit) :=
  Preserves.modify fun _ clean => ⟨clean.walker, clean.patch, clean.chain⟩

theorem preserves_count (f : WalkStats → WalkStats) :
    Preserves (Clean good) (count f : ScanM σ Unit) :=
  Preserves.modify fun _ clean => ⟨clean.walker, clean.patch, clean.chain⟩

theorem preserves_takeId : Preserves (Clean good) (takeId : ScanM σ Nat) := by
  intro s id s' h clean
  obtain ⟨-, -, rfl⟩ := run_takeId_eq_ok h
  exact ⟨clean.walker, clean.patch, clean.chain⟩

/-- Announcing writes `* 0` lines for directories of the chain, whose paths hold no
line break. -/
theorem preserves_announce : Preserves (Clean good) (announce : ScanM σ Unit) := by
  intro s r s' h clean
  rw [run_announce, Except.ok.injEq, Prod.mk.injEq] at h
  rw [← h.2]
  have fromChain : ∀ level ∈ s.chain.takeWhile (!·.announced), '\n' ∉ level.path.toList :=
    fun level member => clean.chain level (List.takeWhile_subset _ member)
  refine ⟨clean.walker, ?_, ?_⟩
  · refine (clean.emitAll (show ∀ line ∈ (s.chain.takeWhile (!·.announced)).reverse.map
      (fun level => (⟨some .changed, .directory level.id level.path⟩ : Line)), line.Passed
      from ?_)).patch
    intro line member
    obtain ⟨level, fresh, rfl⟩ := List.mem_map.mp member
    exact Line.passed (show '\n' ∉ level.path.toList from
      fromChain level (List.mem_reverse.mp fresh))
  · intro level member
    rcases List.mem_append.mp member with named | rest
    · obtain ⟨level₀, fresh, rfl⟩ := List.mem_map.mp named
      exact fromChain level₀ fresh
    · exact clean.chain level (List.mem_of_mem_drop rest)

theorem preserves_listChildren (plain : walker.PlainNames good) (limits : Limits) :
    Preserves (Clean good) (listChildren walker limits) := by
  intro s items s' h clean
  rw [run_listChildren, Except.ok.injEq, Prod.mk.injEq] at h
  rw [← h.2]
  exact ⟨plain.list _ _ clean.walker, clean.patch, clean.chain⟩

theorem preserves_recordListing (d : DirEntry) :
    Preserves (Clean good) (recordListing d : ScanM σ Unit) := by
  intro s r s' h clean
  rw [run_recordListing, Except.ok.injEq, Prod.mk.injEq] at h
  rw [← h.2]
  refine ⟨clean.walker, clean.patch, fun level member => ?_⟩
  cases chain : s.chain with
  | nil => simp [chain] at member
  | cons top up =>
      have topNoBreak := clean.chain top (by rw [chain]; exact List.mem_cons_self)
      simp only [chain, List.mem_cons] at member
      rcases member with rfl | above
      · exact topNoBreak
      · exact clean.chain level (by rw [chain]; exact List.mem_cons_of_mem _ above)

theorem preserves_pruneIfRepeats (limits : Limits) (d : DirEntry) :
    Preserves (Clean good) (pruneIfRepeats limits d : ScanM σ DirEntry) := by
  intro s d' s' h clean
  rw [run_pruneIfRepeats] at h
  split at h
  · rw [Except.ok.injEq, Prod.mk.injEq] at h
    rw [← h.2]
    refine ⟨clean.walker, clean.patch, fun level member => ?_⟩
    cases chain : s.chain with
    | nil => simp [chain] at member
    | cons top up =>
        have topNoBreak := clean.chain top (by rw [chain]; exact List.mem_cons_self)
        simp only [chain, List.mem_cons] at member
        rcases member with rfl | above
        · exact topNoBreak
        · exact clean.chain level (by rw [chain]; exact List.mem_cons_of_mem _ above)
  · rw [Except.ok.injEq, Prod.mk.injEq] at h
    rw [← h.2]
    exact clean

theorem preserves_readDir (plain : walker.PlainNames good) (limits : Limits) (firstFresh : Nat)
    (d : DirEntry) : Preserves (Clean good) (readDir walker limits firstFresh d) := by
  unfold readDir
  refine (Preserves.modify fun _ clean => ⟨clean.walker, clean.patch, clean.chain⟩).bind fun _ => ?_
  refine Preserves.ite (fun _ => (preserves_count _).bind fun _ => Preserves.pure _) fun _ => ?_
  refine (preserves_listChildren plain limits).bind fun kept => ?_
  dsimp only
  refine Preserves.get.bind fun _ => (Preserves.checked _ _).bind fun ⟨_, ids⟩ => ?_
  refine (Preserves.modify fun _ clean => ⟨clean.walker, clean.patch, clean.chain⟩).bind fun _ => ?_
  refine (Preserves.checked _ _).bind fun _ => (preserves_recordListing _).bind fun _ => ?_
  refine (preserves_pruneIfRepeats _ _).bind fun _ => Preserves.get.bind fun _ => ?_
  exact (Preserves.checked _ _).bind fun _ => (preserves_count _).bind fun _ => Preserves.pure _

/-! ### Merging with the baseline -/

theorem Pairing.mem_of_mem_pairByName {α β : Type} {liveName : α → String}
    {oldName : β → String} {live : List α} {old : List β} {pair : Pairing α β}
    (member : pair ∈ pairByName liveName oldName live old) :
    (∀ a, pair.live? = some a → a ∈ live) ∧ ∀ b, pair.old? = some b → b ∈ old := by
  constructor
  · intro a side
    rw [← filterMap_live?_pairByName liveName oldName live old]
    exact List.mem_filterMap.mpr ⟨pair, member, side⟩
  · intro b side
    rw [← filterMap_old?_pairByName liveName oldName live old]
    exact List.mem_filterMap.mpr ⟨pair, member, side⟩

section Merge

variable {bound : Nat} {path : String} (pathNoBreak : '\n' ∉ path.toList)
include pathNoBreak

theorem preserves_mergeDir (d : DirEntry) {pair : Pairing DirEntry DirEntry}
    (liveNoBreak : ∀ c, pair.live? = some c → '\n' ∉ c.name.toList)
    (oldRebuilt : ∀ b, pair.old? = some b → b.Rebuilt bound ∧ '\n' ∉ b.name.toList) :
    Preserves (Clean good) (mergeDir path d pair : ScanM σ _) := by
  cases pair with
  | both c b => exact Preserves.pure _
  | live c =>
      refine preserves_takeId.bind fun _ => preserves_announce.bind fun _ => ?_
      refine (preserves_emit (Line.passed ?_)).bind fun _ => Preserves.pure _
      exact newline_not_mem_childPath pathNoBreak (liveNoBreak c rfl) _
  | old b =>
      obtain ⟨rebuilt, nameNoBreak⟩ := oldRebuilt b rfl
      refine preserves_announce.bind fun _ => (preserves_emitAll ?_).bind fun _ => Preserves.pure _
      exact DirEntry.passed_replay _ rebuilt
        (newline_not_mem_childPath pathNoBreak nameNoBreak _) nameNoBreak _

theorem preserves_mergeDirs (d : DirEntry) (pairs : List (Pairing DirEntry DirEntry))
    (liveNoBreak : ∀ pair ∈ pairs, ∀ c, pair.live? = some c → '\n' ∉ c.name.toList)
    (oldRebuilt : ∀ pair ∈ pairs, ∀ b, pair.old? = some b → b.Rebuilt bound ∧ '\n' ∉ b.name.toList) :
    Preserves (Clean good) (mergeDirs path d pairs : ScanM σ _) := by
  induction pairs with
  | nil => exact Preserves.pure _
  | cons pair pairs inductionHypothesis =>
      refine (preserves_mergeDir pathNoBreak d (liveNoBreak pair List.mem_cons_self)
        (oldRebuilt pair List.mem_cons_self)).bind fun _ => ?_
      refine (inductionHypothesis (fun p member => liveNoBreak p (List.mem_cons_of_mem _ member))
        (fun p member => oldRebuilt p (List.mem_cons_of_mem _ member))).bind fun _ => ?_
      exact Preserves.pure _

end Merge

theorem preserves_mergeFile (d : DirEntry) {pair : Pairing FileEntry FileEntry}
    (liveNoBreak : ∀ f, pair.live? = some f → '\n' ∉ f.name.toList)
    (oldNoBreak : ∀ f, pair.old? = some f → '\n' ∉ f.name.toList) :
    Preserves (Clean good) (mergeFile d pair : ScanM σ Unit) := by
  cases pair with
  | both f b =>
      refine Preserves.ite (fun _ => preserves_announce.bind fun _ => preserves_emit ?_)
        fun _ => Preserves.pure _
      exact Line.passed (show '\n' ∉ f.name.toList from liveNoBreak f rfl)
  | live f =>
      exact preserves_announce.bind fun _ => preserves_emit
        (Line.passed (show '\n' ∉ f.name.toList from liveNoBreak f rfl))
  | old b =>
      exact preserves_announce.bind fun _ => preserves_emit
        (Line.passed (show '\n' ∉ b.name.toList from oldNoBreak b rfl))

theorem preserves_mergeFiles (d : DirEntry) (pairs : List (Pairing FileEntry FileEntry))
    (liveNoBreak : ∀ pair ∈ pairs, ∀ f, pair.live? = some f → '\n' ∉ f.name.toList)
    (oldNoBreak : ∀ pair ∈ pairs, ∀ f, pair.old? = some f → '\n' ∉ f.name.toList) :
    Preserves (Clean good) (mergeFiles d pairs : ScanM σ Unit) := by
  induction pairs with
  | nil => exact Preserves.pure _
  | cons pair pairs inductionHypothesis =>
      exact (preserves_mergeFile d (liveNoBreak pair List.mem_cons_self)
        (oldNoBreak pair List.mem_cons_self)).bind fun _ =>
        inductionHypothesis (fun p member => liveNoBreak p (List.mem_cons_of_mem _ member))
          (fun p member => oldNoBreak p (List.mem_cons_of_mem _ member))

/-- Merging a directory whose names hold no line break with a rebuilt baseline keeps
the state clean. -/
theorem preserves_merge {bound : Nat} {path : String} (pathNoBreak : '\n' ∉ path.toList)
    {old : Option DirEntry} {d : DirEntry} (oldRebuilt : ∀ o, old = some o → o.Rebuilt bound)
    (dirsNoBreak : ∀ c ∈ d.dirs, '\n' ∉ c.name.toList)
    (filesNoBreak : ∀ f ∈ d.files, '\n' ∉ f.name.toList) :
    Preserves (Clean good) (merge path old d : ScanM σ _) := by
  cases old with
  | none =>
      refine (preserves_emitAll fun line member => ?_).bind fun _ =>
        (preserves_emitAll fun line member => ?_).bind fun _ => Preserves.pure _
      · obtain ⟨c, child, rfl⟩ := List.mem_map.mp member
        exact Line.passed (newline_not_mem_childPath pathNoBreak (dirsNoBreak c child) _)
      · obtain ⟨f, file, rfl⟩ := List.mem_map.mp member
        exact Line.passed (show '\n' ∉ f.name.toList from filesNoBreak f file)
  | some o =>
      have rebuilt := oldRebuilt o rfl
      refine (Preserves.modify fun _ clean => ⟨clean.walker, clean.patch, clean.chain⟩).bind
        fun _ => ?_
      -- Each pair holds a child of `d`, a child of the baseline, or both.
      have oldDirs : ∀ pair ∈ pairByName DirEntry.name DirEntry.name d.dirs o.dirs, ∀ b,
          pair.old? = some b → b.Rebuilt bound ∧ '\n' ∉ b.name.toList := by
        intro pair member b side
        have child := (Pairing.mem_of_mem_pairByName member).2 b side
        exact ⟨rebuilt.child child, rebuilt.childNoBreak child⟩
      refine (preserves_mergeDirs pathNoBreak d _ (fun pair member c side =>
        dirsNoBreak c ((Pairing.mem_of_mem_pairByName member).1 c side)) oldDirs).bind fun _ => ?_
      refine (preserves_mergeFiles d _ (fun pair member f side =>
        filesNoBreak f ((Pairing.mem_of_mem_pairByName member).1 f side)) (fun pair member f side =>
        rebuilt.files f ((Pairing.mem_of_mem_pairByName member).2 f side))).bind fun _ => ?_
      exact Preserves.pure _

/-! ### After the children -/

theorem preserves_removeContents {bound : Nat} (id : Nat) {path : String}
    (pathNoBreak : '\n' ∉ path.toList) {b : DirEntry} (rebuilt : b.Rebuilt bound) :
    Preserves (Clean good) (removeContents id path b : ScanM σ Unit) := by
  unfold removeContents
  dsimp only
  refine Preserves.ite (fun _ => ?_) fun _ => Preserves.pure _
  refine (preserves_emit ?_).bind fun _ => preserves_emitAll fun line member => ?_
  · exact Line.passed (show '\n' ∉ path.toList from pathNoBreak)
  rcases List.mem_append.mp member with inside | file
  · obtain ⟨c, child, written⟩ := List.mem_flatMap.mp inside
    have nameNoBreak := rebuilt.childNoBreak child
    exact DirEntry.passed_replay _ (rebuilt.child child)
      (newline_not_mem_childPath pathNoBreak nameNoBreak _) nameNoBreak _ line written
  · obtain ⟨f, held, rfl⟩ := List.mem_map.mp file
    exact Line.passed (show '\n' ∉ f.name.toList from rebuilt.files f held)

theorem preserves_removeUnentered {bound : Nat} {path : String}
    (pathNoBreak : '\n' ∉ path.toList) (d : DirEntry) {c : DirEntry}
    (nameNoBreak : '\n' ∉ c.name.toList) {p : Option DirEntry}
    (rebuilt : ∀ u, p = some u → u.Rebuilt bound) :
    Preserves (Clean good) (removeUnentered path d c p : ScanM σ Unit) := by
  cases p with
  | none => exact Preserves.pure _
  | some unentered =>
      have contents : Preserves (Clean good)
          (removeContents c.id (childPath path d.name c.name) unentered : ScanM σ Unit) :=
        preserves_removeContents c.id (newline_not_mem_childPath pathNoBreak nameNoBreak d.name)
          (rebuilt unentered rfl)
      rw [removeUnentered]
      exact Preserves.ite (fun _ => preserves_announce.bind fun _ => contents) fun _ => contents

theorem preserves_compareChild (d : DirEntry) {c : DirEntry} (nameNoBreak : '\n' ∉ c.name.toList)
    (b : Option DirEntry) : Preserves (Clean good) (compareChild d c b : ScanM σ Unit) := by
  cases b with
  | none =>
      exact preserves_announce.bind fun _ =>
        preserves_emit (Line.passed (show '\n' ∉ c.name.toList from nameNoBreak))
  | some old =>
      exact Preserves.ite (fun _ => preserves_announce.bind fun _ =>
        preserves_emit (Line.passed (show '\n' ∉ c.name.toList from nameNoBreak)))
        fun _ => Preserves.pure _

theorem preserves_compareChildren {bound : Nat} {path : String}
    (pathNoBreak : '\n' ∉ path.toList) (d : DirEntry) (cs : List DirEntry)
    (namesNoBreak : ∀ c ∈ cs, '\n' ∉ c.name.toList) (pending before : List (Option DirEntry))
    (rebuilt : ∀ p ∈ pending, ∀ u, p = some u → u.Rebuilt bound) :
    Preserves (Clean good) (compareChildren path d cs pending before : ScanM σ Unit) := by
  induction cs generalizing pending before with
  | nil => exact Preserves.pure _
  | cons c cs inductionHypothesis =>
      cases pending with
      | nil => exact Preserves.pure _
      | cons p ps =>
          cases before with
          | nil => exact Preserves.pure _
          | cons b bs =>
              have nameNoBreak := namesNoBreak c List.mem_cons_self
              exact (preserves_removeUnentered pathNoBreak d nameNoBreak
                (rebuilt p List.mem_cons_self)).bind fun _ =>
                (preserves_compareChild d nameNoBreak b).bind fun _ =>
                inductionHypothesis (fun c' member => namesNoBreak c' (List.mem_cons_of_mem _ member))
                  ps bs (fun p' member => rebuilt p' (List.mem_cons_of_mem _ member))

theorem preserves_leaveChild (plain : walker.PlainNames good) (path : String) :
    Preserves (Clean good) (leaveChild walker path) := by
  intro s r s' h clean
  unfold leaveChild at h
  rw [run_get_bind] at h
  split at h
  · cases h
  · rename_i state left
    rw [run_set, Except.ok.injEq, Prod.mk.injEq] at h
    rw [← h.2]
    exact ⟨plain.leave _ _ clean.walker left, clean.patch,
      fun level member => clean.chain level (List.mem_of_mem_tail member)⟩

theorem preserves_openRoot {root : DirEntry} (nameNoBreak : '\n' ∉ root.name.toList)
    (baseline : Option DirEntry) : Preserves (Clean good) (openRoot root baseline : ScanM σ Unit) :=
  Preserves.ite (fun _ => preserves_emit (Line.passed (show '\n' ∉ root.name.toList from
    nameNoBreak))) fun _ => Preserves.pure _

theorem preserves_closeRoot {d : DirEntry} (nameNoBreak : '\n' ∉ d.name.toList)
    (baseline : Option DirEntry) : Preserves (Clean good) (closeRoot d baseline : ScanM σ Unit) := by
  cases baseline with
  | none => exact preserves_emit (Line.passed (show '\n' ∉ d.name.toList from nameNoBreak))
  | some old =>
      exact Preserves.ite (fun _ => preserves_emit
        (Line.passed (show '\n' ∉ d.name.toList from nameNoBreak))) fun _ => Preserves.pure _

/-! ### Whole directories -/

section Visit

variable {bound : Nat}

/-- Entering each child in turn keeps the state clean when visiting a child does;
the children keep their names, and every baseline directory left pending for a
child never entered is rebuilt. -/
theorem clean_enterAll (plain : walker.PlainNames good)
    {visitChild : String → Option DirEntry → DirEntry → ScanM σ DirEntry}
    (visitClean : ∀ path b c c' (s s' : ScanState σ), (visitChild path b c).run s = .ok (c', s') →
      '\n' ∉ path.toList → c.Blank → (∀ o, b = some o → o.Rebuilt bound) → Clean good s →
      Clean good s' ∧ c'.name = c.name)
    {path parentName : String} (pathNoBreak : '\n' ∉ path.toList) :
    ∀ {cs : List DirEntry} {baselines : List (Option DirEntry)}
      {result : List DirEntry × List (Option DirEntry)} {s s' : ScanState σ},
      (enterAll walker visitChild path parentName cs baselines).run s = .ok (result, s') →
      (∀ c ∈ cs, c.Blank) → (∀ b ∈ baselines, ∀ o, b = some o → o.Rebuilt bound) →
      Clean good s →
      Clean good s' ∧ result.1.map DirEntry.name = cs.map DirEntry.name ∧
        ∀ p ∈ result.2, ∀ u, p = some u → u.Rebuilt bound := by
  intro cs
  induction cs with
  | nil =>
      intro baselines result s s' h _ _ clean
      rw [enterAll, run_pure_eq_ok] at h
      obtain ⟨rfl, rfl⟩ := h
      exact ⟨clean, rfl, by simp⟩
  | cons c cs inductionHypothesis =>
      intro baselines result s s' h children rebuilt clean
      have headRebuilt : ∀ o, baselines.head?.join = some o → o.Rebuilt bound := by
        intro o found
        cases baselines with
        | nil => cases found
        | cons b bs => exact rebuilt b List.mem_cons_self o found
      have tailRebuilt : ∀ b ∈ baselines.tail, ∀ o, b = some o → o.Rebuilt bound :=
        fun b member => rebuilt b (List.mem_of_mem_tail member)
      have restChildren := fun c' member => children c' (List.mem_cons_of_mem c member)
      have blank := children c List.mem_cons_self
      rw [enterAll] at h
      dsimp only at h
      rw [run_get_bind] at h
      split at h
      · -- The walker refused the child: its baseline directory is left pending.
        rw [run_count_bind, run_bind_eq_ok] at h
        obtain ⟨⟨rest, pending⟩, s₁, restRun, h⟩ := h
        dsimp only at h
        rw [run_pure_eq_ok] at h
        obtain ⟨rfl, rfl⟩ := h
        obtain ⟨restClean, restNames, restPending⟩ := inductionHypothesis restRun restChildren
          tailRebuilt ⟨clean.walker, clean.patch, clean.chain⟩
        refine ⟨restClean, by simp [restNames], fun p member => ?_⟩
        rcases List.mem_cons.mp member with rfl | later
        · exact headRebuilt
        · exact restPending p later
      · -- The child was entered: its level joins the chain, and leaves it again.
        rename_i state entered
        rw [run_set_bind, run_bind_eq_ok] at h
        obtain ⟨c', s₁, visited, h⟩ := h
        rw [run_bind_eq_ok] at h
        obtain ⟨_, s₂, left, h⟩ := h
        rw [run_bind_eq_ok] at h
        obtain ⟨⟨rest, pending⟩, s₃, restRun, h⟩ := h
        dsimp only at h
        rw [run_pure_eq_ok] at h
        obtain ⟨rfl, rfl⟩ := h
        have childPathNoBreak := newline_not_mem_childPath pathNoBreak blank.nameNoBreak parentName
        have enteredClean : Clean good { s with walker := state, chain :=
            { id := c.id, path := childPath path parentName c.name,
              announced := baselines.head?.join.isNone } :: s.chain } := by
          refine ⟨plain.enter _ _ _ clean.walker entered, clean.patch, fun level member => ?_⟩
          rcases List.mem_cons.mp member with rfl | above
          · exact childPathNoBreak
          · exact clean.chain level above
        obtain ⟨childClean, childName⟩ :=
          visitClean _ _ _ _ _ _ visited childPathNoBreak blank headRebuilt enteredClean
        have leftClean := preserves_leaveChild plain _ _ _ _ left childClean
        obtain ⟨restClean, restNames, restPending⟩ :=
          inductionHypothesis restRun restChildren tailRebuilt leftClean
        refine ⟨restClean, by simp [childName, restNames], fun p member => ?_⟩
        rcases List.mem_cons.mp member with rfl | later
        · intro u found
          cases found
        · exact restPending p later

/-- Visiting a blank directory at a path without line break, against a rebuilt
baseline, keeps the state clean and the directory's name. -/
theorem clean_visit (plain : walker.PlainNames good) {limits : Limits} {firstFresh : Nat}
    (fuel : Nat) : ∀ {path : String} {old : Option DirEntry} {d d' : DirEntry}
      {s s' : ScanState σ}, (visit walker limits firstFresh fuel path old d).run s = .ok (d', s') →
      '\n' ∉ path.toList → d.Blank → (∀ o, old = some o → o.Rebuilt bound) → Clean good s →
      Clean good s' ∧ d'.name = d.name := by
  induction fuel with
  | zero =>
      intro path old d d' s s' h
      rw [visit, run_throw] at h
      cases h
  | succ fuel inductionHypothesis =>
      intro path old d d' s s' h pathNoBreak blank oldRebuilt clean
      rw [visit, run_bind_eq_ok] at h
      obtain ⟨d₁, s₁, read, h⟩ := h
      have readClean := preserves_readDir plain limits firstFresh d s d₁ s₁ read clean
      have readSpec := readDir_spec plain read ⟨blank.noDirs, blank.noFiles⟩ blank.itemsFit
        clean.walker
      rw [run_bind_eq_ok] at h
      obtain ⟨⟨d₂, baselines⟩, s₂, merged, h⟩ := h
      dsimp only at h
      have mergeClean := preserves_merge pathNoBreak oldRebuilt
        (fun c child => (readSpec.children c child).1.nameNoBreak)
        (fun f file => (readSpec.filesFit f file).2.2) s₁ _ s₂ merged readClean
      have readSupply := readSpec.supply
      have readStart := readSpec.start
      have mergeSpec := merge_spec merged
        (by rw [readSpec.childIds, readStart, readSupply, Nat.add_sub_cancel_left])
        (fun c child => by have := (readSpec.children c child).2; omega) (by omega)
      -- The children are blank, and their baseline directories are children of `old`.
      have childrenBlank : ∀ c ∈ d₂.dirs, c.Blank := by
        intro c child
        obtain ⟨e, read, same⟩ := List.mem_map.mp (mergeSpec.shape ▸ List.mem_map_of_mem child)
        exact (readSpec.children e read).1.of_withoutId same.symm
      have baselinesRebuilt : ∀ b ∈ baselines, ∀ o, b = some o → o.Rebuilt bound := by
        intro b member o found
        subst found
        have matched := mergeSpec.matched.subset (List.mem_filterMap.mpr ⟨_, member, rfl⟩)
        cases old with
        | none => cases matched
        | some o' => exact (oldRebuilt o' rfl).child matched
      rw [run_bind_eq_ok] at h
      obtain ⟨_, s₂', opened, h⟩ := h
      have openedClean := preserves_dumpAll _ s₂ _ s₂' opened mergeClean
      rw [run_bind_eq_ok] at h
      obtain ⟨⟨dirs, pending⟩, s₃, entered, h⟩ := h
      dsimp only at h
      obtain ⟨enterClean, enterNames, pendingRebuilt⟩ := clean_enterAll plain
        (fun _ _ _ _ _ _ visited pathNoBreak blank oldRebuilt clean =>
          inductionHypothesis visited pathNoBreak blank oldRebuilt clean)
        pathNoBreak entered childrenBlank baselinesRebuilt openedClean
      rw [run_bind_eq_ok] at h
      obtain ⟨size, s₄, summed, h⟩ := h
      rw [run_checked_eq_ok] at summed
      obtain ⟨-, rfl⟩ := summed
      rw [run_bind_eq_ok] at h
      obtain ⟨_, s₅, compared, h⟩ := h
      rw [run_bind_eq_ok] at h
      obtain ⟨_, s₆, closing, h⟩ := h
      rw [run_pure_eq_ok] at h
      obtain ⟨rfl, rfl⟩ := h
      have dirsNoBreak : ∀ c ∈ dirs, '\n' ∉ c.name.toList := by
        intro c child
        have named : c.name ∈ d₂.dirs.map DirEntry.name :=
          enterNames ▸ List.mem_map_of_mem child
        obtain ⟨e, member, same⟩ := List.mem_map.mp named
        exact same ▸ (childrenBlank e member).nameNoBreak
      refine ⟨preserves_dumpAll _ s₅ _ _ closing (preserves_compareChildren pathNoBreak _ dirs
        dirsNoBreak pending baselines pendingRebuilt _ _ _ compared enterClean), ?_⟩
      exact (congrArg DirEntry.name mergeSpec.same).trans readSpec.name

end Visit

/-- A scan from a root whose name holds no line break, against a rebuilt baseline,
writes only lines a reader passes over. -/
theorem passed_run (plain : walker.PlainNames good) {limits : Limits} {state : σ}
    {root : DirEntry} {baseline : Option DirEntry} {ids : IdSupply} {scan : Scan σ} {bound : Nat}
    (h : run walker limits state root baseline ids = .ok scan) (blank : root.Blank)
    (baselineRebuilt : ∀ o, baseline = some o → o.Rebuilt bound) (goodNow : good state) :
    ∀ line ∈ scan.patch, line.Passed := by
  unfold run at h
  obtain ⟨⟨tree, s'⟩, ran, rfl⟩ := except_map_eq_ok h
  have startClean : Clean good (⟨state, ids, ids.next, {}, #[], #[],
      [⟨root.id, root.name, none, 0, baseline.isNone⟩]⟩ : ScanState σ) :=
    ⟨goodNow, by simp, by simpa using blank.nameNoBreak⟩
  rw [run_bind_eq_ok] at ran
  obtain ⟨_, s₁, opened, ran⟩ := ran
  have openClean := preserves_openRoot blank.nameNoBreak baseline _ _ _ opened startClean
  rw [run_bind_eq_ok] at ran
  obtain ⟨_, s₁', declared, ran⟩ := ran
  have declaredClean := preserves_dumpAll _ s₁ _ s₁' declared openClean
  rw [run_bind_eq_ok] at ran
  obtain ⟨d, s₂, visited, ran⟩ := ran
  obtain ⟨visitClean, name⟩ := clean_visit plain _ visited blank.nameNoBreak blank
    baselineRebuilt declaredClean
  rw [run_bind_eq_ok] at ran
  obtain ⟨_, s₃, closed, ran⟩ := ran
  have closeClean := preserves_closeRoot (name ▸ blank.nameNoBreak) baseline _ _ _ closed visitClean
  rw [run_bind_eq_ok] at ran
  obtain ⟨_, s₄, written, ran⟩ := ran
  have writtenClean := preserves_dumpAll _ s₃ _ s₄ written closeClean
  rw [run_pure_eq_ok] at ran
  obtain ⟨rfl, rfl⟩ := ran
  exact writtenClean.patch

end Scan

end TreeDump
