import Mathlib
import TreeDump.Proofs.ChainView
import TreeDump.Proofs.Budget

/-!
The tree a scan builds does not depend on its baseline.

Owns: `DirEntry.shape`, a tree without its directory ids and fingerprints;
`DirEntry.ReadWithin`, a tree none of whose directories a scan left unread past
`maxDirs`; and `Scan.Twin`, two scans of one walker in step: the walker in the
same state, and chains that agree on what the check for repeating listings reads.

Main statement (`run_twin`): two scans of one walker from the same state, against
any baselines and from any id supplies, that both succeed and leave no directory
unread past `maxDirs`, build trees of the same shape and leave the walker in the
same state.

Why it holds: ids decide nothing but `maxDirs`, which is assumed away. Reading a
directory lists the same items in both scans, sorts and numbers them alike up to
their ids, and records the same fingerprint and child count in the chain, so both
scans prune the same directories as repeats. Merging with a baseline only renumbers
the children, moving into a child and back up asks the walker the same questions,
and the other steps leave the walker and the chain's keys alone.
-/

namespace TreeDump

/-! ### Shapes -/

/-- A tree without its directory ids and fingerprints. -/
def DirEntry.shape : DirEntry → DirEntry
  | ⟨name, size, _, fid, items, _, dirs, files⟩ => ⟨name, size, 0, fid, items, none, dirs.map shape, files⟩

namespace DirEntry

theorem shape_eq (d : DirEntry) :
    d.shape = { d with id := 0, digest := none, dirs := d.dirs.map shape } := by
  cases d
  rw [shape]

@[simp] theorem shape_name (d : DirEntry) : d.shape.name = d.name := by rw [shape_eq]
@[simp] theorem shape_size (d : DirEntry) : d.shape.size = d.size := by rw [shape_eq]
@[simp] theorem shape_dirs (d : DirEntry) : d.shape.dirs = d.dirs.map shape := by rw [shape_eq]

/-- Two trees of the same shape agree on everything but the ids and fingerprints of
their directories. -/
theorem shape_eq_shape_iff {d e : DirEntry} :
    d.shape = e.shape ↔ d.name = e.name ∧ d.size = e.size ∧ d.fid = e.fid ∧ d.items = e.items ∧
      d.dirs.map shape = e.dirs.map shape ∧ d.files = e.files := by
  cases d
  cases e
  simp [shape]

theorem shape_withoutId (d : DirEntry) : d.withoutId.shape = d.shape := by
  cases d
  simp [DirEntry.withoutId, shape]

/-- The listing a fingerprint is taken of depends only on a directory's shape. -/
theorem childDigest_eq_of_shape {d e : DirEntry} (same : d.shape = e.shape) :
    d.childDigest = e.childDigest := by
  obtain ⟨-, -, -, -, dirs, files⟩ := shape_eq_shape_iff.mp same
  have listed : d.dirs.map (fun c => (c.name, c.size)) = e.dirs.map (fun c => (c.name, c.size)) := by
    have named := congrArg (List.map fun c : DirEntry => (c.name, c.size)) dirs
    simpa [List.map_map, Function.comp_def] using named
  unfold childDigest listing
  rw [listed, files]

/-- No directory of the tree is past `maxDirs`: a scan read every one of them. -/
def ReadWithin (limits : Limits) (firstFresh : Nat) (d : DirEntry) : Prop :=
  ∀ x ∈ d.allDirs, ordinal firstFresh x.id ≤ limits.maxDirs

theorem ReadWithin.self {limits : Limits} {firstFresh : Nat} {d : DirEntry}
    (within : d.ReadWithin limits firstFresh) : ordinal firstFresh d.id ≤ limits.maxDirs :=
  within d (mem_allDirs_self d)

theorem ReadWithin.child {limits : Limits} {firstFresh : Nat} {d c : DirEntry}
    (within : d.ReadWithin limits firstFresh) (child : c ∈ d.dirs) : c.ReadWithin limits firstFresh :=
  fun x below => within x (allDirs_subset_of_mem child below)

end DirEntry

/-! ### Numbering the children -/

/-- Numbering the same directories from two id supplies gives them the same shapes. -/
theorem numberDirs_shape :
    ∀ {cs : List DirEntry} {fid : Nat} {ids₁ ids₂ ids₁' ids₂' : IdSupply} {ds₁ ds₂ : List DirEntry},
      numberDirs cs fid ids₁ = .ok (ds₁, ids₁') → numberDirs cs fid ids₂ = .ok (ds₂, ids₂') →
        ds₁.map DirEntry.shape = ds₂.map DirEntry.shape := by
  intro cs
  induction cs with
  | nil =>
      intro fid ids₁ ids₂ ids₁' ids₂' ds₁ ds₂ numbered₁ numbered₂
      simp only [numberDirs, Except.ok.injEq, Prod.mk.injEq] at numbered₁ numbered₂
      rw [← numbered₁.1, ← numbered₂.1]
  | cons c cs inductionHypothesis =>
      intro fid ids₁ ids₂ ids₁' ids₂' ds₁ ds₂ numbered₁ numbered₂
      -- Each side takes one id for `c`, then numbers the rest; the ids are all that differ.
      have step : ∀ {ids ids' : IdSupply} {ds : List DirEntry},
          numberDirs (c :: cs) fid ids = .ok (ds, ids') →
            ∃ id rest ids'', numberDirs cs (fid + 1) ids'' = .ok (rest, ids') ∧
              ds = { c with fid := fid % idRange, id } :: rest := by
        intro ids ids' ds numbered
        rw [numberDirs] at numbered
        cases taken : ids.take with
        | error e => simp [taken, bind, Except.bind] at numbered
        | ok p =>
            obtain ⟨id, supply⟩ := p
            cases restNumbered : numberDirs cs (fid + 1) supply with
            | error e => simp [taken, restNumbered, bind, Except.bind] at numbered
            | ok q =>
                obtain ⟨rest, supply'⟩ := q
                simp only [taken, restNumbered, bind, Except.bind, pure, Except.pure, Except.ok.injEq,
                  Prod.mk.injEq] at numbered
                obtain ⟨rfl, rfl⟩ := numbered
                exact ⟨id, rest, supply, restNumbered, rfl⟩
      obtain ⟨id₁, rest₁, supply₁, restNumbered₁, rfl⟩ := step numbered₁
      obtain ⟨id₂, rest₂, supply₂, restNumbered₂, rfl⟩ := step numbered₂
      rw [List.map_cons, List.map_cons, inductionHypothesis restNumbered₁ restNumbered₂]
      congr 1
      rw [DirEntry.shape_eq, DirEntry.shape_eq]

/-- Sorting and numbering the same children from two id supplies, in directories of
the same shape, gives directories of the same shape. -/
theorem orderChildren_shape {d e d₁ e₁ : DirEntry} {ids₁ ids₂ ids₁' ids₂' : IdSupply}
    (dirs : d.dirs = e.dirs) (same : d.shape = e.shape)
    (ordered₁ : d.orderChildren ids₁ = .ok (d₁, ids₁')) (ordered₂ : e.orderChildren ids₂ = .ok (e₁, ids₂')) :
    d₁.shape = e₁.shape := by
  obtain ⟨name, size, fid, -, -, files⟩ := DirEntry.shape_eq_shape_iff.mp same
  unfold DirEntry.orderChildren at ordered₁ ordered₂
  cases numbered₁ : numberDirs (d.dirs.mergeSort DirEntry.nameLe) 0 ids₁ with
  | error e => simp [numbered₁, bind, Except.bind] at ordered₁
  | ok p₁ =>
      cases numbered₂ : numberDirs (e.dirs.mergeSort DirEntry.nameLe) 0 ids₂ with
      | error e => simp [numbered₂, bind, Except.bind] at ordered₂
      | ok p₂ =>
          obtain ⟨ds₁, supply₁⟩ := p₁
          obtain ⟨ds₂, supply₂⟩ := p₂
          simp only [numbered₁, bind, Except.bind, pure, Except.pure, Except.ok.injEq,
            Prod.mk.injEq] at ordered₁
          simp only [numbered₂, bind, Except.bind, pure, Except.pure, Except.ok.injEq,
            Prod.mk.injEq] at ordered₂
          obtain ⟨rfl, -⟩ := ordered₁
          obtain ⟨rfl, -⟩ := ordered₂
          rw [dirs] at numbered₁
          have shapes := numberDirs_shape numbered₁ numbered₂
          have lengths : ds₁.length = ds₂.length := by
            simpa using congrArg List.length shapes
          rw [DirEntry.shape_eq_shape_iff]
          exact ⟨name, size, fid, by simp only [lengths, files], shapes, by simp only [lengths, files]⟩

/-! ### Two scans in step -/

namespace Scan

variable {σ α β : Type} {walker : Walker σ}

/-- Two scans of one walker in step: the walker in the same state, and chains that
agree on what the check for repeating listings reads. -/
structure Twin (s t : ScanState σ) : Prop where
  walker : s.walker = t.walker
  keys : s.chain.map LevelView.key.view = t.chain.map LevelView.key.view

theorem Twin.keep {s t s' t' : ScanState σ} (twin : Twin s t) (walker : s'.walker = s.walker)
    (walker' : t'.walker = t.walker) (keys : s'.chain.map LevelView.key.view = s.chain.map LevelView.key.view)
    (keys' : t'.chain.map LevelView.key.view = t.chain.map LevelView.key.view) : Twin s' t' :=
  ⟨by rw [walker, walker', twin.walker], by rw [keys, keys', twin.keys]⟩

/-- Two steps that keep the walker and the chain's keys keep two scans in step. -/
theorem Twin.after {x : ScanM σ α} {y : ScanM σ β} {s t s' t' : ScanState σ} {a : α} {b : β}
    (twin : Twin s t) (keeps : Keeps x) (keeps' : Keeps y)
    (shows : ∀ {shown}, Preserves (ChainShows LevelView.key shown) x)
    (shows' : ∀ {shown}, Preserves (ChainShows LevelView.key shown) y)
    (ran : x.run s = .ok (a, s')) (ran' : y.run t = .ok (b, t')) : Twin s' t' :=
  twin.keep (keeps s a s' ran).1 (keeps' t b t' ran').1 (shows s a s' ran rfl) (shows' t b t' ran' rfl)

/-- Changing the nearest level of two chains that agree on their keys, alike as far
as the keys go, keeps them agreeing. -/
theorem map_key_setTop {chain chain' : List Level} (keys : chain.map LevelView.key.view = chain'.map LevelView.key.view)
    {f g : Level → Level}
    (alike : ∀ level level', LevelView.key.view level = LevelView.key.view level' →
      LevelView.key.view (f level) = LevelView.key.view (g level')) :
    (Level.setTop f chain).map LevelView.key.view = (Level.setTop g chain').map LevelView.key.view := by
  cases chain with
  | nil =>
      cases chain' with
      | nil => rfl
      | cons _ _ => cases keys
  | cons level up =>
      cases chain' with
      | nil => cases keys
      | cons level' up' =>
          simp only [List.map_cons, List.cons.injEq] at keys
          simp only [Level.setTop, List.map_cons, alike level level' keys.1, keys.2]

/-- Whether a chain repeats depends only on its keys. -/
theorem repeats_congr (threshold : Nat) :
    ∀ {near near' far far' : List Level} (seen : Nat),
      near.map LevelView.key.view = near'.map LevelView.key.view →
      far.map LevelView.key.view = far'.map LevelView.key.view →
      Level.repeats threshold near far seen = Level.repeats threshold near' far' seen := by
  intro near
  induction near with
  | nil =>
      intro near' far far' seen keys _
      cases near' with
      | nil => rfl
      | cons _ _ => cases keys
  | cons a near inductionHypothesis =>
      intro near' far far' seen keys farKeys
      cases near' with
      | nil => cases keys
      | cons a' near' =>
          cases far with
          | nil =>
              cases far' with
              | nil => rfl
              | cons _ _ => cases farKeys
          | cons b far =>
              cases far' with
              | nil => cases farKeys
              | cons b' far' =>
                  simp only [List.map_cons, List.cons.injEq, LevelView.key, Prod.mk.injEq] at keys farKeys
                  obtain ⟨⟨digest, items⟩, restKeys⟩ := keys
                  obtain ⟨⟨digest', -⟩, farRest⟩ := farKeys
                  simp only [Level.repeats, digest, items, digest']
                  split <;> simp only [inductionHypothesis _ restKeys farRest]

theorem chainRepeats_congr (threshold : Nat) {chain chain' : List Level}
    (keys : chain.map LevelView.key.view = chain'.map LevelView.key.view) :
    Level.chainRepeats threshold chain = Level.chainRepeats threshold chain' := by
  have lengths : chain.length = chain'.length := by simpa using congrArg List.length keys
  unfold Level.chainRepeats
  rw [lengths]
  congr 1
  funext k
  exact repeats_congr threshold 0 keys (by rw [List.map_drop, List.map_drop, keys])

/-- Two scans in step read two directories of the same shape, holding nothing yet
and both within `maxDirs`, into directories of the same shape, and stay in step. -/
theorem readDir_twin {limits : Limits} {f₁ f₂ : Nat} {d e d₁ e₁ : DirEntry} {s t s₁ t₁ : ScanState σ}
    (twin : Twin s t) (same : d.shape = e.shape) (noDirs : d.dirs = [])
    (within : ordinal f₁ d.id ≤ limits.maxDirs) (within' : ordinal f₂ e.id ≤ limits.maxDirs)
    (read : (readDir walker limits f₁ d).run s = .ok (d₁, s₁))
    (read' : (readDir walker limits f₂ e).run t = .ok (e₁, t₁)) :
    d₁.shape = e₁.shape ∧ Twin s₁ t₁ := by
  have noDirs' : e.dirs = [] := by
    have shapes := (DirEntry.shape_eq_shape_iff.mp same).2.2.2.2.1
    rw [noDirs, List.map_nil] at shapes
    exact List.map_eq_nil_iff.mp shapes.symm
  obtain ⟨-, -, -, outcome⟩ := readDir_eq_ok read
  obtain ⟨-, -, -, outcome'⟩ := readDir_eq_ok read'
  rcases outcome with ⟨past, -⟩ | ⟨-, walker₁, -, ordered, ids, size, orderedEq, summed, kept⟩
  · omega
  rcases outcome' with ⟨past, -⟩ | ⟨-, walker₁', -, ordered', ids', size', orderedEq', summed', kept'⟩
  · omega
  -- Both scans list the same items, and sort and number them alike.
  rw [← twin.walker] at orderedEq'
  have orderedShape : ordered.shape = ordered'.shape := by
    refine orderChildren_shape (by simp [DirEntry.withListing, noDirs, noDirs']) ?_ orderedEq orderedEq'
    obtain ⟨name, size, fid, items, -, files⟩ := DirEntry.shape_eq_shape_iff.mp same
    rw [DirEntry.shape_eq_shape_iff]
    exact ⟨name, size, fid, items, by simp [DirEntry.withListing, noDirs, noDirs'],
      by simp [DirEntry.withListing, files]⟩
  obtain ⟨-, -, -, orderedItems, -, orderedFiles⟩ := DirEntry.shape_eq_shape_iff.mp orderedShape
  have sameSize : size = size' := by
    rw [orderedFiles, summed'] at summed
    exact (Except.ok.inj summed).symm
  have digest : ordered.childDigest = ordered'.childDigest := DirEntry.childDigest_eq_of_shape orderedShape
  have recorded : (Level.record { ordered with digest := some ordered.childDigest } s.chain).map
      LevelView.key.view =
      (Level.record { ordered' with digest := some ordered'.childDigest } t.chain).map LevelView.key.view :=
    map_key_setTop twin.keys fun level level' _ => by
      simp only [LevelView.key, digest, orderedItems]
  have walkers : s₁.walker = t₁.walker := by rw [walker₁, walker₁', twin.walker]
  rcases kept with ⟨fresh, rfl, -, chain⟩ | ⟨repeats, rfl, -, chain⟩ <;>
    rcases kept' with ⟨fresh', rfl, -, chain'⟩ | ⟨repeats', rfl, -, chain'⟩
  · refine ⟨?_, walkers, by rw [chain, chain', recorded]⟩
    obtain ⟨name, -, fid, items, dirs, files⟩ := DirEntry.shape_eq_shape_iff.mp orderedShape
    exact DirEntry.shape_eq_shape_iff.mpr ⟨name, sameSize, fid, items, dirs, files⟩
  · rw [chainRepeats_congr _ recorded, repeats'] at fresh
    cases fresh
  · rw [chainRepeats_congr _ recorded, fresh'] at repeats
    cases repeats
  · -- Both scans prune the directory as a repeat.
    refine ⟨?_, walkers, ?_⟩
    · obtain ⟨name, -, fid, -, -, -⟩ := DirEntry.shape_eq_shape_iff.mp orderedShape
      exact DirEntry.shape_eq_shape_iff.mpr ⟨name, rfl, fid, rfl, rfl, rfl⟩
    · rw [chain, chain']
      exact map_key_setTop recorded fun level level' keys => by
        simp only [LevelView.key, Prod.mk.injEq, and_true] at keys ⊢
        exact keys.1

/-- Merging keeps a directory's shape: it only renumbers the children. -/
theorem Merged.shape_eq {old : Option DirEntry} {d d₂ : DirEntry} {baselines : List (Option DirEntry)}
    {s s₂ : ScanState σ} (merged : Merged old d d₂ baselines s s₂) : d₂.shape = d.shape := by
  have children : d₂.dirs.map DirEntry.shape = d.dirs.map DirEntry.shape := by
    have shapes := congrArg (List.map DirEntry.shape) merged.shape
    simpa [List.map_map, Function.comp_def, DirEntry.shape_withoutId] using shapes
  rw [merged.same]
  exact DirEntry.shape_eq_shape_iff.mpr ⟨rfl, rfl, rfl, rfl, children, rfl⟩

/-- Moving back up from one child in both scans keeps them in step. -/
theorem Twin.leaveChild {path₁ path₂ : String} {s t s' t' : ScanState σ} (twin : Twin s t)
    (left₁ : (leaveChild walker path₁).run s = .ok ((), s'))
    (left₂ : (leaveChild walker path₂).run t = .ok ((), t')) : Twin s' t' := by
  obtain ⟨moved₁, -, -, -, -, chain₁⟩ := leaveChild_eq_ok left₁
  obtain ⟨moved₂, -, -, -, -, chain₂⟩ := leaveChild_eq_ok left₂
  rw [twin.walker, moved₂] at moved₁
  refine ⟨(Except.ok.inj moved₁).symm, ?_⟩
  rw [chain₁, chain₂, List.map_tail, List.map_tail, twin.keys]

section Children

variable {limits : Limits} {f₁ f₂ : Nat}

/-- Two scans in step enter children of the same shapes, and stay in step, as long
as scanning one child in both keeps them in step. Both ask the walker to enter the
same name in the same state, so they enter the same children. -/
theorem enterAll_twin {visit₁ visit₂ : String → Option DirEntry → DirEntry → ScanM σ DirEntry}
    (visitTwin : ∀ path₁ path₂ b₁ b₂ (c e c' e' : DirEntry) (s t s' t' : ScanState σ), Twin s t →
      c.shape = e.shape → c.dirs = [] → c.files = [] →
      (visit₁ path₁ b₁ c).run s = .ok (c', s') → (visit₂ path₂ b₂ e).run t = .ok (e', t') →
      c'.ReadWithin limits f₁ → e'.ReadWithin limits f₂ → c'.shape = e'.shape ∧ Twin s' t')
    {path₁ path₂ name₁ name₂ : String} :
    ∀ {cs es : List DirEntry} {baselines₁ baselines₂ : List (Option DirEntry)}
      {r₁ r₂ : List DirEntry × List (Option DirEntry)} {s t s' t' : ScanState σ},
      Twin s t → cs.map DirEntry.shape = es.map DirEntry.shape → (∀ c ∈ cs, c.dirs = [] ∧ c.files = []) →
      (enterAll walker visit₁ path₁ name₁ cs baselines₁).run s = .ok (r₁, s') →
      (enterAll walker visit₂ path₂ name₂ es baselines₂).run t = .ok (r₂, t') →
      (∀ c ∈ r₁.1, c.ReadWithin limits f₁) → (∀ e ∈ r₂.1, e.ReadWithin limits f₂) →
      r₁.1.map DirEntry.shape = r₂.1.map DirEntry.shape ∧ Twin s' t' := by
  intro cs
  induction cs with
  | nil =>
      intro es baselines₁ baselines₂ r₁ r₂ s t s' t' twin shapes _ entered₁ entered₂ _ _
      rw [List.map_nil, eq_comm, List.map_eq_nil_iff] at shapes
      subst shapes
      rw [enterAll, run_pure_eq_ok] at entered₁ entered₂
      obtain ⟨rfl, rfl⟩ := entered₁
      obtain ⟨rfl, rfl⟩ := entered₂
      exact ⟨rfl, twin⟩
  | cons c cs inductionHypothesis =>
      intro es baselines₁ baselines₂ r₁ r₂ s t s' t' twin shapes children entered₁ entered₂ within₁ within₂
      cases es with
      | nil => cases shapes
      | cons e es =>
      rw [List.map_cons, List.map_cons, List.cons.injEq] at shapes
      obtain ⟨same, restShapes⟩ := shapes
      obtain ⟨noDirs, noFiles⟩ := children c List.mem_cons_self
      have restChildren := fun c' member => children c' (List.mem_cons_of_mem c member)
      have named : e.name = c.name := by rw [← DirEntry.shape_name, ← same, DirEntry.shape_name]
      rw [enterAll] at entered₁ entered₂
      dsimp only at entered₁ entered₂
      rw [run_get_bind] at entered₁ entered₂
      rw [← twin.walker, named] at entered₂
      cases entering : walker.enter s.walker c.name with
      | none =>
          -- Both scans count the child as skipped and keep it as listed.
          rw [entering, run_count_bind, run_bind_eq_ok] at entered₁ entered₂
          obtain ⟨⟨rest₁, pending₁⟩, s₁, restRun₁, entered₁⟩ := entered₁
          obtain ⟨⟨rest₂, pending₂⟩, t₁, restRun₂, entered₂⟩ := entered₂
          rw [run_pure_eq_ok] at entered₁ entered₂
          obtain ⟨rfl, rfl⟩ := entered₁
          obtain ⟨rfl, rfl⟩ := entered₂
          obtain ⟨restSame, restTwin⟩ := inductionHypothesis (by exact ⟨twin.walker, twin.keys⟩) restShapes restChildren
            restRun₁ restRun₂ (fun c' member => within₁ c' (List.mem_cons_of_mem _ member))
            (fun e' member => within₂ e' (List.mem_cons_of_mem _ member))
          exact ⟨by rw [List.map_cons, List.map_cons, same, restSame], restTwin⟩
      | some state =>
          -- Both scans enter the child, scan it, and move back up.
          rw [entering, run_set_bind, run_bind_eq_ok] at entered₁ entered₂
          obtain ⟨c', s₁, visited₁, entered₁⟩ := entered₁
          obtain ⟨e', t₁, visited₂, entered₂⟩ := entered₂
          rw [run_bind_eq_ok] at entered₁ entered₂
          obtain ⟨_, s₂, left₁, entered₁⟩ := entered₁
          obtain ⟨_, t₂, left₂, entered₂⟩ := entered₂
          rw [run_bind_eq_ok] at entered₁ entered₂
          obtain ⟨⟨rest₁, pending₁⟩, s₃, restRun₁, entered₁⟩ := entered₁
          obtain ⟨⟨rest₂, pending₂⟩, t₃, restRun₂, entered₂⟩ := entered₂
          rw [run_pure_eq_ok] at entered₁ entered₂
          obtain ⟨rfl, rfl⟩ := entered₁
          obtain ⟨rfl, rfl⟩ := entered₂
          -- The child's level holds no listing yet in either scan.
          obtain ⟨childSame, childTwin⟩ := visitTwin _ _ _ _ _ _ _ _ _ _ _ _
            (by exact ⟨rfl, by simp only [List.map_cons, twin.keys]; rfl⟩) same noDirs noFiles visited₁ visited₂ (within₁ c' List.mem_cons_self) (within₂ e' List.mem_cons_self)
          obtain ⟨restSame, restTwin⟩ := inductionHypothesis (childTwin.leaveChild left₁ left₂) restShapes
            restChildren restRun₁ restRun₂ (fun c' member => within₁ c' (List.mem_cons_of_mem _ member))
            (fun e' member => within₂ e' (List.mem_cons_of_mem _ member))
          exact ⟨by rw [List.map_cons, List.map_cons, childSame, restSame], restTwin⟩

/-- Two scans in step scan two directories of the same shape, holding nothing yet,
into directories of the same shape and stay in step, whatever their baselines, paths
and fuel, as long as neither leaves a directory unread past `maxDirs`. -/
theorem visit_twin (fuel₁ : Nat) :
    ∀ {fuel₂ : Nat} {path₁ path₂ : String} {old₁ old₂ : Option DirEntry} {d e d' e' : DirEntry}
      {s t s' t' : ScanState σ}, Twin s t → d.shape = e.shape → d.dirs = [] → d.files = [] →
      (visit walker limits f₁ fuel₁ path₁ old₁ d).run s = .ok (d', s') →
      (visit walker limits f₂ fuel₂ path₂ old₂ e).run t = .ok (e', t') →
      d'.ReadWithin limits f₁ → e'.ReadWithin limits f₂ → d'.shape = e'.shape ∧ Twin s' t' := by
  induction fuel₁ with
  | zero =>
      intro fuel₂ path₁ path₂ old₁ old₂ d e d' e' s t s' t' _ _ _ _ visited₁
      rw [visit, run_throw] at visited₁
      cases visited₁
  | succ fuel₁ inductionHypothesis =>
      intro fuel₂ path₁ path₂ old₁ old₂ d e d' e' s t s' t' twin same noDirs noFiles visited₁ visited₂
        within₁ within₂
      cases fuel₂ with
      | zero =>
          rw [visit, run_throw] at visited₂
          cases visited₂
      | succ fuel₂ =>
      obtain ⟨-, -, -, -, dirsShape, files⟩ := DirEntry.shape_eq_shape_iff.mp same
      have noDirs' : e.dirs = [] := by
        rw [noDirs, List.map_nil, eq_comm, List.map_eq_nil_iff] at dirsShape
        exact dirsShape
      have kept₁ := (visit_walked (fuel₁ + 1) noDirs noFiles visited₁).id
      have kept₂ := (visit_walked (fuel₂ + 1) noDirs' (files ▸ noFiles) visited₂).id
      rw [visit, run_bind_eq_ok] at visited₁ visited₂
      obtain ⟨d₁, s₁, read₁, visited₁⟩ := visited₁
      obtain ⟨e₁, t₁, read₂, visited₂⟩ := visited₂
      obtain ⟨readSame, twin₁⟩ := readDir_twin twin same noDirs (kept₁ ▸ within₁.self) (kept₂ ▸ within₂.self)
        read₁ read₂
      rw [run_bind_eq_ok] at visited₁ visited₂
      obtain ⟨⟨d₂, baselines₁⟩, s₂, mergeRun₁, visited₁⟩ := visited₁
      obtain ⟨⟨e₂, baselines₂⟩, t₂, mergeRun₂, visited₂⟩ := visited₂
      have numbered₁ := readDir_numbered read₁ ⟨noDirs, noFiles⟩
      have merged₁ := numbered₁.merged mergeRun₁
      have merged₂ := (readDir_numbered read₂ ⟨noDirs', files ▸ noFiles⟩).merged mergeRun₂
      -- Merging renumbers the children and touches neither the walker nor the chain's keys.
      have twin₂ : Twin s₂ t₂ := twin₁.keep merged₁.walker merged₂.walker
        (chainShows_merge LevelView.key _ _ _ _ _ _ mergeRun₁ rfl)
        (chainShows_merge LevelView.key _ _ _ _ _ _ mergeRun₂ rfl)
      have mergedSame : d₂.shape = e₂.shape := by rw [merged₁.shape_eq, merged₂.shape_eq, readSame]
      rw [run_dumpAll_bind, run_bind_eq_ok] at visited₁ visited₂
      obtain ⟨⟨dirs₁, pending₁⟩, s₃, entered₁, visited₁⟩ := visited₁
      obtain ⟨⟨dirs₂, pending₂⟩, t₃, entered₂, visited₂⟩ := visited₂
      rw [run_bind_eq_ok] at visited₁ visited₂
      obtain ⟨size₁, s₄, summed₁, visited₁⟩ := visited₁
      obtain ⟨size₂, t₄, summed₂, visited₂⟩ := visited₂
      rw [run_checked_eq_ok] at summed₁ summed₂
      obtain ⟨summed₁, rfl⟩ := summed₁
      obtain ⟨summed₂, rfl⟩ := summed₂
      rw [run_bind_eq_ok] at visited₁ visited₂
      obtain ⟨_, s₅, compared₁, visited₁⟩ := visited₁
      obtain ⟨_, t₅, compared₂, visited₂⟩ := visited₂
      rw [run_dumpAll_bind, run_pure_eq_ok] at visited₁ visited₂
      obtain ⟨rfl, rfl⟩ := visited₁
      obtain ⟨rfl, rfl⟩ := visited₂
      obtain ⟨name, size, fid, items, mergedDirs, mergedFiles⟩ := DirEntry.shape_eq_shape_iff.mp mergedSame
      obtain ⟨childrenSame, twin₃⟩ := enterAll_twin
        (fun _ _ _ _ _ _ _ _ _ _ _ _ => inductionHypothesis) (by exact ⟨twin₂.walker, twin₂.keys⟩) mergedDirs
        (merged₁.empty_of_mem numbered₁.childrenEmpty) entered₁ entered₂
        (fun _ child => within₁.child child) (fun _ child => within₂.child child)
      -- The children's sizes agree, so the totals do.
      have sizes : dirs₁.map (·.size) = dirs₂.map (·.size) := by
        have sized := congrArg (List.map DirEntry.size) childrenSame
        simpa [List.map_map, Function.comp_def] using sized
      rw [size, sizes, summed₂] at summed₁
      cases summed₁
      have twin₅ : Twin s₅ t₅ := twin₃.after (keeps_compareChildren _ _ _ _ _)
        (keeps_compareChildren _ _ _ _ _) (chainShows_compareChildren LevelView.key _ _ _ _ _)
        (chainShows_compareChildren LevelView.key _ _ _ _ _) compared₁ compared₂
      exact ⟨DirEntry.shape_eq_shape_iff.mpr ⟨name, rfl, fid, items, childrenSame, mergedFiles⟩,
        twin₅.walker, twin₅.keys⟩

end Children

/-- Two scans of one walker from the same state, against any baselines and from any
id supplies, that both succeed and leave no directory unread past `maxDirs`, build
trees of the same shape and leave the walker in the same state. -/
theorem run_twin {limits : Limits} {state : σ} {root : DirEntry} {baseline₁ baseline₂ : Option DirEntry}
    {ids₁ ids₂ : IdSupply} {scan₁ scan₂ : Scan σ} (noDirs : root.dirs = []) (noFiles : root.files = [])
    (scanned₁ : Scan.run walker limits state root baseline₁ ids₁ = .ok scan₁)
    (scanned₂ : Scan.run walker limits state root baseline₂ ids₂ = .ok scan₂)
    (within₁ : scan₁.tree.ReadWithin limits ids₁.next) (within₂ : scan₂.tree.ReadWithin limits ids₂.next) :
    scan₁.tree.shape = scan₂.tree.shape ∧ scan₁.walker = scan₂.walker := by
  unfold Scan.run at scanned₁ scanned₂
  obtain ⟨⟨tree₁, s₅⟩, ran₁, rfl⟩ := except_map_eq_ok scanned₁
  obtain ⟨⟨tree₂, t₅⟩, ran₂, rfl⟩ := except_map_eq_ok scanned₂
  rw [run_bind_eq_ok] at ran₁ ran₂
  obtain ⟨_, s₁, opened₁, ran₁⟩ := ran₁
  obtain ⟨_, t₁, opened₂, ran₂⟩ := ran₂
  -- Both scans start with the walker at the root and a chain of one level holding no listing.
  have twin₁ : Twin s₁ t₁ := Twin.after (by exact ⟨rfl, rfl⟩) (keeps_openRoot _ _) (keeps_openRoot _ _)
    (chainShows_openRoot LevelView.key _ _) (chainShows_openRoot LevelView.key _ _) opened₁ opened₂
  rw [run_dumpAll_bind, run_bind_eq_ok] at ran₁ ran₂
  obtain ⟨d₁, s₂, visited₁, ran₁⟩ := ran₁
  obtain ⟨d₂, t₂, visited₂, ran₂⟩ := ran₂
  rw [run_bind_eq_ok] at ran₁ ran₂
  obtain ⟨_, s₃, closed₁, ran₁⟩ := ran₁
  obtain ⟨_, t₃, closed₂, ran₂⟩ := ran₂
  rw [run_dumpAll_bind, run_pure_eq_ok] at ran₁ ran₂
  obtain ⟨rfl, rfl⟩ := ran₁
  obtain ⟨rfl, rfl⟩ := ran₂
  obtain ⟨same, twin₂⟩ := visit_twin _ (by exact ⟨twin₁.walker, twin₁.keys⟩) rfl noDirs noFiles visited₁ visited₂
    within₁ within₂
  obtain ⟨walkers, -⟩ := twin₂.after (keeps_closeRoot _ _) (keeps_closeRoot _ _)
    (chainShows_closeRoot LevelView.key _ _) (chainShows_closeRoot LevelView.key _ _) closed₁ closed₂
  exact ⟨same, walkers⟩

end Scan

end TreeDump
