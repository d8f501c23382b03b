import Mathlib
import TreeDump.Proofs.PatchLines

/-!
Steps of a scan that keep what its chain shows.

Owns: `LevelView`, a view of one level of the chain that naming the level in the
patch does not change, with its two instances, a level's path and what the check
for repeating listings reads of it (the fingerprint and the child count of its
listing); and `ChainShows`, the chain seen through such a view.

Only reading a directory, moving into a child and moving back up change what the
chain shows. Writing the patch or the dump, counting, handing out ids and naming
the levels of the chain in the patch keep it, so merging with the baseline,
comparing the children and opening or closing the root keep it too.
-/

namespace TreeDump

/-- A view of a level of the chain that naming the level in the patch does not
change. -/
structure LevelView (β : Type) where
  view : Level → β
  blind : ∀ level : Level, view { level with announced := true } = view level

namespace LevelView

/-- A level's path. -/
def path : LevelView String := ⟨(·.path), fun _ => rfl⟩

/-- What the check for repeating listings reads of a level: the fingerprint and the
child count of its listing. -/
def key : LevelView (Option Md5.Digest × Nat) := ⟨fun level => (level.digest, level.items), fun _ => rfl⟩

end LevelView

namespace Scan

section ChainShows

variable {σ α β : Type} (v : LevelView β)

/-- The chain seen through `v` is `shown`. -/
def ChainShows (shown : List β) (s : ScanState σ) : Prop := s.chain.map v.view = shown

/-- Naming the levels of the chain keeps what it shows. -/
theorem map_view_announced (chain : List Level) :
    ((chain.takeWhile fun level : Level => !level.announced).map
        (fun level : Level => { level with announced := true }) ++
      chain.drop (chain.takeWhile fun level : Level => !level.announced).length).map v.view =
      chain.map v.view := by
  induction chain with
  | nil => rfl
  | cons level up inductionHypothesis =>
      by_cases named : level.announced
      · simp [named]
      · simpa [named, v.blind] using inductionHypothesis

theorem map_view_setTop (f : Level → Level) (kept : ∀ level, v.view (f level) = v.view level)
    (chain : List Level) : (Level.setTop f chain).map v.view = chain.map v.view := by
  cases chain with
  | nil => rfl
  | cons level up => simp [Level.setTop, kept]

variable {shown : List β}

theorem chainShows_modify (f : ScanState σ → ScanState σ) (kept : ∀ s, (f s).chain = s.chain) :
    Preserves (ChainShows v shown) (modify f : ScanM σ PUnit) :=
  Preserves.modify fun s holds => by
    unfold ChainShows
    rw [kept]
    exact holds

theorem chainShows_announce : Preserves (ChainShows v shown) (announce : ScanM σ Unit) := by
  intro s r s' h holds
  rw [run_announce, Except.ok.injEq, Prod.mk.injEq] at h
  rw [← h.2]
  unfold ChainShows
  rw [map_view_announced]
  exact holds

theorem chainShows_emit (line : Wire.Line) : Preserves (ChainShows v shown) (emit line : ScanM σ Unit) :=
  chainShows_modify v _ (by intro; rfl)

theorem chainShows_emitAll (lines : List Wire.Line) :
    Preserves (ChainShows v shown) (emitAll lines : ScanM σ Unit) :=
  chainShows_modify v _ (by intro; rfl)

theorem chainShows_takeId : Preserves (ChainShows v shown) (takeId : ScanM σ Nat) := by
  intro s id s' h holds
  obtain ⟨-, -, rfl⟩ := run_takeId_eq_ok h
  exact holds

theorem chainShows_mergeDir (path : String) (d : DirEntry) (pair : Pairing DirEntry DirEntry) :
    Preserves (ChainShows v shown) (mergeDir path d pair : ScanM σ _) := by
  cases pair with
  | both c b => exact Preserves.pure _
  | live c =>
      exact (chainShows_takeId v).bind fun _ => (chainShows_announce v).bind fun _ =>
        (chainShows_emit v _).bind fun _ => Preserves.pure _
  | old b =>
      exact (chainShows_announce v).bind fun _ => (chainShows_emitAll v _).bind fun _ =>
        Preserves.pure _

theorem chainShows_merge (path : String) (old : Option DirEntry) (d : DirEntry) :
    Preserves (ChainShows v shown) (merge path old d : ScanM σ _) := by
  cases old with
  | none =>
      exact (chainShows_emitAll v _).bind fun _ => (chainShows_emitAll v _).bind fun _ =>
        Preserves.pure _
  | some o =>
      unfold merge
      refine (chainShows_modify v _ (by intro; rfl)).bind fun _ => ?_
      refine Preserves.bind ?_ fun _ => Preserves.bind ?_ fun _ => Preserves.pure _
      · induction pairByName DirEntry.name DirEntry.name d.dirs o.dirs with
        | nil => exact Preserves.pure _
        | cons pair pairs inductionHypothesis =>
            exact (chainShows_mergeDir v path d pair).bind fun _ => inductionHypothesis.bind fun _ =>
              Preserves.pure _
      · induction pairByName FileEntry.name FileEntry.name d.files o.files with
        | nil => exact Preserves.pure _
        | cons pair pairs inductionHypothesis =>
            refine Preserves.bind ?_ fun _ => inductionHypothesis
            cases pair with
            | both f b =>
                exact Preserves.ite (fun _ => (chainShows_announce v).bind fun _ => chainShows_emit v _)
                  fun _ => Preserves.pure _
            | live f => exact (chainShows_announce v).bind fun _ => chainShows_emit v _
            | old b => exact (chainShows_announce v).bind fun _ => chainShows_emit v _

theorem chainShows_compareChildren (path : String) (d : DirEntry) :
    ∀ (cs : List DirEntry) (pending before : List (Option DirEntry)),
      Preserves (ChainShows v shown) (compareChildren path d cs pending before : ScanM σ Unit) := by
  have removed : ∀ id path b, Preserves (ChainShows v shown) (removeContents id path b : ScanM σ Unit) :=
    fun _ _ _ => Preserves.ite (fun _ => (chainShows_emit v _).bind fun _ => chainShows_emitAll v _)
      fun _ => Preserves.pure _
  intro cs
  induction cs with
  | nil =>
      intro pending before
      exact Preserves.pure _
  | cons c cs inductionHypothesis =>
      intro pending before
      cases pending with
      | nil => exact Preserves.pure _
      | cons p ps =>
          cases before with
          | nil => exact Preserves.pure _
          | cons b bs =>
              refine Preserves.bind ?_ fun _ => Preserves.bind ?_ fun _ => inductionHypothesis ps bs
              · cases p with
                | none => exact Preserves.pure _
                | some unentered =>
                    exact Preserves.ite (fun _ => (chainShows_announce v).bind fun _ => removed _ _ _)
                      fun _ => removed _ _ _
              · cases b with
                | none => exact (chainShows_announce v).bind fun _ => chainShows_emit v _
                | some old =>
                    exact Preserves.ite
                      (fun _ => (chainShows_announce v).bind fun _ => chainShows_emit v _)
                      fun _ => Preserves.pure _

theorem chainShows_openRoot (root : DirEntry) (baseline : Option DirEntry) :
    Preserves (ChainShows v shown) (openRoot root baseline : ScanM σ Unit) :=
  Preserves.ite (fun _ => chainShows_emit v _) fun _ => Preserves.pure _

theorem chainShows_closeRoot (d : DirEntry) (baseline : Option DirEntry) :
    Preserves (ChainShows v shown) (closeRoot d baseline : ScanM σ Unit) := by
  cases baseline with
  | none => exact chainShows_emit v _
  | some old => exact Preserves.ite (fun _ => chainShows_emit v _) fun _ => Preserves.pure _

end ChainShows

end Scan

end TreeDump
