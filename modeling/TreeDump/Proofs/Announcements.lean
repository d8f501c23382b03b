import Mathlib
import TreeDump.Proofs.DiffRecords

/-!
The `* 0` lines of a diff.

A diff names a directory in its patch, with a `* 0` line, before the first record
inside it, and only then: the line comes lazily, at the first record written
while the scan stands in the directory, and names with it every directory above
that is not named yet, outermost first. A directory new in the live tree is
never named this way, since its declaration already names it.

Owns: the part of the chain an announcement names (`Level.pending`, the lines
`Level.heralds`), the invariant that the named levels form the outer part of the
chain (`Level.Stacked`), the step relation `Scan.Heralded` (a step writes
nothing, or names the pending levels and then writes records), the directories
the two trees share (`DirEntry.matched`), the order the patch puts their names in
(`DirEntry.Heralds`), what the scan of one directory writes (`Scan.Announces`),
and the main statement `diff_announcements`.

Why it holds: where a directory has a previous directory, the scan writes each
record right after an announcement, which names the pending levels; inside a new
directory the chain is named already. So a step that writes anything starts with
the names of the pending levels and leaves the whole chain named. The scan of a
directory is such a step for the chain above it, its own level pending when it
is matched: its name comes first in what it writes, before the records inside it
and after the names of the directories above.
-/

namespace TreeDump

open Wire
open scoped List

/-! ### The pending levels of the chain -/

namespace Level

/-- The `* 0` line that names the directory of a level. -/
def herald (level : Level) : Line := ⟨some .changed, .directory level.id level.path⟩

/-- What naming the chain reads of a level and changes: its id, its path and
whether it is named. -/
def sign (level : Level) : Nat × String × Bool := (level.id, level.path, level.announced)

/-- The levels from the nearest one up to the nearest named one, which the next
announcement names. -/
def pending (chain : List Level) : List Level := chain.takeWhile (!·.announced)

/-- The lines an announcement writes: the pending levels, outermost first. -/
def heralds (chain : List Level) : List Line := (pending chain).reverse.map herald

/-- The chain once an announcement named its pending levels. -/
def nameAll (chain : List Level) : List Level :=
  (pending chain).map (fun level => { level with announced := true }) ++ chain.drop (pending chain).length

/-- Past the pending levels every level is named: the named levels form the outer
part of the chain. -/
def Stacked (chain : List Level) : Prop := Scan.Named (chain.drop (pending chain).length)

variable {level : Level} {chain chain' : List Level}

theorem pending_cons_named (named : level.announced = true) : pending (level :: chain) = [] := by
  simp [pending, named]

theorem pending_cons_unnamed (unnamed : level.announced = false) :
    pending (level :: chain) = level :: pending chain := by
  simp [pending, unnamed]

theorem heralds_cons_named (named : level.announced = true) : heralds (level :: chain) = [] := by
  rw [heralds, pending_cons_named named]
  rfl

theorem heralds_cons_unnamed (unnamed : level.announced = false) :
    heralds (level :: chain) = heralds chain ++ [level.herald] := by
  rw [heralds, heralds, pending_cons_unnamed unnamed, List.reverse_cons, List.map_append]
  rfl

theorem nameAll_cons_named (named : level.announced = true) : nameAll (level :: chain) = level :: chain := by
  rw [nameAll, pending_cons_named named]
  rfl

theorem nameAll_cons_unnamed (unnamed : level.announced = false) :
    nameAll (level :: chain) = { level with announced := true } :: nameAll chain := by
  rw [nameAll, nameAll, pending_cons_unnamed unnamed]
  rfl

/-- An announcement names nothing where every level is named. -/
theorem heralds_of_named (named : Scan.Named chain) : heralds chain = [] := by
  cases chain with
  | nil => rfl
  | cons level up => exact heralds_cons_named (named level List.mem_cons_self)

theorem nameAll_of_named (named : Scan.Named chain) : nameAll chain = chain := by
  cases chain with
  | nil => rfl
  | cons level up => exact nameAll_cons_named (named level List.mem_cons_self)

theorem stacked_of_named (named : Scan.Named chain) : Stacked chain := by
  cases chain with
  | nil => exact named
  | cons level up =>
      rw [Stacked, pending_cons_named (named level List.mem_cons_self)]
      exact named

/-- Once an announcement named the pending levels of a stacked chain, every level
is named. -/
theorem Stacked.named (stacked : Stacked chain) : Scan.Named (nameAll chain) := by
  intro level member
  rcases List.mem_append.mp member with marked | outer
  · obtain ⟨_, -, rfl⟩ := List.mem_map.mp marked
    rfl
  · exact stacked level outer

/-- A chain of one level is stacked. -/
theorem stacked_singleton (level : Level) : Stacked [level] := by
  cases named : level.announced with
  | true => exact stacked_of_named fun level' member => by rw [List.mem_singleton.mp member, named]
  | false =>
      rw [Stacked, pending_cons_unnamed named]
      exact fun _ member => by simp at member

theorem Stacked.cons_unnamed (stacked : Stacked chain) (unnamed : level.announced = false) :
    Stacked (level :: chain) := by
  rw [Stacked, pending_cons_unnamed unnamed, List.length_cons, List.drop_succ_cons]
  exact stacked

theorem Stacked.tail (stacked : Stacked (level :: chain)) : Stacked chain := by
  cases named : level.announced with
  | true =>
      rw [Stacked, pending_cons_named named] at stacked
      exact stacked_of_named stacked.tail
  | false =>
      rw [Stacked, pending_cons_unnamed named, List.length_cons, List.drop_succ_cons] at stacked
      exact stacked

/-- The lines of an announcement are `* 0` lines. -/
theorem announces_of_mem_heralds {line : Line} (member : line ∈ heralds chain) : line.announces = true := by
  obtain ⟨level, -, rfl⟩ := List.mem_map.mp member
  rfl

/-! What naming reads of the chain depends on the levels' signs only. -/

theorem pending_map_sign (same : chain'.map sign = chain.map sign) :
    (pending chain').map sign = (pending chain).map sign := by
  induction chain generalizing chain' with
  | nil => rw [List.map_eq_nil_iff.mp same]
  | cons level up inductionHypothesis =>
      obtain ⟨level', up', rfl, top, rest⟩ := List.map_eq_cons_iff.mp same
      have named : level'.announced = level.announced := congrArg (·.2.2) top
      cases unnamed : level.announced with
      | true => rw [pending_cons_named unnamed, pending_cons_named (named.trans unnamed)]
      | false =>
          rw [pending_cons_unnamed unnamed, pending_cons_unnamed (named.trans unnamed), List.map_cons,
            List.map_cons, top, inductionHypothesis rest]

theorem heralds_congr (same : chain'.map sign = chain.map sign) : heralds chain' = heralds chain := by
  -- An announcement line reads the id and the path of the sign.
  have factored : ∀ c : List Level, heralds c =
      ((pending c).map sign).reverse.map fun x => (⟨some .changed, .directory x.1 x.2.1⟩ : Line) := by
    intro c
    simp only [heralds, List.map_reverse, List.map_map]
    rfl
  rw [factored, factored, pending_map_sign same]

theorem nameAll_congr (same : chain'.map sign = chain.map sign) :
    (nameAll chain').map sign = (nameAll chain).map sign := by
  induction chain generalizing chain' with
  | nil => rw [List.map_eq_nil_iff.mp same]
  | cons level up inductionHypothesis =>
      obtain ⟨level', up', rfl, top, rest⟩ := List.map_eq_cons_iff.mp same
      have named : level'.announced = level.announced := congrArg (·.2.2) top
      cases unnamed : level.announced with
      | true =>
          rw [nameAll_cons_named unnamed, nameAll_cons_named (named.trans unnamed), List.map_cons,
            List.map_cons, top, rest]
      | false =>
          rw [nameAll_cons_unnamed unnamed, nameAll_cons_unnamed (named.trans unnamed), List.map_cons,
            List.map_cons, inductionHypothesis rest]
          simp only [sign] at top ⊢
          rw [Prod.mk.injEq, Prod.mk.injEq] at top
          rw [top.1, top.2.1]

theorem named_congr (same : chain'.map sign = chain.map sign) (named : Scan.Named chain) :
    Scan.Named chain' := by
  intro level' member
  have signed : level'.sign ∈ chain.map sign := same ▸ List.mem_map_of_mem member
  obtain ⟨level, inside, agree⟩ := List.mem_map.mp signed
  have flag : level.announced = level'.announced := congrArg (·.2.2) agree
  rw [← flag]
  exact named level inside

theorem stacked_congr (same : chain'.map sign = chain.map sign) (stacked : Stacked chain) :
    Stacked chain' := by
  have lengths : (pending chain').length = (pending chain).length := by
    simpa using congrArg List.length (pending_map_sign same)
  rw [Stacked, lengths]
  exact named_congr (by rw [List.map_drop, List.map_drop, same]) stacked

/-- Reading a directory changes its level's listing only. -/
theorem map_sign_setTop {f : Level → Level} (keeps : ∀ level, (f level).sign = level.sign) (chain : List Level) :
    (setTop f chain).map sign = chain.map sign := by
  cases chain with
  | nil => rfl
  | cons level up => simp [setTop, keeps]

end Level

/-! ### The directories both trees hold -/

/-- A directory of the live tree, found at `path`, with the directory `old` of the
previous tree found at the same path. -/
structure Match where
  path : String
  live : DirEntry
  old : DirEntry

namespace Match

/-- The records of the differences inside the directory. -/
def inner (m : Match) : List Line := m.live.changesInside m.path m.old

/-- The `* 0` line that names the directory. -/
def herald (m : Match) : Line := m.live.declaration (some .changed) m.path

end Match

namespace DirEntry

/-- The directories of the live tree `d`, found at `path`, that the previous tree
holds at the same paths, `d` matching `o`: `d` itself, then below each child
directory that `o` has a child directory of the same name. -/
def matched (path : String) : DirEntry → DirEntry → List Match
  | ⟨name, size, id, fid, items, digest, dirs, files⟩, o =>
    ⟨path, ⟨name, size, id, fid, items, digest, dirs, files⟩, o⟩ :: dirs.flatMap fun c =>
      match o.child? c.name with
      | some b => matched (childPath path name c.name) c b
      | none => []

/-- The matched directories at and below the child directory `c` of the directory
called `parentName`, found at `path`, which matches `old`, if anything. -/
def matchedChild (path parentName : String) (old : Option DirEntry) (c : DirEntry) : List Match :=
  match old.bind (·.child? c.name) with
  | some b => matched (childPath path parentName c.name) c b
  | none => []

theorem matchedChild_eq (path parentName : String) (old : Option DirEntry) (c : DirEntry) :
    matchedChild path parentName old c =
      ((old.bind (·.child? c.name)).map (c.matched (childPath path parentName c.name))).getD [] := by
  unfold matchedChild
  cases old.bind (·.child? c.name) <;> rfl

theorem matched_eq (path : String) (d o : DirEntry) :
    d.matched path o = ⟨path, d, o⟩ :: d.dirs.flatMap (matchedChild path d.name (some o)) := by
  cases d
  rw [matched]
  rfl

/-- The `* 0` lines of the matched directories with something inside them that
differs. -/
def heraldsOf (ms : List Match) : List Line := (ms.filter fun m => !m.inner.isEmpty).map Match.herald

@[simp]
theorem heraldsOf_nil : heraldsOf [] = [] := rfl

theorem heraldsOf_single_of_isEmpty {m : Match} (empty : m.inner.isEmpty = true) : heraldsOf [m] = [] := by
  simp [heraldsOf, empty]

theorem heraldsOf_single_of_ne_nil {m : Match} (differs : m.inner ≠ []) : heraldsOf [m] = [m.herald] := by
  simp [heraldsOf, differs]

theorem heraldsOf_append (ms ms' : List Match) : heraldsOf (ms ++ ms') = heraldsOf ms ++ heraldsOf ms' := by
  simp [heraldsOf]

theorem heraldsOf_flatMap {α : Type} (l : List α) (f : α → List Match) :
    heraldsOf (l.flatMap f) = l.flatMap fun a => heraldsOf (f a) := by
  induction l with
  | nil => rfl
  | cons a l inductionHypothesis => rw [List.flatMap_cons, List.flatMap_cons, heraldsOf_append, inductionHypothesis]

/-- The order of the `* 0` lines in `lines` for the directory `d`, found at `path`,
that matches `o`: when something inside `d` differs, a line naming `d` comes
before all the records inside it, and after that line the same holds of each
matched child directory. -/
def Heralds (lines : List Line) (path : String) : DirEntry → DirEntry → Prop
  | ⟨name, size, id, fid, items, digest, dirs, files⟩, o =>
    (⟨name, size, id, fid, items, digest, dirs, files⟩ : DirEntry).changesInside path o ≠ [] →
      ∃ A B, lines = A ++ ⟨some .changed, .directory id path⟩ :: B ∧
        ((⟨name, size, id, fid, items, digest, dirs, files⟩ : DirEntry).changesInside path o).Subperm
          (B.filter (!·.announces)) ∧
        ∀ c ∈ dirs, ∀ b, o.child? c.name = some b → Heralds B (childPath path name c.name) c b

theorem heralds_iff (lines : List Line) (path : String) (d o : DirEntry) :
    Heralds lines path d o ↔ (d.changesInside path o ≠ [] →
      ∃ A B, lines = A ++ d.declaration (some .changed) path :: B ∧
        (d.changesInside path o).Subperm (B.filter (!·.announces)) ∧
        ∀ c ∈ d.dirs, ∀ b, o.child? c.name = some b → Heralds B (childPath path d.name c.name) c b) := by
  cases d
  rw [Heralds]
  rfl

/-- Where nothing inside a directory differs, any lines keep the order. -/
theorem Heralds.of_nil {lines : List Line} {path : String} {d o : DirEntry}
    (same : d.changesInside path o = []) : Heralds lines path d o := by
  rw [heralds_iff]
  exact fun differs => absurd same differs

/-- The directory's name, then lines holding the records inside it and keeping the
order for its matched children. -/
theorem heralds_cons {lines : List Line} {path : String} {d o : DirEntry}
    (inside : (d.changesInside path o).Subperm (lines.filter (!·.announces)))
    (children : ∀ c ∈ d.dirs, ∀ b, o.child? c.name = some b → Heralds lines (childPath path d.name c.name) c b) :
    Heralds (d.declaration (some .changed) path :: lines) path d o := by
  rw [heralds_iff]
  exact fun _ => ⟨[], lines, rfl, inside, children⟩

/-- Lines written before keep the order. -/
theorem Heralds.append_left {lines : List Line} {path : String} {d o : DirEntry}
    (heralds : Heralds lines path d o) (before : List Line) : Heralds (before ++ lines) path d o := by
  rw [heralds_iff] at heralds ⊢
  intro differs
  obtain ⟨A, B, split, inside, children⟩ := heralds differs
  exact ⟨before ++ A, B, by rw [split, List.append_assoc], inside, children⟩

/-- Lines written after keep the order. -/
theorem Heralds.append_right (after : List Line) :
    ∀ {lines : List Line} {path : String} {o : DirEntry}, Heralds lines path d o →
      Heralds (lines ++ after) path d o := by
  induction d using DirEntry.induction with
  | step d inductionHypothesis =>
      intro lines path o heralds
      rw [heralds_iff] at heralds ⊢
      intro differs
      obtain ⟨A, B, split, inside, children⟩ := heralds differs
      refine ⟨A, B ++ after, by rw [split, List.append_assoc, List.cons_append], ?_, ?_⟩
      · rw [List.filter_append]
        exact inside.trans (List.sublist_append_left _ _).subperm
      · intro c child b found
        exact inductionHypothesis c child (children c child b found)

/-- What removing the contents of the previous directory `u` writes, for a directory
with id `id` found at `path`: the whole of each child directory, then each file, all
marked removed. -/
def removals (id : Nat) (path : String) (u : DirEntry) : List Line :=
  u.dirs.flatMap (fun e => e.replay (some .removed) (childPath path u.name e.name) id) ++
    u.files.map (FileEntry.entryLine (some .removed) id)

theorem marker_of_mem_removals {id : Nat} {path : String} {u : DirEntry} :
    ∀ line ∈ u.removals id path, line.marker = some .removed := by
  intro line member
  rcases List.mem_append.mp member with replayed | filed
  · obtain ⟨e, -, inside⟩ := List.mem_flatMap.mp replayed
    exact marker_of_mem_replay _ _ _ e line inside
  · obtain ⟨f, -, rfl⟩ := List.mem_map.mp filed
    rfl

theorem removals_eq_nil_iff (id : Nat) (path : String) (u : DirEntry) :
    u.removals id path = [] ↔ u.dirs = [] ∧ u.files = [] := by
  constructor
  · intro empty
    obtain ⟨dirs, files⟩ := List.append_eq_nil_iff.mp empty
    refine ⟨List.eq_nil_iff_forall_not_mem.mpr fun e member => ?_, List.map_eq_nil_iff.mp files⟩
    have replayed := List.flatMap_eq_nil_iff.mp dirs e member
    rw [replay] at replayed
    exact List.cons_ne_nil _ _ replayed
  · rintro ⟨dirs, files⟩
    rw [removals, dirs, files]
    rfl

/-- Against a previous directory of its name, what differs inside an unread directory
is what removing the previous contents writes, up to order. -/
theorem Unread.changesInside_perm {c : DirEntry} (unread : c.Unread) (path : String) {u : DirEntry}
    (name : u.name = c.name) : c.changesInside path u ~ u.removals c.id path := by
  rw [unread.changesInside, removals, name]
  exact ((List.Perm.flatMap_left _ fun e _ => replay_perm _ _ _ e).append_right _).symm

/-- An unread directory matches on its own. -/
theorem Unread.matched {c : DirEntry} (unread : c.Unread) (path : String) (u : DirEntry) :
    c.matched path u = [⟨path, c, u⟩] := by
  rw [matched_eq, unread.noDirs]
  rfl

end DirEntry

/-! ### What a step writes for the `* 0` lines -/

namespace Scan

variable {σ : Type}

/-- What a step does for the `* 0` lines. It writes nothing and keeps the signs of
the chain; or it names the pending levels of the chain, outermost first, then
writes `R`, which holds a record, and leaves those levels named. -/
def Heralded (s s' : ScanState σ) (R : List Line) : Prop :=
  (R = [] ∧ s'.patch.toList = s.patch.toList ∧ s'.chain.map Level.sign = s.chain.map Level.sign) ∨
    ((∃ line ∈ R, line.announces = false) ∧
      s'.patch.toList = s.patch.toList ++ (Level.heralds s.chain ++ R) ∧
      s'.chain.map Level.sign = (Level.nameAll s.chain).map Level.sign)

namespace Heralded

variable {s s₁ s₂ : ScanState σ} {R R₁ R₂ lines : List Line}

theorem of_eq (patch : s₁.patch = s.patch) (chain : s₁.chain.map Level.sign = s.chain.map Level.sign) :
    Heralded s s₁ [] :=
  .inl ⟨rfl, by rw [patch], chain⟩

theorem stacked (step : Heralded s s₁ R) (stacked : Level.Stacked s.chain) : Level.Stacked s₁.chain := by
  rcases step with ⟨-, -, chain⟩ | ⟨-, -, chain⟩
  · exact Level.stacked_congr chain stacked
  · exact Level.stacked_of_named (Level.named_congr chain stacked.named)

theorem named (step : Heralded s s₁ R) (named : Named s.chain) : Named s₁.chain := by
  rcases step with ⟨-, -, chain⟩ | ⟨-, -, chain⟩
  · exact Level.named_congr chain named
  · rw [Level.nameAll_of_named named] at chain
    exact Level.named_congr chain named

/-- After a step that wrote something every level of a stacked chain is named. -/
theorem named_of_ne_nil (step : Heralded s s₁ R) (stacked : Level.Stacked s.chain) (written : R ≠ []) :
    Named s₁.chain := by
  rcases step with ⟨nothing, -, -⟩ | ⟨-, -, chain⟩
  · exact absurd nothing written
  · exact Level.named_congr chain stacked.named

theorem trans (first : Heralded s s₁ R₁) (second : Heralded s₁ s₂ R₂) (stacked : Level.Stacked s.chain) :
    Heralded s s₂ (R₁ ++ R₂) := by
  rcases first with ⟨rfl, patch₁, chain₁⟩ | ⟨record₁, patch₁, chain₁⟩
  · -- Nothing written yet: the pending levels are as they were.
    rw [List.nil_append]
    rcases second with ⟨rfl, patch₂, chain₂⟩ | ⟨record₂, patch₂, chain₂⟩
    · exact .inl ⟨rfl, patch₂.trans patch₁, chain₂.trans chain₁⟩
    · refine .inr ⟨record₂, ?_, chain₂.trans (Level.nameAll_congr chain₁)⟩
      rw [patch₂, patch₁, Level.heralds_congr chain₁]
  · -- After the first step every level is named.
    have named : Named s₁.chain := Level.named_congr chain₁ stacked.named
    obtain ⟨line, member, quiet⟩ := record₁
    have record : ∃ line ∈ R₁ ++ R₂, line.announces = false := ⟨line, List.mem_append_left _ member, quiet⟩
    rcases second with ⟨rfl, patch₂, chain₂⟩ | ⟨-, patch₂, chain₂⟩
    · exact .inr ⟨record, by rw [patch₂, patch₁, List.append_nil], chain₂.trans chain₁⟩
    · refine .inr ⟨record, ?_, ?_⟩
      · rw [patch₂, patch₁, Level.heralds_of_named named, List.nil_append, List.append_assoc,
          List.append_assoc]
      · rw [chain₂, Level.nameAll_of_named named, chain₁]

/-- Leaving out its `* 0` lines, a step writes the records of `R`. -/
theorem records (step : Heralded s s₁ R) (writes : Writes s s₁ lines) : R.filter (!·.announces) ~ lines := by
  obtain ⟨added, grown, written⟩ := writes
  rcases step with ⟨rfl, patch, -⟩ | ⟨-, patch, -⟩
  · rw [patch] at grown
    have nothing : added = [] := by simpa using grown.symm
    rwa [nothing] at written
  · rw [patch] at grown
    have same : added = Level.heralds s.chain ++ R := (List.append_cancel_left grown).symm
    have named : (Level.heralds s.chain).filter (!·.announces) = [] :=
      List.filter_eq_nil_iff.mpr fun line member => by simp [Level.announces_of_mem_heralds member]
    rwa [same, List.filter_append, named, List.nil_append] at written

end Heralded

/-- Naming the pending levels, then writing `X`, which holds a record, with the
chain kept. -/
theorem heralded_announce_then {s s₁ s' : ScanState σ} {r : Unit} {X : List Line}
    (announced : (announce : ScanM σ Unit).run s = .ok (r, s₁))
    (grown : s'.patch.toList = s₁.patch.toList ++ X) (chain : s'.chain = s₁.chain)
    (record : ∃ line ∈ X, line.announces = false) : Heralded s s' X := by
  rw [run_announce, Except.ok.injEq, Prod.mk.injEq] at announced
  obtain ⟨-, rfl⟩ := announced
  refine .inr ⟨record, ?_, by rw [chain]; rfl⟩
  rw [grown]
  simp [Level.heralds, Level.pending, Level.herald]

/-- Writing `X`, with no `* 0` line, where every level is named already. -/
theorem heralded_of_named {s s' : ScanState σ} {X : List Line} (named : Named s.chain)
    (grown : s'.patch.toList = s.patch.toList ++ X) (chain : s'.chain = s.chain)
    (quiet : ∀ line ∈ X, line.announces = false) : Heralded s s' X := by
  cases X with
  | nil => exact .inl ⟨rfl, by simpa using grown, by rw [chain]⟩
  | cons line rest =>
      refine .inr ⟨⟨line, List.mem_cons_self, quiet line List.mem_cons_self⟩, ?_, ?_⟩
      · rw [grown, Level.heralds_of_named named, List.nil_append]
      · rw [chain, Level.nameAll_of_named named]

/-- Naming the pending levels and then writing one record. -/
theorem heralded_announce_emit {line : Line} (quiet : line.announces = false) {s s' : ScanState σ}
    {r : Unit} (h : (announce >>= fun _ => emit line : ScanM σ Unit).run s = .ok (r, s')) :
    Heralded s s' [line] := by
  rw [run_bind_eq_ok] at h
  obtain ⟨_, s₁, announced, h⟩ := h
  rw [run_emit, Except.ok.injEq, Prod.mk.injEq] at h
  rw [← h.2]
  exact heralded_announce_then announced (by simp) rfl ⟨line, List.mem_cons_self, quiet⟩

theorem quiet_of_marker {line : Line} {marker : Marker} (notChanged : marker ≠ .changed)
    (marked : line.marker = some marker) : line.announces = false :=
  Line.announces_eq_false (by rw [marked]; simpa using notChanged)

/-- A step that writes records and no `* 0` line of its own: whatever it writes
comes after the names of the pending levels. -/
def Quiet (s s' : ScanState σ) : Prop := ∃ R, Heralded s s' R ∧ ∀ line ∈ R, line.announces = false

theorem Quiet.of_eq {s s' : ScanState σ} (patch : s'.patch = s.patch)
    (chain : s'.chain.map Level.sign = s.chain.map Level.sign) : Quiet s s' :=
  ⟨[], Heralded.of_eq patch chain, by simp⟩

theorem Quiet.trans {s s₁ s₂ : ScanState σ} (first : Quiet s s₁) (second : Quiet s₁ s₂)
    (stacked : Level.Stacked s.chain) : Quiet s s₂ := by
  obtain ⟨R₁, step₁, quiet₁⟩ := first
  obtain ⟨R₂, step₂, quiet₂⟩ := second
  refine ⟨R₁ ++ R₂, step₁.trans step₂ stacked, fun line member => ?_⟩
  rcases List.mem_append.mp member with early | late
  · exact quiet₁ line early
  · exact quiet₂ line late

theorem Quiet.stacked {s s' : ScanState σ} (quiet : Quiet s s') (stacked : Level.Stacked s.chain) :
    Level.Stacked s'.chain := by
  obtain ⟨R, step, -⟩ := quiet
  exact step.stacked stacked

theorem quiet_announce_emit {line : Line} (quiet : line.announces = false) {s s' : ScanState σ}
    {r : Unit} (h : (announce >>= fun _ => emit line : ScanM σ Unit).run s = .ok (r, s')) : Quiet s s' :=
  ⟨[line], heralded_announce_emit quiet h, by simpa using quiet⟩

/-! ### Reading and merging a directory -/

variable {walker : Walker σ} {good : σ → Prop}

/-- Reading a directory writes nothing and records the listing in its level only. -/
theorem heralded_readDir {limits : Limits} {firstFresh : Nat} {d d₁ : DirEntry} {s s₁ : ScanState σ}
    (read : (readDir walker limits firstFresh d).run s = .ok (d₁, s₁)) : Heralded s s₁ [] := by
  obtain ⟨-, patch, -, outcome⟩ := readDir_eq_ok read
  refine Heralded.of_eq patch ?_
  have recorded : ∀ e : DirEntry, (Level.record e s.chain).map Level.sign = s.chain.map Level.sign := by
    intro e
    rw [Level.record, Level.map_sign_setTop]
    exact fun _ => rfl
  rcases outcome with ⟨-, -, -, -, chain, -⟩ | ⟨-, -, -, _, _, _, -, -, kept⟩
  · rw [chain]
  · rcases kept with ⟨-, -, -, chain⟩ | ⟨-, -, -, chain⟩
    · rw [chain, recorded]
    · rw [chain, Level.map_sign_setTop, recorded]
      exact fun _ => rfl

theorem quiet_mergeFile {d : DirEntry} {pair : Pairing FileEntry FileEntry} {s s' : ScanState σ}
    {r : Unit} (h : (mergeFile d pair).run s = .ok (r, s')) : Quiet s s' := by
  cases pair with
  | both f g =>
      rw [mergeFile] at h
      by_cases differs : g.size ≠ f.size
      · rw [if_pos differs] at h
        exact quiet_announce_emit (FileEntry.announces_entryLine _ _ _) h
      · rw [if_neg differs, run_pure_eq_ok] at h
        exact Quiet.of_eq (by rw [← h.2]) (by rw [← h.2])
  | live f => exact quiet_announce_emit (FileEntry.announces_entryLine _ _ _) h
  | old g => exact quiet_announce_emit (FileEntry.announces_entryLine _ _ _) h

theorem quiet_mergeFiles (d : DirEntry) :
    ∀ {pairs : List (Pairing FileEntry FileEntry)} {s s' : ScanState σ} {r : Unit},
      (mergeFiles d pairs).run s = .ok (r, s') → Level.Stacked s.chain → Quiet s s' := by
  intro pairs
  induction pairs with
  | nil =>
      intro s s' r h _
      rw [mergeFiles, run_pure_eq_ok] at h
      exact Quiet.of_eq (by rw [← h.2]) (by rw [← h.2])
  | cons pair pairs inductionHypothesis =>
      intro s s' r h stacked
      rw [mergeFiles, run_bind_eq_ok] at h
      obtain ⟨_, s₁, merged, h⟩ := h
      have first := quiet_mergeFile merged
      exact first.trans (inductionHypothesis h (first.stacked stacked)) stacked

theorem quiet_mergeDir {path : String} {d : DirEntry} {pair : Pairing DirEntry DirEntry}
    {r : Option (DirEntry × Option DirEntry)} {s s' : ScanState σ}
    (h : (mergeDir path d pair).run s = .ok (r, s')) : Quiet s s' := by
  cases pair with
  | both c b =>
      rw [mergeDir, run_pure_eq_ok] at h
      obtain ⟨rfl, rfl⟩ := h
      exact Quiet.of_eq rfl rfl
  | live c =>
      unfold mergeDir at h
      rw [run_bind_eq_ok] at h
      obtain ⟨id, s₁, taken, h⟩ := h
      obtain ⟨-, rfl, rfl⟩ := run_takeId_eq_ok taken
      dsimp only at h
      rw [run_bind_eq_ok] at h
      obtain ⟨_, s₂, announced, h⟩ := h
      rw [run_emit_bind, run_pure_eq_ok] at h
      obtain ⟨rfl, rfl⟩ := h
      have declared : (⟨some .added, .directory s.ids.next (childPath path d.name c.name)⟩ : Line).announces =
          false := rfl
      refine ⟨_, ?_, List.forall_mem_singleton.mpr declared⟩
      -- Taking an id leaves the patch and the chain as they were.
      show Heralded { s with ids := ⟨s.ids.next + 1⟩ } _ _
      exact heralded_announce_then announced (by simp) rfl ⟨_, List.mem_singleton_self _, declared⟩
  | old b =>
      unfold mergeDir at h
      rw [run_bind_eq_ok] at h
      obtain ⟨_, s₁, announced, h⟩ := h
      rw [run_emitAll_bind, run_pure_eq_ok] at h
      obtain ⟨rfl, rfl⟩ := h
      -- A vanished directory is written whole, its declaration first.
      have removed : ∀ line ∈ b.replay (some .removed) (childPath path d.name b.name) d.id,
          line.announces = false := fun line member =>
        quiet_of_marker (by decide) (DirEntry.marker_of_mem_replay _ _ _ b line member)
      have declared : b.declaration (some .removed) (childPath path d.name b.name) ∈
          b.replay (some .removed) (childPath path d.name b.name) d.id := by
        rw [DirEntry.replay]
        exact List.mem_cons_self
      exact ⟨_, heralded_announce_then announced (by simp) rfl ⟨_, declared, removed _ declared⟩, removed⟩

theorem quiet_mergeDirs (path : String) (d : DirEntry) :
    ∀ {pairs : List (Pairing DirEntry DirEntry)} {kept : List (DirEntry × Option DirEntry)}
      {s s' : ScanState σ}, (mergeDirs path d pairs).run s = .ok (kept, s') → Level.Stacked s.chain →
      Quiet s s' := by
  intro pairs
  induction pairs with
  | nil =>
      intro kept s s' h _
      rw [mergeDirs, run_pure_eq_ok] at h
      obtain ⟨rfl, rfl⟩ := h
      exact Quiet.of_eq rfl rfl
  | cons pair pairs inductionHypothesis =>
      intro kept s s' h stacked
      rw [mergeDirs, run_bind_eq_ok] at h
      obtain ⟨first, s₁, merged, h⟩ := h
      rw [run_bind_eq_ok] at h
      obtain ⟨rest, s₂, mergedRest, h⟩ := h
      rw [run_pure_eq_ok] at h
      obtain ⟨rfl, rfl⟩ := h
      have head := quiet_mergeDir merged
      exact head.trans (inductionHypothesis mergedRest (head.stacked stacked)) stacked

/-- Merging a directory with its previous directory writes records only, after the
names of the pending levels. Without a previous directory the chain is named
already, and it writes the directory's opening lines. -/
theorem quiet_merge {path : String} {old : Option DirEntry} {d d₂ : DirEntry}
    {baselines : List (Option DirEntry)} {s s₂ : ScanState σ}
    (h : (merge path old d).run s = .ok ((d₂, baselines), s₂)) (stacked : Level.Stacked s.chain)
    (fresh : old = none → Named s.chain) : Quiet s s₂ := by
  cases old with
  | none =>
      rw [run_merge_none, Except.ok.injEq, Prod.mk.injEq] at h
      obtain ⟨-, rfl⟩ := h
      have marked : ∀ line ∈ d.openingLines (some .added) path, line.announces = false := by
        intro line member
        rw [DirEntry.openingLines, List.mem_append] at member
        rcases member with declared | filed
        · obtain ⟨c, -, rfl⟩ := List.mem_map.mp declared
          rfl
        · obtain ⟨f, -, rfl⟩ := List.mem_map.mp filed
          rfl
      exact ⟨_, heralded_of_named (X := d.openingLines (some .added) path) (fresh rfl) (by simp) rfl marked,
        marked⟩
  | some o =>
      unfold merge at h
      rw [run_modify_bind, run_bind_eq_ok] at h
      obtain ⟨kept, s₁, mergedDirs, h⟩ := h
      rw [run_bind_eq_ok] at h
      obtain ⟨_, s₃, mergedFiles, h⟩ := h
      rw [run_pure_eq_ok, Prod.mk.injEq] at h
      obtain ⟨-, rfl⟩ := h
      have dirs := quiet_mergeDirs path d mergedDirs stacked
      exact dirs.trans (quiet_mergeFiles d mergedFiles (dirs.stacked stacked)) stacked

/-! ### Comparing the children -/

theorem run_removeContents (id : Nat) (path : String) (b : DirEntry) (s : ScanState σ) :
    (removeContents id path b).run s =
      .ok ((), { s with
        patch := (if b.removals id path = [] then [] else
          ⟨some .changed, .directory id path⟩ :: b.removals id path).foldl Array.push s.patch }) := by
  unfold removeContents
  dsimp only
  split
  · rename_i held
    rw [run_emit_bind, run_emitAll, if_neg (by simpa [DirEntry.removals] using held)]
    rfl
  · rename_i nothing
    rw [if_pos (by simpa [DirEntry.removals] using nothing)]
    rfl

/-- The walker refused the child `c` of `d`, found at `path`: when `c` had a previous
directory holding anything, its name and the removal of all it held are written,
after the names of the pending levels. -/
theorem heralded_removeUnentered {path : String} {d c : DirEntry} {q : Option DirEntry}
    {s s' : ScanState σ} {r : Unit} (h : (removeUnentered path d c q).run s = .ok (r, s'))
    (unentered : ∀ u, q = some u → c.Unread ∧ u.name = c.name) :
    ∃ R, Heralded s s' R ∧
      R.filter (·.announces) = DirEntry.heraldsOf ((q.map (c.matched (childPath path d.name c.name))).getD []) ∧
      ∀ u, q = some u → DirEntry.Heralds R (childPath path d.name c.name) c u := by
  cases q with
  | none =>
      rw [removeUnentered, run_pure_eq_ok] at h
      rw [← h.2]
      exact ⟨[], Heralded.of_eq rfl rfl, rfl, fun u none => by cases none⟩
  | some u =>
      obtain ⟨unread, name⟩ := unentered u rfl
      have inner := unread.changesInside_perm (childPath path d.name c.name) name
      have quiet : ∀ line ∈ u.removals c.id (childPath path d.name c.name), line.announces = false :=
        fun line member => quiet_of_marker (by decide) (DirEntry.marker_of_mem_removals line member)
      rw [Option.map_some, Option.getD_some, unread.matched]
      rw [removeUnentered] at h
      split at h
      · -- The previous directory held something: name `c` and remove it all.
        rename_i held
        have full : u.removals c.id (childPath path d.name c.name) ≠ [] := by
          rw [Ne, DirEntry.removals_eq_nil_iff]
          simpa [List.isEmpty_iff, or_iff_not_and_not] using held
        obtain ⟨line, member⟩ := List.exists_mem_of_ne_nil _ full
        rw [run_bind_eq_ok] at h
        obtain ⟨_, s₁, announced, h⟩ := h
        rw [run_removeContents, if_neg full, Except.ok.injEq, Prod.mk.injEq] at h
        rw [← h.2]
        have differs : c.changesInside (childPath path d.name c.name) u ≠ [] := fun empty =>
          full (List.Perm.eq_nil (inner.symm.trans (List.Perm.of_eq empty)))
        refine ⟨_, heralded_announce_then announced
          (X := ⟨some .changed, .directory c.id (childPath path d.name c.name)⟩ ::
            u.removals c.id (childPath path d.name c.name))
          (by simp) rfl ⟨line, List.mem_cons_of_mem _ member, quiet line member⟩, ?_, ?_⟩
        · rw [DirEntry.heraldsOf_single_of_ne_nil (m := ⟨childPath path d.name c.name, c, u⟩) differs, List.filter_cons_of_pos rfl,
            List.filter_eq_nil_iff.mpr fun line member => by simp [quiet line member]]
          rfl
        · intro u' same
          cases same
          refine DirEntry.heralds_cons ?_ fun e child => by rw [unread.noDirs] at child; cases child
          rw [List.filter_eq_self.mpr fun line member => by simp [quiet line member]]
          exact inner.subperm
      · -- The previous directory held nothing: nothing differs inside `c`.
        rename_i nothing
        have empty : u.removals c.id (childPath path d.name c.name) = [] := by
          rw [DirEntry.removals_eq_nil_iff]
          simpa [List.isEmpty_iff] using nothing
        rw [run_removeContents, if_pos empty, Except.ok.injEq, Prod.mk.injEq] at h
        rw [← h.2]
        have same : c.changesInside (childPath path d.name c.name) u = [] :=
          List.Perm.eq_nil (inner.trans (List.Perm.of_eq empty))
        refine ⟨[], Heralded.of_eq rfl rfl, ?_, fun u' same' => ?_⟩
        · rw [DirEntry.heraldsOf_single_of_isEmpty (m := ⟨childPath path d.name c.name, c, u⟩)
            (by simpa [Match.inner] using same)]
          rfl
        · cases same'
          exact DirEntry.Heralds.of_nil same

theorem quiet_compareChild {d c : DirEntry} {b : Option DirEntry} {s s' : ScanState σ} {r : Unit}
    (h : (compareChild d c b).run s = .ok (r, s')) : Quiet s s' := by
  cases b with
  | none => exact quiet_announce_emit (DirEntry.announces_entryLine _ _ _) h
  | some b =>
      rw [compareChild] at h
      by_cases differs : b.size ≠ c.size
      · rw [if_pos differs] at h
        exact quiet_announce_emit (DirEntry.announces_entryLine _ _ _) h
      · rw [if_neg differs, run_pure_eq_ok] at h
        exact Quiet.of_eq (by rw [← h.2]) (by rw [← h.2])

/-- Comparing the scanned children of `d`, found at `path`: the `* 0` lines are those
of the refused children's previous directories that held something, and each such
line comes before the removals inside its directory. -/
theorem heralded_compareChildren (path : String) (d : DirEntry) (B : DirEntry → Option DirEntry) :
    ∀ {cs : List DirEntry} {pending : List (Option DirEntry)} {s s' : ScanState σ} {r : Unit},
      (compareChildren path d cs pending (cs.map B)).run s = .ok (r, s') → Level.Stacked s.chain →
      (∀ x ∈ cs.zip pending, ∀ u, x.2 = some u → x.1.Unread ∧ u.name = x.1.name) →
      ∃ R, Heralded s s' R ∧
        R.filter (·.announces) = (cs.zip pending).flatMap (fun x =>
          DirEntry.heraldsOf ((x.2.map (x.1.matched (childPath path d.name x.1.name))).getD [])) ∧
        ∀ x ∈ cs.zip pending, ∀ u, x.2 = some u → DirEntry.Heralds R (childPath path d.name x.1.name) x.1 u := by
  intro cs
  induction cs with
  | nil =>
      intro pending s s' r h _ _
      rw [← (run_pure_eq_ok.mp h).2]
      exact ⟨[], Heralded.of_eq rfl rfl, rfl, by simp⟩
  | cons c cs inductionHypothesis =>
      intro pending s s' r h stacked unentered
      cases pending with
      | nil =>
          rw [← (run_pure_eq_ok.mp h).2]
          exact ⟨[], Heralded.of_eq rfl rfl, rfl, by simp⟩
      | cons q pending =>
          rw [List.map_cons, compareChildren, run_bind_eq_ok] at h
          obtain ⟨_, s₁, removed, h⟩ := h
          rw [run_bind_eq_ok] at h
          obtain ⟨_, s₂, compared, h⟩ := h
          obtain ⟨R₁, step₁, heralds₁, inside₁⟩ :=
            heralded_removeUnentered removed (unentered (c, q) List.mem_cons_self)
          obtain ⟨R₂, step₂, quiet₂⟩ := quiet_compareChild compared
          have stacked₁ := step₁.stacked stacked
          obtain ⟨R₃, step₃, heralds₃, inside₃⟩ := inductionHypothesis h (step₂.stacked stacked₁)
            fun x member => unentered x (List.mem_cons_of_mem _ member)
          refine ⟨R₁ ++ (R₂ ++ R₃), step₁.trans (step₂.trans step₃ stacked₁) stacked, ?_, ?_⟩
          · rw [List.filter_append, List.filter_append, heralds₁, heralds₃,
              List.filter_eq_nil_iff.mpr fun line member => by simp [quiet₂ line member],
              List.nil_append, List.zip_cons_cons, List.flatMap_cons]
          · intro x member u pend
            rcases List.mem_cons.mp member with rfl | later
            · exact (inside₁ u pend).append_right _
            · exact ((inside₃ x later u pend).append_left R₂).append_left R₁

/-! ### Scanning a child directory -/

/-- What the scan of the directory `d'`, found at `path` against its previous
directory `old`, writes between `s` and `s'`: a step whose records are those of the
differences inside `d'`, and whose `* 0` lines name the matched directories below
`d'` with something inside them that differs, each before the records inside it. -/
def Announces (path : String) (old : Option DirEntry) (d' : DirEntry) (s s' : ScanState σ) : Prop :=
  ∃ R, Heralded s s' R ∧ R.filter (!·.announces) ~ d'.changesWithin path old ∧
    R.filter (·.announces) ~ DirEntry.heraldsOf (d'.dirs.flatMap (DirEntry.matchedChild path d'.name old)) ∧
    ∀ e ∈ d'.dirs, ∀ b, old.bind (·.child? e.name) = some b →
      DirEntry.Heralds R (childPath path d'.name e.name) e b

/-- What the scan of a directory at `level` wrote, seen from the chain above it: the
name of the directory comes first when its level was pending and the scan wrote
anything. -/
def enclose (level : Level) (R : List Line) : List Line :=
  if level.announced || R.isEmpty then R else level.herald :: R

/-- A step that writes something writes a record. -/
theorem Heralded.records_ne_nil {s s' : ScanState σ} {R : List Line} (step : Heralded s s' R)
    (written : R ≠ []) : R.filter (!·.announces) ≠ [] := by
  rcases step with ⟨nothing, -, -⟩ | ⟨⟨line, member, quiet⟩, -, -⟩
  · exact absurd nothing written
  · exact List.ne_nil_of_mem (List.mem_filter.mpr ⟨member, by simp [quiet]⟩)

/-- A step on a level pushed on the chain of `s` and popped again, seen from `s`. A
named level was pushed on a named chain only. -/
theorem Heralded.pop {s t t' s' : ScanState σ} {level : Level} {R : List Line}
    (step : Heralded t t' R) (pushed : t.chain = level :: s.chain) (patch : t.patch = s.patch)
    (popped : s'.chain = t'.chain.tail) (patch' : s'.patch = t'.patch)
    (fresh : level.announced = true → Named s.chain) : Heralded s s' (enclose level R) := by
  rcases step with ⟨rfl, patchEq, chainEq⟩ | ⟨record, patchEq, chainEq⟩
  · refine .inl ⟨by simp [enclose], by rw [patch', patchEq, patch], ?_⟩
    rw [popped, List.map_tail, chainEq, pushed]
    rfl
  · cases named : level.announced with
    | true =>
        have above := fresh named
        have kept : enclose level R = R := by simp [enclose, named]
        rw [kept]
        refine .inr ⟨record, ?_, ?_⟩
        · rw [patch', patchEq, pushed, Level.heralds_cons_named named, Level.heralds_of_named above, patch]
        · rw [popped, List.map_tail, chainEq, pushed, Level.nameAll_cons_named named,
            Level.nameAll_of_named above]
          rfl
    | false =>
        obtain ⟨line, member, quiet⟩ := record
        have heralded : enclose level R = level.herald :: R := by
          simp [enclose, named, List.ne_nil_of_mem member]
        rw [heralded]
        refine .inr ⟨⟨line, List.mem_cons_of_mem _ member, quiet⟩, ?_, ?_⟩
        · rw [patch', patchEq, pushed, Level.heralds_cons_unnamed named, patch, List.append_assoc,
            List.singleton_append]
        · rw [popped, List.map_tail, chainEq, pushed, Level.nameAll_cons_unnamed named]
          rfl

/-- The scan of a child directory `c'`, found at `path` against `b`, on a level pushed
on the chain of `s` and popped again, seen from `s`: when `c'` is matched and
something inside it differs, its name comes first, then the rest in order. -/
theorem announces_enclosed {s t t' s' : ScanState σ} {level : Level} {path : String}
    {b : Option DirEntry} {c' : DirEntry} (scanned : Announces path b c' t t')
    (pushed : t.chain = level :: s.chain) (patch : t.patch = s.patch)
    (popped : s'.chain = t'.chain.tail) (patch' : s'.patch = t'.patch)
    (sign : level.sign = (c'.id, path, b.isNone)) (fresh : b = none → Named s.chain) :
    ∃ X, Heralded s s' X ∧ X.filter (·.announces) ~ DirEntry.heraldsOf ((b.map (c'.matched path)).getD []) ∧
      ∀ o, b = some o → DirEntry.Heralds X path c' o := by
  obtain ⟨R, step, records, heralds, children⟩ := scanned
  have flag : level.announced = b.isNone := congrArg (·.2.2) sign
  cases b with
  | none =>
      -- A new directory: nothing below it is matched.
      have kept : enclose level R = R := by simp [enclose, flag]
      have nothing : c'.dirs.flatMap (DirEntry.matchedChild path c'.name none) = [] :=
        List.flatMap_eq_nil_iff.mpr fun _ _ => rfl
      refine ⟨R, kept ▸ step.pop pushed patch popped patch' fun _ => fresh rfl, ?_, fun o none => by cases none⟩
      rwa [nothing] at heralds
  | some o =>
      have pop := step.pop pushed patch popped patch' fun named => by simp [flag] at named
      have herald : level.herald = c'.declaration (some .changed) path := by
        have id : level.id = c'.id := congrArg (·.1) sign
        have located : level.path = path := congrArg (·.2.1) sign
        rw [Level.herald, DirEntry.declaration, id, located]
      rw [Option.map_some, Option.getD_some, DirEntry.matched_eq, ← List.singleton_append,
        DirEntry.heraldsOf_append]
      by_cases written : R = []
      · -- Nothing differs inside `c'`.
        subst written
        have same : c'.changesInside path o = [] := (List.Perm.nil_eq records).symm
        have kept : enclose level [] = [] := by simp [enclose]
        refine ⟨[], kept ▸ pop, ?_, fun o' same' => ?_⟩
        · rw [DirEntry.heraldsOf_single_of_isEmpty (m := ⟨path, c', o⟩) (by simpa [Match.inner] using same)]
          simpa using heralds
        · cases same'
          exact DirEntry.Heralds.of_nil same
      · have differs : c'.changesInside path o ≠ [] := fun same =>
          step.records_ne_nil written (records.trans (List.Perm.of_eq same)).eq_nil
        have heralded : enclose level R = level.herald :: R := by simp [enclose, flag, written]
        refine ⟨level.herald :: R, heralded ▸ pop, ?_, fun o' same' => ?_⟩
        · rw [DirEntry.heraldsOf_single_of_ne_nil (m := ⟨path, c', o⟩) differs, List.filter_cons_of_pos rfl,
            herald]
          exact heralds.cons _
        · cases same'
          rw [herald]
          exact DirEntry.heralds_cons records.symm.subperm children

/-- Entering unread children one after another, each scanned against the child of its
name in `old`, over a chain that is named where a child is new: each entered child
that `old` matches is named before the records inside it, when something inside it
differs, and so is each matched directory below it. -/
theorem enterAll_heralded (distinct : walker.DistinctNames good)
    {visitChild : String → Option DirEntry → DirEntry → ScanM σ DirEntry}
    (visitCarries : ∀ path b (c c' : DirEntry) (t t' : ScanState σ), c.Unread → good t.walker →
      (∀ o ∈ b, o.SortedNames) → (visitChild path b c).run t = .ok (c', t') → Carried good b c c' t t')
    (visitAnnounces : ∀ path b (c c' : DirEntry) (t t' : ScanState σ), c.Unread → good t.walker →
      (∀ o ∈ b, o.SortedNames ∧ o.SortedFiles) → Level.Stacked t.chain → (b = none → Named t.chain) →
      (visitChild path b c).run t = .ok (c', t') → Announces path b c' t t')
    {path parentName : String} {old : Option DirEntry}
    (oldSorted : ∀ o ∈ old, o.SortedNames ∧ o.SortedFiles) :
    ∀ {cs : List DirEntry} {result : List DirEntry × List (Option DirEntry)} {s s' : ScanState σ},
      (enterAll walker visitChild path parentName cs
        (cs.map fun c => old.bind (·.child? c.name))).run s = .ok (result, s') →
      (∀ c ∈ cs, c.Unread) → good s.walker → Level.Stacked s.chain →
      (∀ c ∈ cs, old.bind (·.child? c.name) = none → Named s.chain) →
      ∃ R, Heralded s s' R ∧
        R.filter (·.announces) ~ (result.1.zip result.2).flatMap (fun x => if x.2.isSome then [] else
          DirEntry.heraldsOf (DirEntry.matchedChild path parentName old x.1)) ∧
        ∀ x ∈ result.1.zip result.2, x.2 = none → ∀ b, old.bind (·.child? x.1.name) = some b →
          DirEntry.Heralds R (childPath path parentName x.1.name) x.1 b := by
  intro cs
  induction cs with
  | nil =>
      intro result s s' h _ _ _ _
      rw [List.map_nil, enterAll, run_pure_eq_ok] at h
      obtain ⟨rfl, rfl⟩ := h
      exact ⟨[], Heralded.of_eq rfl rfl, by simp, by simp⟩
  | cons c cs inductionHypothesis =>
      intro result s s' h children goodNow stacked fresh
      have unread := children c List.mem_cons_self
      have restChildren := fun c' member => children c' (List.mem_cons_of_mem c member)
      rw [List.map_cons, enterAll] at h
      dsimp only at h
      rw [List.head?_cons, Option.join_some, List.tail_cons, run_get_bind] at h
      split at h
      · -- The walker refused the child: what it held is compared later.
        rw [run_count_bind, run_bind_eq_ok] at h
        obtain ⟨⟨rest, pending⟩, s₁, restRun, h⟩ := h
        rw [run_pure_eq_ok] at h
        obtain ⟨rfl, rfl⟩ := h
        obtain ⟨R, step, heralds, inside⟩ := inductionHypothesis restRun restChildren goodNow stacked
          fun c' member => fresh c' (List.mem_cons_of_mem c member)
        refine ⟨R, step, ?_, ?_⟩
        · rw [List.zip_cons_cons, List.flatMap_cons, DirEntry.matchedChild_eq]
          cases old.bind (·.child? c.name) with
          | none => simpa [DirEntry.heraldsOf] using heralds
          | some b => simpa using heralds
        · intro x member pend b found
          rcases List.mem_cons.mp member with rfl | later
          · dsimp only at pend found
            rw [pend] at found
            cases found
          · exact inside x later pend b found
      · -- The child was entered on a level of its own, named exactly when it is new.
        rename_i state entered
        rw [run_set_bind, run_bind_eq_ok] at h
        obtain ⟨c', s₁, visited, h⟩ := h
        rw [run_bind_eq_ok] at h
        obtain ⟨_, s₂, left, h⟩ := h
        rw [run_bind_eq_ok] at h
        obtain ⟨⟨rest, pending⟩, s₃, restRun, h⟩ := h
        rw [run_pure_eq_ok] at h
        obtain ⟨rfl, rfl⟩ := h
        have childGood := distinct.enter _ _ _ goodNow entered
        have childSorted := sorted_bind_child? oldSorted c.name
        have childCarried := visitCarries _ _ _ _ _ _ unread childGood
          (fun o member => (childSorted o member).1) visited
        have childFresh : old.bind (·.child? c.name) = none → Named s.chain :=
          fresh c List.mem_cons_self
        have pushed : Level.Stacked
            ({ id := c.id, path := childPath path parentName c.name,
               announced := (old.bind (·.child? c.name)).isNone } :: s.chain) := by
          cases baseline : old.bind (·.child? c.name) with
          | none => exact Level.stacked_of_named ((childFresh baseline).cons rfl)
          | some b => exact stacked.cons_unnamed rfl
        have scanned := visitAnnounces _ _ _ _ _ _ unread childGood childSorted pushed
          (fun baseline => (childFresh baseline).cons (by rw [baseline]; rfl)) visited
        obtain ⟨X, step, heralds, inside⟩ := announces_enclosed scanned rfl rfl
          (leaveChild_eq_ok left).2.2.2.2.2 (leaveChild_patch left) (by rw [childCarried.id]; rfl) childFresh
        obtain ⟨R, restStep, restHeralds, restInside⟩ := inductionHypothesis restRun restChildren
          (distinct.leave _ _ childCarried.walker (leaveChild_eq_ok left).1) (step.stacked stacked)
          fun c'' member baseline => step.named (fresh c'' (List.mem_cons_of_mem c member) baseline)
        refine ⟨X ++ R, step.trans restStep stacked, ?_, ?_⟩
        · rw [List.filter_append, List.zip_cons_cons, List.flatMap_cons, DirEntry.matchedChild_eq,
            childCarried.name]
          exact heralds.append restHeralds
        · intro x member _ b found
          rcases List.mem_cons.mp member with rfl | later
          · rw [childCarried.name] at found ⊢
            exact (inside b found).append_right R
          · exact (restInside x later (by assumption) b found).append_left X

/-- Merging names the whole chain when it declares a new child directory. -/
theorem merge_named_of_new {path : String} {old : Option DirEntry} {d d₂ : DirEntry}
    {baselines : List (Option DirEntry)} {s s₂ : ScanState σ}
    (h : (merge path old d).run s = .ok ((d₂, baselines), s₂))
    (liveSorted : d.dirs.Pairwise fun a b => a.name < b.name)
    (liveFilesSorted : d.files.Pairwise fun a b => a.name < b.name)
    (oldSorted : ∀ o ∈ old, (o.dirs.Pairwise fun a b => a.name < b.name) ∧
      o.files.Pairwise fun a b => a.name < b.name)
    (stacked : Level.Stacked s.chain) (fresh : old = none → Named s.chain) :
    ∀ c ∈ d₂.dirs, old.bind (·.child? c.name) = none → Named s₂.chain := by
  intro c child new
  obtain ⟨R, step, quiet⟩ := quiet_merge h stacked fresh
  have records := step.records (writes_merge h liveSorted liveFilesSorted oldSorted)
  rw [List.filter_eq_self.mpr fun line member => by simp [quiet line member]] at records
  have declared : newDeclaration path d c ∈ R :=
    records.symm.subset (List.mem_append_left _ (List.mem_map_of_mem (List.mem_filter.mpr ⟨child, by simp [new]⟩)))
  exact step.named_of_ne_nil stacked (List.ne_nil_of_mem declared)

/-- The `* 0` lines for the children of a directory called `name`, found at `path`:
those written while scanning the entered ones, then those written on comparing the
refused ones, name the matched directories below it, up to order. -/
theorem heraldsOf_children_perm (path name : String) (old : Option DirEntry) {cs : List DirEntry}
    {pending : List (Option DirEntry)} (length : pending.length = cs.length)
    (unentered : ∀ x ∈ cs.zip pending, ∀ u, x.2 = some u → x.1.Unread ∧ x.2 = old.bind (·.child? x.1.name)) :
    (cs.zip pending).flatMap (fun x => if x.2.isSome then [] else
        DirEntry.heraldsOf (DirEntry.matchedChild path name old x.1)) ++
      (cs.zip pending).flatMap (fun x =>
        DirEntry.heraldsOf ((x.2.map (x.1.matched (childPath path name x.1.name))).getD [])) ~
      DirEntry.heraldsOf (cs.flatMap (DirEntry.matchedChild path name old)) := by
  have fst : (cs.zip pending).map Prod.fst = cs := List.map_fst_zip (le_of_eq length.symm)
  have fromFst := List.flatMap_map Prod.fst (fun c => DirEntry.heraldsOf (DirEntry.matchedChild path name old c))
    (cs.zip pending)
  rw [fst] at fromFst
  rw [DirEntry.heraldsOf_flatMap, fromFst]
  refine (List.flatMap_append_perm _ _ _).trans (List.Perm.of_eq (List.flatMap_congr fun x member => ?_))
  -- A child is entered, or refused with its previous directory pending.
  cases pend : x.2 with
  | none => simp
  | some u =>
      have baseline := (unentered x member u pend).2
      rw [pend] at baseline
      simp [DirEntry.matchedChild_eq, ← baseline]

/-- Scanning an unread directory `d`, found at `path`, against its previous directory
`old`, over a walker that lists distinct names of each kind, from a stacked chain
that is named when `d` is new: the scan writes the differences inside the directory
it returns, and names each matched directory below it, when something inside that
directory differs, before the records inside it. -/
theorem visit_announces (distinct : walker.DistinctNames good) (distinctFiles : walker.DistinctFiles good)
    {limits : Limits} {firstFresh : Nat} (fuel : Nat) :
    ∀ {path : String} {old : Option DirEntry} {d d' : DirEntry} {s s' : ScanState σ}, d.Unread →
      good s.walker → (∀ o ∈ old, o.SortedNames ∧ o.SortedFiles) → Level.Stacked s.chain →
      (old = none → Named s.chain) →
      (visit walker limits firstFresh fuel path old d).run s = .ok (d', s') →
      Announces path old d' s s' := by
  induction fuel with
  | zero =>
      intro path old d d' s s' _ _ _ _ _ h
      rw [visit, run_throw] at h
      cases h
  | succ fuel inductionHypothesis =>
      intro path old d d' s s' unread goodNow oldSorted stacked fresh h
      have written := visit_writes distinct distinctFiles (fuel + 1) unread goodNow oldSorted h
      rw [visit, run_bind_eq_ok] at h
      obtain ⟨d₁, s₁, read, h⟩ := h
      have numbered := readDir_numbered read ⟨unread.noDirs, unread.noFiles⟩
      obtain ⟨liveSorted, good₁⟩ := readDir_sorted distinct read unread goodNow
      have liveFilesSorted := readDir_filesSorted distinctFiles read unread goodNow
      have readStep := heralded_readDir read
      have stacked₁ := readStep.stacked stacked
      have fresh₁ : old = none → Named s₁.chain := fun none => readStep.named (fresh none)
      rw [run_bind_eq_ok] at h
      obtain ⟨⟨d₂, baselines⟩, s₂, mergedRun, h⟩ := h
      dsimp only at h
      have merged := numbered.merged mergedRun
      have partitions : ∀ o ∈ old, (o.dirs.Pairwise fun a b => a.name < b.name) ∧
          o.files.Pairwise fun a b => a.name < b.name := fun o member =>
        ⟨(oldSorted o member).1 o (DirEntry.mem_allDirs_self o),
          (oldSorted o member).2 o (DirEntry.mem_allDirs_self o)⟩
      have carries := merge_carries mergedRun
        (by rw [numbered.childIds, numbered.start, numbered.supply, Nat.add_sub_cancel_left])
        liveSorted fun o same => (partitions o same).1
      obtain ⟨R₁, mergeStep, quiet₁⟩ := quiet_merge mergedRun stacked₁ fresh₁
      -- A new child is declared by the merge, which names the chain first.
      have named₂ := merge_named_of_new mergedRun liveSorted liveFilesSorted partitions stacked₁ fresh₁
      have childrenUnread : ∀ c ∈ d₂.dirs, c.Unread := merged.unread_of_mem fun c child =>
        ⟨(numbered.childrenEmpty c child).1, (numbered.childrenEmpty c child).2,
          numbered.childrenUnread c child⟩
      rw [run_dumpAll_bind, run_bind_eq_ok, carries.baselines] at h
      obtain ⟨⟨dirs, pending⟩, s₃, entered, h⟩ := h
      dsimp only at h
      have childCarries : ∀ path b (c c' : DirEntry) (t t' : ScanState σ), c.Unread → good t.walker →
          (∀ o ∈ b, o.SortedNames) → (visit walker limits firstFresh fuel path b c).run t = .ok (c', t') →
          Carried good b c c' t t' :=
        fun _ _ _ _ _ _ => visit_carries distinct fuel
      have good₂ : good s₂.walker := by rw [merged.walker]; exact good₁
      have enterCarried := enterAll_carries distinct childCarries (fun o member => (oldSorted o member).1)
        entered childrenUnread good₂
      obtain ⟨-, pendingLength, unentered⟩ := enterAll_writes distinct childCarries
        (fun _ _ _ _ _ _ => visit_writes distinct distinctFiles fuel) oldSorted entered childrenUnread good₂
      obtain ⟨R₂, enterStep, heralds₂, inside₂⟩ := enterAll_heralded distinct childCarries
        (fun _ _ _ _ _ _ => inductionHypothesis) oldSorted entered childrenUnread good₂
        (mergeStep.stacked stacked₁) named₂
      rw [run_bind_eq_ok] at h
      obtain ⟨size, s₄, summed, h⟩ := h
      rw [run_checked_eq_ok] at summed
      obtain ⟨-, rfl⟩ := summed
      rw [run_bind_eq_ok] at h
      obtain ⟨_, s₅, compared, h⟩ := h
      rw [run_dumpAll_bind, run_pure_eq_ok] at h
      obtain ⟨rfl, rfl⟩ := h
      -- The scanned children keep the names merging gave them.
      rw [enterCarried.map_bind_child? old] at compared
      obtain ⟨R₃, compareStep, heralds₃, inside₃⟩ := heralded_compareChildren path { d₂ with dirs, size }
        (fun c => old.bind (·.child? c.name)) compared (enterStep.stacked (mergeStep.stacked stacked₁))
        fun x member u pend => unentered_named pend (unentered x member u pend)
      have step := readStep.trans (mergeStep.trans (enterStep.trans compareStep
        (mergeStep.stacked stacked₁)) stacked₁) stacked
      rw [List.nil_append] at step
      refine ⟨R₁ ++ (R₂ ++ R₃), step, step.records written, ?_, ?_⟩
      · -- Merging names nothing; the children's scans and the comparison name the rest.
        rw [List.filter_append, List.filter_append, heralds₃,
          List.filter_eq_nil_iff.mpr fun line member => by simp [quiet₁ line member], List.nil_append]
        exact (heralds₂.append_right _).trans (heraldsOf_children_perm path d₂.name old pendingLength unentered)
      · intro e child b found
        have fst : (dirs.zip pending).map Prod.fst = dirs := List.map_fst_zip (le_of_eq pendingLength.symm)
        have listed : e ∈ (dirs.zip pending).map Prod.fst := by
          rw [fst]
          exact child
        obtain ⟨x, member, rfl⟩ := List.mem_map.mp listed
        cases pend : x.2 with
        | none => exact ((inside₂ x member pend b found).append_right R₃).append_left R₁
        | some u =>
            have baseline := (unentered x member u pend).2
            rw [pend, found] at baseline
            cases baseline
            exact ((inside₃ x member _ pend).append_left R₂).append_left R₁

/-! ### A whole scan -/

/-- A step from a named chain writes what it names after the patch so far. -/
theorem Heralded.patch_of_named {s s' : ScanState σ} {R : List Line} (step : Heralded s s' R)
    (named : Named s.chain) : s'.patch.toList = s.patch.toList ++ R := by
  rcases step with ⟨rfl, patch, -⟩ | ⟨-, patch, -⟩
  · rw [patch, List.append_nil]
  · rw [patch, Level.heralds_of_named named, List.nil_append]

/-- The scan of the root, whose level is the whole chain, seen from outside the
chain: what it writes names the root first when the root is matched and something
inside it differs. -/
theorem announces_root {t t' : ScanState σ} {path : String} {old : Option DirEntry} {d' : DirEntry}
    (scanned : Announces path old d' t t') {level : Level} (rootLevel : t.chain = [level])
    (sign : level.sign = (d'.id, path, old.isNone)) :
    ∃ X, t'.patch.toList = t.patch.toList ++ X ∧
      X.filter (·.announces) ~ DirEntry.heraldsOf ((old.map (d'.matched path)).getD []) ∧
      ∀ o, old = some o → DirEntry.Heralds X path d' o := by
  have nothingAbove : Named ({ t with chain := [] } : ScanState σ).chain := fun _ member => by cases member
  obtain ⟨X, step, heralds, inside⟩ := announces_enclosed (s := { t with chain := [] }) scanned rootLevel rfl
    (rfl : ({ t' with chain := t'.chain.tail } : ScanState σ).chain = t'.chain.tail) rfl sign
    fun _ => nothingAbove
  exact ⟨X, step.patch_of_named nothingAbove, heralds, inside⟩

theorem openRoot_lines {root : DirEntry} {old : Option DirEntry} {s s' : ScanState σ} {r : Unit}
    (h : (openRoot root old).run s = .ok (r, s')) :
    s'.chain = s.chain ∧ ∃ O, s'.patch.toList = s.patch.toList ++ O ∧ (∀ line ∈ O, line.announces = false) ∧
      (old.isSome → O = []) := by
  unfold openRoot at h
  split at h
  · rename_i noBaseline
    rw [run_emit, Except.ok.injEq, Prod.mk.injEq] at h
    rw [← h.2]
    refine ⟨rfl, [⟨some .added, .directory root.id root.name⟩], by simp,
      fun line member => by rw [List.mem_singleton.mp member]; rfl, ?_⟩
    intro baseline
    rw [Option.isNone_iff_eq_none.mp noBaseline] at baseline
    cases baseline
  · rw [run_pure_eq_ok] at h
    rw [← h.2]
    exact ⟨rfl, [], by simp, by simp, fun _ => rfl⟩

theorem closeRoot_lines {d : DirEntry} {old : Option DirEntry} {s s' : ScanState σ} {r : Unit}
    (h : (closeRoot d old).run s = .ok (r, s')) :
    ∃ C, s'.patch.toList = s.patch.toList ++ C ∧ ∀ line ∈ C, line.announces = false := by
  have entry : ∀ marker, (d.entryLine marker 0).announces = false := fun marker =>
    DirEntry.announces_entryLine marker 0 d
  cases old with
  | none =>
      rw [closeRoot, run_emit, Except.ok.injEq, Prod.mk.injEq] at h
      rw [← h.2]
      exact ⟨[d.entryLine (some .added) 0], by simp, by simp [entry]⟩
  | some o =>
      rw [closeRoot] at h
      split at h
      · rw [run_emit, Except.ok.injEq, Prod.mk.injEq] at h
        rw [← h.2]
        exact ⟨[d.entryLine (some .changed) 0], by simp, by simp [entry]⟩
      · rw [run_pure_eq_ok] at h
        rw [← h.2]
        exact ⟨[], by simp, by simp⟩

/-- A whole scan from an unread root against a sorted previous tree, over a walker
that lists distinct names of each kind: the `* 0` lines of its patch name the
matched directories with something inside them that differs, each once, and each
before the records inside it and after the names of the directories above it. -/
theorem run_announcements (distinct : walker.DistinctNames good)
    (distinctFiles : walker.DistinctFiles good) {limits : Limits} {state : σ} {root : DirEntry}
    {old : Option DirEntry} {ids : IdSupply} {scan : Scan σ}
    (h : run walker limits state root old ids = .ok scan) (unread : root.Unread) (goodNow : good state)
    (oldSorted : ∀ o ∈ old, o.SortedNames ∧ o.SortedFiles) :
    scan.patch.filter (·.announces) ~ DirEntry.heraldsOf ((old.map (scan.tree.matched root.name)).getD []) ∧
      ∀ o ∈ old, DirEntry.Heralds scan.patch root.name scan.tree o := by
  unfold run at h
  obtain ⟨⟨tree, s'⟩, ran, rfl⟩ := except_map_eq_ok h
  rw [run_bind_eq_ok] at ran
  obtain ⟨_, s₁, opened, ran⟩ := ran
  obtain ⟨walker₁, -⟩ := keeps_openRoot root old _ _ _ opened
  obtain ⟨rootLevel, O, openedPatch, openQuiet, baselineOpens⟩ := openRoot_lines opened
  rw [run_dumpAll_bind, run_bind_eq_ok] at ran
  obtain ⟨d, s₂, visited, ran⟩ := ran
  have carried := visit_carries distinct _ unread (by rw [walker₁]; exact goodNow)
    (fun o member => (oldSorted o member).1) visited
  -- The chain holds the root's level only, named exactly when there is no baseline.
  have scanned := visit_announces distinct distinctFiles _ unread (by rw [walker₁]; exact goodNow)
    oldSorted (by rw [rootLevel]; exact Level.stacked_singleton _)
    (fun none => by rw [rootLevel, none]; exact fun _ member => by rw [List.mem_singleton.mp member]; rfl)
    visited
  obtain ⟨X, visitedPatch, heralds, inside⟩ := announces_root scanned rootLevel (by rw [carried.id]; rfl)
  rw [run_bind_eq_ok] at ran
  obtain ⟨_, s₃, closed, ran⟩ := ran
  rw [run_dumpAll_bind, run_pure_eq_ok] at ran
  obtain ⟨rfl, rfl⟩ := ran
  obtain ⟨C, closedPatch, closeQuiet⟩ := closeRoot_lines closed
  -- The patch: the root's declaration without a baseline, the scan, the root's entry.
  have patch : s₃.patch.toList = O ++ X ++ C := by
    rw [closedPatch, visitedPatch]
    change (s₁.patch.toList ++ X) ++ C = _
    rw [openedPatch]
    rfl
  have quietFilter : ∀ L : List Line, (∀ line ∈ L, line.announces = false) → L.filter (·.announces) = [] :=
    fun L quiet => List.filter_eq_nil_iff.mpr fun line member => by simp [quiet line member]
  refine ⟨?_, fun o baseline => ?_⟩
  · change s₃.patch.toList.filter _ ~ _
    rw [patch, List.filter_append, List.filter_append, quietFilter O openQuiet, quietFilter C closeQuiet,
      List.nil_append, List.append_nil]
    exact heralds
  · change DirEntry.Heralds s₃.patch.toList _ _ _
    rw [patch, baselineOpens (Option.isSome_iff_exists.mpr ⟨o, baseline⟩), List.nil_append]
    exact (inside o baseline).append_right C

end Scan

/-- The `* 0` lines of a diff. Diff an in-memory tree with distinct sibling names of
each kind against no snapshot, or against a snapshot whose partitions are sorted by
name with each name once. The output is the header, the patch and the dump of the
tree the scan built. The patch's `* 0` lines are, up to order, one line naming each
directory that both trees hold with something inside it that differs: a directory
new in the live tree is never named this way, and nor is one where nothing inside
differs, counting the removal of what a directory held when the walker refused to
enter it. Each such line comes before all the records inside its directory, and the
line naming a matched directory inside it comes after it. -/
theorem diff_announcements {T : MemNode} (distinct : T.DistinctDirs) (distinctFiles : T.DistinctFiles)
    (limits : Limits) (name : String) {S : Option Snapshot}
    (sorted : ∀ o ∈ S, o.root.SortedNames ∧ o.root.SortedFiles) {r : Report MemWalk}
    (diffed : inventory memWalker limits { root := T } .diff (DirEntry.root name) S = .ok r) :
    ∃ (tree : DirEntry) (patch : List Line),
      r.output = "* " ++ ((S.map (·.digest)).getD (Md5.digest [])).toHex ++ "\n" ++
        Wire.text patch ++ tree.dumpText ∧
      patch.filter (·.announces) ~ DirEntry.heraldsOf (((S.map (·.root)).map (tree.matched name)).getD []) ∧
      ∀ o ∈ S.map (·.root), DirEntry.Heralds patch name tree o := by
  obtain ⟨ids, scan, -, ran, written⟩ := inventory_diff_scans diffed
  have oldSorted : ∀ o ∈ S.map (·.root), o.SortedNames ∧ o.SortedFiles := by
    intro o member
    obtain ⟨snapshot, kept, rfl⟩ := Option.mem_map.mp member
    exact sorted snapshot kept
  obtain ⟨heralds, inside⟩ := Scan.run_announcements (memWalker_distinctNames distinct)
    (memWalker_distinctFiles distinctFiles) ran ⟨rfl, rfl, rfl⟩ rfl oldSorted
  refine ⟨scan.tree, scan.patch, ?_, heralds, inside⟩
  rw [written, Scan.run_dump ran rfl rfl, DirEntry.dumpText]

/-- The snapshot of a directory `r` that held one empty directory `a` reads back with
its partitions sorted, and an empty directory `r` diffs against it. -/
theorem emptied_snapshot_diffs :
    ∃ S r, Snapshot.read "0 1 r\n0 2 r/a\n1 1 0 0 2 0 a\n1 0 0 0 1 1 r\n".toUTF8.toList = .ok S ∧
      (∀ o ∈ some S, o.root.SortedNames ∧ o.root.SortedFiles) ∧
      inventory memWalker {} { root := .dir "r" [] false false } .diff (DirEntry.root "r") (some S) = .ok r := by
  have checked : (Snapshot.read "0 1 r\n0 2 r/a\n1 1 0 0 2 0 a\n1 0 0 0 1 1 r\n".toUTF8.toList).toOption.any
      (fun S => decide (S.root.dirs.Pairwise fun a b => a.name < b.name) &&
        decide (S.root.files.Pairwise fun a b => a.name < b.name) &&
        S.root.dirs.all (fun c => c.dirs.isEmpty && c.files.isEmpty) &&
        (inventory memWalker {} { root := .dir "r" [] false false } .diff (DirEntry.root "r")
          (some S)).toOption.any fun _ => true) = true := by
    decide +kernel
  obtain ⟨S, accepted, fits⟩ := Scan.exists_ok_of_toOption_any checked
  simp only [Bool.and_eq_true, decide_eq_true_eq, List.all_eq_true, List.isEmpty_iff] at fits
  obtain ⟨⟨⟨dirsSorted, filesSorted⟩, leaves⟩, diffs⟩ := fits
  obtain ⟨r, diffed, -⟩ := Scan.exists_ok_of_toOption_any diffs
  -- Below the root every directory is an empty leaf.
  have leafSorted : ∀ c ∈ S.root.dirs, c.SortedNames ∧ c.SortedFiles := by
    intro c child
    obtain ⟨noDirs, noFiles⟩ := leaves c child
    have noBelow : ∀ b ∈ c.dirs, False := fun b below => by
      rw [noDirs] at below
      exact absurd below List.not_mem_nil
    exact ⟨DirEntry.sortedNames_of_children (by rw [noDirs]; exact .nil) fun b below => (noBelow b below).elim,
      DirEntry.sortedFiles_of_children (by rw [noFiles]; exact .nil) fun b below => (noBelow b below).elim⟩
  refine ⟨S, r, accepted, fun o member => ?_, diffed⟩
  obtain rfl := Option.mem_some_iff.mp member
  exact ⟨DirEntry.sortedNames_of_children dirsSorted fun c child => (leafSorted c child).1,
    DirEntry.sortedFiles_of_children filesSorted fun c child => (leafSorted c child).2⟩

/-- The diff of an empty directory against a snapshot whose root held one directory
`a` meets the hypotheses of `diff_announcements`. -/
theorem emptied_diff_announcements :
    ∃ S r, Snapshot.read "0 1 r\n0 2 r/a\n1 1 0 0 2 0 a\n1 0 0 0 1 1 r\n".toUTF8.toList = .ok S ∧
      (MemNode.dir "r" [] false false).DistinctDirs ∧ (MemNode.dir "r" [] false false).DistinctFiles ∧
      (∀ o ∈ some S, o.root.SortedNames ∧ o.root.SortedFiles) ∧
      inventory memWalker {} { root := .dir "r" [] false false } .diff (DirEntry.root "r") (some S) = .ok r ∧
      ∃ (tree : DirEntry) (patch : List Line),
        r.output = "* " ++ (((some S).map (·.digest)).getD (Md5.digest [])).toHex ++ "\n" ++
          Wire.text patch ++ tree.dumpText ∧
        patch.filter (·.announces) ~ DirEntry.heraldsOf ((((some S).map (·.root)).map (tree.matched "r")).getD []) ∧
        ∀ o ∈ (some S).map (·.root), DirEntry.Heralds patch "r" tree o := by
  obtain ⟨S, r, accepted, sorted, diffed⟩ := emptied_snapshot_diffs
  exact ⟨S, r, accepted, Scan.distinctDirs_leaf "r" false false, MemNode.distinctFiles_leaf "r" false false,
    sorted, diffed, diff_announcements (Scan.distinctDirs_leaf "r" false false)
      (MemNode.distinctFiles_leaf "r" false false) {} "r" sorted diffed⟩

end TreeDump
