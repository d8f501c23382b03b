import Mathlib
import TreeDump.Engine.Replay
import TreeDump.Proofs.DepthFirst
import TreeDump.Proofs.Dump

/-!
Contract: the replay policy, run by the walk, writes the replay of the tree.

Owns: what the replay policy does on each call (`replayHooks_enter` and the like), what it
leaves of a directory it has visited (`DirEntry.cleared`), what it writes and leaves while
it visits directories (`ReplaysBelow`, proved for every list by `replaysBelow`), and the
whole walk.

Main statement (`replay_walk`): for every tree found at any path under any parent and every
marker, the walk of the replay policy writes `DirEntry.replay` and leaves the root with
nothing in it. So the wire dump of a tree held in memory (`DirEntry.dumpText`) and the
lines a patch writes for a removed subtree, which both read `DirEntry.replay`, are what the
policy writes.

## Why it goes through

The lines written on leaving a directory are the entries of its child directories as
their own visits left them, so they are not a function of the walk's calls alone
(`Hooks.Call` names a left directory only by its name and id), and the listing's route
through `Hooks.walk_map` is closed. One induction over the directories
(`DirEntry.listInduction`) carries instead both what is written and what the current
directory holds: each visited child is put back emptied of its files and its child
directories (`Hooks.putBack`), and an emptied child has the entry line it had.
-/

namespace TreeDump

open Wire

/-- A directory as the replay policy leaves it: its own entry, with its files and its
child directories written and dropped. -/
def DirEntry.cleared (d : DirEntry) : DirEntry := { d with files := [], dirs := [] }

/-- Dropping what a directory holds leaves its entry line as it was. -/
@[simp] theorem DirEntry.entryLine_cleared (marker : Option Marker) (parent : Nat) (d : DirEntry) :
    d.cleared.entryLine marker parent = d.entryLine marker parent := rfl

/-! ### The policy's calls -/

section Calls

variable (marker : Option Marker) (cx : Cursor) (out : List Line)

@[simp] theorem replayHooks_enterRoot :
    (replayHooks marker).enterRoot cx out =
      ({ cx.current with files := [] },
        out ++ [cx.current.declaration marker cx.path] ++ cx.current.openingLines marker cx.path) :=
  rfl

@[simp] theorem replayHooks_enter :
    (replayHooks marker).enter cx out =
      ({ cx.current with files := [] }, out ++ cx.current.openingLines marker cx.path) :=
  rfl

@[simp] theorem replayHooks_leave :
    (replayHooks marker).leave cx out =
      ({ cx.current with dirs := [] }, out ++ cx.current.closingLines marker) :=
  rfl

@[simp] theorem replayHooks_leaveRoot :
    (replayHooks marker).leaveRoot cx out =
      ({ cx.current with dirs := [] },
        out ++ cx.current.closingLines marker ++ [cx.current.entryLine marker cx.rootParent]) :=
  rfl

end Calls

/-! ### Visiting directories -/

/-- What the replay policy does while it visits `cs`, the directories the current one has
still to try: it writes the replay of what each holds, at its path, and puts each back
emptied. -/
def ReplaysBelow (marker : Option Marker) (cs : List DirEntry) : Prop :=
  ∀ cx out, cx.remaining = cs →
    ((replayHooks marker).below cs cx out).1.current =
        { cx.current with dirs := cx.current.dirs.take cx.top.next ++ cs.map DirEntry.cleared } ∧
      ((replayHooks marker).below cs cx out).2 =
        out ++ cs.flatMap fun c => c.replayInside marker (cx.childPath c.name)

variable {marker : Option Marker}

/-- Visiting the next child `c` writes the replay of what it holds and puts it back
emptied. -/
theorem replay_visit {c : DirEntry} {cs : List DirEntry} {cx : Cursor}
    (inside : ReplaysBelow marker c.dirs) (left : cx.remaining = c :: cs) (out : List Line) :
    (replayHooks marker).putBack c cx out = c.cleared ∧
      ((replayHooks marker).visit c cx out).2 = out ++ c.replayInside marker (cx.childPath c.name) := by
  obtain ⟨-, child, -⟩ := drop_eq_cons_split DirEntry.taken left
  -- entering `c` drops its files and writes its opening lines
  have entered : (replayHooks marker).enter (cx.descend cx.top.next) out =
      ({ c with files := [] }, out ++ c.openingLines marker (cx.childPath c.name)) := by
    rw [replayHooks_enter, Cursor.current_descend, Cursor.path_descend, child]
  -- below `c`, its child directories are written and put back emptied
  obtain ⟨done, written⟩ := inside _ _ ((replayHooks marker).remaining_entered left out)
  rw [entered] at done written
  simp only [Cursor.current_setCurrent, Cursor.next_setCurrent, Cursor.next_descend,
    List.take_zero, List.nil_append, Cursor.childPath_setCurrent, Cursor.path_descend,
    child] at done written
  constructor
  · rw [Hooks.putBack, entered, replayHooks_leave, done]
    rfl
  · rw [Hooks.visit_eq]
    dsimp only
    rw [entered, replayHooks_leave, written, done, DirEntry.replayInside_eq_opening]
    simp [DirEntry.closingLines]

theorem replaysBelow_nil : ReplaysBelow marker [] := by
  intro cx out left
  refine ⟨?_, by simp [Hooks.below_nil]⟩
  rw [Hooks.below_nil, List.map_nil, List.append_nil,
    List.take_of_length_le (List.drop_eq_nil_iff.mp left)]
  show cx.current = { cx.current with dirs := cx.current.dirs }
  cases cx.current
  rfl

theorem replaysBelow_cons {c : DirEntry} {cs : List DirEntry} (inside : ReplaysBelow marker c.dirs)
    (rest : ReplaysBelow marker cs) : ReplaysBelow marker (c :: cs) := by
  intro cx out left
  obtain ⟨inRange, -, -⟩ := drop_eq_cons_split DirEntry.taken left
  obtain ⟨putBack, visitLines⟩ := replay_visit inside left out
  -- after the visit, the current directory holds `c` emptied and goes on after it
  have visited := Hooks.frames_visit ((replayHooks marker).resumes c.dirs) cx out
  rw [putBack] at visited
  obtain ⟨current, lines⟩ := rest _ _ ((replayHooks marker).remaining_visit left out)
  rw [Cursor.current_of_frames visited, Cursor.top_of_frames visited] at current
  simp only [Cursor.childPath, Cursor.top_of_frames visited] at lines
  rw [Hooks.below_cons]
  refine ⟨current.trans ?_, lines.trans ?_⟩
  · -- the directories before `c`, then `c` and those after it emptied
    obtain ⟨pre, dirs, length⟩ : ∃ pre, cx.current.dirs = pre ++ c :: cs ∧ pre.length = cx.top.next :=
      ⟨_, by rw [← left, Cursor.remaining, List.take_append_drop],
        List.length_take_of_le (Nat.le_of_lt inRange)⟩
    simp only
    congr 1
    rw [dirs, ← length]
    simp [List.take_append]
  · rw [visitLines, List.append_assoc, List.flatMap_cons]
    rfl

/-- Visiting any directories writes the replay of what each holds and puts each back
emptied. -/
theorem replaysBelow (marker : Option Marker) (cs : List DirEntry) : ReplaysBelow marker cs :=
  DirEntry.listInduction replaysBelow_nil (fun _ _ => replaysBelow_cons) cs

/-! ### The walk -/

/-- The replay policy writes the replay of a tree. For every tree `T` found at `path`
under the directory `parent` and every marker, the walk from its root writes
`T.replay marker path parent` and gives back the root with nothing left in it. -/
theorem replay_walk (marker : Option Marker) (T : DirEntry) (path : String) (parent : Nat) :
    ((replayHooks marker).walk (Cursor.withPath T path parent) []).2 = T.replay marker path parent ∧
      ((replayHooks marker).walk (Cursor.withPath T path parent) []).1.intoRoot = T.cleared := by
  have entered := replayHooks_enterRoot marker (Cursor.withPath T path parent) []
  obtain ⟨current, lines⟩ := replaysBelow marker T.dirs _
    ((replayHooks marker).enterRoot (Cursor.withPath T path parent) []).2
    ((replayHooks marker).remaining_enteredRoot T path parent [])
  have up := (replayHooks marker).below_rootParent T.dirs
    ((Cursor.withPath T path parent).setCurrent
      ((replayHooks marker).enterRoot (Cursor.withPath T path parent) []).1)
    ((replayHooks marker).enterRoot (Cursor.withPath T path parent) []).2
  have atRoot := (replayHooks marker).atRoot_walk_withPath T path parent []
  constructor
  · -- the root's declaration and opening lines, what its children hold, its closing lines
    -- and its own entry
    rw [Hooks.walk_withPath]
    dsimp only
    rw [replayHooks_leaveRoot, lines, current, up, entered, DirEntry.replay,
      DirEntry.replayInside_eq_opening]
    simp [DirEntry.closingLines, Function.comp_def]
    -- the root's entry reads none of what the walk dropped
    rfl
  · -- the root, put back by its leaving hook with its child directories dropped
    rw [Cursor.intoRoot_of_atRoot atRoot, ← Cursor.current_of_atRoot atRoot, Hooks.walk_withPath]
    dsimp only
    rw [Cursor.current_setCurrent, replayHooks_leaveRoot, current, entered]
    rfl

/-- A removed directory `gone`, holding one file, as a patch replays it under `share`. -/
def goneEntry : DirEntry :=
  { name := "gone", size := 3, id := 5, fid := 1, items := 1, files := [{ name := "f", size := 3 }] }

example : ((replayHooks (some .removed)).walk (Cursor.withPath goneEntry "share/gone" 1) []).2 =
    [⟨some .removed, .directory 5 "share/gone"⟩, ⟨some .removed, .entry 5 0 3 0 0 "f"⟩,
      ⟨some .removed, .entry 1 1 3 5 1 "gone"⟩] := by
  rw [(replay_walk _ _ _ _).1, DirEntry.replay, DirEntry.replayInside_eq]
  rfl

/-- The wire dump of a tree held in memory is what the replay policy writes from its
root. -/
theorem DirEntry.dumpText_eq_walk (d : DirEntry) :
    d.dumpText = Wire.text ((replayHooks none).walk (Cursor.new d) []).2 := by
  rw [DirEntry.dumpText, ← (replay_walk none d d.name 0).1]
  rfl

end TreeDump
