import TreeDump.Engine.Cursor

/-!
The depth-first loop every printing of a tree held in memory runs through.

A walk calls a policy's hooks: on entering the root, on entering and on leaving every
other directory, and on leaving the root. A hook sees the cursor and the policy's state
and gives back the current directory's new entry and the new state. Between the calls
the walk moves the cursor itself, the way a policy's default navigation does.

The loop is flat: a flag says whether the last move entered a directory, and every
frame's next child to try says where to go on. Entering hooks keep what navigation
reads of the current directory (`DirEntry.Kept`), so every step lowers `Cursor.work`,
twice the directories still to enter plus one for each frame, and the loop ends.
Leaving hooks may change anything of the current directory, which the walk never reads
again.
-/

namespace TreeDump

/-- What an entering hook keeps of the current directory: everything navigation and
the paths below it read. -/
structure DirEntry.Kept (after before : DirEntry) : Prop where
  name : after.name = before.name
  id : after.id = before.id
  dirs : after.dirs = before.dirs

/-- The hooks of a policy with state `ω`. Each sees the cursor and the state, and gives
the current directory's new entry and the new state. -/
structure Hooks (ω : Type) where
  enterRoot : Cursor → ω → DirEntry × ω
  enter : Cursor → ω → DirEntry × ω
  leave : Cursor → ω → DirEntry × ω
  leaveRoot : Cursor → ω → DirEntry × ω
  enterRoot_kept : ∀ cx w, (enterRoot cx w).1.Kept cx.current
  enter_kept : ∀ cx w, (enter cx w).1.Kept cx.current

/-- The directories of a tree, its root included. -/
def DirEntry.dirCount : DirEntry → Nat
  | ⟨_, _, _, _, _, _, dirs, _⟩ => (dirs.map DirEntry.dirCount).foldr (· + ·) 0 + 1

theorem DirEntry.dirCount_eq (d : DirEntry) :
    d.dirCount = (d.dirs.map DirEntry.dirCount).foldr (· + ·) 0 + 1 := by
  cases d
  rw [DirEntry.dirCount]

namespace Frame

/-- The directories a frame has still to enter: those of its children from the next to
try on, with everything below them. -/
def pending (f : Frame) : Nat :=
  ((f.entry.dirs.drop f.next).map DirEntry.dirCount).foldr (· + ·) 0

/-- What a walk has still to do for a list of frames: twice the directories still to
enter, and one for each frame still to leave. -/
def work (fs : List Frame) : Nat := (fs.map fun f => 2 * f.pending + 1).foldr (· + ·) 0

theorem work_cons (f : Frame) (fs : List Frame) : work (f :: fs) = 2 * f.pending + 1 + work fs :=
  rfl

theorem pending_restore {parent child : Frame} (before : child.slot < parent.next) :
    (parent.restore child).pending = parent.pending := by
  simp only [pending, restore, List.drop_set_of_lt before]

/-- Taking out the next child directory leaves the directories below it to the new
frame. -/
theorem pending_give {f : Frame} (inRange : f.next < f.entry.dirs.length) :
    (f.give f.next).pending + f.entry.dirs[f.next].dirCount = f.pending := by
  simp only [pending, give, List.drop_set_of_lt (Nat.lt_add_one f.next),
    List.drop_eq_getElem_cons inRange, List.map_cons, List.foldr_cons]
  omega

end Frame

namespace Cursor

/-- Enters the next child directory not yet tried, if one is left, and says whether it
did. -/
def goChild (cx : Cursor) : Bool × Cursor :=
  match cx.nextUnvisited with
  | some index => (true, cx.descend index)
  | none => (false, cx)

/-- Leaves the current directory and enters its next sibling; says false, with the
parent current, when the parent has none left. -/
def goSiblingOrParent (cx : Cursor) : Bool × Cursor := cx.ascend.goChild

/-- What a walk has still to do from here. -/
def work (cx : Cursor) : Nat := Frame.work cx.frames

theorem work_setCurrent {cx : Cursor} {e : DirEntry} (dirs : e.dirs = cx.current.dirs) :
    (cx.setCurrent e).work = cx.work := by
  rw [work, work, frames_setCurrent, frames_eq cx, Frame.work_cons, Frame.work_cons]
  simp only [Frame.pending, dirs, current, List.tail_cons]

/-- Entering a child directory hands what is below it over to a new frame, and the
child itself is done. -/
theorem work_descend {cx : Cursor} (inRange : cx.top.next < cx.current.dirs.length) :
    (cx.descend cx.top.next).work + 1 = cx.work := by
  have handed := Frame.pending_give inRange
  have child := (cx.current.dirs[cx.top.next]).dirCount_eq
  have taken : cx.current.dirs.getD cx.top.next DirEntry.taken = cx.current.dirs[cx.top.next] := by
    simp [List.getD_eq_getElem?_getD, inRange]
  rw [work, work, frames_descend, taken, frames_eq cx, Frame.work_cons, Frame.work_cons,
    Frame.work_cons]
  simp only [Frame.pending, List.drop_zero, List.tail_cons] at handed ⊢
  simp only [current] at child ⊢
  omega

/-- Ascending leaves the current frame behind, whatever its entry became. -/
theorem work_ascend_setCurrent {cx : Cursor} (away : cx.atRoot = false) (e : DirEntry) :
    (cx.setCurrent e).ascend.work < cx.work := by
  have away' : (cx.setCurrent e).atRoot = false := by
    rwa [atRoot_of_frames (frames_setCurrent cx e), ← atRoot_of_frames (frames_eq cx)]
  obtain ⟨g, fs, below, before, ascended⟩ := frames_ascend away'
  rw [frames_setCurrent] at below
  rw [work, work, ascended, frames_eq cx, List.cons.inj below |>.2, Frame.work_cons, Frame.work_cons,
    Frame.work_cons, Frame.pending_restore before]
  omega

theorem goChild_of_lt {cx : Cursor} (inRange : cx.top.next < cx.current.dirs.length) :
    cx.goChild = (true, cx.descend cx.top.next) := by
  simp [goChild, nextUnvisited, show cx.top.next < cx.top.entry.dirs.length from inRange]

theorem goChild_of_le {cx : Cursor} (done : cx.current.dirs.length ≤ cx.top.next) :
    cx.goChild = (false, cx) := by
  simp [goChild, nextUnvisited, Nat.not_lt.mpr (show cx.top.entry.dirs.length ≤ cx.top.next from done)]

/-- Moving on to a child never adds work: what entering it removes pays for the flag
that says it was entered. -/
theorem work_goChild (cx : Cursor) : cx.goChild.2.work + cx.goChild.1.toNat ≤ cx.work := by
  by_cases inRange : cx.top.next < cx.current.dirs.length
  · rw [goChild_of_lt inRange]
    exact Nat.le_of_eq (work_descend inRange)
  · rw [goChild_of_le (Nat.not_lt.mp inRange)]
    simp

end Cursor

namespace Hooks

variable {ω : Type}

/-- The loop of a walk. From a move that entered a directory (`true`) it calls the
entering hook and moves on to the directory's first child; from a move that found no
child left (`false`) it stops at the root, and elsewhere calls the leaving hook and moves
on to the next sibling. -/
def loop (h : Hooks ω) : Bool → Cursor → ω → Cursor × ω
  | true, cx, w =>
    let entered := h.enter cx w
    let next := (cx.setCurrent entered.1).goChild
    h.loop next.1 next.2 entered.2
  | false, cx, w =>
    if cx.atRoot then (cx, w)
    else
      let left := h.leave cx w
      let next := (cx.setCurrent left.1).goSiblingOrParent
      h.loop next.1 next.2 left.2
termination_by entered cx => cx.work + entered.toNat
decreasing_by
  · have moved := ((cx.setCurrent (h.enter cx w).1)).work_goChild
    rw [Cursor.work_setCurrent (h.enter_kept cx w).dirs] at moved
    simp only [Bool.toNat_true]
    omega
  · have moved := ((cx.setCurrent (h.leave cx w).1).ascend).work_goChild
    have left := Cursor.work_ascend_setCurrent (Bool.eq_false_iff.mpr ‹_›) (h.leave cx w).1
    simp only [Bool.toNat_false, Cursor.goSiblingOrParent]
    omega

/-- Runs a policy over the tree below the cursor's root: the cursor at the end and the
policy's final state. -/
def walk (h : Hooks ω) (cx : Cursor) (w : ω) : Cursor × ω :=
  let entered := h.enterRoot cx w
  let first := (cx.setCurrent entered.1).goChild
  let done := h.loop first.1 first.2 entered.2
  let left := h.leaveRoot done.1 done.2
  (done.1.setCurrent left.1, left.2)

end Hooks

end TreeDump
