import TreeDump.Entry.Basic
import TreeDump.Wire.Line

/-!
The position of a walk in a tree held in memory.

A cursor owns the directories on the path from the walk's root to the current
directory, one frame each. Descending moves a child directory out of its parent's
`dirs` into a new frame and leaves an empty entry in its slot; ascending puts it
back into the same slot, when the parent still has that slot, so the frames never
need to point back at their parents. Every frame remembers the next child
directory to try.

A frame is always taken from a slot before its parent's next child to try
(`Frame.Linked`). Every cursor carries this, since descending is the only way to
add a frame; it is what makes a walk over the frames finish.
-/

namespace TreeDump

/-- A directory on the cursor's path: its entry, its path, its slot in its parent's
`dirs`, and the next child directory to try. -/
structure Frame where
  entry : DirEntry
  path : String
  slot : Nat
  next : Nat

/-- Frames stacked on `base`, the nearest first, each taken from a slot of the frame
under it that lies before that frame's next child to try. -/
def Frame.Linked : List Frame → Frame → Prop
  | [], _ => True
  | f :: fs, base => f.slot < (fs.headD base).next ∧ Frame.Linked fs base

/-- The entry left in a slot while its directory is out in a frame. -/
def DirEntry.taken : DirEntry := { name := "" }

/-- The frame with the directory `child` put back into its slot. -/
def Frame.restore (parent child : Frame) : Frame :=
  { parent with entry := { parent.entry with dirs := parent.entry.dirs.set child.slot child.entry } }

/-- The frame with the child directory at `index` taken out, going on after it. -/
def Frame.give (parent : Frame) (index : Nat) : Frame :=
  { parent with next := index + 1,
                entry := { parent.entry with dirs := parent.entry.dirs.set index DirEntry.taken } }

/-- Where a walk stands: the frame of the walk's root, the frames above it, the current
directory's first, and the id of the directory that holds the walk's root. -/
structure Cursor where
  root : Frame
  stack : List Frame
  rootParent : Nat
  linked : Frame.Linked stack root

namespace Cursor

/-- A cursor over the tree `root`, standing at its root, which sits at `path` inside the
directory with id `rootParent`. -/
def withPath (root : DirEntry) (path : String) (rootParent : Nat) : Cursor :=
  ⟨⟨root, path, 0, 0⟩, [], rootParent, trivial⟩

/-- A cursor over a whole tree, standing at its root; the root's path is its name. -/
def new (root : DirEntry) : Cursor := withPath root root.name 0

/-- The current directory's frame. -/
def top (cx : Cursor) : Frame := cx.stack.headD cx.root

/-- How many directories the current one lies below the walk's root. -/
def depth (cx : Cursor) : Nat := cx.stack.length

def atRoot (cx : Cursor) : Bool := cx.stack.isEmpty

def current (cx : Cursor) : DirEntry := cx.top.entry

def path (cx : Cursor) : String := cx.top.path

/-- The path of the current directory's child `name`. -/
def childPath (cx : Cursor) (name : String) : String :=
  Wire.childPath cx.top.path cx.top.entry.name name

/-- The id of the directory that holds the current one: for the walk's root, the id it
was given. -/
def parentId (cx : Cursor) : Nat :=
  match cx.stack with
  | [] => cx.rootParent
  | [_] => cx.root.entry.id
  | _ :: g :: _ => g.entry.id

/-- The slot of the current directory in its parent's `dirs`. -/
def slot (cx : Cursor) : Nat := cx.top.slot

/-- The frames from the walk's root to the current directory. -/
def chain (cx : Cursor) : List Frame := cx.root :: cx.stack.reverse

/-- The next child directory not yet tried, if any is left. -/
def nextUnvisited (cx : Cursor) : Option Nat :=
  if cx.top.next < cx.top.entry.dirs.length then some cx.top.next else none

/-- Gives up on the child directory `nextUnvisited` gave: the current directory goes on
after it. -/
def skip (cx : Cursor) : Cursor :=
  match cx with
  | ⟨root, [], up, _⟩ => ⟨{ root with next := root.next + 1 }, [], up, trivial⟩
  | ⟨root, f :: fs, up, linked⟩ => ⟨root, { f with next := f.next + 1 } :: fs, up, linked⟩

/-- The cursor with the current directory's entry replaced. -/
def setCurrent (cx : Cursor) (e : DirEntry) : Cursor :=
  match cx with
  | ⟨root, [], up, _⟩ => ⟨{ root with entry := e }, [], up, trivial⟩
  | ⟨root, f :: fs, up, linked⟩ => ⟨root, { f with entry := e } :: fs, up, linked⟩

/-- Makes the child directory at `index` current: it moves out of its slot into a new
frame, and its parent goes on after it. -/
def descend (cx : Cursor) (index : Nat) : Cursor :=
  let child := cx.current.dirs.getD index DirEntry.taken
  let frame : Frame := ⟨child, cx.childPath child.name, index, 0⟩
  match cx with
  | ⟨root, [], up, _⟩ => ⟨root.give index, [frame], up, ⟨Nat.lt_succ_self index, trivial⟩⟩
  | ⟨root, f :: fs, up, linked⟩ =>
    ⟨root, frame :: f.give index :: fs, up, ⟨Nat.lt_succ_self index, linked⟩⟩

/-- Puts the current directory back into its slot and makes its parent current; at
the walk's root nothing moves. -/
def ascend (cx : Cursor) : Cursor :=
  match cx with
  | ⟨_, [], _, _⟩ => cx
  | ⟨root, [f], up, _⟩ => ⟨root.restore f, [], up, trivial⟩
  | ⟨root, f :: g :: fs, up, linked⟩ => ⟨root, g.restore f :: fs, up, linked.2⟩

/-! ### The frames of a cursor

A cursor is its frames, the current directory's first and the root's last: every move
of the walk is one change at the head of that list. -/

/-- The frames from the current directory's down to the root's. -/
def frames (cx : Cursor) : List Frame := cx.stack ++ [cx.root]

theorem top_of_frames {cx : Cursor} {f : Frame} {fs : List Frame} (h : cx.frames = f :: fs) :
    cx.top = f := by
  rcases cx with ⟨root, _ | ⟨g, gs⟩, _, _⟩ <;> simp_all [frames, top]

theorem atRoot_of_frames {cx : Cursor} {f : Frame} {fs : List Frame} (h : cx.frames = f :: fs) :
    cx.atRoot = fs.isEmpty := by
  rcases cx with ⟨root, _ | ⟨g, gs⟩, _, _⟩ <;> simp_all [frames, atRoot]
  simp [← h.2]

theorem length_stack_of_frames {cx : Cursor} {f : Frame} {fs : List Frame}
    (h : cx.frames = f :: fs) : cx.stack.length = fs.length := by
  have := congrArg List.length h
  simp only [frames, List.length_append, List.length_cons, List.length_nil] at this
  omega

theorem frames_eq (cx : Cursor) : cx.frames = cx.top :: cx.frames.tail := by
  rcases cx with ⟨root, _ | ⟨f, fs⟩, _, linked⟩ <;> rfl

theorem frames_setCurrent (cx : Cursor) (e : DirEntry) :
    (cx.setCurrent e).frames = { cx.top with entry := e } :: cx.frames.tail := by
  rcases cx with ⟨root, _ | ⟨f, fs⟩, _, linked⟩ <;> rfl

theorem frames_skip (cx : Cursor) :
    cx.skip.frames = { cx.top with next := cx.top.next + 1 } :: cx.frames.tail := by
  rcases cx with ⟨root, _ | ⟨f, fs⟩, _, _⟩ <;> rfl

/-- Descending pushes the child's frame on its parent's, which goes on after the
child. -/
theorem frames_descend (cx : Cursor) (index : Nat) :
    (cx.descend index).frames =
      ⟨cx.current.dirs.getD index DirEntry.taken,
        cx.childPath (cx.current.dirs.getD index DirEntry.taken).name, index, 0⟩ ::
        cx.top.give index :: cx.frames.tail := by
  rcases cx with ⟨root, _ | ⟨f, fs⟩, _, linked⟩ <;> rfl

/-- Ascending puts the current directory back into the frame under it, which took it
from a slot before its next child to try. -/
theorem frames_ascend {cx : Cursor} (away : cx.atRoot = false) :
    ∃ g fs, cx.frames = cx.top :: g :: fs ∧ cx.top.slot < g.next ∧
      cx.ascend.frames = g.restore cx.top :: fs := by
  match cx, away with
  | ⟨root, [_], _, linked⟩, _ => exact ⟨root, [], rfl, linked.1, rfl⟩
  | ⟨root, _ :: g :: fs, _, linked⟩, _ => exact ⟨g, fs ++ [root], rfl, linked.1, rfl⟩

theorem length_stack_ascend {cx : Cursor} (away : cx.atRoot = false) :
    cx.ascend.stack.length < cx.stack.length := by
  match cx, away with
  | ⟨_, [_], _, _⟩, _ => simp [ascend]
  | ⟨_, _ :: _ :: _, _, _⟩, _ => simp [ascend]

/-- Ascends to the walk's root and gives back the whole tree. -/
def intoRoot (cx : Cursor) : DirEntry :=
  if cx.atRoot then cx.root.entry else cx.ascend.intoRoot
termination_by cx.stack.length
decreasing_by exact length_stack_ascend (Bool.eq_false_iff.mpr ‹_›)

/-! ### What the moves show

Each move changes what a hook can see of the cursor in a known way: the current entry,
its path, the next child to try and the depth. -/

section Moves

variable {cx : Cursor} {f g : Frame} {fs : List Frame}

@[simp] theorem current_withPath (root : DirEntry) (path : String) (rootParent : Nat) :
    (withPath root path rootParent).current = root := rfl

@[simp] theorem path_withPath (root : DirEntry) (path : String) (rootParent : Nat) :
    (withPath root path rootParent).path = path := rfl

@[simp] theorem next_withPath (root : DirEntry) (path : String) (rootParent : Nat) :
    (withPath root path rootParent).top.next = 0 := rfl

@[simp] theorem rootParent_withPath (root : DirEntry) (path : String) (rootParent : Nat) :
    (withPath root path rootParent).rootParent = rootParent := rfl

@[simp] theorem current_descend (cx : Cursor) (index : Nat) :
    (cx.descend index).current = cx.current.dirs.getD index DirEntry.taken := by
  rcases cx with ⟨root, _ | ⟨f, fs⟩, _, _⟩ <;> rfl

@[simp] theorem next_descend (cx : Cursor) (index : Nat) : (cx.descend index).top.next = 0 := by
  rcases cx with ⟨root, _ | ⟨f, fs⟩, _, _⟩ <;> rfl

@[simp] theorem path_descend (cx : Cursor) (index : Nat) :
    (cx.descend index).path = cx.childPath (cx.current.dirs.getD index DirEntry.taken).name := by
  rcases cx with ⟨root, _ | ⟨f, fs⟩, _, _⟩ <;> rfl

@[simp] theorem length_stack_descend (cx : Cursor) (index : Nat) :
    (cx.descend index).stack.length = cx.stack.length + 1 := by
  rcases cx with ⟨root, _ | ⟨f, fs⟩, _, _⟩ <;> rfl

@[simp] theorem current_setCurrent (cx : Cursor) (e : DirEntry) : (cx.setCurrent e).current = e := by
  rcases cx with ⟨root, _ | ⟨f, fs⟩, _, _⟩ <;> rfl

@[simp] theorem next_setCurrent (cx : Cursor) (e : DirEntry) :
    (cx.setCurrent e).top.next = cx.top.next := by
  rcases cx with ⟨root, _ | ⟨f, fs⟩, _, _⟩ <;> rfl

@[simp] theorem path_setCurrent (cx : Cursor) (e : DirEntry) : (cx.setCurrent e).path = cx.path := by
  rcases cx with ⟨root, _ | ⟨f, fs⟩, _, _⟩ <;> rfl

@[simp] theorem length_stack_setCurrent (cx : Cursor) (e : DirEntry) :
    (cx.setCurrent e).stack.length = cx.stack.length := by
  rcases cx with ⟨root, _ | ⟨f, fs⟩, _, _⟩ <;> rfl

@[simp] theorem atRoot_setCurrent (cx : Cursor) (e : DirEntry) :
    (cx.setCurrent e).atRoot = cx.atRoot := by
  rcases cx with ⟨root, _ | ⟨f, fs⟩, _, _⟩ <;> rfl

@[simp] theorem rootParent_setCurrent (cx : Cursor) (e : DirEntry) :
    (cx.setCurrent e).rootParent = cx.rootParent := by
  rcases cx with ⟨root, _ | ⟨f, fs⟩, _, _⟩ <;> rfl

@[simp] theorem rootParent_descend (cx : Cursor) (index : Nat) :
    (cx.descend index).rootParent = cx.rootParent := by
  rcases cx with ⟨root, _ | ⟨f, fs⟩, _, _⟩ <;> rfl

@[simp] theorem rootParent_ascend (cx : Cursor) : cx.ascend.rootParent = cx.rootParent := by
  rcases cx with ⟨root, _ | ⟨f, _ | ⟨g, fs⟩⟩, _, _⟩ <;> rfl

@[simp] theorem childPath_setCurrent (cx : Cursor) (e : DirEntry) (name : String) :
    (cx.setCurrent e).childPath name = Wire.childPath cx.path e.name name := by
  rcases cx with ⟨root, _ | ⟨f, fs⟩, _, _⟩ <;> rfl

theorem current_of_atRoot (atRoot : cx.atRoot = true) : cx.current = cx.root.entry := by
  rcases cx with ⟨root, _ | ⟨f, fs⟩, _, _⟩
  · rfl
  · simp [Cursor.atRoot] at atRoot

theorem ascend_of_atRoot (atRoot : cx.atRoot = true) : cx.ascend = cx := by
  rcases cx with ⟨root, _ | ⟨f, fs⟩, _, _⟩
  · rfl
  · simp [Cursor.atRoot] at atRoot

theorem intoRoot_of_atRoot (atRoot : cx.atRoot = true) :
    cx.intoRoot = cx.root.entry := by
  rw [intoRoot, if_pos atRoot]

theorem frames_setCurrent_of (framesEq : cx.frames = f :: fs) (e : DirEntry) :
    (cx.setCurrent e).frames = { f with entry := e } :: fs := by
  rw [frames_setCurrent, top_of_frames framesEq, framesEq, List.tail_cons]

theorem frames_ascend_of (framesEq : cx.frames = f :: g :: fs) :
    cx.ascend.frames = g.restore f :: fs := by
  have away : cx.atRoot = false := by simp [atRoot_of_frames framesEq]
  obtain ⟨g', fs', framesEq', -, ascended⟩ := frames_ascend away
  rw [framesEq, top_of_frames framesEq] at framesEq'
  obtain ⟨rfl, rfl⟩ : g = g' ∧ fs = fs' := by simpa using framesEq'
  rwa [top_of_frames framesEq] at ascended

theorem path_of_frames (framesEq : cx.frames = f :: fs) : cx.path = f.path := by
  rw [path, top_of_frames framesEq]

theorem current_of_frames (framesEq : cx.frames = f :: fs) : cx.current = f.entry := by
  rw [current, top_of_frames framesEq]

end Moves

end Cursor

end TreeDump
