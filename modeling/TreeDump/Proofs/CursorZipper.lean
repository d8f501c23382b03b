import Mathlib
import TreeDump.Engine.Cursor

/-!
Contract: a cursor is a zipper over the tree it walks.

A client moves a cursor with four moves (`Cursor.Op`): it descends into a child directory,
skips the next child to try, ascends, or changes the current directory's entry. Seen from
outside, a run of moves is a tree and a position in it (`Cursor.Op.track`): a descent goes
one slot down, an ascent one up, and a change is made to the directory at the position.

Owns: positions in a tree (`DirEntry.follow?`, `DirEntry.modifyAt`); the moves and their
runs (`Cursor.Op`, `Cursor.run`, `Cursor.Every`); the tree a list of frames holds
(`Frame.unwind`) and the slots its frames were taken from (`Frame.slots`,
`Cursor.position`); what a cursor shows of a run (`Cursor.Shows`, `Cursor.Zipper`); the
children a run tries (`Cursor.tried`); and the path a chain of names spells
(`Wire.pathAlong`).

Main statement (`cursor_runs_as_zipper`): for every tree, path and parent id, and every run
of moves whose descents stay within the current directory, the tree the cursor gives back
is the tree with every change made where it was made, which is the tree itself when
nothing changed; the current entry is the directory at the run's position, the last slot
of which is the cursor's slot; and the parent id is the id of the frame under the current
one, or the given one at the root. When the changes keep names, the current path is the
child-path fold of the names on the chain; when no descent goes back before the next child
to try, the next child to try has not been tried.

The last two hold only so (`cursor_reoffers_and_keeps_old_path`): a descent back before the
next child to try rewinds it, so a tried child comes again, and a path is fixed when its
directory is entered, so a renamed entry keeps its old path.

## Why it goes through

A cursor is its frames, the current one first (`Cursor.frames`), and every move changes
the head of that list only. Unwinding the frames puts each entry back into the slot it
was taken from: a descent takes an entry out and puts it back unchanged, a skip and an
ascent change no entry, and a change of the head frame's entry is a change at the position
its slots spell (`Frame.unwind_change`). The next child to try lies past every child tried,
in the lexicographic order of positions (`Cursor.Ahead`): an ascent returns to a frame
whose next child to try lies past the slot it came back from, which every cursor carries
(`Frame.Linked`).
-/

namespace TreeDump

/-! ### Positions in a tree -/

/-- A list with the element at `i` set and then changed is the list with the changed element
set. -/
theorem modify_set_same {α : Type} (l : List α) (i : Nat) (change : α → α) (x : α) :
    (l.set i x).modify i change = l.set i (change x) := by
  apply List.ext_getElem?
  intro j
  simp only [List.getElem?_modify, List.getElem?_set]
  split <;> simp_all

/-- Setting the element at `i` to what is read there, or a default past the end, changes
nothing. -/
theorem set_getElem?_getD_same {α : Type} (l : List α) (i : Nat) (d : α) :
    l.set i (l[i]?.getD d) = l := by
  by_cases inRange : i < l.length
  · simp [inRange]
  · exact List.set_eq_of_length_le (Nat.le_of_not_lt inRange)

namespace DirEntry

/-- The directory reached by following slots of `dirs`, from the top down. -/
def follow? : List Nat → DirEntry → Option DirEntry
  | [], d => some d
  | i :: is, d => d.dirs[i]?.bind (follow? is)

/-- The tree with the directory at a position changed; a position that leaves the tree
changes nothing. -/
def modifyAt : List Nat → (DirEntry → DirEntry) → DirEntry → DirEntry
  | [], change, d => change d
  | i :: is, change, d => { d with dirs := d.dirs.modify i (modifyAt is change) }

/-- An entry rebuilt from its own fields is the entry. -/
theorem mk_fields (d : DirEntry) :
    DirEntry.mk d.name d.size d.id d.fid d.items d.digest d.dirs d.files = d := by
  cases d
  rfl

theorem follow?_append (pos : List Nat) (i : Nat) (d : DirEntry) :
    d.follow? (pos ++ [i]) = (d.follow? pos).bind fun c => c.dirs[i]? := by
  induction pos generalizing d with
  | nil => simp [follow?]
  | cons j pos inductionHypothesis => simp [follow?, inductionHypothesis, Option.bind_assoc]

/-- A change one slot below a position is a change, at the position, of that slot. -/
theorem modifyAt_append (pos : List Nat) (i : Nat) (change : DirEntry → DirEntry) (d : DirEntry) :
    d.modifyAt (pos ++ [i]) change =
      d.modifyAt pos fun c => { c with dirs := c.dirs.modify i change } := by
  induction pos generalizing d with
  | nil => rfl
  | cons j pos inductionHypothesis =>
      simp only [List.cons_append, modifyAt]
      rw [funext inductionHypothesis]

end DirEntry

/-! ### Paths along a chain of names -/

namespace Wire

/-- The path that names spell below `path`, the path of a directory named `parent`: each name
joined below the one before it. -/
def pathBelow (path parent : String) : List String → String
  | [] => path
  | child :: rest => pathBelow (childPath path parent child) child rest

/-- The path a chain of directory names spells from the path of the first. -/
def pathAlong (path : String) : List String → String
  | [] => path
  | first :: rest => pathBelow path first rest

theorem pathBelow_append (path parent : String) (names : List String) (name : String) :
    pathBelow path parent (names ++ [name]) =
      childPath (pathBelow path parent names) (names.getLastD parent) name := by
  induction names generalizing path parent with
  | nil => rfl
  | cons child names inductionHypothesis =>
      rw [List.cons_append, pathBelow, inductionHypothesis, List.getLastD_cons, pathBelow]

end Wire

/-! ### The tree a list of frames holds -/

namespace Frame

/-- The tree a frame and the frames under it hold, the nearest first: each entry put back
into the slot it was taken from. -/
def unwind (f : Frame) : List Frame → DirEntry
  | [] => f.entry
  | g :: gs => unwind (g.restore f) gs

/-- The slots a frame and the frames under it were taken from, from the lowest up; the
lowest frame was taken from none. -/
def slots (f : Frame) : List Frame → List Nat
  | [] => []
  | g :: gs => slots g gs ++ [f.slot]

/-- A frame and each frame under it were taken from a slot that the directory under it
has. -/
def Seated (f : Frame) : List Frame → Prop
  | [] => True
  | g :: gs => f.slot < g.entry.dirs.length ∧ Seated g gs

/-- A frame and each frame under it have the path of their name below the frame under
it. -/
def Spelled (f : Frame) : List Frame → Prop
  | [] => True
  | g :: gs => f.path = Wire.childPath g.path g.entry.name f.entry.name ∧ Spelled g gs

variable {f f' g : Frame} {gs : List Frame}

theorem unwind_cons : f.unwind (g :: gs) = (g.restore f).unwind gs := rfl

theorem slots_cons : f.slots (g :: gs) = g.slots gs ++ [f.slot] := rfl

/-- Unwinding reads only the entry and the slot of the nearest frame. -/
theorem unwind_congr (entry : f'.entry = f.entry) (slot : f'.slot = f.slot) :
    f'.unwind gs = f.unwind gs := by
  cases gs with
  | nil => exact entry
  | cons g gs => simp only [unwind, restore, entry, slot]

theorem slots_congr (slot : f'.slot = f.slot) : f'.slots gs = f.slots gs := by
  cases gs with
  | nil => rfl
  | cons g gs => simp only [slots, slot]

theorem seated_congr (slot : f'.slot = f.slot) : f'.Seated gs ↔ f.Seated gs := by
  cases gs with
  | nil => exact Iff.rfl
  | cons g gs => simp only [Seated, slot]

theorem spelled_congr (path : f'.path = f.path) (name : f'.entry.name = f.entry.name) :
    f'.Spelled gs ↔ f.Spelled gs := by
  cases gs with
  | nil => exact Iff.rfl
  | cons g gs => simp only [Spelled, path, name]

/-- Changing the nearest frame's entry changes the tree the frames hold at the position
their slots spell. -/
theorem unwind_change : ∀ (change : DirEntry → DirEntry) (f : Frame) (gs : List Frame),
    { f with entry := change f.entry }.unwind gs = (f.unwind gs).modifyAt (f.slots gs) change
  | change, f, [] => rfl
  | change, f, g :: gs => by
      -- One frame down, the change is a change of the slot `f` was taken from.
      have restored : g.restore { f with entry := change f.entry } =
          { g.restore f with entry := { (g.restore f).entry with
              dirs := (g.restore f).entry.dirs.modify f.slot change } } := by
        simp only [restore, modify_set_same]
      have below := unwind_change (fun c => { c with dirs := c.dirs.modify f.slot change })
        (g.restore f) gs
      rw [unwind_cons, restored, slots_cons, DirEntry.modifyAt_append, unwind_cons,
        ← (slots_congr (by rfl) : (g.restore f).slots gs = g.slots gs)]
      exact below

/-- The tree the frames hold has the nearest frame's entry at the position their slots
spell. -/
theorem follow?_unwind : ∀ (f : Frame) (gs : List Frame), f.Seated gs →
    (f.unwind gs).follow? (f.slots gs) = some f.entry
  | f, [], _ => rfl
  | f, g :: gs, seated => by
      rw [unwind_cons, slots_cons, DirEntry.follow?_append,
        ← (slots_congr (by rfl) : (g.restore f).slots gs = g.slots gs),
        follow?_unwind (g.restore f) gs ((seated_congr (by rfl)).mpr seated.2)]
      simp [restore, List.getElem?_set_self seated.1]

/-- The path of a frame is the child-path fold of the names from the lowest frame up. -/
theorem path_eq_pathBelow (base : Frame) : ∀ (gs : List Frame) (f : Frame),
    f.Spelled (gs ++ [base]) →
      f.path = Wire.pathBelow base.path base.entry.name ((f :: gs).reverse.map fun g => g.entry.name)
  | [], f, spelled => spelled.1
  | g :: gs, f, spelled => by
      obtain ⟨here, below⟩ := spelled
      have names : (f :: g :: gs).reverse.map (fun g => g.entry.name) =
          (g :: gs).reverse.map (fun g => g.entry.name) ++ [f.entry.name] := by
        simp
      have last : ((g :: gs).reverse.map fun g => g.entry.name).getLastD base.entry.name =
          g.entry.name := by
        simp
      rw [here, names, Wire.pathBelow_append, last, ← path_eq_pathBelow base gs g below]

end Frame

namespace Cursor

/-- The slots the current directory and the directories under it were taken from, from the
walk's root down. -/
def position (cx : Cursor) : List Nat := cx.top.slots cx.frames.tail

/-! ### Moves and their runs -/

/-- A move of a client of the cursor. -/
inductive Op where
  /-- make the child directory at the index current -/
  | descend (index : Nat)
  /-- give up on the next child to try -/
  | skip
  /-- put the current directory back and make its parent current -/
  | ascend
  /-- change the current directory's entry -/
  | update (change : DirEntry → DirEntry)

namespace Op

/-- The cursor after a move. -/
def apply : Op → Cursor → Cursor
  | .descend index, cx => cx.descend index
  | .skip, cx => cx.skip
  | .ascend, cx => cx.ascend
  | .update change, cx => cx.setCurrent (change cx.current)

/-- A descent goes to a child directory the current directory has. -/
def Allowed : Op → Cursor → Prop
  | .descend index, cx => index < cx.current.dirs.length
  | _, _ => True

/-- A descent goes no further back than the next child to try. -/
def Forward : Op → Cursor → Prop
  | .descend index, cx => cx.top.next ≤ index
  | _, _ => True

/-- A change keeps the name of the entry. -/
def KeepsName : Op → Prop
  | .update change => ∀ d, (change d).name = d.name
  | _ => True

/-- A move as a client sees it, on a tree and the position of the current directory: a
descent goes one slot down, an ascent one up, and a change is made to the directory at the
position. -/
def track : Op → DirEntry × List Nat → DirEntry × List Nat
  | .descend index, seen => (seen.1, seen.2 ++ [index])
  | .skip, seen => seen
  | .ascend, seen => (seen.1, seen.2.dropLast)
  | .update change, seen => (seen.1.modifyAt seen.2 change, seen.2)

/-- The tree and the position a client sees after a run of moves from the root of `T`. -/
def seen (ops : List Op) (T : DirEntry) : DirEntry × List Nat :=
  ops.foldl (fun seen op => op.track seen) (T, [])

/-- The children a move tries, by position: a descent the child it enters, a skip the child
`nextUnvisited` gave. -/
def tries : Op → Cursor → List (List Nat)
  | .descend index, cx => [cx.position ++ [index]]
  | .skip, cx => (cx.nextUnvisited.map fun n => cx.position ++ [n]).toList
  | _, _ => []

end Op

/-- The cursor after a run of moves. -/
def run (cx : Cursor) : List Op → Cursor
  | [] => cx
  | op :: ops => (op.apply cx).run ops

/-- Each move of a run satisfies `good` on the cursor it is made on. -/
def Every (good : Op → Cursor → Prop) : Cursor → List Op → Prop
  | _, [] => True
  | cx, op :: ops => good op cx ∧ Every good (op.apply cx) ops

/-- The children a run tries, by position. -/
def tried : Cursor → List Op → List (List Nat)
  | _, [] => []
  | cx, op :: ops => op.tries cx ++ tried (op.apply cx) ops

/-- What every move satisfying `good` keeps holds after every run of such moves. -/
theorem Every.run {good : Op → Cursor → Prop} {P : Cursor → Prop}
    (keeps : ∀ op cx, good op cx → P cx → P (op.apply cx)) :
    ∀ (ops : List Op) {cx : Cursor}, cx.Every good ops → P cx → P (cx.run ops)
  | [], _, _, holds => holds
  | op :: ops, cx, every, holds => Every.run keeps ops every.2 (keeps op cx every.1 holds)

theorem Every.of_forall {good : Op → Cursor → Prop} :
    ∀ {ops : List Op} {cx : Cursor}, (∀ op ∈ ops, ∀ cx, good op cx) → cx.Every good ops
  | [], _, _ => trivial
  | op :: _, cx, all =>
      ⟨all op List.mem_cons_self cx, Every.of_forall fun op' later => all op' (List.mem_cons_of_mem op later)⟩

/-! ### What each move does to the tree and the position -/

section Moves

variable {cx : Cursor}

theorem intoRoot_eq_unwind (cx : Cursor) : cx.intoRoot = cx.top.unwind cx.frames.tail := by
  fun_induction intoRoot cx with
  | case1 cx atRoot =>
      rcases cx with ⟨root, _ | ⟨f, fs⟩, _, _⟩
      · rfl
      · simp [Cursor.atRoot] at atRoot
  | case2 cx away inductionHypothesis =>
      obtain ⟨g, fs, framesEq, -, ascended⟩ := frames_ascend (Bool.eq_false_iff.mpr away)
      rw [inductionHypothesis, top_of_frames ascended, ascended, framesEq]
      rfl

theorem tail_frames_of_atRoot (atRoot : cx.atRoot = true) : cx.frames.tail = [] := by
  have empty := atRoot_of_frames (frames_eq cx)
  rw [atRoot] at empty
  exact List.isEmpty_iff.mp empty.symm

/-- An ascent stays at the walk's root, or puts the current frame back into the frame under
it, whose next child to try lies past the slot it came from. -/
theorem ascend_cases (cx : Cursor) :
    cx.ascend = cx ∧ cx.frames.tail = [] ∨
      ∃ g fs, cx.frames.tail = g :: fs ∧ cx.top.slot < g.next ∧
        cx.ascend.top = g.restore cx.top ∧ cx.ascend.frames.tail = fs := by
  by_cases atRoot : cx.atRoot
  · exact Or.inl ⟨ascend_of_atRoot atRoot, tail_frames_of_atRoot atRoot⟩
  · obtain ⟨g, fs, framesEq, linked, ascended⟩ := frames_ascend (Bool.eq_false_iff.mpr atRoot)
    refine Or.inr ⟨g, fs, by rw [framesEq, List.tail_cons], linked, top_of_frames ascended, ?_⟩
    rw [ascended, List.tail_cons]

@[simp] theorem intoRoot_descend (cx : Cursor) (index : Nat) :
    (cx.descend index).intoRoot = cx.intoRoot := by
  rw [intoRoot_eq_unwind, intoRoot_eq_unwind, top_of_frames (frames_descend cx index),
    frames_descend, List.tail_cons, Frame.unwind_cons]
  -- The entry taken out goes back into its slot as it was.
  have back : (cx.top.give index).restore ⟨cx.current.dirs.getD index DirEntry.taken,
      cx.childPath (cx.current.dirs.getD index DirEntry.taken).name, index, 0⟩ =
      { cx.top with next := index + 1 } := by
    simp only [Frame.restore, Frame.give, current, List.set_set, List.getD_eq_getElem?_getD,
      set_getElem?_getD_same, DirEntry.mk_fields]
  rw [back]
  exact Frame.unwind_congr (by rfl) (by rfl)

@[simp] theorem intoRoot_skip (cx : Cursor) : cx.skip.intoRoot = cx.intoRoot := by
  rw [intoRoot_eq_unwind, intoRoot_eq_unwind, top_of_frames (frames_skip cx), frames_skip,
    List.tail_cons]
  exact Frame.unwind_congr (by rfl) (by rfl)

theorem intoRoot_of_away (away : cx.atRoot = false) : cx.intoRoot = cx.ascend.intoRoot := by
  rw [intoRoot, if_neg (by simp [away])]

@[simp] theorem intoRoot_ascend (cx : Cursor) : cx.ascend.intoRoot = cx.intoRoot := by
  by_cases atRoot : cx.atRoot
  · rw [ascend_of_atRoot atRoot]
  · exact (intoRoot_of_away (Bool.eq_false_iff.mpr atRoot)).symm

theorem intoRoot_setCurrent (cx : Cursor) (change : DirEntry → DirEntry) :
    (cx.setCurrent (change cx.current)).intoRoot = cx.intoRoot.modifyAt cx.position change := by
  rw [intoRoot_eq_unwind, intoRoot_eq_unwind, top_of_frames (frames_setCurrent cx _),
    frames_setCurrent, List.tail_cons]
  exact Frame.unwind_change change cx.top cx.frames.tail

@[simp] theorem position_descend (cx : Cursor) (index : Nat) :
    (cx.descend index).position = cx.position ++ [index] := by
  rw [position, position, top_of_frames (frames_descend cx index), frames_descend, List.tail_cons,
    Frame.slots_cons]
  exact congrArg (· ++ [index]) (Frame.slots_congr (by rfl))

@[simp] theorem position_skip (cx : Cursor) : cx.skip.position = cx.position := by
  rw [position, position, top_of_frames (frames_skip cx), frames_skip, List.tail_cons]
  exact Frame.slots_congr (by rfl)

@[simp] theorem position_setCurrent (cx : Cursor) (e : DirEntry) :
    (cx.setCurrent e).position = cx.position := by
  rw [position, position, top_of_frames (frames_setCurrent cx e), frames_setCurrent,
    List.tail_cons]
  exact Frame.slots_congr (by rfl)

@[simp] theorem position_ascend (cx : Cursor) : cx.ascend.position = cx.position.dropLast := by
  rcases ascend_cases cx with ⟨same, rootOnly⟩ | ⟨g, fs, below, -, top, rest⟩
  · rw [same, position, rootOnly, Frame.slots, List.dropLast_nil]
  · rw [position, position, top, rest, below, Frame.slots_cons, List.dropLast_concat]
    exact Frame.slots_congr (by rfl)

@[simp] theorem next_skip (cx : Cursor) : cx.skip.top.next = cx.top.next + 1 := by
  rw [top_of_frames (frames_skip cx)]

theorem parentId_eq (cx : Cursor) :
    cx.parentId = (cx.frames.tail.head?.map fun f => f.entry.id).getD cx.rootParent := by
  rcases cx with ⟨root, _ | ⟨f, _ | ⟨g, gs⟩⟩, up, linked⟩ <;> rfl

/-- The slot of the current frame is the last slot of the position; the walk root's frame
holds slot `0`. -/
theorem slot_eq_getLastD (rootSlot : cx.root.slot = 0) : cx.slot = cx.position.getLastD 0 := by
  rcases cx with ⟨root, _ | ⟨f, fs⟩, up, linked⟩
  · exact rootSlot
  · obtain ⟨g, gs, below⟩ : ∃ g gs, fs ++ [root] = g :: gs := List.exists_cons_of_ne_nil (by simp)
    simp [slot, position, frames, top, below, Frame.slots]

end Moves

/-! ### A cursor as a zipper -/

/-- A cursor shows what a client sees of a run: it gives back the tree, and its slots spell
the position. -/
structure Shows (cx : Cursor) (seen : DirEntry × List Nat) : Prop where
  tree : cx.intoRoot = seen.1
  position : cx.position = seen.2

theorem Shows.apply {cx : Cursor} {seen : DirEntry × List Nat} (shows : cx.Shows seen) (op : Op) :
    (op.apply cx).Shows (op.track seen) := by
  constructor <;> cases op <;>
    simp [Op.apply, Op.track, intoRoot_setCurrent, shows.tree, shows.position]

theorem Shows.run : ∀ (ops : List Op) {cx : Cursor} {seen : DirEntry × List Nat}, cx.Shows seen →
    (cx.run ops).Shows (ops.foldl (fun seen op => op.track seen) seen)
  | [], _, _, shows => shows
  | op :: ops, _, _, shows => Shows.run ops (shows.apply op)

/-- A run with no change leaves the tree as it was. -/
theorem Op.foldl_track_fst : ∀ (ops : List Op) (seen : DirEntry × List Nat),
    (∀ change, Op.update change ∉ ops) → (ops.foldl (fun seen op => op.track seen) seen).1 = seen.1
  | [], _, _ => rfl
  | op :: ops, seen, unchanged => by
      rw [List.foldl_cons, Op.foldl_track_fst ops _ fun change later =>
        unchanged change (List.mem_cons_of_mem op later)]
      cases op with
      | update change => exact absurd List.mem_cons_self (unchanged change)
      | _ => rfl

/-- What no move changes: the path and the slot of the walk root's frame, and the id of the
directory holding the walk's root. -/
structure Based (cx : Cursor) (p : String) (r : Nat) : Prop where
  path : cx.root.path = p
  slot : cx.root.slot = 0
  parent : cx.rootParent = r

theorem Based.apply {cx : Cursor} {p : String} {r : Nat} (based : cx.Based p r) (op : Op) :
    (op.apply cx).Based p r := by
  rcases cx with ⟨root, _ | ⟨f, _ | ⟨g, gs⟩⟩, up, linked⟩ <;> cases op <;>
    exact ⟨based.path, based.slot, based.parent⟩

/-- Each frame was taken from a slot the directory under it has. -/
def Seated (cx : Cursor) : Prop := cx.top.Seated cx.frames.tail

theorem Seated.apply {cx : Cursor} (seated : cx.Seated) :
    ∀ op : Op, op.Allowed cx → (op.apply cx).Seated
  | .descend index, inRange => by
      rw [Op.apply, Seated, top_of_frames (frames_descend cx index), frames_descend, List.tail_cons]
      exact ⟨by simpa [Frame.give, current, Op.Allowed] using inRange,
        (Frame.seated_congr (by rfl)).mpr seated⟩
  | .skip, _ => by
      rw [Op.apply, Seated, top_of_frames (frames_skip cx), frames_skip, List.tail_cons]
      exact (Frame.seated_congr (by rfl)).mpr seated
  | .ascend, _ => by
      rcases ascend_cases cx with ⟨same, -⟩ | ⟨g, fs, below, -, top, rest⟩
      · rw [Op.apply, same]
        exact seated
      · rw [Seated, below] at seated
        rw [Op.apply, Seated, top, rest]
        exact (Frame.seated_congr (by rfl)).mpr seated.2
  | .update change, _ => by
      rw [Op.apply, Seated, top_of_frames (frames_setCurrent cx _), frames_setCurrent, List.tail_cons]
      exact (Frame.seated_congr (by rfl)).mpr seated

/-- In a seated cursor, the current entry is the directory at the cursor's position in the
tree it gives back. -/
theorem Seated.follow? {cx : Cursor} (seated : cx.Seated) :
    cx.intoRoot.follow? cx.position = some cx.current := by
  rw [intoRoot_eq_unwind, position]
  exact Frame.follow?_unwind cx.top cx.frames.tail seated

/-- Each frame has the path of its name below the frame under it. -/
def Spelled (cx : Cursor) : Prop := cx.top.Spelled cx.frames.tail

theorem Spelled.apply {cx : Cursor} (spelled : cx.Spelled) :
    ∀ op : Op, op.KeepsName → (op.apply cx).Spelled
  | .descend index, _ => by
      rw [Op.apply, Spelled, top_of_frames (frames_descend cx index), frames_descend, List.tail_cons]
      exact ⟨rfl, (Frame.spelled_congr (by rfl) (by rfl)).mpr spelled⟩
  | .skip, _ => by
      rw [Op.apply, Spelled, top_of_frames (frames_skip cx), frames_skip, List.tail_cons]
      exact (Frame.spelled_congr (by rfl) (by rfl)).mpr spelled
  | .ascend, _ => by
      rcases ascend_cases cx with ⟨same, -⟩ | ⟨g, fs, below, -, top, rest⟩
      · rw [Op.apply, same]
        exact spelled
      · rw [Spelled, below] at spelled
        rw [Op.apply, Spelled, top, rest]
        exact (Frame.spelled_congr (by rfl) (by rfl)).mpr spelled.2
  | .update change, keeps => by
      rw [Op.apply, Spelled, top_of_frames (frames_setCurrent cx _), frames_setCurrent, List.tail_cons]
      exact (Frame.spelled_congr (by rfl) (keeps _)).mpr spelled

/-- In a spelled cursor, the current path is the child-path fold of the names on the chain
from the path of the walk's root. -/
theorem Spelled.path_eq {cx : Cursor} (spelled : cx.Spelled) :
    cx.path = Wire.pathAlong cx.root.path (cx.chain.map fun f => f.entry.name) := by
  rcases cx with ⟨root, _ | ⟨f, fs⟩, up, linked⟩
  · rfl
  · exact Frame.path_eq_pathBelow root fs f spelled

/-! ### The next child to try -/

theorem lt_child (pos : List Nat) (i n : Nat) : pos ++ [i] < pos ++ [i, n] :=
  List.append_left_lt (List.lex_lt.mp (List.Lex.cons List.Lex.nil))

theorem lt_later (pos : List Nat) {i j : Nat} (lt : i < j) (rest rest' : List Nat) :
    pos ++ i :: rest < pos ++ j :: rest' :=
  List.append_left_lt (List.lex_lt.mp (List.Lex.rel lt))

/-- Every child tried lies before the current directory's next child to try, in the order
of positions. -/
def Ahead (cx : Cursor) (tried : List (List Nat)) : Prop :=
  ∀ e ∈ tried, e < cx.position ++ [cx.top.next]

theorem Ahead.apply {cx : Cursor} {tried : List (List Nat)} (ahead : cx.Ahead tried) :
    ∀ op : Op, op.Forward cx → (op.apply cx).Ahead (tried ++ op.tries cx)
  | .descend index, forward => by
      intro e member
      simp only [Op.apply, position_descend, next_descend, List.append_assoc, List.cons_append,
        List.nil_append]
      rcases List.mem_append.mp member with old | new
      · -- the next child to try was at or before the child entered
        rcases Nat.lt_or_eq_of_le (show cx.top.next ≤ index from forward) with before | same
        · exact lt_trans (ahead e old) (lt_later cx.position before [] [0])
        · rw [← same]
          exact lt_trans (ahead e old) (lt_child cx.position cx.top.next 0)
      · rw [Op.tries, List.mem_singleton] at new
        rw [new]
        exact lt_child cx.position index 0
  | .skip, _ => by
      intro e member
      simp only [Op.apply, position_skip, next_skip]
      have past : cx.position ++ [cx.top.next] < cx.position ++ [cx.top.next + 1] :=
        lt_later cx.position (Nat.lt_succ_self _) [] []
      rcases List.mem_append.mp member with old | new
      · exact lt_trans (ahead e old) past
      · simp only [Op.tries, nextUnvisited] at new
        split at new
        · rw [Option.map_some, Option.toList_some, List.mem_singleton] at new
          rw [new]
          exact past
        · simp at new
  | .ascend, _ => by
      intro e member
      have old : e ∈ tried := by simpa [Op.tries] using member
      rcases ascend_cases cx with ⟨same, -⟩ | ⟨g, fs, below, linked, top, rest⟩
      · rw [Op.apply, same]
        exact ahead e old
      · -- back in the parent, whose next child to try lies past the slot left
        have left := ahead e old
        rw [position, below, Frame.slots_cons, List.append_assoc] at left
        rw [Op.apply, position, top, rest, Frame.slots_congr (f := g) (by rfl)]
        exact lt_trans left (lt_later (g.slots fs) linked [cx.top.next] [])
  | .update change, _ => by
      intro e member
      have old : e ∈ tried := by simpa [Op.tries] using member
      simp only [Op.apply, position_setCurrent, next_setCurrent]
      exact ahead e old

theorem Ahead.run : ∀ (ops : List Op) {cx : Cursor} {tried : List (List Nat)},
    cx.Every Op.Forward ops → cx.Ahead tried → (cx.run ops).Ahead (tried ++ cx.tried ops)
  | [], _, _, _, ahead => by simpa [Cursor.tried, Cursor.run] using ahead
  | op :: ops, _, _, forward, ahead => by
      simpa [Cursor.tried, Cursor.run, List.append_assoc] using
        Ahead.run ops forward.2 (ahead.apply op forward.1)

/-- A cursor whose tried children lie before its next child to try never offers a tried
child. -/
theorem Ahead.not_mem {cx : Cursor} {tried : List (List Nat)} (ahead : cx.Ahead tried) {n : Nat}
    (offered : cx.nextUnvisited = some n) : cx.position ++ [n] ∉ tried := by
  intro member
  have next : n = cx.top.next := by
    simp only [nextUnvisited] at offered
    split at offered
    · exact (Option.some.inj offered).symm
    · cases offered
  exact lt_irrefl _ (next ▸ ahead _ member)

/-! ### Runs of moves -/

/-- What the cursor `cx`, reached by the run `ops` from the root of `T` at path `p` inside the
directory with id `r`, shows of the tree. -/
structure Zipper (T : DirEntry) (p : String) (r : Nat) (ops : List Op) (cx : Cursor) : Prop where
  /-- the tree given back is `T` with every change made where it was made -/
  intoRoot : cx.intoRoot = (Op.seen ops T).1
  /-- with no change, the tree given back is `T` -/
  intoRoot_unchanged : (∀ change, Op.update change ∉ ops) → cx.intoRoot = T
  /-- the cursor stands where the client does -/
  position : cx.position = (Op.seen ops T).2
  /-- the current entry is the directory there -/
  current : (Op.seen ops T).1.follow? (Op.seen ops T).2 = some cx.current
  /-- the slot is the last slot of the position, the one the current entry was taken from -/
  slot : cx.slot = (Op.seen ops T).2.getLastD 0
  /-- the parent id is the entry id of the frame under the current one, or `r` at the root -/
  parentId : cx.parentId = (cx.frames.tail.head?.map fun f => f.entry.id).getD r
  /-- when the changes keep names, the path is the child-path fold of the names on the chain -/
  path : (∀ op ∈ ops, op.KeepsName) →
    cx.path = Wire.pathAlong p (cx.chain.map fun f => f.entry.name)
  /-- when no descent goes back before the next child to try, that child was never tried -/
  fresh : (withPath T p r).Every Op.Forward ops → ∀ n, cx.nextUnvisited = some n →
    cx.position ++ [n] ∉ (withPath T p r).tried ops

/-- A cursor is a zipper over the tree it walks: every run of moves whose descents stay within
the current directory leaves the cursor showing the tree as its client sees it. -/
theorem cursor_runs_as_zipper (T : DirEntry) (p : String) (r : Nat) (ops : List Op)
    (allowed : (withPath T p r).Every Op.Allowed ops) :
    Zipper T p r ops ((withPath T p r).run ops) := by
  have shows : ((withPath T p r).run ops).Shows (Op.seen ops T) :=
    Shows.run ops ⟨intoRoot_of_atRoot rfl, rfl⟩
  have everyMove : (withPath T p r).Every (fun _ _ => True) ops := Every.of_forall fun _ _ _ => trivial
  have based : ((withPath T p r).run ops).Based p r :=
    Every.run (P := fun cx => cx.Based p r) (fun op _ _ based => based.apply op) ops everyMove
      ⟨rfl, rfl, rfl⟩
  have seated : ((withPath T p r).run ops).Seated :=
    Every.run (P := Seated) (fun op _ ok seated => seated.apply op ok) ops allowed trivial
  refine ⟨shows.tree, fun unchanged => ?_, shows.position, ?_, ?_, ?_, fun keeps => ?_,
    fun forward n offered => ?_⟩
  · rw [shows.tree, Op.seen, Op.foldl_track_fst ops _ unchanged]
  · rw [← shows.tree, ← shows.position]
    exact seated.follow?
  · rw [← shows.position]
    exact slot_eq_getLastD based.slot
  · rw [parentId_eq, based.parent]
  · have everyKeeps : (withPath T p r).Every (fun op _ => op.KeepsName) ops :=
      Every.of_forall fun op member _ => keeps op member
    have spelled : ((withPath T p r).run ops).Spelled :=
      Every.run (P := Spelled) (fun op _ keep spelled => spelled.apply op keep) ops everyKeeps trivial
    rw [spelled.path_eq, based.path]
  · have ahead := Ahead.run ops forward (show (withPath T p r).Ahead [] from fun _ member => by
      cases member)
    rw [List.nil_append] at ahead
    exact ahead.not_mem offered

/-- A run over the root `share` with child directories `a`, `b` and `c`: into `a`, a change
of its size, back out, a skip of `b`, and into `c`. -/
theorem share_run_zipper :
    (withPath { name := "share", dirs := [{ name := "a" }, { name := "b" }, { name := "c" }] }
        "share" 0).Every Op.Allowed
        [.descend 0, .update fun d => { d with size := 7 }, .ascend, .skip, .descend 2] ∧
      Zipper { name := "share", dirs := [{ name := "a" }, { name := "b" }, { name := "c" }] }
        "share" 0 [.descend 0, .update fun d => { d with size := 7 }, .ascend, .skip, .descend 2]
        ((withPath { name := "share", dirs := [{ name := "a" }, { name := "b" }, { name := "c" }] }
          "share" 0).run
          [.descend 0, .update fun d => { d with size := 7 }, .ascend, .skip, .descend 2]) := by
  have allowed : (withPath { name := "share", dirs := [{ name := "a" }, { name := "b" }, { name := "c" }] }
      "share" 0).Every Op.Allowed
      [.descend 0, .update fun d => { d with size := 7 }, .ascend, .skip, .descend 2] := by
    simp only [Every, Op.Allowed]
    decide
  exact ⟨allowed, cursor_runs_as_zipper _ _ _ _ allowed⟩

/-- Two runs over the root `share` with child directories `a` and `b` break the last two
statements without their conditions. Into `b`, out, into `a` and out rewinds the root's next
child to try to `b`, which was tried; and `a` renamed `c` once entered keeps its path
`share/a`, which the names on the chain no longer spell. -/
theorem cursor_reoffers_and_keeps_old_path :
    (new { name := "share", dirs := [{ name := "a" }, { name := "b" }] }).Every Op.Allowed
        [.descend 1, .ascend, .descend 0, .ascend] ∧
      ((new { name := "share", dirs := [{ name := "a" }, { name := "b" }] }).run
        [.descend 1, .ascend, .descend 0, .ascend]).nextUnvisited = some 1 ∧
      ((new { name := "share", dirs := [{ name := "a" }, { name := "b" }] }).run
          [.descend 1, .ascend, .descend 0, .ascend]).position ++ [1] ∈
        (new { name := "share", dirs := [{ name := "a" }, { name := "b" }] }).tried
          [.descend 1, .ascend, .descend 0, .ascend] ∧
      (new { name := "share", dirs := [{ name := "a" }, { name := "b" }] }).Every Op.Allowed
        [.descend 0, .update fun d => { d with name := "c" }] ∧
      ((new { name := "share", dirs := [{ name := "a" }, { name := "b" }] }).run
          [.descend 0, .update fun d => { d with name := "c" }]).path ≠
        Wire.pathAlong "share" (((new { name := "share", dirs := [{ name := "a" }, { name := "b" }] }).run
          [.descend 0, .update fun d => { d with name := "c" }]).chain.map fun f => f.entry.name) := by
  refine ⟨?_, by decide, by decide, ?_, by decide⟩
  · simp only [Every, Op.Allowed]
    decide
  · simp only [Every, Op.Allowed]
    decide

end Cursor

end TreeDump
