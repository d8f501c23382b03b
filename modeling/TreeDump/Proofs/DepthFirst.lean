import Mathlib
import TreeDump.Engine.Walk
import TreeDump.Proofs.Tree

/-!
Contract: the flat walk over a tree in memory is its depth-first traversal.

Owns: the recursive traversal `Hooks.depthFirst`, which visits every child directory
in order (`Hooks.visit`, `Hooks.below`), and the same decomposition of a walk from the
root of a tree found at any path (`Hooks.walk_withPath`); the calls of a walk as seen from outside
(`Hooks.Call`, the logging policy `Hooks.logged`) and the calls of a depth-first walk of a
tree (`DirEntry.calls`); and policies that follow one another through a map of their
states (`Hooks.walk_map`).

Main statement (`walk_visits_depth_first`): for every tree, every policy whose entering
hooks keep what navigation reads, and every starting state, the walk is the recursive
traversal; its calls are those of `DirEntry.calls`, which enter every directory below the
root once and whole in pre-order and leave each once in post-order, at the paths
`Wire.childPath` folds from the root's name, between the root's two calls; and the walk
ends at the root, whose entry is the tree as the hooks left it.

Does not own: what a policy writes (see `FullListing`), and policies that navigate a live
walker.

## Why it goes through

A cursor is its frames (`Cursor.frames`), and every move changes the head of that list
only. Visiting any directories leaves the frames under the current one as they were and
moves its next child to try past them (`Hooks.Resumes`, proved for every list by
`Hooks.resumes`). With that, the loop from "move on to a child" is the loop from "no
child left" after visiting the children still to try (`Hooks.loop_goChild`), by
induction over the directories (`DirEntry.listInduction`): entering a child starts the
same statement one level down, and leaving it resumes the parent's frame one slot on.
-/

namespace TreeDump

/-- A property of every list of directories follows from the empty list and, for a
list with a head, from the head's child directories and the tail. -/
theorem DirEntry.listInduction {motive : List DirEntry → Prop} (nil : motive [])
    (cons : ∀ c cs, motive c.dirs → motive cs → motive (c :: cs)) : ∀ cs, motive cs :=
  @DirEntry.rec_1 (fun c => motive c.dirs) motive (fun _ _ _ _ _ _ _ _ inside => inside) nil
    (fun c cs inside rest => cons c cs inside rest)

theorem drop_eq_cons_split {α : Type} {l : List α} {i : Nat} {c : α} {cs : List α} (d : α)
    (h : l.drop i = c :: cs) : i < l.length ∧ l.getD i d = c ∧ l.drop (i + 1) = cs := by
  have inRange : i < l.length := by
    by_contra short
    rw [List.drop_eq_nil_of_le (Nat.not_lt.mp short)] at h
    cases h
  rw [List.drop_eq_getElem_cons inRange] at h
  obtain ⟨first, rest⟩ := List.cons.inj h
  exact ⟨inRange, by simp [List.getD_eq_getElem?_getD, inRange, first], rest⟩

/-- The child directories the cursor's current directory has still to try. -/
def Cursor.remaining (cx : Cursor) : List DirEntry := cx.current.dirs.drop cx.top.next

namespace Hooks

variable {ω : Type}

mutual

/-- Visits the child directory `c` found at the current directory's next child to try:
enters it, visits its own children, leaves it and puts it back. -/
def visit (h : Hooks ω) : DirEntry → Cursor → ω → Cursor × ω
  | ⟨_, _, _, _, _, _, dirs, _⟩, cx, w =>
    let inside := cx.descend cx.top.next
    let entered := h.enter inside w
    let done := h.below dirs (inside.setCurrent entered.1) entered.2
    let left := h.leave done.1 done.2
    ((done.1.setCurrent left.1).ascend, left.2)

/-- Visits the child directories `cs` one after the other. -/
def below (h : Hooks ω) : List DirEntry → Cursor → ω → Cursor × ω
  | [], cx, w => (cx, w)
  | c :: cs, cx, w =>
    let visited := h.visit c cx w
    h.below cs visited.1 visited.2

end

/-- The recursive traversal of a tree: the root's entering hook, a visit of each of its
child directories in order, and the root's leaving hook. -/
def depthFirst (h : Hooks ω) (T : DirEntry) (w : ω) : Cursor × ω :=
  let entered := h.enterRoot (Cursor.new T) w
  let done := h.below T.dirs ((Cursor.new T).setCurrent entered.1) entered.2
  let left := h.leaveRoot done.1 done.2
  (done.1.setCurrent left.1, left.2)

section Reference

variable (h : Hooks ω)

theorem visit_eq (c : DirEntry) (cx : Cursor) (w : ω) :
    h.visit c cx w =
      let inside := cx.descend cx.top.next
      let entered := h.enter inside w
      let done := h.below c.dirs (inside.setCurrent entered.1) entered.2
      let left := h.leave done.1 done.2
      ((done.1.setCurrent left.1).ascend, left.2) := by
  cases c
  rfl

theorem below_nil (cx : Cursor) (w : ω) : h.below [] cx w = (cx, w) := rfl

theorem below_cons (c : DirEntry) (cs : List DirEntry) (cx : Cursor) (w : ω) :
    h.below (c :: cs) cx w = h.below cs (h.visit c cx w).1 (h.visit c cx w).2 := rfl

/-- What visiting the child `c` puts back into its slot: the child as its leaving hook
left it. -/
def putBack (c : DirEntry) (cx : Cursor) (w : ω) : DirEntry :=
  let inside := cx.descend cx.top.next
  let entered := h.enter inside w
  let done := h.below c.dirs (inside.setCurrent entered.1) entered.2
  (h.leave done.1 done.2).1

/-- What visiting the directories `cs` does to the cursor: the current frame goes on
past them, keeping its name and id, and the frames under it stay as they were. -/
def Resumes (cs : List DirEntry) : Prop :=
  ∀ cx w, ∃ e : DirEntry,
    (h.below cs cx w).1.frames =
      { cx.top with entry := e, next := cx.top.next + cs.length } :: cx.frames.tail ∧
    e.name = cx.current.name ∧ e.id = cx.current.id

variable {h}

theorem frames_visit {c : DirEntry} (inside : h.Resumes c.dirs) (cx : Cursor) (w : ω) :
    (h.visit c cx w).1.frames =
      { cx.top with next := cx.top.next + 1,
                    entry := { cx.current with dirs := cx.current.dirs.set cx.top.next (h.putBack c cx w) } } ::
        cx.frames.tail := by
  rw [visit_eq]
  dsimp only
  -- the frames between the hooks: the child's frame on its parent's, which goes on after it
  have down := cx.frames_descend cx.top.next
  have entered := Cursor.frames_setCurrent_of down (h.enter (cx.descend cx.top.next) w).1
  obtain ⟨e, done, -, -⟩ := inside ((cx.descend cx.top.next).setCurrent
    (h.enter (cx.descend cx.top.next) w).1) (h.enter (cx.descend cx.top.next) w).2
  rw [entered, Cursor.top_of_frames entered, List.tail_cons] at done
  have left := Cursor.frames_setCurrent_of done
  -- ascending puts back into the slot of `c` what the leaving hook gave
  exact (Cursor.frames_ascend_of (left _)).trans
    (by simp only [Frame.restore, Frame.give, List.set_set, Cursor.current]; rfl)

theorem resumes_nil : h.Resumes [] := fun cx w =>
  ⟨cx.current, by rw [below_nil, cx.frames_eq]; rfl, rfl, rfl⟩

theorem resumes_cons {c : DirEntry} {cs : List DirEntry} (inside : h.Resumes c.dirs)
    (rest : h.Resumes cs) : h.Resumes (c :: cs) := by
  intro cx w
  have visited := frames_visit inside cx w
  obtain ⟨e, done, name, id⟩ := rest (h.visit c cx w).1 (h.visit c cx w).2
  rw [visited, Cursor.top_of_frames visited, List.tail_cons] at done
  simp only [Cursor.current, Cursor.top_of_frames visited] at name id
  refine ⟨e, ?_, name, id⟩
  rw [below_cons, done]
  simp only [List.length_cons, List.cons.injEq, and_true]
  congr 1
  omega

/-- Visiting any directories resumes the current frame past them. -/
theorem resumes (h : Hooks ω) (cs : List DirEntry) : h.Resumes cs :=
  DirEntry.listInduction resumes_nil (fun _ _ => resumes_cons) cs

/-- Entering the next child `c` leaves its own child directories to try, whatever the
entering hook did. -/
theorem remaining_entered {cx : Cursor} {c : DirEntry} {cs : List DirEntry}
    (left : cx.remaining = c :: cs) (w : ω) :
    ((cx.descend cx.top.next).setCurrent (h.enter (cx.descend cx.top.next) w).1).remaining =
      c.dirs := by
  obtain ⟨-, child, -⟩ := drop_eq_cons_split DirEntry.taken left
  simp only [Cursor.remaining, Cursor.current_setCurrent, Cursor.next_setCurrent,
    Cursor.next_descend, List.drop_zero, (h.enter_kept _ _).dirs, Cursor.current_descend, child]

/-- Visiting the next child `c` leaves the children after it to try. -/
theorem remaining_visit {cx : Cursor} {c : DirEntry} {cs : List DirEntry}
    (left : cx.remaining = c :: cs) (w : ω) : (h.visit c cx w).1.remaining = cs := by
  obtain ⟨-, -, more⟩ := drop_eq_cons_split DirEntry.taken left
  have visited := frames_visit (h.resumes c.dirs) cx w
  simp only [Cursor.remaining, Cursor.current, Cursor.top_of_frames visited,
    List.drop_set_of_lt (Nat.lt_add_one _)]
  exact more

/-- Entering the root leaves all its child directories to try. -/
theorem remaining_enteredRoot (T : DirEntry) (path : String) (parent : Nat) (w : ω) :
    ((Cursor.withPath T path parent).setCurrent
      (h.enterRoot (Cursor.withPath T path parent) w).1).remaining = T.dirs := by
  simp only [Cursor.remaining, Cursor.current_setCurrent, Cursor.next_setCurrent,
    (h.enterRoot_kept _ _).dirs]
  rfl

/-- From a cursor whose current directory has the directories `cs` left to try, the
loop after moving on to a child is the loop, from the move that found none left, after
visiting `cs`. -/
theorem loop_goChild : ∀ (cs : List DirEntry) (cx : Cursor) (w : ω), cx.remaining = cs →
      h.loop cx.goChild.1 cx.goChild.2 w = h.loop false (h.below cs cx w).1 (h.below cs cx w).2 := by
  intro cs
  induction cs using DirEntry.listInduction with
  | nil =>
    intro cx w left
    rw [Cursor.goChild_of_le (List.drop_eq_nil_iff.mp left), below_nil]
  | cons c cs inside rest =>
    intro cx w left
    obtain ⟨inRange, -, -⟩ := drop_eq_cons_split DirEntry.taken left
    -- entering `c` and moving on to its first child is visiting its children
    rw [Cursor.goChild_of_lt inRange, loop]
    dsimp only
    rw [inside _ _ (h.remaining_entered left w)]
    -- leaving `c`, from the frame its visit resumed, is not leaving the root
    obtain ⟨e, done, -, -⟩ := h.resumes c.dirs ((cx.descend cx.top.next).setCurrent
      (h.enter (cx.descend cx.top.next) w).1) (h.enter (cx.descend cx.top.next) w).2
    rw [Cursor.frames_setCurrent_of (cx.frames_descend _), List.tail_cons] at done
    rw [loop, if_neg (by simp [Cursor.atRoot_of_frames done])]
    dsimp only [Cursor.goSiblingOrParent]
    -- the parent goes on with the directories after `c`
    have restLeft := h.remaining_visit left w
    rw [visit_eq] at restLeft
    dsimp only at restLeft
    rw [rest _ _ restLeft, below_cons, visit_eq]

/-- A walk from a tree's root, wherever the tree sits, is the root's entering hook, a
visit of each of its child directories in order, and the root's leaving hook. -/
theorem walk_withPath (T : DirEntry) (path : String) (parent : Nat) (w : ω) :
    h.walk (Cursor.withPath T path parent) w =
      let cx := Cursor.withPath T path parent
      let entered := h.enterRoot cx w
      let done := h.below T.dirs (cx.setCurrent entered.1) entered.2
      let left := h.leaveRoot done.1 done.2
      (done.1.setCurrent left.1, left.2) := by
  -- the visit of the root's children ends back at the root, where the loop stops
  obtain ⟨e, done, -, -⟩ := h.resumes T.dirs ((Cursor.withPath T path parent).setCurrent
    (h.enterRoot (Cursor.withPath T path parent) w).1) (h.enterRoot (Cursor.withPath T path parent) w).2
  rw [Cursor.frames_setCurrent_of (f := (Cursor.withPath T path parent).root) rfl] at done
  rw [walk]
  rw [h.loop_goChild _ _ _ (h.remaining_enteredRoot T path parent w), loop,
    if_pos (by rw [Cursor.atRoot_of_frames done]; rfl)]

/-- The flat walk over a tree is its recursive traversal. -/
theorem walk_eq_depthFirst (T : DirEntry) (w : ω) : h.walk (Cursor.new T) w = h.depthFirst T w :=
  h.walk_withPath T T.name 0 w

end Reference

/-! ### The calls of a walk -/

/-- A hook call as seen from outside: the cursor's depth below the walk's root, its
path, and the current directory. An entering hook sees the directory whole; a leaving
one sees it as the hooks below it left it, so the call names it by name and id. -/
inductive Call where
  | enterRoot (depth : Nat) (path : String) (dir : DirEntry)
  | enter (depth : Nat) (path : String) (dir : DirEntry)
  | leave (depth : Nat) (path : String) (name : String) (id : Nat)
  | leaveRoot (depth : Nat) (path : String) (name : String) (id : Nat)

/-- A hook that also writes down its call, as `see` sees the cursor. -/
def logging (see : Cursor → Call) (hook : Cursor → ω → DirEntry × ω) (cx : Cursor)
    (s : ω × List Call) : DirEntry × (ω × List Call) :=
  ((hook cx s.1).1, (hook cx s.1).2, s.2 ++ [see cx])

/-- The policy `h` that also writes down every call it gets. -/
def logged (h : Hooks ω) : Hooks (ω × List Call) where
  enterRoot := logging (fun cx => .enterRoot cx.stack.length cx.path cx.current) h.enterRoot
  enter := logging (fun cx => .enter cx.stack.length cx.path cx.current) h.enter
  leave := logging (fun cx => .leave cx.stack.length cx.path cx.current.name cx.current.id) h.leave
  leaveRoot :=
    logging (fun cx => .leaveRoot cx.stack.length cx.path cx.current.name cx.current.id) h.leaveRoot
  enterRoot_kept cx s := h.enterRoot_kept cx s.1
  enter_kept cx s := h.enter_kept cx s.1

end Hooks

mutual

/-- The calls a depth-first walk makes while it visits the directory `c`, found below a
directory named `name` at `path` and `depth`: entering `c`, the calls below it, and
leaving it. -/
def DirEntry.visitCalls (depth : Nat) (path name : String) : DirEntry → List Hooks.Call
  | c@⟨cname, _, cid, _, _, _, cdirs, _⟩ =>
    .enter (depth + 1) (Wire.childPath path name cname) c ::
      DirEntry.callsBelow (depth + 1) (Wire.childPath path name cname) cname cdirs ++
      [.leave (depth + 1) (Wire.childPath path name cname) cname cid]

/-- The calls a depth-first walk makes while it visits the directories `cs`, one after
the other. -/
def DirEntry.callsBelow (depth : Nat) (path name : String) : List DirEntry → List Hooks.Call
  | [] => []
  | c :: cs => c.visitCalls depth path name ++ DirEntry.callsBelow depth path name cs

end

/-- The calls a depth-first walk of the tree `T` makes: entering the root, the calls
below it, and leaving the root. -/
def DirEntry.calls (T : DirEntry) : List Hooks.Call :=
  .enterRoot 0 T.name T :: DirEntry.callsBelow 0 T.name T.name T.dirs ++ [.leaveRoot 0 T.name T.name T.id]

/-- The directories of a tree in depth-first post-order, its root last. -/
def DirEntry.postOrder : DirEntry → List DirEntry
  | ⟨name, size, id, fid, items, digest, dirs, files⟩ =>
    dirs.flatMap DirEntry.postOrder ++ [⟨name, size, id, fid, items, digest, dirs, files⟩]

theorem DirEntry.postOrder_eq (d : DirEntry) : d.postOrder = d.dirs.flatMap DirEntry.postOrder ++ [d] := by
  cases d
  rw [DirEntry.postOrder]

namespace Hooks

variable {ω : Type} (h : Hooks ω)

theorem visitCalls_eq (depth : Nat) (path name : String) (c : DirEntry) :
    c.visitCalls depth path name =
      .enter (depth + 1) (Wire.childPath path name c.name) c ::
        DirEntry.callsBelow (depth + 1) (Wire.childPath path name c.name) c.name c.dirs ++
        [.leave (depth + 1) (Wire.childPath path name c.name) c.name c.id] := by
  cases c
  rfl

@[simp] theorem logged_enter (cx : Cursor) (s : ω × List Call) :
    h.logged.enter cx s =
      ((h.enter cx s.1).1, (h.enter cx s.1).2, s.2 ++ [.enter cx.stack.length cx.path cx.current]) :=
  rfl

@[simp] theorem logged_enterRoot (cx : Cursor) (s : ω × List Call) :
    h.logged.enterRoot cx s = ((h.enterRoot cx s.1).1, (h.enterRoot cx s.1).2,
      s.2 ++ [.enterRoot cx.stack.length cx.path cx.current]) :=
  rfl

@[simp] theorem logged_leaveRoot (cx : Cursor) (s : ω × List Call) :
    h.logged.leaveRoot cx s = ((h.leaveRoot cx s.1).1, (h.leaveRoot cx s.1).2,
      s.2 ++ [.leaveRoot cx.stack.length cx.path cx.current.name cx.current.id]) :=
  rfl

@[simp] theorem logged_leave (cx : Cursor) (s : ω × List Call) :
    h.logged.leave cx s = ((h.leave cx s.1).1, (h.leave cx s.1).2,
      s.2 ++ [.leave cx.stack.length cx.path cx.current.name cx.current.id]) :=
  rfl

/-- Visiting directories leaves the cursor where it stood: at the same depth and path,
with a current directory of the same name and id. -/
theorem below_stays (cs : List DirEntry) (cx : Cursor) (w : ω) :
    (h.below cs cx w).1.stack.length = cx.stack.length ∧ (h.below cs cx w).1.path = cx.path ∧
      (h.below cs cx w).1.current.name = cx.current.name ∧
      (h.below cs cx w).1.current.id = cx.current.id := by
  obtain ⟨e, done, name, id⟩ := h.resumes cs cx w
  refine ⟨?_, ?_, ?_, ?_⟩
  · rw [Cursor.length_stack_of_frames done, Cursor.length_stack_of_frames cx.frames_eq]
  · rw [Cursor.path_of_frames done]
    rfl
  · rw [Cursor.current_of_frames done]
    exact name
  · rw [Cursor.current_of_frames done]
    exact id

/-- Visiting directories keeps the id the walk's root was given for its parent. -/
theorem below_rootParent (cs : List DirEntry) :
    ∀ (cx : Cursor) (w : ω), (h.below cs cx w).1.rootParent = cx.rootParent := by
  induction cs using DirEntry.listInduction with
  | nil => intros; rfl
  | cons c cs inside rest =>
    intro cx w
    rw [below_cons, rest, visit_eq]
    simp only [Cursor.rootParent_ascend, Cursor.rootParent_setCurrent, inside,
      Cursor.rootParent_descend]

theorem visit_stays (c : DirEntry) (cx : Cursor) (w : ω) :
    (h.visit c cx w).1.stack.length = cx.stack.length ∧ (h.visit c cx w).1.path = cx.path ∧
      (h.visit c cx w).1.current.name = cx.current.name := by
  have visited := frames_visit (h.resumes c.dirs) cx w
  refine ⟨?_, ?_, ?_⟩
  · rw [Cursor.length_stack_of_frames visited, Cursor.length_stack_of_frames cx.frames_eq]
  · rw [Cursor.path_of_frames visited]
    rfl
  · rw [Cursor.current_of_frames visited]

/-- Visiting the directories `cs` with the logging policy makes the same moves and
writes down the depth-first calls of `cs`. -/
theorem logged_below : ∀ (cs : List DirEntry) (cx : Cursor) (w : ω) (log : List Call),
    cx.remaining = cs →
      h.logged.below cs cx (w, log) =
        ((h.below cs cx w).1, (h.below cs cx w).2,
          log ++ DirEntry.callsBelow cx.stack.length cx.path cx.current.name cs) := by
  intro cs
  induction cs using DirEntry.listInduction with
  | nil =>
    intro cx w log _
    simp [below_nil, DirEntry.callsBelow]
  | cons c cs inside rest =>
    intro cx w log left
    obtain ⟨-, child, -⟩ := drop_eq_cons_split DirEntry.taken left
    rw [below_cons, below_cons, visit_eq, visit_eq]
    dsimp only
    rw [logged_enter, inside _ _ _ (h.remaining_entered left w), logged_leave]
    -- the calls are made where the visit stands: the calls below `c` one level down,
    -- then the rest at the cursor's own depth and path
    have restLeft := h.remaining_visit left w
    obtain ⟨upDepth, upPath, upName⟩ := h.visit_stays c cx w
    rw [visit_eq] at restLeft upDepth upPath upName
    dsimp only at restLeft upDepth upPath upName
    obtain ⟨doneDepth, donePath, doneName, doneId⟩ := h.below_stays c.dirs
      ((cx.descend cx.top.next).setCurrent (h.enter (cx.descend cx.top.next) w).1)
      (h.enter (cx.descend cx.top.next) w).2
    rw [rest _ _ _ restLeft, upDepth, upPath, upName, doneDepth, donePath, doneName, doneId,
      Cursor.length_stack_setCurrent, Cursor.path_setCurrent, Cursor.current_setCurrent,
      (h.enter_kept _ _).name, (h.enter_kept _ _).id, Cursor.length_stack_descend, Cursor.path_descend,
      Cursor.current_descend, child, DirEntry.callsBelow, visitCalls_eq]
    simp [Cursor.childPath, Cursor.path, Cursor.current]

/-- A walk of the logging policy makes the moves of the policy's own walk and writes
down the depth-first calls of the tree. -/
theorem logged_walk (T : DirEntry) (w : ω) :
    h.logged.walk (Cursor.new T) (w, []) =
      ((h.walk (Cursor.new T) w).1, (h.walk (Cursor.new T) w).2, T.calls) := by
  obtain ⟨doneDepth, donePath, doneName, doneId⟩ := h.below_stays T.dirs
    ((Cursor.new T).setCurrent (h.enterRoot (Cursor.new T) w).1) (h.enterRoot (Cursor.new T) w).2
  have entered : ((Cursor.new T).setCurrent (h.enterRoot (Cursor.new T) w).1).remaining = T.dirs :=
    h.remaining_enteredRoot T T.name 0 w
  rw [walk_eq_depthFirst, walk_eq_depthFirst, depthFirst, depthFirst]
  dsimp only
  rw [logged_enterRoot, logged_below _ _ _ _ _ entered, logged_leaveRoot, doneDepth, donePath,
    doneName, doneId, Cursor.length_stack_setCurrent, Cursor.path_setCurrent,
    Cursor.current_setCurrent, (h.enterRoot_kept _ _).name, (h.enterRoot_kept _ _).id]
  rfl

/-- A walk from a tree's root, wherever the tree sits, ends at the root. -/
theorem atRoot_walk_withPath (T : DirEntry) (path : String) (parent : Nat) (w : ω) :
    (h.walk (Cursor.withPath T path parent) w).1.atRoot = true := by
  obtain ⟨doneDepth, -⟩ := h.below_stays T.dirs
    ((Cursor.withPath T path parent).setCurrent (h.enterRoot (Cursor.withPath T path parent) w).1)
    (h.enterRoot (Cursor.withPath T path parent) w).2
  rw [walk_withPath]
  dsimp only
  rw [Cursor.atRoot_setCurrent, Cursor.atRoot, List.isEmpty_iff_length_eq_zero, doneDepth,
    Cursor.length_stack_setCurrent]
  rfl

/-- A walk ends at the root. -/
theorem walk_atRoot (T : DirEntry) (w : ω) : (h.walk (Cursor.new T) w).1.atRoot = true :=
  h.atRoot_walk_withPath T T.name 0 w

/-- The directory an entering call sees, if it enters a directory below the root. -/
def Call.entered? : Call → Option DirEntry
  | .enter _ _ d => some d
  | _ => none

/-- The name and id of the directory a leaving call leaves, if it is below the root. -/
def Call.left? : Call → Option (String × Nat)
  | .leave _ _ name id => some (name, id)
  | _ => none

theorem entered_callsBelow (cs : List DirEntry) : ∀ (depth : Nat) (path name : String),
    (DirEntry.callsBelow depth path name cs).filterMap Call.entered? = cs.flatMap DirEntry.allDirs := by
  induction cs using DirEntry.listInduction with
  | nil => intros; rfl
  | cons c cs inside rest =>
    intro depth path name
    rw [DirEntry.callsBelow, visitCalls_eq, List.flatMap_cons, DirEntry.allDirs_eq]
    simp [List.filterMap_append, List.filterMap_cons, inside, rest, Call.entered?]

theorem left_callsBelow (cs : List DirEntry) : ∀ (depth : Nat) (path name : String),
    (DirEntry.callsBelow depth path name cs).filterMap Call.left? =
      (cs.flatMap DirEntry.postOrder).map fun d => (d.name, d.id) := by
  induction cs using DirEntry.listInduction with
  | nil => intros; rfl
  | cons c cs inside rest =>
    intro depth path name
    rw [DirEntry.callsBelow, visitCalls_eq, List.flatMap_cons, DirEntry.postOrder_eq]
    simp [List.filterMap_append, List.filterMap_cons, inside, rest, Call.left?]

/-- The flat walk is a depth-first traversal. For every tree `T`, every policy `h` whose
entering hooks keep what navigation reads, and every starting state `w`: the walk is the
recursive traversal `depthFirst`; as seen from outside, its calls are `T.calls`, which
enter every directory below the root once, whole, in pre-order and leave each once in
post-order, at the path `Wire.childPath` folds from the root's name, between the root's
entering call first and its leaving call last at depth 0; and the walk ends at the root,
whose entry is the tree as the hooks left it. -/
theorem walk_visits_depth_first (h : Hooks ω) (T : DirEntry) (w : ω) :
    h.walk (Cursor.new T) w = h.depthFirst T w ∧
      h.logged.walk (Cursor.new T) (w, []) =
        ((h.walk (Cursor.new T) w).1, (h.walk (Cursor.new T) w).2, T.calls) ∧
      T.calls.filterMap Call.entered? = T.dirs.flatMap DirEntry.allDirs ∧
      T.calls.filterMap Call.left? = (T.dirs.flatMap DirEntry.postOrder).map (fun d => (d.name, d.id)) ∧
      (h.walk (Cursor.new T) w).1.atRoot = true ∧
      (h.walk (Cursor.new T) w).1.intoRoot = (h.depthFirst T w).1.root.entry := by
  have atRoot := h.walk_atRoot T w
  refine ⟨h.walk_eq_depthFirst T w, h.logged_walk T w, ?_, ?_, atRoot, ?_⟩
  · rw [DirEntry.calls, List.filterMap_append, List.filterMap_cons_none rfl, entered_callsBelow]
    exact List.append_nil _
  · rw [DirEntry.calls, List.filterMap_append, List.filterMap_cons_none rfl, left_callsBelow]
    exact List.append_nil _
  · rw [Cursor.intoRoot_of_atRoot atRoot, h.walk_eq_depthFirst]

section Map

variable {ω' : Type} {h : Hooks ω} {h' : Hooks ω'} {f : ω → ω'}

/-- A hook of a second policy follows one of a first through the map `f` of states: on
every cursor it gives the first's entry and the image of its state. -/
def Follows (f : ω → ω') (hook : Cursor → ω → DirEntry × ω) (hook' : Cursor → ω' → DirEntry × ω') :
    Prop :=
  ∀ cx s, hook' cx (f s) = ((hook cx s).1, f (hook cx s).2)

theorem loop_map (enter : Follows f h.enter h'.enter) (leave : Follows f h.leave h'.leave)
    (entered : Bool) (cx : Cursor) (s : ω) :
    h'.loop entered cx (f s) = ((h.loop entered cx s).1, f (h.loop entered cx s).2) := by
  fun_induction h.loop entered cx s with
  | case1 cx s _ _ inductionHypothesis =>
    rw [loop, enter]
    exact inductionHypothesis
  | case2 cx s atRoot =>
    rw [loop, if_pos atRoot]
  | case3 cx s away _ _ inductionHypothesis =>
    rw [loop, if_neg away]
    dsimp only
    rw [leave]
    exact inductionHypothesis

/-- A policy that follows another hook for hook through `f` walks as the other does,
with the image of its state. -/
theorem walk_map (enterRoot : Follows f h.enterRoot h'.enterRoot) (enter : Follows f h.enter h'.enter)
    (leave : Follows f h.leave h'.leave) (leaveRoot : Follows f h.leaveRoot h'.leaveRoot)
    (cx : Cursor) (s : ω) :
    h'.walk cx (f s) = ((h.walk cx s).1, f (h.walk cx s).2) := by
  rw [walk, walk]
  dsimp only
  rw [enterRoot, loop_map enter leave, leaveRoot]

end Map

end Hooks

end TreeDump
