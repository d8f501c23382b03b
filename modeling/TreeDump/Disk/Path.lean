/-!
Path texts as a program builds them while it walks.

A path text is cut at every `/` into segments. Its components are a root, when
the text starts with `/`, a leading `.`, when the text starts with a `.` that
stands alone, and then every segment that is neither empty nor `.`, in order.
Two path texts name the same path when their components agree, so `a//b/.`
and `a/b` are the same path.

Joining a name to a path puts a `/` between them unless the path is empty or
already ends with one. The parent of a path is the text that is left after its
last component and then every empty or `.` segment before it are cut away, a
`/` that starts the text and a leading `.` excepted. The root and the empty
path have no parent, and the parent of a leading `.` alone is the empty path.

The parent is a prefix of the text, so a walker that goes down with `join` and
up with `parent?` never sees a longer text than the one it started from plus
the names it entered.

Owns: `join`, `parent?`, `pathComponents` and `samePath`. Does not own: what a
path leads to on a disk (`Disk.Lookup`).
-/

namespace TreeDump.Disk

/-- A component of a path text. -/
inductive Component where
  | root
  | here
  | up
  | name (text : String)
deriving DecidableEq, Repr

/-- The number of characters before the segments that count as components: the
`/` of the root, or a leading `.` that stands alone. -/
def bodyStart : List Char → Nat
  | '/' :: _ => 1
  | ['.'] => 1
  | '.' :: '/' :: _ => 1
  | _ => 0

/-- The components of a path text. -/
def pathComponents (path : String) : List Component :=
  let chars := path.toList
  let front := match chars with
    | '/' :: _ => [Component.root]
    | ['.'] | '.' :: '/' :: _ => [Component.here]
    | _ => []
  let segments := (String.ofList (chars.drop (bodyStart chars))).splitOn "/"
  front ++ segments.filterMap fun segment =>
    if segment = "" ∨ segment = "." then none
    else if segment = ".." then some .up
    else some (.name segment)

/-- Whether two path texts name the same path. -/
def samePath (a b : String) : Bool := pathComponents a == pathComponents b

/-- A path with a name joined to its end. -/
def join (path name : String) : String :=
  if path.isEmpty || path.endsWith "/" then path ++ name else path ++ "/" ++ name

/-- Whether a character is no separator. -/
def notSlash (c : Char) : Bool := c != '/'

theorem length_dropWhile_le (p : Char → Bool) :
    ∀ cs : List Char, (cs.dropWhile p).length ≤ cs.length
  | [] => Nat.le_refl _
  | c :: cs => by
    rw [List.dropWhile_cons]
    split
    · exact Nat.le_succ_of_le (length_dropWhile_le p cs)
    · exact Nat.le_refl _

/-- Cuts empty and `.` segments off a reversed body, until its last segment is a
component. -/
def trimBack : List Char → List Char
  | [] => []
  | c :: cs =>
    let segment := (c :: cs).takeWhile notSlash
    if segment = [] ∨ segment = ['.'] then
      trimBack (((c :: cs).dropWhile notSlash).drop 1)
    else c :: cs
termination_by reversed => reversed.length
decreasing_by
  have := length_dropWhile_le notSlash (c :: cs)
  simp only [List.length_drop, List.length_cons] at this ⊢
  omega

/-- The parent of a path text, if it has one. -/
def parent? (path : String) : Option String :=
  let chars := path.toList
  let start := bodyStart chars
  match trimBack (chars.drop start).reverse with
  | [] =>
    match chars with
    | ['.'] | '.' :: '/' :: _ => some ""
    | _ => none
  | last =>
    let rest := trimBack ((last.dropWhile notSlash).drop 1)
    some (String.ofList (chars.take start ++ rest.reverse))

end TreeDump.Disk
