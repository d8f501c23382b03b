import TreeDump.Command.Run

/-!
The program.

It reads the tree below the working directory into a disk, runs the command
with its arguments on that disk, and writes the outcome: the two texts to
standard output and standard error, and the status as the exit code.

Reading the tree: a directory becomes a directory node with its entries in the
order the system lists them, a regular file a file with its bytes, and a
symbolic link a link to the place it resolves to, written from the directory
that holds the link. The disk is the one of `Disk.Host.scratch`: a link that
leads outside the working directory, other than to `/dev/null`, or nowhere,
leads nowhere on the disk, and other kinds of file are left out. Paths are
looked up on this disk only.
-/

namespace TreeDump.Shell

/-- A link target that names nothing on any disk. -/
def nowhere : String := "\x00"

/-- The target of a link that resolves to `resolved`, as a path from the
directory of the link, `depth` directories below `top`, the resolved working
directory. -/
def targetWithin (top : String) (depth : Nat) (resolved : String) : String :=
  let up := List.replicate depth ".."
  if resolved == top then String.intercalate "/" (if up.isEmpty then ["."] else up)
  else if (top ++ "/").isPrefixOf resolved then
    String.intercalate "/" (up ++ [String.ofList (resolved.toList.drop (top.length + 1))])
  else if resolved == "/dev/null" then resolved
  else nowhere

mutual

/-- Reads the entries of a directory `depth` directories below the working
directory, in listing order. -/
partial def readEntries (top : String) (depth : Nat) (entries : Array IO.FS.DirEntry) :
    IO (List (List UInt8 × Disk.Node)) := do
  let mut children := #[]
  for entry in entries do
    if let some child ← readEntry top depth entry then
      children := children.push child
  pure children.toList

/-- Reads one entry of a directory; `none` for a kind of file the disk does not
hold. -/
partial def readEntry (top : String) (depth : Nat) (entry : IO.FS.DirEntry) :
    IO (Option (List UInt8 × Disk.Node)) := do
  let name := entry.fileName.toUTF8.toList
  let info ← entry.path.symlinkMetadata
  match info.type with
  | .dir => pure (some (name, .dir (← readEntries top (depth + 1) (← entry.path.readDir))))
  | .file => pure (some (name, .file (.bytes (← IO.FS.readBinFile entry.path).toList)))
  | .symlink =>
    let target ← match ← (IO.FS.realPath entry.path).toBaseIO with
      | .ok resolved => pure (targetWithin top depth resolved.toString)
      | .error _ => pure nowhere
    pure (some (name, .link target))
  | .other => pure none

end

end TreeDump.Shell

/-- Runs the command on the working directory. -/
def main (args : List String) : IO UInt32 := do
  let here ← IO.currentDir
  let top ← IO.FS.realPath here
  let disk := TreeDump.Disk.Host.scratch (← TreeDump.Shell.readEntries top.toString 0 (← here.readDir))
  let outcome := TreeDump.Command.invoke disk args
  let stdout ← IO.getStdout
  stdout.putStr outcome.stdout
  stdout.flush
  let stderr ← IO.getStderr
  stderr.putStr outcome.stderr
  stderr.flush
  pure outcome.status.toUInt32
