import TreeDump.Command.Parse
import TreeDump.Inventory
import TreeDump.Scan.Summary
import TreeDump.Walkers.Disk
import TreeDump.Text.Quoted

/-!
Running the command on a disk.

The command works in the working directory of a disk, and its result is an
exit status with the texts written to standard output and standard error.

* `--replay SNAP` writes the snapshot in the file `SNAP` back as a dump; the
  directory is not looked at.
* Otherwise the directory's name in the output is its path as given, without
  trailing slashes (a path of slashes only keeps them). A path with a line break
  is refused.
* `--probe` says whether the directory lists anything: `reachable` with status
  0 or `empty` with status 1. A path that is no directory lists nothing.
* Every other form needs the path to be a directory. `--full`, `--json` and
  `--diff OLD` write the listing, the JSON tree and the patch against the
  snapshot in `OLD` (none when the file is missing or empty); the default is the
  dump.
* `--stats` then writes the statistics to standard error, as JSON with `--json`.

A failure is written as `sharewalk: ` and the chain of causes joined by `: `,
with status 1. A command line that cannot be read is refused with status 2; help
and version are written with status 0. A counter that leaves its word stops the
program with status 101, after what it had written.

Main definitions: `Command.execute` and `Command.invoke`.
-/

namespace TreeDump.Command

open Disk

/-- What running the command gives: its exit status and its two output texts. -/
structure Outcome where
  status : Nat
  stdout : String := ""
  stderr : String := ""
deriving DecidableEq, Repr

/-- A failure with its chain of causes. -/
def failure (chain : List String) : Outcome :=
  { status := 1, stderr := programName ++ ": " ++ String.intercalate ": " chain ++ "\n" }

/-- The causes of a snapshot error, outermost first. -/
def snapshotChain (e : SnapshotError) : List String :=
  e.message :: e.cause?.toList

/-- Where in the program each counter is kept, as a stop for an overflow names it. -/
def counterSite : Counter → String
  | .firstId => "src/entry.rs:129:19"
  | .nextId => "src/entry.rs:135:9"
  | .size => "src/tree/traversal.rs:187:9"
  | .tally => "src/tree/traversal.rs:137:9"

/-- Where the statistics' summary adds up its incomplete counts. -/
def summarySite : String := "src/stats.rs:67:8"

/-- A stop on an overflow at `site`, after `stdout` was written. -/
def overflowStop (stdout site : String) : Outcome :=
  { status := 101, stdout,
    stderr := "thread 'main' panicked at " ++ site ++ ":\n" ++ Overflow.add.message ++
      "\nnote: run with `RUST_BACKTRACE=1` environment variable to display a backtrace\n" }

/-- The name of the root in the output, from its path. -/
def rootName (path : String) : Except String String :=
  if path.contains '\n' then .error ("path " ++ Text.quoted path ++ " contains a newline")
  else
    let trimmed := String.ofList (path.toList.reverse.dropWhile (· == '/')).reverse
    .ok (if trimmed.isEmpty then path else trimmed)

/-- The snapshot in the file at `path`. -/
def readSnapshot (host : Host) (path : String) : Except SnapshotError Snapshot :=
  match readFile host.top host.here path with
  | .ok bytes => Snapshot.read bytes
  | .error e => .error (.io e.message)

/-- The previous snapshot of a diff, from the file at `path`: none when the file
does not exist or is empty, as a device is. -/
def loadPrevious (host : Host) (path : String) : Except SnapshotError (Option Snapshot) :=
  match lookup host.top host.here path true with
  | .ok (.file contents) => Snapshot.previous? (some contents.data)
  | .ok .device => Snapshot.previous? (some [])
  | .ok _ => .error (.io DiskError.isDirectory.message)
  | .error .notFound => Snapshot.previous? none
  | .error e => .error (.io e.message)

/-- The limits a request sets, the defaults elsewhere. -/
def Request.limits (r : Request) : Limits :=
  { maxDirs := r.maxDirs.getD ({} : Limits).maxDirs,
    maxItems := r.maxItems.getD ({} : Limits).maxItems,
    recursionThreshold := r.recursionThreshold.getD ({} : Limits).recursionThreshold }

/-- The form of inventory a request asks for. -/
def Request.form (r : Request) : Form :=
  if r.full then .full else if r.json then .json else if r.diff.isSome then .diff else .reverse

/-- The statistics a request writes to standard error. -/
def Request.statsText (r : Request) (stats : WalkStats) : Except Overflow String :=
  if !r.stats then .ok ""
  else if r.json then .ok stats.jsonText
  else stats.summary

/-- The header a diff writes before it scans, which stands even when the scan
stops. -/
def diffHeader (previous : Option Snapshot) : String :=
  "* " ++ ((previous.map (·.digest)).getD (Md5.digest [])).toHex ++ "\n"

/-- Scans the directory of a request and writes its inventory. -/
def inventoryOf (host : Host) (r : Request) (name : String) (previous : Option Snapshot) :
    Outcome :=
  let walk := DiskWalk.start host.top host.here r.path r.ignore r.followSymlinks
  match inventory diskWalker r.limits walk r.form (DirEntry.root name) previous with
  | .error (.overflow counter) =>
    overflowStop (if r.form == .diff then diffHeader previous else "") (counterSite counter)
  | .error e => failure ["walk failed", e.message]
  | .ok report =>
    match r.statsText report.stats with
    | .ok stderr => { status := 0, stdout := report.output, stderr }
    | .error _ => overflowStop report.output summarySite

/-- Runs a request on a disk. -/
def execute (host : Host) (r : Request) : Outcome :=
  match r.replay with
  | some snap =>
    match readSnapshot host snap with
    | .ok snapshot => { status := 0, stdout := snapshot.root.dumpText }
    | .error e => failure (("cannot read snapshot '" ++ snap ++ "'") :: snapshotChain e)
  | none =>
    match rootName r.path with
    | .error message => failure [message]
    | .ok name =>
      if r.probe then
        let walk := DiskWalk.start host.top host.here r.path r.ignore r.followSymlinks
        if (diskWalker.probe walk).1 then { status := 0, stdout := "reachable\n" }
        else { status := 1, stdout := "empty\n" }
      else if !isDirectory host.top host.here r.path then
        failure ["cannot access '" ++ r.path ++ "': No such directory"]
      else
        match r.diff with
        | none => inventoryOf host r name none
        | some old =>
          match loadPrevious host old with
          | .ok previous => inventoryOf host r name previous
          | .error e => failure (("cannot read snapshot '" ++ old ++ "'") :: snapshotChain e)

/-- Runs the command with the words of its command line on a disk. -/
def invoke (host : Host) (words : List String) : Outcome :=
  match parse words with
  | .run request => execute host request
  | .showHelp => { status := 0, stdout := helpText }
  | .showVersion => { status := 0, stdout := versionText }
  | .refuse e => { status := 2, stderr := e.text }

end TreeDump.Command
