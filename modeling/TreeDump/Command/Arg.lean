/-!
The arguments of the command line.

The command takes one optional positional argument, the directory to walk, and
a set of options. Each argument is a value of `Arg`; its spelling, its value
name, what repeated use does and its help line are functions of it, and the
help text and usage lines are renderings of this table.

The options `--full`, `--json`, `--diff`, `--probe` and `--replay` choose how
the command runs, so at most one of them may be given: each conflicts with the
others.
-/

namespace TreeDump.Command

/-- An argument of the command line. -/
inductive Arg where
  | path
  | full
  | json
  | diff
  | probe
  | replay
  | maxDirs
  | maxItems
  | recursionThreshold
  | ignore
  | followSymlinks
  | stats
  | verbose
  | help
  | version
deriving DecidableEq, Repr

/-- What an argument does when it is given. -/
inductive Action where
  /-- A switch, given at most once. -/
  | flag
  /-- One value, given at most once. -/
  | single
  /-- One value each time; values add up. -/
  | append
  /-- Prints the help text. -/
  | showHelp
  /-- Prints the version. -/
  | showVersion
deriving DecidableEq, Repr

namespace Arg

/-- Every argument, in the order of the help text. -/
def all : List Arg :=
  [.path, .full, .json, .diff, .probe, .replay, .maxDirs, .maxItems, .recursionThreshold,
    .ignore, .followSymlinks, .stats, .verbose, .help, .version]

/-- The long spelling, without its two dashes; the positional argument has none. -/
def long? : Arg → Option String
  | .path => none
  | .full => some "full"
  | .json => some "json"
  | .diff => some "diff"
  | .probe => some "probe"
  | .replay => some "replay"
  | .maxDirs => some "max-dirs"
  | .maxItems => some "max-items"
  | .recursionThreshold => some "recursion-threshold"
  | .ignore => some "ignore"
  | .followSymlinks => some "follow-symlinks"
  | .stats => some "stats"
  | .verbose => some "verbose"
  | .help => some "help"
  | .version => some "version"

/-- The one-letter spelling, without its dash. -/
def short? : Arg → Option Char
  | .ignore => some 'I'
  | .verbose => some 'v'
  | .help => some 'h'
  | .version => some 'V'
  | _ => none

/-- The name of the value an argument takes, if it takes one. -/
def valueName? : Arg → Option String
  | .path => some "PATH"
  | .diff => some "OLD"
  | .replay => some "SNAP"
  | .maxDirs | .maxItems | .recursionThreshold => some "N"
  | .ignore => some "IGNORE"
  | _ => none

/-- Whether an argument takes a value. -/
def takesValue (a : Arg) : Bool := a.valueName?.isSome

/-- What giving an argument does. -/
def action : Arg → Action
  | .full | .json | .probe | .followSymlinks | .stats | .verbose => .flag
  | .path | .diff | .replay | .maxDirs | .maxItems | .recursionThreshold => .single
  | .ignore => .append
  | .help => .showHelp
  | .version => .showVersion

/-- Whether an argument chooses how the command runs; such arguments exclude one
another. -/
def choosesMode : Arg → Bool
  | .full | .json | .diff | .probe | .replay => true
  | _ => false

/-- Whether two different arguments may not be given together. -/
def conflicts (a b : Arg) : Bool := a != b && a.choosesMode && b.choosesMode

/-- The help line of an argument. -/
def about : Arg → String
  | .path => "Directory to walk"
  | .full => "Print every path with its size instead of a reverse dump"
  | .json => "Print the whole tree as JSON"
  | .diff => "Write a patch against the snapshot in OLD, followed by a fresh dump"
  | .probe => "Only check whether the directory lists anything"
  | .replay => "Re-emit the snapshot in SNAP as a reverse dump (PATH is not walked)"
  | .maxDirs => "Leave directories numbered above N unread"
  | .maxItems => "Read at most N entries from one directory"
  | .recursionThreshold => "Number of matching items below a directory that counts as a loop"
  | .ignore => "Ignore entries whose name matches pattern (can be used multiple times)"
  | .followSymlinks => "Descend into symbolic links"
  | .stats => "Print walk statistics to stderr when done (as JSON with --json)"
  | .verbose => "Log per-directory progress"
  | .help => "Print help"
  | .version => "Print version"

/-- The value an argument has when it is not given, as the help text shows it. -/
def default? : Arg → Option String
  | .path => some "."
  | _ => none

/-- How messages name an argument: an option by its long spelling and value
name (`--diff <OLD>`), the positional argument by its value name, in brackets
when it is optional and in angle brackets when it was given. -/
def spelling (a : Arg) (given : Bool) : String :=
  match a.long? with
  | some long =>
    "--" ++ long ++ match a.valueName? with
      | some value => " <" ++ value ++ ">"
      | none => ""
  | none =>
    let value := a.valueName?.getD ""
    if given then "<" ++ value ++ ">" else "[" ++ value ++ "]"

/-- The argument with a long spelling. -/
def ofLong? (long : String) : Option Arg := all.find? (·.long? == some long)

/-- The argument with a one-letter spelling. -/
def ofShort? (c : Char) : Option Arg := all.find? (·.short? == some c)

/-- The long spellings, in the order that suggestions are weighed. -/
def longs : List String := all.filterMap long?

end Arg

end TreeDump.Command
