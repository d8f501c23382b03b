import TreeDump.Command.Arg

/-!
Usage lines, the help text and the texts of usage errors.

A usage line names the program and then either `[OPTIONS] [PATH]`, when it
describes the command in general, or what a command line mentioned: the
options in the order given, then the groups of arguments mentioned, then the
directory, as `<PATH>` when it was given and `[PATH]` when not. An argument
that belongs to a group mentioned is left to that group.

Only the complaint about a value attached to a switch mentions groups: there a
group counts as mentioned from the first of its members that was given.

A usage error is written as `error: ` and the complaint, an optional tip, an
optional usage line, and a pointer to `--help`.
-/

namespace TreeDump.Command

/-- The name of the program. -/
def programName : String := "sharewalk"

/-- The version of the program. -/
def programVersion : String := "0.2.0"

/-- What the program says it does. -/
def programAbout : String := "Walk a shared directory tree and write a replayable dump"

/-- A group of arguments that a usage line can name as a whole. -/
inductive Group where
  /-- Every argument but `--help` and `--version`. -/
  | every
  /-- The arguments that choose what the command writes. -/
  | mode
deriving DecidableEq, Repr

/-- The members of a group, in the order of the help text. -/
def Group.members : Group → List Arg
  | .every => Arg.all.filter fun a => a != .help && a != .version
  | .mode => Arg.all.filter Arg.choosesMode

/-- How a usage line names a group: its members between angle brackets, apart
by bars, the directory by its value name. -/
def Group.spelling (g : Group) : String :=
  let member (a : Arg) : String :=
    if a.long?.isSome then a.spelling false else a.valueName?.getD ""
  "<" ++ String.intercalate "|" (g.members.map member) ++ ">"

/-- The groups of a usage line, in the order they are named. -/
def Group.all : List Group := [.every, .mode]

/-- Something a usage line names: an argument or a group of them. -/
inductive Mention where
  | arg (a : Arg)
  | group (g : Group)
deriving DecidableEq, Repr

/-- The usage line after `Usage: `, for what a command line mentioned. -/
def usageOf (mentioned : List Mention) : String :=
  if mentioned.isEmpty then programName ++ " [OPTIONS] " ++ Arg.path.spelling false
  else
    let args := mentioned.filterMap fun | .arg a => some a | .group _ => none
    let groups := (mentioned.filterMap fun | .group g => some g | .arg _ => none).eraseDups
    let grouped (a : Arg) : Bool := groups.any (·.members.contains a)
    let options := ((args.filter fun a => a.long?.isSome && !grouped a).map (·.spelling true)).eraseDups
    let directory := if grouped .path then [] else [Arg.path.spelling (args.contains .path)]
    String.intercalate " " (programName :: options ++ groups.map Group.spelling ++ directory)

/-- The usage line after `Usage: `, for the arguments `given`. -/
def usageLine (given : List Arg) : String := usageOf (given.map .arg)

/-- The arguments given, each group of arguments mentioned right after the
first of its members. -/
def withGroups (given : List Arg) : List Mention :=
  given.foldl (fun mentioned a =>
    let opened := Group.all.filter fun g => g.members.contains a && !mentioned.contains (.group g)
    mentioned ++ .arg a :: opened.map .group) []

/-- A hint that follows a usage error. -/
inductive Tip where
  | none
  /-- Says how to pass a text that looks like an option as a value. -/
  | passAsValue (text : String)
  /-- Names a long option with a spelling close to the one given. -/
  | similar (long : String)
deriving DecidableEq, Repr

/-- The text of a tip, after the complaint. -/
def Tip.text : Tip → String
  | .none => ""
  | .passAsValue text => "\n\n  tip: to pass '" ++ text ++ "' as a value, use '-- " ++ text ++ "'"
  | .similar long => "\n\n  tip: a similar argument exists: '--" ++ long ++ "'"

/-- Why a command line is refused. -/
inductive UsageError where
  /-- A text that is no argument of the command, with the arguments given before it. -/
  | unexpected (text : String) (tip : Tip) (given : List Arg)
  /-- An argument that takes no value got one, with the arguments given before it. -/
  | unexpectedValue (arg : Arg) (value : String) (given : List Arg)
  /-- An argument given together with others it excludes. -/
  | conflict (arg : Arg) (others : List Arg) (given : List Arg)
  /-- An argument that may be given once was given again. -/
  | repeated (arg : Arg)
  /-- An argument that needs a value got none, or an empty one. -/
  | missingValue (arg : Arg)
  /-- A value that the argument cannot take, and why. -/
  | invalidValue (arg : Arg) (value reason : String)
deriving DecidableEq, Repr

namespace UsageError

/-- The complaint of a usage error. -/
def complaint : UsageError → String
  | .unexpected text _ _ => "unexpected argument '" ++ text ++ "' found"
  | .unexpectedValue arg value _ =>
    "unexpected value '" ++ value ++ "' for '" ++ arg.spelling false ++ "' found; no more were expected"
  | .conflict arg others _ =>
    "the argument '" ++ arg.spelling false ++ "' cannot be used with" ++
      match others with
      | [other] => " '" ++ other.spelling false ++ "'"
      | _ => ":" ++ String.join (others.map fun other => "\n  " ++ other.spelling false)
  | .repeated arg => "the argument '" ++ arg.spelling false ++ "' cannot be used multiple times"
  | .missingValue arg => "a value is required for '" ++ arg.spelling false ++ "' but none was supplied"
  | .invalidValue arg value reason =>
    "invalid value '" ++ value ++ "' for '" ++ arg.spelling false ++ "': " ++ reason

/-- The tip of a usage error. -/
def tip : UsageError → Tip
  | .unexpected _ tip _ => tip
  | _ => .none

/-- What the usage line of an error names, if the error shows one. -/
def usage? : UsageError → Option (List Mention)
  | .unexpected _ _ given => some (given.map .arg)
  | .unexpectedValue arg _ given => some (withGroups given ++ [.arg arg])
  | .conflict _ others given => some ((given.filter (!others.contains ·)).map .arg)
  | .repeated _ => some []
  | .missingValue _ | .invalidValue _ _ _ => none

/-- The whole text of a usage error. -/
def text (e : UsageError) : String :=
  "error: " ++ e.complaint ++ e.tip.text ++
    (match e.usage? with
      | some mentioned => "\n\nUsage: " ++ usageOf mentioned
      | none => "") ++
    "\n\nFor more information, try '--help'.\n"

end UsageError

/-- The help line of an argument with its default, if it has one. -/
def Arg.aboutWithDefault (a : Arg) : String :=
  match a.default? with
  | some value => a.about ++ " [default: " ++ value ++ "]"
  | none => a.about

/-- The left column of an option's help line: the one-letter spelling or room for
it, then the long spelling with the value name. -/
def Arg.helpColumn (a : Arg) : String :=
  (match a.short? with
    | some c => String.ofList ['-', c, ',', ' ']
    | none => "    ") ++ a.spelling false

/-- Lines with a left column and an about text; the about texts start two places
after the widest left column. -/
def helpLines (rows : List (String × String)) : List String :=
  let width := (rows.map (·.1.length)).foldl max 0
  rows.map fun row => "  " ++ row.1 ++ String.ofList (List.replicate (width + 2 - row.1.length) ' ') ++ row.2

/-- The help text. -/
def helpText : String :=
  let positional := Arg.all.filter (·.long?.isNone)
  let options := Arg.all.filter (·.long?.isSome)
  programAbout ++ "\n\nUsage: " ++ usageLine [] ++ "\n\nArguments:\n" ++
    String.intercalate "\n" (helpLines (positional.map fun a => (a.spelling false, a.aboutWithDefault))) ++
    "\n\nOptions:\n" ++
    String.intercalate "\n" (helpLines (options.map fun a => (a.helpColumn, a.aboutWithDefault))) ++ "\n"

/-- The version text. -/
def versionText : String := programName ++ " " ++ programVersion ++ "\n"

end TreeDump.Command
