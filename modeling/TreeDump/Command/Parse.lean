import TreeDump.Command.Usage
import TreeDump.Command.Request
import TreeDump.Text.Similarity

/-!
Reading a command line.

The words are read left to right:

* `--` ends the options: every later word is the directory; an option still
  waiting for its value stays without one;
* `--name` or `--name=value` is a long option; an option that takes a value and
  has none attached takes the next word, whatever it is, unless that word is
  itself an option;
* `-abc` is a cluster of one-letter options; the first one that takes a value
  takes the rest of the cluster (after an optional `=`), or the next word;
* any other word is the directory, of which there is one.

A value is checked when the next option, the next directory word or the end is
reached. `--help` and `--version` stop the reading at once. A word that is no
option is refused with a tip: the closest long option when one is similar
enough (`Text.jaro` above `0.7`), else how to pass the word as a value. At the
end, the first argument given that excludes another one given is refused.

Main definition: `Command.parse`.
-/

namespace TreeDump.Command

/-- What a command line comes to. -/
inductive Parsed where
  | run (request : Request)
  | showHelp
  | showVersion
  | refuse (error : UsageError)
deriving DecidableEq, Repr

/-- Why reading stops before the end. -/
inductive Halt where
  | help
  | version
  | refused (error : UsageError)
deriving DecidableEq, Repr

/-- The state of reading a command line. -/
structure Reading where
  request : Request := {}
  /-- The arguments given so far, in the order of their first use. -/
  given : List Arg := []
  /-- An argument whose values are not yet checked, with those values. -/
  pending : Option (Arg × List String) := none
  /-- Whether the pending argument still waits for its value. -/
  awaiting : Bool := false
  /-- The number of directory words read. -/
  positionals : Nat := 0
  /-- Whether `--` was read. -/
  escaped : Bool := false

namespace Reading

/-- Takes the values of an argument one by one. -/
def takeValues (r : Reading) (a : Arg) : List String → Reading × Option Halt
  | [] => (r, none)
  | value :: rest =>
    match r.request.take value a with
    | .ok request => takeValues { r with request } a rest
    | .error .empty => (r, some (.refused (.missingValue a)))
    | .error (.invalid reason) => (r, some (.refused (.invalidValue a value reason)))

/-- Uses an argument with its values. A refused use leaves the reading as far as
it got, which usage lines of later errors show. -/
def apply (r : Reading) (a : Arg) (values : List String) : Reading × Option Halt :=
  if a.takesValue && values.isEmpty then (r, some (.refused (.missingValue a)))
  else
    match a.action with
    | .showHelp => (r, some .help)
    | .showVersion => (r, some .version)
    | .flag =>
      if r.given.contains a then ({ r with given := r.given.erase a }, some (.refused (.repeated a)))
      else ({ r with given := r.given ++ [a], request := r.request.turnOn a }, none)
    | .single =>
      if r.given.contains a then ({ r with given := r.given.erase a }, some (.refused (.repeated a)))
      else { r with given := r.given ++ [a] }.takeValues a values
    | .append =>
      (if r.given.contains a then r else { r with given := r.given ++ [a] }).takeValues a values

/-- Checks the pending argument's values. -/
def settle (r : Reading) : Reading × Option Halt :=
  match r.pending with
  | none => (r, none)
  | some (a, values) => { r with pending := none, awaiting := false }.apply a values

/-- Checks the pending argument's values, stopping on a refusal. -/
def resolve (r : Reading) : Except Halt Reading :=
  match r.settle with
  | (r, none) => .ok r
  | (_, some halt) => .error halt

/-- Uses an argument, after checking the pending one. -/
def react (r : Reading) (a : Arg) (values : List String) : Except Halt Reading := do
  let r ← r.resolve
  match r.apply a values with
  | (r, none) => .ok r
  | (_, some halt) => .error halt

/-- Makes an option wait for its value in the next word. -/
def await (r : Reading) (a : Arg) : Except Halt Reading := do
  let r ← r.resolve
  pure { r with pending := some (a, []), awaiting := true }

/-- The long option most similar to a word, if one is similar enough; of equally
similar ones the last. -/
def suggestion? (word : String) : Option String :=
  let scored := Arg.longs.filterMap fun long =>
    let score := Text.jaro word.toList long.toList
    if score > 0.7 then some (score, long) else none
  let best := scored.foldl (fun best candidate =>
    match best with
    | some b => if b.1 ≤ candidate.1 then some candidate else some b
    | none => some candidate) none
  best.map (·.2)

/-- Reads a long option, given the word without its two dashes. -/
def long (r : Reading) (body : String) : Except Halt Reading :=
  let name := String.ofList (body.toList.takeWhile (· ≠ '='))
  let value := match body.toList.dropWhile (· ≠ '=') with
    | [] => none
    | _ :: rest => some (String.ofList rest)
  match Arg.ofLong? name with
  | some a =>
    if a.takesValue then
      match value with
      | some v => r.react a [v]
      | none => r.await a
    else
      match value with
      | some v => .error (.refused (.unexpectedValue a v r.given))
      | none => r.react a []
  | none =>
    let r := r.settle.1
    let text := "--" ++ name
    match suggestion? name with
    | some long =>
      let given := match Arg.ofLong? long with
        | some a => if r.given.contains a then r.given else r.given ++ [a]
        | none => r.given
      .error (.refused (.unexpected text (.similar long) given))
    | none => .error (.refused (.unexpected text (.passAsValue text) r.given))

/-- Reads a cluster of one-letter options, given the word without its dash. -/
def shorts (r : Reading) : List Char → Except Halt Reading
  | [] => .ok r
  | c :: rest =>
    match Arg.ofShort? c with
    | none =>
      let text := String.ofList ['-', c]
      .error (.refused (.unexpected text (.passAsValue text) []))
    | some a =>
      if a.takesValue then
        match rest with
        | [] => r.await a
        | '=' :: value => r.react a [String.ofList value]
        | value => r.react a [String.ofList value]
      else do
        let r ← r.react a []
        shorts r rest

/-- Reads a directory word. -/
def positional (r : Reading) (word : String) : Except Halt Reading :=
  if r.positionals = 0 then do
    let r ← r.resolve
    pure { r with pending := some (.path, [word]), positionals := 1 }
  else
    .error (.refused (.unexpected word .none []))

/-- Reads one word. -/
def step (r : Reading) (word : String) : Except Halt Reading :=
  if r.escaped then r.positional word
  else if word == "--" then
    pure { r with escaped := true, awaiting := false }
  else if word.startsWith "--" then r.long (String.ofList (word.toList.drop 2))
  else if word.startsWith "-" && 1 < word.length then r.shorts (word.toList.drop 1)
  else if r.awaiting then
    pure { r with pending := r.pending.map (fun p => (p.1, p.2 ++ [word])), awaiting := false }
  else r.positional word

/-- Ends the reading: checks the pending values, then the exclusions. -/
def finish (r : Reading) : Except Halt Request := do
  let r ← r.resolve
  match r.given.find? (fun a => r.given.any (Arg.conflicts a)) with
  | some a => .error (.refused (.conflict a (r.given.filter (Arg.conflicts a)) r.given))
  | none => .ok r.request

end Reading

/-- Reads a command line, the program name not included. -/
def parse (words : List String) : Parsed :=
  match words.foldlM Reading.step {} >>= Reading.finish with
  | .ok request => .run request
  | .error .help => .showHelp
  | .error .version => .showVersion
  | .error (.refused e) => .refuse e

end TreeDump.Command
