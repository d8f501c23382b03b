/-!
Shell-style wildcard patterns.

A pattern is read into tokens:

* `?` matches any one character, `*` any run of characters;
* `**` matches any run of whole path components; it must stand alone between
  separators (`/`), and when a separator follows it, the separator belongs to it.
  A run of three or more stars, or two stars inside a component, is an error;
* `[abc]`, `[a-z]` match one character of the class, `[!abc]` one character
  outside it. A `]` right after the opening bracket (or after `[!`) belongs to the
  class. A bracket without its closing bracket is an error;
* every other character matches itself, case and all.

Matching tries the shortest run first for each `*` and backtracks; a mismatch
found after the text is used up ends all further trying, since longer runs for
earlier stars cannot help.

Main definitions: `Pattern.parse?` and `Pattern.isMatch`.
-/

namespace TreeDump.Glob

/-- One part of a bracket class. -/
inductive Specifier where
  | single (c : Char)
  | range (lo hi : Char)
deriving DecidableEq, Repr

/-- One token of a pattern. -/
inductive Token where
  | char (c : Char)
  | anyChar
  | anySequence
  | anyRecursiveSequence
  | anyWithin (specifiers : List Specifier)
  | anyExcept (specifiers : List Specifier)
deriving DecidableEq, Repr

/-- A parsed pattern. -/
structure Pattern where
  tokens : List Token
deriving DecidableEq, Repr

/-- The path separator. -/
def separator : Char := '/'

/-- Reads the inside of a bracket class: `a-b` is a range, every other character
stands for itself. -/
def specifiers : List Char → List Specifier
  | lo :: '-' :: hi :: rest => .range lo hi :: specifiers rest
  | c :: rest => .single c :: specifiers rest
  | [] => []

/-- Whether a character is in a bracket class. -/
def Specifier.admits (c : Char) : Specifier → Bool
  | .single d => c == d
  | .range lo hi => decide (lo ≤ c) && decide (c ≤ hi)

/-- Reads a bracket class from the characters after its `[`: the token and the
number of characters it takes, its `]` included. -/
def readClass (rest : List Char) : Option (Token × Nat) :=
  match rest with
  | '!' :: inside@(_ :: _ :: _) =>
    match (inside.drop 1).findIdx? (· == ']') with
    | some j => some (.anyExcept (specifiers (inside.take (j + 1))), j + 3)
    | none => none
  | first :: more@(_ :: _) =>
    if first = '!' then none
    else
      match more.findIdx? (· == ']') with
      | some j => some (.anyWithin (specifiers (rest.take (j + 1))), j + 2)
      | none => none
  | _ => none

/-- Adds a `**` token, unless the tokens so far already end in one that is not
the only token. -/
def pushRecursive (tokens : Array Token) : Array Token :=
  if 1 < tokens.size ∧ tokens.back? = some .anyRecursiveSequence then tokens
  else tokens.push .anyRecursiveSequence

/-- Reads pattern characters after `before` (the character read last, if any),
appending to `tokens`; `none` when the pattern is not valid. -/
def readTokens (tokens : Array Token) (before : Option Char) : List Char → Option (Array Token)
  | [] => some tokens
  | '?' :: rest => readTokens (tokens.push .anyChar) (some '?') rest
  | '*' :: rest =>
    let run := (rest.takeWhile (· == '*')).length
    if run = 0 then readTokens (tokens.push .anySequence) (some '*') rest
    else if 1 < run then none
    else if before = none ∨ before = some separator then
      match h : rest.drop 1 with
      | [] => some (pushRecursive tokens)
      | c :: more =>
        have : more.length < rest.length + 1 := by
          have := congrArg List.length h
          simp only [List.length_drop, List.length_cons] at this
          omega
        if c = separator then readTokens (pushRecursive tokens) (some c) more else none
    else none
  | '[' :: rest =>
    match readClass rest with
    | some (token, taken) => readTokens (tokens.push token) (some ']') (rest.drop taken)
    | none => none
  | c :: rest => readTokens (tokens.push (.char c)) (some c) rest
termination_by cs => cs.length
decreasing_by
  all_goals simp only [List.length_drop, List.length_cons]
  all_goals omega

/-- How a part of a pattern fared against a part of a text. -/
inductive Outcome where
  /-- The pattern matched the whole text. -/
  | matched
  /-- This attempt failed; another split of the text may still match. -/
  | retry
  /-- The text ran out before the pattern: no other split can match. -/
  | exhausted
deriving DecidableEq, Repr

/-- Whether a single-character token accepts a character. -/
def Token.accepts (c : Char) : Token → Bool
  | .char d => c == d
  | .anyChar => true
  | .anyWithin specifiers => specifiers.any (·.admits c)
  | .anyExcept specifiers => !specifiers.any (·.admits c)
  | .anySequence | .anyRecursiveSequence => false

/-- Tries the rest of a pattern (`tail`) after every non-empty prefix of `cs` that a
star may take, shortest first; a `**` may only stop after a separator. Gives the
first outcome other than `retry`, or says that none was found and whether the
last character taken was a separator. -/
def afterEachPrefix (recursive : Bool) (tail : Bool → List Char → Outcome) :
    Bool → List Char → Option Outcome × Bool
  | afterSeparator, [] => (none, afterSeparator)
  | _, c :: rest =>
    let afterSeparator := c == separator
    if recursive ∧ !afterSeparator then afterEachPrefix recursive tail afterSeparator rest
    else
      match tail afterSeparator rest with
      | .retry => afterEachPrefix recursive tail afterSeparator rest
      | outcome => (some outcome, afterSeparator)

/-- Matches tokens against the characters `cs`; `afterSeparator` says whether the
character before `cs` was a separator (true at the start). -/
def matchFrom : List Token → Bool → List Char → Outcome
  | [], _, cs => if cs.isEmpty then .matched else .retry
  | token :: rest, afterSeparator, cs =>
    match token with
    | .anySequence | .anyRecursiveSequence =>
      match matchFrom rest afterSeparator cs with
      | .retry =>
        match afterEachPrefix (token == .anyRecursiveSequence) (matchFrom rest) afterSeparator cs with
        | (some outcome, _) => outcome
        | (none, last) => matchFrom rest last []
      | outcome => outcome
    | _ =>
      match cs with
      | [] => .exhausted
      | c :: more =>
        if token.accepts c then matchFrom rest (c == separator) more else .retry

namespace Pattern

/-- Reads a pattern; `none` when it is not valid. -/
def parse? (text : String) : Option Pattern :=
  (readTokens #[] none text.toList).map fun tokens => ⟨tokens.toList⟩

/-- Whether a pattern matches the whole of a text. -/
def isMatch (p : Pattern) (text : String) : Bool :=
  matchFrom p.tokens true text.toList == .matched

end Pattern

end TreeDump.Glob
