/-
ProcBook/Disk/Pattern.lean

Patterns for file names:

* `?` is any character and `*` any sequence of characters,
* `[a-z]` is one of the characters listed, `[!a-z]` one of all others,
* `**`, as a whole component of a path, is any number of directories.

`expand` gives the paths of a tree that a pattern matches, from the root or from the working directory.
A component without special characters is looked up by its name, so it also reaches `.` and `..`.  A
directory whose names cannot be read is passed over.
-/
import ProcBook.Disk.Tree

namespace ProcBook

/-! ### Patterns and their form -/

/-- Characters in brackets. -/
inductive CharRange where
  | single (c : Char)
  | range (first last : Char)
deriving Repr, DecidableEq

/-- A part of a pattern. -/
inductive Token where
  | char (c : Char)
  | anyChar
  | anySequence
  | anyDirectories
  | within (ranges : List CharRange)
  | except (ranges : List CharRange)
deriving Repr, DecidableEq

/-- What is wrong with a pattern. -/
inductive PatternProblem where
  | tooManyStars
  | misplacedDirectories
  | invalidRange
deriving Repr, DecidableEq

/-- The wording of a problem. -/
def PatternProblem.describe : PatternProblem → String
  | tooManyStars => "wildcards are either regular `*` or recursive `**`"
  | misplacedDirectories => "recursive wildcards must form a single path component"
  | invalidRange => "invalid range pattern"

/-- A problem and the character of the pattern at which it shows. -/
structure PatternError where
  position : Nat
  problem : PatternProblem
deriving Repr, DecidableEq

/-- The wording of an error. -/
def PatternError.message (error : PatternError) : String :=
  "Pattern syntax error near position " ++ toString error.position ++ ": " ++ error.problem.describe

namespace Pattern

/-- The characters and ranges between brackets. -/
def ranges : List Char → List CharRange
  | [] => []
  | a :: '-' :: b :: rest => .range a b :: ranges rest
  | a :: rest => .single a :: ranges rest

/-- Reads the contents of brackets and the closing one.  The first character always belongs to the
contents, also if it is a bracket. -/
def readRanges? : List Char → Option (List CharRange × List Char)
  | [] => none
  | c :: rest =>
    match rest.dropWhile (· != ']') with
    | [] => none
    | _ :: after => some (ranges (c :: rest.takeWhile (· != ']')), after)

theorem length_of_readRanges? {text rest : List Char} {r : List CharRange}
    (h : readRanges? text = some (r, rest)) : rest.length < text.length := by
  unfold readRanges? at h
  split at h
  · simp at h
  · next c tail =>
    split at h
    · simp at h
    · next d after hd =>
      obtain ⟨-, rfl⟩ := Prod.mk.inj (Option.some.inj h)
      exact Nat.lt_succ_of_lt (Text.length_of_dropWhile hd)

/-- Reads the tokens of a pattern.  `position` characters have been read, the last of them
`previous`. -/
def readTokens (position : Nat) (previous : Option Char) (text : List Char) :
    Except PatternError (List Token) :=
  match text with
  | [] => .ok []
  | '?' :: rest => (readTokens (position + 1) (some '?') rest).map (.anyChar :: ·)
  | '*' :: '*' :: '*' :: _ => .error ⟨position + 2, .tooManyStars⟩
  | '*' :: '*' :: rest =>
    -- Two stars have to fill a whole component of the path.
    if previous.any (· != '/') then .error ⟨position - 1, .misplacedDirectories⟩
    else
      match rest with
      | [] => .ok [.anyDirectories]
      | '/' :: rest => (readTokens (position + 3) (some '/') rest).map (.anyDirectories :: ·)
      | _ => .error ⟨position + 2, .misplacedDirectories⟩
  | '*' :: rest => (readTokens (position + 1) (some '*') rest).map (.anySequence :: ·)
  | '[' :: '!' :: rest =>
    match h : readRanges? rest with
    | none => .error ⟨position, .invalidRange⟩
    | some (ranges, after) =>
      have := length_of_readRanges? h
      (readTokens (position + 2 + (rest.length - after.length)) (some ']') after).map
        (.except ranges :: ·)
  | '[' :: rest =>
    match h : readRanges? rest with
    | none => .error ⟨position, .invalidRange⟩
    | some (ranges, after) =>
      have := length_of_readRanges? h
      (readTokens (position + 1 + (rest.length - after.length)) (some ']') after).map
        (.within ranges :: ·)
  | c :: rest => (readTokens (position + 1) (some c) rest).map (.char c :: ·)
termination_by text.length
decreasing_by all_goals simp only [List.length_cons]; omega

/-- The components of a pattern.  A slash at the end divides nothing. -/
def pieces (pattern : List Char) : List (List Char) :=
  let pieces := Text.splitOn '/' pattern
  if pieces.length > 1 && pieces.getLast? == some [] then pieces.dropLast else pieces

/-- Reads components one by one. -/
def readPieces : List (List Char) → Except PatternError (List (List Token))
  | [] => .ok []
  | piece :: pieces =>
    match readTokens 0 none piece with
    | .error error => .error error
    | .ok tokens => (readPieces pieces).map (tokens :: ·)

/-- The text of a pattern behind the slash of the root, if it starts with one. -/
def behindRoot (pattern : Path) : List Char :=
  if pattern.isAbsolute then pattern.toList.tail else pattern.toList

/-- Reads the components of a pattern.  The pattern has to be well-formed as a whole and in each
component. -/
def read (pattern : Path) : Except PatternError (List (List Token)) :=
  match readTokens 0 none pattern.toList with
  | .error error => .error error
  | .ok _ => readPieces (pieces (behindRoot pattern))

end Pattern

/-! ### Matching a name -/

/-- Whether a character lies in a range. -/
def CharRange.contains (c : Char) : CharRange → Bool
  | single d => c == d
  | range first last => first ≤ c && c ≤ last

/-- Whether a token stands for a single character and accepts this one. -/
def Token.accepts (c : Char) : Token → Bool
  | char d => c == d
  | anyChar => true
  | within ranges => ranges.any (·.contains c)
  | except ranges => !ranges.any (·.contains c)
  | anySequence | anyDirectories => false

/-- Whether some tail of a text, the whole text included, passes a test. -/
def Text.anyTail (test : List Char → Bool) : List Char → Bool
  | [] => test []
  | c :: text => test (c :: text) || anyTail test text

namespace Pattern

/-- Whether a name matches a component of a pattern. -/
def matchesName : List Token → List Char → Bool
  | [], name => name.isEmpty
  | .anySequence :: tokens, name => Text.anyTail (matchesName tokens) name
  | .anyDirectories :: tokens, name => Text.anyTail (matchesName tokens) name
  | token :: tokens, c :: name => token.accepts c && matchesName tokens name
  | _ :: _, [] => false

/-- The name that a component spells, if it has no special characters. -/
def literal? : List Token → Option (List Char)
  | [] => some []
  | .char c :: tokens => (literal? tokens).map (c :: ·)
  | _ => none

/-! ### Expanding a pattern -/

/-- The path of a name in a directory.  Below the working directory the name stands alone. -/
def childPath (directory : Path) (name : String) : Path :=
  if directory.same "." then name else directory.join name

/-- The names in the directory that a path leads to; none where they cannot be read. -/
def names (tree : Tree) (path : Path) : List String :=
  match tree.list path with
  | .error _ => []
  | .ok names => names

/-- The paths of everything below a directory, down to a number of levels, each with its last name. -/
def descendants (tree : Tree) : Nat → Path → List (Path × String)
  | 0, _ => []
  | levels + 1, path =>
    (names tree path).flatMap fun name =>
      (childPath path name, name) :: descendants tree levels (childPath path name)

/-- Whether the first character of a component is a dot; only then can it match `.` and `..`. -/
def startsWithDot : List Token → Bool
  | .char c :: _ => c == '.'
  | _ => false

/-- The paths to which a component other than `**` leads.  One without special characters need only
exist; `.` and `..` need a directory to start from. -/
def nextPaths (tree : Tree) (tokens : List Token) (path : Path) : List Path :=
  match literal? tokens with
  | some text =>
    let name := String.ofList text
    let next := childPath path name
    -- `.` and `..` are in every directory and nowhere else.
    let reached :=
      if name == "." || name == ".." then tree.isDirectory path else (tree.node next).isOk
    if reached then [next] else []
  | none =>
    match tree.list path with
    | .error _ => []
    | .ok names =>
      let children := names.filter (matchesName tokens ·.toList)
      let special := [".", ".."].filter fun name =>
        startsWithDot tokens && matchesName tokens name.toList
      children.map (childPath path) ++ special.map path.join

/-- The paths below `path` that match components. -/
def expandFrom (tree : Tree) (directoriesOnly : Bool) : List (List Token) → Path → List Path
  | [], path => if directoriesOnly && !tree.isDirectory path then [] else [path]
  | tokens :: pieces, path =>
    if tokens != [.anyDirectories] then
      (nextPaths tree tokens path).flatMap fun next => expandFrom tree directoriesOnly pieces next
    else
      match pieces with
      | [] => ((descendants tree tree.depth path).map (·.1)).filter tree.isDirectory
      | next :: rest =>
        -- A second `**` behind the first one adds nothing.
        if next == [.anyDirectories] then expandFrom tree directoriesOnly (next :: rest) path
        else
          (descendants tree tree.depth path).flatMap fun (below, name) =>
            if matchesName next name.toList then expandFrom tree directoriesOnly rest below else []

/-- Where the components of a pattern start from. -/
def scope (pattern : Path) : Path := if pattern.isAbsolute then "/" else "."

/-- The paths of a tree that a pattern matches.  A pattern that ends with a slash matches directories
only. -/
def expand (tree : Tree) (pattern : Path) : Except PatternError (List Path) :=
  match read pattern with
  | .error error => .error error
  | .ok pieces => .ok (expandFrom tree pattern.endsWithSlash pieces (scope pattern))

end Pattern

end ProcBook
