/-
ProcBook/Disk/Path.lean

Paths.  A path is kept as it is spelled, since messages show it so; what it means is the list of its
components.  Two spellings are the same path if their components agree, and paths are ordered by their
components, not by their characters.
-/
import ProcBook.Text.Cut

namespace ProcBook

/-- A component of a path. -/
inductive Component where
  | root
  /-- The present directory, which counts only at the front of a path. -/
  | current
  | parent
  | name (text : String)
deriving Repr, DecidableEq

namespace Component

/-- Components in order: the special ones first, then names by their characters. -/
def compare : Component → Component → Ordering
  | root, root => .eq
  | root, _ => .lt
  | _, root => .gt
  | current, current => .eq
  | current, _ => .lt
  | _, current => .gt
  | parent, parent => .eq
  | parent, _ => .lt
  | _, parent => .gt
  | name a, name b => Ord.compare a b

/-- A component as it is spelled.  The root is what stands before the first slash. -/
def spell : Component → String
  | root => ""
  | current => "."
  | parent => ".."
  | name text => text

end Component

/-- A path as it is spelled. -/
abbrev Path := String

namespace Path

/-- A name that can stand in a directory. -/
structure IsName (name : String) : Prop where
  nonempty : name ≠ ""
  no_dot : name ≠ "."
  no_dots : name ≠ ".."
  no_slash : '/' ∉ name.toList

instance (name : String) : Decidable (IsName name) :=
  decidable_of_iff (name ≠ "" ∧ name ≠ "." ∧ name ≠ ".." ∧ '/' ∉ name.toList)
    ⟨fun ⟨h₁, h₂, h₃, h₄⟩ => ⟨h₁, h₂, h₃, h₄⟩, fun ⟨h₁, h₂, h₃, h₄⟩ => ⟨h₁, h₂, h₃, h₄⟩⟩

/-- The pieces of a path between its slashes. -/
def pieces (path : Path) : List String := (Text.splitOn '/' path.toList).map String.ofList

/-- Whether a path starts at the root. -/
def isAbsolute (path : Path) : Bool := path.toList.head? == some '/'

/-- Whether a path ends with a slash. -/
def endsWithSlash (path : Path) : Bool := path.toList.getLast? == some '/'

/-- The component of a piece; an empty piece and a dot are none. -/
def component? (piece : String) : Option Component :=
  if piece == "" || piece == "." then none
  else if piece == ".." then some .parent
  else some (.name piece)

/-- The special component at the front of a path, if there is one. -/
def leading (path : Path) : List Component :=
  if path.isAbsolute then [.root]
  else if path.pieces.head? == some "." then [.current]
  else []

/-- The components of a path. -/
def components (path : Path) : List Component :=
  path.leading ++ path.pieces.filterMap component?

/-- The path of some components. -/
def ofComponents : List Component → Path
  | [.root] => "/"
  | components => "/".intercalate (components.map Component.spell)

/-! ### Order -/

/-- Lists of components in lexicographic order. -/
def compareComponents : List Component → List Component → Ordering
  | [], [] => .eq
  | [], _ :: _ => .lt
  | _ :: _, [] => .gt
  | a :: as, b :: bs => (a.compare b).then (compareComponents as bs)

/-- Whether a path does not come after another. -/
def le (a b : Path) : Bool := (compareComponents a.components b.components).isLE

/-- Whether two spellings are the same path. -/
def same (a b : Path) : Bool := a.components == b.components

/-- Drops every path that is the same as the one before it. -/
def dropRepeated : List Path → List Path
  | [] => []
  | [path] => [path]
  | a :: b :: paths =>
    if a.same b then dropRepeated (a :: paths) else a :: dropRepeated (b :: paths)
termination_by paths => paths.length

/-- The paths in order, each once.  Of several spellings of a path the first stays. -/
def sortedOnce (paths : List Path) : List Path := dropRepeated (paths.mergeSort le)

/-! ### Building paths -/

/-- The path of `name` inside a directory.  A name that starts at the root is a path of its own. -/
def join (directory : Path) (name : String) : Path :=
  if isAbsolute name then name
  else if directory == "" || directory.endsWithSlash then directory ++ name
  else directory ++ "/" ++ name

/-- The path and the paths of the directories above it, the nearest first. -/
def ancestors (path : Path) : List Path :=
  path :: (List.range (path.components.length - 1)).reverse.map fun n =>
    ofComponents (path.components.take (n + 1))

/-- The extension of a file's name: what follows its last dot, if something stands before that dot. -/
def extension? (name : String) : Option String :=
  let reversed := name.toList.reverse
  match reversed.dropWhile (· != '.') with
  | [] => none
  | [_] => none
  | _ => some (String.ofList (reversed.takeWhile (· != '.')).reverse)

end Path

end ProcBook
