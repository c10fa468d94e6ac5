import Mathlib.Tactic.Common

/-!
# Paths

The operations of `std::filesystem::path` on POSIX paths, as lists of characters.
-/

namespace MiniDebugger

abbrev FilePath := List Char

namespace FilePath

def isAbsolute (path : FilePath) : Bool := path.head? = some '/'

/-- `has_parent_path`: a path with a separator has a parent, be it the root. -/
def hasParentPath (path : FilePath) : Bool := path.contains '/'

/-- `filename`: what follows the last separator. -/
def filename (path : FilePath) : FilePath := (path.reverse.takeWhile (· ≠ '/')).reverse

/-- `operator/` -/
def append (directory path : FilePath) : FilePath :=
  if isAbsolute path then path
  else if filename directory = [] then directory ++ path
  else directory ++ '/' :: path

/-- The names between separators. -/
def components (path : FilePath) : List FilePath := path.splitOn '/'

/-- One name of a path put after the normal names before it, the last of them first. -/
def pushComponent (absolute : Bool) (names : List FilePath) (name : FilePath) : List FilePath :=
  if name = [] ∨ name = ['.'] then names
  else if name = ['.', '.'] then
    match names with
    | [] => if absolute then [] else [name]
    | last :: before => if last = ['.', '.'] then name :: names else before
  else name :: names

/-- `lexically_normal` -/
def lexicallyNormal (path : FilePath) : FilePath :=
  if path = [] then []
  else
    let absolute := isAbsolute path
    let names := (components path).foldl (pushComponent absolute) []
    -- a directory keeps its separator, unless it is the parent of the whole
    let directory := (components path).getLast? = some [] ∨ (components path).getLast? = some ['.'] ∨
      (components path).getLast? = some ['.', '.']
    let trailing := directory ∧ names ≠ [] ∧ names.head? ≠ some ['.', '.']
    let normal := (if absolute then ['/'] else []) ++ ['/'].intercalate names.reverse ++
      (if trailing then ['/'] else [])
    if normal = [] then ['.'] else normal

end FilePath

end MiniDebugger
