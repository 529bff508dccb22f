/-!
# Paths

The name of the file that a path leads to, and the part of it before its extension.
-/

namespace GuestHost

namespace Path

/-- The parts of a path between its slashes, without those that lead nowhere. -/
def parts (path : String) : List (List Char) :=
  (path.toList.splitOn '/').filter fun part => !part.isEmpty && part != ['.']

/-- The name of the file that a path leads to.  A path that ends on the way up has none. -/
def fileName? (path : String) : Option (List Char) :=
  (parts path).getLast?.filter fun name => name != ['.', '.']

/-- A name up to its last point; a name with no other point than its first character stays whole. -/
def stem (name : List Char) : List Char :=
  let before := ((name.reverse.dropWhile fun c => c != '.').drop 1).reverse
  if before.isEmpty then name else before

/-- The name of the file that a path leads to, without its extension. -/
def fileStem? (path : String) : Option String :=
  (fileName? path).map fun name => String.ofList (stem name)

end Path

end GuestHost
